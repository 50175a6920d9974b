import Wiring.Proofs.Resolution.Cutoff
import Wiring.Proofs.Resolution.Substitution

/-!
# Variables in plans

Each variable that is a value of a parameter becomes the literal that is supplied
for it, and with none supplied the parameter has no values.  So a plan does not
depend on variables that are not supplied, and the only variables in it are items
of lists.
-/

namespace Wiring

open Vocabulary

namespace Environment

variable {env : Environment}

/-!
# Plans
-/

theorem substituted_of_plan {config : NodeId} {p : Plan} (h : env.plan config = .ok p)
    {x : Plan.Instance} (hx : x ∈ p.instances) {a : Argument} (ha : a ∈ x.arguments) :
    env.Substituted a := by
  rw [plan_eq] at h
  rcases hrun : outcome (env.resolve config) Session.empty with ⟨e | id, t⟩
  · rw [hrun] at h
    cases h
  · rw [hrun] at h
    cases h
    have hempty : env.Settled Session.empty := by
      intro i x hx
      cases hx
    rcases Array.mem_iff_getElem?.mp hx with ⟨i, hi⟩
    exact settled_resolve hrun hempty i x hi a ha

/-!
# Values of parameters
-/

/-- What a supplied literal becomes: its text, or the native value that a range casts it to. -/
def Becomes (env : Environment) (l : Literal) (x : Scalar) : Prop :=
  x = .str l.value ∨
    exists r c c', outcome (Range.check env.graph (.literal l) r) c = (.ok (some x), c')

def Filled (env : Environment) (n : Notes) (v : Occurrence) : Prop :=
  exists l x, env.supplied[env.graph.display v.source]? = some l ∧ env.Becomes l x ∧
    forall instantiate s, Continues n s.notes -> outcome (env.materialize instantiate v) s =
      (.ok (if n.isLazy v then .lazy (.literal x) else .literal x), s)

theorem filled_of_replaced {n : Notes} {v : Occurrence} (h : n.Replaced env.graph env.supplied v)
    (hvariable : env.graph.isA v.source Om.variableType = true) : env.Filled n v := by
  rcases h.literal hvariable with ⟨l, hsupplied, hliteral, hcast⟩
  have hwith : exists x, env.Becomes l x ∧ forall instantiate onItems,
      env.materializeWith instantiate onItems (n.get v) v.source = pure (.literal x) := by
    unfold materializeWith
    rw [hliteral]
    cases hnative : (n.get v).cast with
    | none => exact ⟨.str l.value, Or.inl rfl, fun _ _ => rfl⟩
    | some x => exact ⟨x, Or.inr (hcast x hnative), fun _ _ => rfl⟩
  rcases hwith with ⟨x, hx, hwith⟩
  refine ⟨l, x, hsupplied, hx, fun instantiate s hs => ?_⟩
  have hoccurrence (onItems : List NodeId → Resolving Argument) :
      outcome (env.materializeOccurrence instantiate onItems v) s =
        (.ok (if n.isLazy v then .lazy (.literal x) else .literal x), s) := by
    unfold materializeOccurrence
    rw [outcome_bind_ok (outcome_get s)]
    dsimp only
    rw [Notes.get_of_continues hs h.inNotes, hwith]
    rfl
  unfold materialize
  cases env.graph.lists.size <;> exact hoccurrence _

theorem filled_of_parameterValues {place : Place} {node : NodeId} {f f' : Frame}
    {vs : List Occurrence} (h : outcome (env.parameterValues place node) f = (.ok vs, f'))
    {v : Occurrence} (hv : v ∈ vs) (hvariable : env.graph.isA v.source Om.variableType = true) :
    env.Filled f'.session.notes v := by
  rcases posts_parameterValues_replaced node vs f' h with ⟨-, -, hreplaced⟩
  exact filled_of_replaced (hreplaced v hv) hvariable

theorem parameterValues_of_unsupplied {place : Place} {node : NodeId} {p : Parameter}
    (hp : Parameter.load env.graph node = .ok p) {nodes : List NodeId}
    (hnodes : Stage.gathered (env.site place p) (env.sources place p) = .ok nodes) {n : NodeId}
    (hn : n ∈ nodes) (hunsupplied : (env.site place p).Unsupplied n) (f : Frame) :
    exists first f', first ∈ nodes ∧ (env.site place p).Unsupplied first ∧
      outcome (env.parameterValues place node) f =
        (.error (.undefinedVariable (env.graph.display first)), f') := by
  rcases Stage.run_of_unsupplied (b := ⟨f.session.notes, f.generics⟩) hnodes hn hunsupplied with
    ⟨first, b, hfirst, hmissing, hrun⟩
  refine ⟨first, ⟨{ f.session with notes := b.notes }, b.generics⟩, hfirst, hmissing, ?_⟩
  have hload : outcome (Walking.ofExcept (Parameter.load env.graph node)) f = (.ok p, f) := by
    rw [hp]
    rfl
  unfold parameterValues
  rw [outcome_bind_ok hload]
  change (fun r : Except Failure (List Occurrence) × Workbench =>
    (r.1, Frame.mk { f.session with notes := r.2.notes } r.2.generics))
      (outcome (Stage.run (env.site place p) ((env.sources place p).map .ofNode))
        ⟨f.session.notes, f.generics⟩) = _
  rw [hrun]
  rfl

theorem plan_with_variables (env : Environment) {supplied : Variables}
    (h : forall (name : String) l, env.supplied[name]? = some l -> supplied[name]? = some l)
    (config : NodeId) :
    (env.given supplied env.depthLimit).plan config = env.plan config ∨
      exists name : String, env.supplied[name]? = none ∧
        env.plan config = .error (.undefinedVariable name) := by
  have hbeside : env.supplied.Beside (fun e => exists name : String,
      env.supplied[name]? = none ∧ e = .undefinedVariable name) supplied := by
    intro name
    cases hname : env.supplied[name]? with
    | none => exact Or.inr ⟨rfl, name, hname, rfl⟩
    | some l => exact Or.inl (h name l hname).symm
  rcases plan_given env hbeside env.depthLimit (.inl rfl) config with
    hsame | ⟨e, he, name, hname, rfl⟩
  · exact Or.inl hsame
  · exact Or.inr ⟨name, hname, he⟩

/-- The IRI of a variable is no argument in a plan, unless the variable is an item of a list.  Each
variable that is a value of a parameter becomes the literal that is supplied for it, and with none
supplied the parameter has no values.  A plan does not depend on variables that are not supplied:
who needs one of those fails and says which. -/
theorem plan_substituted (env : Environment) (config : NodeId) :
    (forall p, env.plan config = .ok p ->
      forall x, x ∈ p.instances -> forall a, a ∈ x.arguments -> env.Substituted a) ∧
    (forall place node f vs f', outcome (env.parameterValues place node) f = (.ok vs, f') ->
      forall v, v ∈ vs -> env.graph.isA v.source Om.variableType = true ->
        env.Filled f'.session.notes v) ∧
    (forall place node p nodes n, Parameter.load env.graph node = .ok p ->
      Stage.gathered (env.site place p) (env.sources place p) = .ok nodes -> n ∈ nodes ->
      (env.site place p).Unsupplied n ->
        forall f, exists first f', first ∈ nodes ∧ (env.site place p).Unsupplied first ∧
          outcome (env.parameterValues place node) f =
            (.error (.undefinedVariable (env.graph.display first)), f')) ∧
    forall supplied : Variables,
      (forall (name : String) l, env.supplied[name]? = some l -> supplied[name]? = some l) ->
        (env.given supplied env.depthLimit).plan config = env.plan config ∨
          exists name : String, env.supplied[name]? = none ∧
            env.plan config = .error (.undefinedVariable name) :=
  ⟨fun _ hp _ hx _ ha => substituted_of_plan hp hx ha,
    fun _ _ _ _ _ hrun _ hv hvariable => filled_of_parameterValues hrun hv hvariable,
    fun _ _ _ _ _ hp hnodes hn hunsupplied f =>
      parameterValues_of_unsupplied hp hnodes hn hunsupplied f,
    fun _ h => env.plan_with_variables h config⟩

/-- Configurations `c` and `d` of a component with one parameter: the value of `c` is a variable, and
that of `d` is a list which holds the variable. -/
def placeholders : Graph :=
  let (x, g) := Graph.empty.intern (.named "X")
  let (p, g) := g.intern (.named "p")
  let (arguments, g) := g.freshList [p]
  let (var, g) := g.intern (.named "var")
  let (c, g) := g.intern (.named "c")
  let (d, g) := g.intern (.named "d")
  let (items, g) := g.freshList [var]
  let g := (g.addType x Vocabulary.Oo.classType).addEdge x Vocabulary.Oo.constructorArguments
    arguments
  let g := ((g.addType var Vocabulary.Om.variableType).addType c "X").addType d "X"
  (g.addNamed c "p" "var").addEdge d "p" items

def placeholder (supplied : Variables) : Environment :=
  ⟨placeholders, supplied, 16⟩

def supply : Variables :=
  (∅ : Variables).insert "var" (.plain "v")

def firstArguments (r : Except Failure Plan) : Option (List String) :=
  (r.toOption.bind fun p => p.instances[0]?).map fun x => x.arguments.map Argument.text

theorem exists_of_firstArguments {r : Except Failure Plan} {texts : List String}
    (h : firstArguments r = some texts) :
    exists p x, r = .ok p ∧ x ∈ p.instances ∧ x.arguments.map Argument.text = texts := by
  unfold firstArguments at h
  cases r with
  | error e => cases h
  | ok p =>
      rw [Option.map_eq_some_iff] at h
      rcases h with ⟨x, hx, htexts⟩
      exact ⟨p, x, rfl, Array.mem_of_getElem? hx, htexts⟩

theorem plan_substituted_placeholder :
    (exists p x, (placeholder supply).plan 4 = .ok p ∧ x ∈ p.instances ∧
      x.arguments.map Argument.text = ["[\"v\"]"] ∧
      forall a, a ∈ x.arguments -> (placeholder supply).Substituted a) ∧
    (exists vs f', outcome ((placeholder supply).parameterValues ⟨4, 4, []⟩ 1)
        ⟨Session.empty, ⟨[], []⟩⟩ = (.ok vs, f') ∧ vs.map Occurrence.source = [3] ∧
      forall v, v ∈ vs -> (placeholder supply).Filled f'.session.notes v) ∧
    (exists first f', first ∈ [3] ∧
      outcome ((placeholder ∅).parameterValues ⟨4, 4, []⟩ 1) ⟨Session.empty, ⟨[], []⟩⟩ =
        (.error (.undefinedVariable ((placeholder ∅).graph.display first)), f')) ∧
    exists name, (placeholder ∅).plan 4 = .error (.undefinedVariable name) := by
  rcases plan_substituted (placeholder supply) 4 with ⟨hplan, hvalues, -, -⟩
  rcases plan_substituted (placeholder ∅) 4 with ⟨-, -, hunsupplied, hmore⟩
  have hruns : placeholders.isA 3 Om.variableType = true ∧
      firstArguments ((placeholder supply).plan 4) = some ["[\"v\"]"] ∧
      (outcome ((placeholder supply).parameterValues ⟨4, 4, []⟩ 1)
        ⟨Session.empty, ⟨[], []⟩⟩).1.toOption.map (List.map Occurrence.source) = some [3] ∧
      ((Parameter.load placeholders 1).toOption.bind fun p =>
        (Stage.gathered ((placeholder ∅).site ⟨4, 4, []⟩ p)
          ((placeholder ∅).sources ⟨4, 4, []⟩ p)).toOption) = some [3] ∧
      ((placeholder ∅).plan 4).isOk = false := by decide +kernel
  rcases hruns with ⟨hvariable, htexts, hsources, hgathered, hmissing⟩
  refine ⟨?_, ?_, ?_, ?_⟩
  · rcases exists_of_firstArguments htexts with ⟨p, x, hp, hx, harguments⟩
    exact ⟨p, x, hp, hx, harguments, hplan p hp x hx⟩
  · rcases hrun : outcome ((placeholder supply).parameterValues ⟨4, 4, []⟩ 1)
      ⟨Session.empty, ⟨[], []⟩⟩ with ⟨e | vs, f'⟩
    · rw [hrun] at hsources
      cases hsources
    · rw [hrun] at hsources
      have hvs : vs.map Occurrence.source = [3] := Option.some.inj hsources
      refine ⟨vs, f', rfl, hvs, fun v hv => hvalues _ _ _ vs f' hrun v hv ?_⟩
      have hv' : v.source ∈ vs.map Occurrence.source := List.mem_map_of_mem hv
      rw [hvs, List.mem_singleton] at hv'
      rw [hv']
      exact hvariable
  · cases hp : Parameter.load placeholders 1 with
    | error e =>
        rw [hp] at hgathered
        cases hgathered
    | ok p =>
        rw [hp] at hgathered
        dsimp only [Except.toOption, Option.bind_some] at hgathered
        cases hnodes : Stage.gathered ((placeholder ∅).site ⟨4, 4, []⟩ p)
            ((placeholder ∅).sources ⟨4, 4, []⟩ p) with
        | error e =>
            rw [hnodes] at hgathered
            cases hgathered
        | ok nodes =>
            rw [hnodes] at hgathered
            obtain rfl : nodes = [3] := Option.some.inj hgathered
            rcases hunsupplied ⟨4, 4, []⟩ 1 p [3] 3 hp hnodes List.mem_cons_self
              ⟨hvariable, by simp [site, placeholder]⟩ ⟨Session.empty, ⟨[], []⟩⟩ with
              ⟨first, f', h, -, hrun⟩
            exact ⟨first, f', h, hrun⟩
  · rcases hmore supply (fun name l hl => by simp [placeholder] at hl) with
      hsame | ⟨name, -, hname⟩
    · rcases exists_of_firstArguments htexts with ⟨p, -, hp, -, -⟩
      have hgiven : (placeholder ∅).plan 4 = .ok p := hsame.symm.trans hp
      rw [hgiven] at hmissing
      cases hmissing
    · exact ⟨name, hname⟩

/-- The IRI of a variable that is an item of a list stays in the plan, whether or not something is
supplied for it. -/
theorem not_plan_substituted_placeholder :
    (placeholder supply).graph.isA 3 Om.variableType = true ∧
    (placeholder supply).graph.term? 3 = some (.named "var") ∧
    (exists p x, (placeholder supply).plan 5 = .ok p ∧ x ∈ p.instances ∧
      x.arguments.map Argument.text = ["[[<var>]]"]) ∧
    exists p x, (placeholder ∅).plan 5 = .ok p ∧ x ∈ p.instances ∧
      x.arguments.map Argument.text = ["[[<var>]]"] := by
  have hruns : (placeholders.isA 3 Om.variableType = true ∧
      placeholders.term? 3 = some (.named "var")) ∧
      firstArguments ((placeholder supply).plan 5) = some ["[[<var>]]"] ∧
      firstArguments ((placeholder ∅).plan 5) = some ["[[<var>]]"] := by decide +kernel
  rcases hruns with ⟨⟨hvariable, hterm⟩, hsupplied, hmissing⟩
  exact ⟨hvariable, hterm, exists_of_firstArguments hsupplied, exists_of_firstArguments hmissing⟩

end Environment
end Wiring
