import Wiring.Generics.Instances
import Wiring.Proofs.Generics.Narrowing
import Wiring.Proofs.Range.Alternatives
import Wiring.Proofs.Range.Parts

/-!
# Bindings and their scope

Only generic type parameters in scope are ever bound, and what is bound stays
bound.  Any other name is refused on the spot.  A range or a value that is refused
for a generic type parameter leaves its binding as it was: the check of a value
against the binding meets only those that the parameter leads to, and it does not
lead to itself.
-/

namespace Wiring
namespace Generics

variable {g : Graph} {c c' c'' d : Generics} {name : String}

/-!
# Growing bindings
-/

/-- The second context has the scope of the first one, still binds what it binds, and has bound names
in scope only. -/
structure Extends (c c' : Generics) : Prop where
  scope : c'.scope = c.scope
  bound {name : String} : c.binding? name ≠ none -> c'.binding? name ≠ none
  inScope {name : String} : c'.binding? name ≠ none -> c.binding? name ≠ none ∨ name ∈ c.scope

theorem Extends.refl (c : Generics) : Extends c c :=
  ⟨rfl, id, Or.inl⟩

theorem Extends.trans (h : Extends c c') (h' : Extends c' c'') : Extends c c'' where
  scope := h'.scope.trans h.scope
  bound hname := h'.bound (h.bound hname)
  inScope hname := by
    rcases h'.inScope hname with hbound | hscope
    · exact h.inScope hbound
    · exact Or.inr (h.scope ▸ hscope)

theorem extends_assign (hname : name ∈ c.scope) (r : Range) : Extends c (c.assign name r) where
  scope := rfl
  bound {k} hk := by
    rw [binding?_assign]
    split
    · exact Option.some_ne_none r
    · exact hk
  inScope {k} hk := by
    rw [binding?_assign] at hk
    split at hk
    · next heq => exact Or.inr (heq ▸ hname)
    · exact Or.inl hk

theorem extends_inferFrom (hname : name ∈ c.scope) (v : Observed) :
    Extends c (c.inferFrom g name v) := by
  unfold inferFrom
  split
  · exact extends_assign hname _
  · exact .refl c

theorem binding?_inferFrom {other : String} (hne : name ≠ other) (v : Observed) :
    (c.inferFrom g other v).binding? name = c.binding? name := by
  unfold inferFrom
  split
  · rw [binding?_assign, if_neg hne]
  · rfl

theorem binding?_narrowBy {other : String} (hne : name ≠ other) (existing : Range) (v : Observed) :
    (c.narrowBy g other existing v).binding? name = c.binding? name := by
  unfold narrowBy
  split
  · rfl
  · split
    · rw [binding?_assign, if_neg hne]
    · rfl

theorem extends_narrowBy (hname : name ∈ c.scope) (existing : Range) (v : Observed) :
    Extends c (c.narrowBy g name existing v) := by
  unfold narrowBy
  split
  · exact .refl c
  · split
    · exact extends_assign hname _
    · exact .refl c

theorem extends_bindRange {r : Range} (h : c.bindRange g name r = .ok c') : Extends c c' := by
  unfold bindRange at h
  cases hrequired : c.requirement? name with
  | error report =>
      rw [hrequired] at h
      cases h
  | ok required =>
      have hname : name ∈ c.scope := List.contains_iff_mem.mp (requirement?_eq_ok hrequired).1
      rw [hrequired] at h
      cases required with
      | none =>
          cases h
          exact extends_assign hname r
      | some existing =>
          dsimp only at h
          split at h
          · cases h
            exact extends_assign hname _
          · cases h

theorem extends_check (v : Observed) (r : Range) (c : Generics) :
    Extends c (outcome (Range.check g v r) c).2 := by
  have hkeeps : Checking.Keeps True (Extends c) (Range.check g v r) := by
    refine Range.keeps_check (fun name v d _ hd hname => ?_)
      (fun name v d e existing _ hd hname _ he => ?_) (fun _ _ _ _ _ _ => trivial) v r
      fun _ _ => trivial
    · exact hd.trans (extends_inferFrom hname v)
    · have hname' : name ∈ e.scope := by
        rw [he.scope, ← hd.scope]
        exact hname
      exact he.trans (extends_narrowBy hname' existing v)
  exact (hkeeps c (.refl c)).1

theorem extends_bindValue {α : Type} {validate : Range → Checking α} (v : Observed)
    (hvalidate : forall r, Extends c (outcome (validate r) c).2) :
    Extends c (outcome (bindValue g name v validate) c).2 := by
  rw [Range.outcome_bindValue]
  cases hrequired : c.requirement? name with
  | error report => exact .refl c
  | ok required =>
      have hname : name ∈ c.scope := List.contains_iff_mem.mp (requirement?_eq_ok hrequired).1
      cases required with
      | none => exact extends_inferFrom hname v
      | some existing =>
          have hextends := hvalidate existing
          dsimp only
          rcases hrun : outcome (validate existing) c with ⟨e | answer, d⟩
          · rw [hrun] at hextends
            exact hextends
          · rw [hrun] at hextends
            exact hextends.trans (extends_narrowBy (hextends.scope ▸ hname) existing v)

theorem outcome_bindRange (name : String) (r : Range) (c : Generics) :
    outcome ((Operation.bindRange name r).step g) c =
      match c.bindRange g name r with
      | .ok c' => (.ok (), c')
      | .error report => (.error (.mismatch report), c) := by
  unfold Operation.step
  rw [outcome_bind_ok (outcome_get c)]
  cases c.bindRange g name r <;> rfl

theorem outcome_bindValueStep (name : String) (v : Observed) (c : Generics) :
    outcome ((Operation.bindValue name v).step g) c =
      match outcome (bindValue g name v (Range.check g v)) c with
      | (.ok _, d) => (.ok (), d)
      | (.error e, d) => (.error e, d) := by
  unfold Operation.step
  rw [outcome_bind]
  rcases outcome (bindValue g name v (Range.check g v)) c with ⟨e | answer, d⟩ <;> rfl

theorem outcome_checkStep (v : Observed) (r : Range) (c : Generics) :
    outcome ((Operation.check v r).step g) c =
      match outcome (Range.check g v r) c with
      | (.ok _, d) => (.ok (), d)
      | (.error e, d) => (.error e, d) := by
  unfold Operation.step
  rw [outcome_bind]
  rcases outcome (Range.check g v r) c with ⟨e | answer, d⟩ <;> rfl

theorem extends_operation (op : Operation) (c : Generics) : Extends c (op.run g c) := by
  unfold Operation.run
  cases op with
  | bindRange name r =>
      rw [outcome_bindRange]
      cases hbind : c.bindRange g name r with
      | ok c' => exact extends_bindRange hbind
      | error report => exact .refl c
  | bindValue name v =>
      have hextends : Extends c (outcome (bindValue g name v (Range.check g v)) c).2 :=
        extends_bindValue v fun r => extends_check v r c
      rw [outcome_bindValueStep]
      rcases hrun : outcome (bindValue g name v (Range.check g v)) c with ⟨e | answer, d⟩ <;>
        rw [hrun] at hextends <;> exact hextends
  | check v r =>
      have hextends := extends_check (g := g) v r c
      rw [outcome_checkStep]
      rcases hrun : outcome (Range.check g v r) c with ⟨e | answer, d⟩ <;>
        rw [hrun] at hextends <;> exact hextends

/-!
# Explicit instances
-/

theorem outcome_bindInstance (component name : String) (inst : NodeId) (c : Generics) :
    outcome (bindInstance g component name inst) c =
      match g.object? inst Vocabulary.Oo.parameterRangeGenericBindings with
      | none => (.ok (), c)
      | some node =>
        match Range.read g node with
        | .error failure => (.error failure, c)
        | .ok r =>
          match c.bindRange g name r with
          | .ok c' => (.ok (), c')
          | .error report => (.error (.genericBinding name component report), c) := by
  unfold bindInstance
  cases g.object? inst Vocabulary.Oo.parameterRangeGenericBindings with
  | none => rfl
  | some node =>
      dsimp only
      cases Range.read g node with
      | error failure => rfl
      | ok r =>
          dsimp only
          rw [outcome_bind_ok (outcome_get c)]
          cases c.bindRange g name r <;> rfl

theorem extends_bindInstance (component name : String) (inst : NodeId) (c : Generics) :
    Extends c (outcome (bindInstance g component name inst) c).2 := by
  rw [outcome_bindInstance]
  cases g.object? inst Vocabulary.Oo.parameterRangeGenericBindings with
  | none => exact .refl c
  | some node =>
      dsimp only
      cases Range.read g node with
      | error failure => exact .refl c
      | ok r =>
          dsimp only
          cases hbind : c.bindRange g name r with
          | ok c' => exact extends_bindRange hbind
          | error report => exact .refl c

theorem outcome_forM_cons {α : Type} (f : α → Binding PUnit) (a : α) (as : List α) (c : Generics) :
    outcome ((a :: as).forM f) c =
      match outcome (f a) c with
      | (.ok _, d) => outcome (as.forM f) d
      | (.error failure, d) => (.error failure, d) := by
  change outcome (f a >>= fun _ => as.forM f) c = _
  rw [outcome_bind]
  rcases outcome (f a) c with ⟨failure | _, d⟩ <;> rfl

theorem extends_bindInstances (component : Component) (instances : List NodeId) (c : Generics) :
    Extends c (outcome (bindInstances g component instances) c).2 := by
  unfold bindInstances
  split
  · exact .refl c
  · split
    · exact .refl c
    · induction component.generics.zip instances generalizing c with
      | nil => exact .refl c
      | cons pair pairs ih =>
          have hextends := extends_bindInstance (g := g) component.id pair.1 pair.2 c
          rw [outcome_forM_cons]
          rcases hrun : outcome (bindInstance g component.id pair.1 pair.2) c with ⟨e | answer, d⟩
          · rw [hrun] at hextends
            exact hextends
          · rw [hrun] at hextends
            exact hextends.trans (ih d)

/-!
# Names that are not in scope
-/

theorem requirement?_of_not_mem (hname : name ∉ c.scope) :
    c.requirement? name = .error (outOfScope name) := by
  have hscope : ¬ c.inScope name := fun h => hname (List.contains_iff_mem.mp h)
  rw [requirement?, if_neg hscope]

theorem bindInstance_of_not_mem (component : String) {inst node : NodeId} (hname : name ∉ c.scope)
    (hinst : g.object? inst Vocabulary.Oo.parameterRangeGenericBindings = some node) :
    exists failure, outcome (bindInstance g component name inst) c = (.error failure, c) := by
  rw [outcome_bindInstance, hinst]
  dsimp only
  cases Range.read g node with
  | error failure => exact ⟨failure, rfl⟩
  | ok r =>
      dsimp only
      rw [bindRange, requirement?_of_not_mem hname]
      exact ⟨_, rfl⟩

def afterInstances (g : Graph) (component : String) (pairs : List (String × NodeId))
    (c : Generics) : Generics :=
  (outcome (pairs.forM fun p => bindInstance g component p.1 p.2) c).2

theorem forM_of_not_mem (component : String) {before after : List (String × NodeId)}
    {inst node : NodeId} (hname : name ∉ c.scope)
    (hinst : g.object? inst Vocabulary.Oo.parameterRangeGenericBindings = some node) :
    exists failure,
      outcome ((before ++ (name, inst) :: after).forM fun p => bindInstance g component p.1 p.2) c =
        (.error failure, afterInstances g component before c) := by
  induction before generalizing c with
  | nil =>
      rcases bindInstance_of_not_mem component hname hinst with ⟨failure, hfailure⟩
      exists failure
      rw [List.nil_append, outcome_forM_cons, hfailure]
      rfl
  | cons pair before ih =>
      have hextends := extends_bindInstance (g := g) component pair.1 pair.2 c
      rw [List.cons_append, outcome_forM_cons, afterInstances, outcome_forM_cons]
      rcases hrun : outcome (bindInstance g component pair.1 pair.2) c with ⟨failure | _, d⟩
      · exact ⟨failure, rfl⟩
      · rw [hrun] at hextends
        exact ih (hextends.scope ▸ hname)

theorem outcome_check_outside (hname : name ∉ c.scope) (v : Observed) :
    outcome (Range.check g v (.generic name)) c =
      (.error (.mismatch (Range.partMismatch g v (.generic name) "generic type binding failed"
        (outOfScope name))), c) := by
  rcases Range.exists_links g v (.generic name) c with ⟨links, hrun⟩
  rw [hrun, Range.checkWithin_eq, Range.checkWith]
  cases links <;>
    rw [Range.genericWithin, Range.outcome_checkGeneric, requirement?_of_not_mem hname]

/-- A name that is not in scope is refused.  Nothing is bound, whatever would validate a value for
the name, and the instances for a component get no further than to the name. -/
structure Refuses (g : Graph) (c : Generics) (name : String) : Prop where
  range (r : Range) : outcome ((Operation.bindRange name r).step g) c =
    (.error (.mismatch (outOfScope name)), c)
  value {α : Type} (v : Observed) (validate : Range → Checking α) :
    outcome (bindValue g name v validate) c = (.error (.mismatch (outOfScope name)), c)
  reference (v : Observed) : outcome (Range.check g v (.generic name)) c =
    (.error (.mismatch (Range.partMismatch g v (.generic name) "generic type binding failed"
      (outOfScope name))), c)
  /-- So is a reference that a check comes to on the way, when it has bound other names. -/
  deeper (onBinding : Observed → Range → Checking (Option Scalar)) (v : Observed) {d : Generics} :
    d.scope = c.scope -> outcome (Range.checkGeneric g onBinding name v) d =
      (.error (.mismatch (Range.partMismatch g v (.generic name) "generic type binding failed"
        (outOfScope name))), d)
  instances {component : Component} {instances : List NodeId} {before after : List (String × NodeId)}
    {inst node : NodeId} :
    component.generics.zip instances = before ++ (name, inst) :: after ->
    g.object? inst Vocabulary.Oo.parameterRangeGenericBindings = some node ->
    exists failure, outcome (bindInstances g component instances) c = (.error failure,
      if instances.length = component.generics.length then
        afterInstances g component.id before c
      else c)

theorem refuses_of_not_mem (g : Graph) (hname : name ∉ c.scope) : Refuses g c name where
  range r := by
    rw [outcome_bindRange, Generics.bindRange, requirement?_of_not_mem hname]
  value v validate := by
    rw [Range.outcome_bindValue, requirement?_of_not_mem hname]
  reference v := outcome_check_outside hname v
  deeper onBinding v {d} hd := by
    rw [← hd] at hname
    rw [Range.outcome_checkGeneric, requirement?_of_not_mem hname]
  instances {component instances before after inst node} hpairs hinst := by
    have hempty : instances.isEmpty = false := by
      cases instances with
      | nil =>
          rw [List.zip_nil_right] at hpairs
          cases before <;> cases hpairs
      | cons first others => rfl
    rw [bindInstances, hempty, hpairs, if_neg Bool.false_ne_true]
    by_cases hlength : instances.length = component.generics.length
    · rw [if_pos hlength, if_neg (not_not_intro hlength)]
      exact forM_of_not_mem component.id hname hinst
    · rw [if_neg hlength, if_pos hlength]
      exact ⟨_, rfl⟩

/-- The value is of the range only if a value is accepted for a name that is not in scope. -/
inductive NeedsOutside (g : Graph) (scope : List String) : Range → Observed → Prop where
  | generic {name : String} (h : name ∉ scope) (v : Observed) :
      NeedsOutside g scope (.generic name) v
  | part {r : Range} {v : Observed} {parts : List (Range × Observed)} {part : Range × Observed}
      (h : Range.Demands g r v parts) (hpart : part ∈ parts)
      (hneeds : NeedsOutside g scope part.1 part.2) : NeedsOutside g scope r v
  | union {members : List Range} {v : Observed}
      (h : forall r, r ∈ members -> NeedsOutside g scope r v) :
      NeedsOutside g scope (.union members) v

theorem not_accepts_of_needsOutside {r : Range} {v : Observed} (h : NeedsOutside g c.scope r v)
    (hd : c.Settles d) : ¬ Range.Accepts g d v r := by
  induction h generalizing d with
  | generic hname v =>
      rintro ⟨cast, d', hrun⟩
      rw [← hd.scope] at hname
      rw [outcome_check_outside hname] at hrun
      cases hrun
  | part hdemands hpart _ ih =>
      rintro ⟨cast, d', hrun⟩
      have hparts := (Range.leads_check hdemands).mp ⟨cast, hrun⟩
      rcases Range.exists_leads_of_mem hparts hpart with ⟨e, e', he, cast', hpartRun⟩
      exact ih (hd.trans he) ⟨cast', e', hpartRun⟩
  | union _ ih =>
      rintro ⟨cast, d', hrun⟩
      rcases (Range.outcome_check_union.mp hrun).exists_accepts with ⟨r, hr, e, he, haccepts⟩
      exact ih r hr (hd.trans he) haccepts

theorem refused_of_needsOutside (hacyclic : c.Acyclic) {r : Range} {v : Observed}
    (h : NeedsOutside g c.scope r v) :
    exists report d, outcome (Range.check g v r) c = (.error (.mismatch report), d) := by
  have hends := (Range.runs_check_of_acyclic (g := g) hacyclic v r).2
  rcases hrun : outcome (Range.check g v r) c with ⟨(report | name) | cast, d⟩
  · exact ⟨report, d, rfl⟩
  · exact absurd (congrArg Prod.fst hrun) (hends name)
  · exact absurd ⟨cast, d, hrun⟩ (not_accepts_of_needsOutside h (.refl c))

/-!
# Refused ranges and values
-/

def Operation.Binds (name : String) : Operation → Prop
  | .bindRange n _ | .bindValue n _ => n = name
  | .check _ _ => False

def Reaches (c : Generics) (r : Range) (name : String) : Prop :=
  exists first, r.Mentions first ∧ Relation.ReflTransGen c.Refers first name

theorem Reaches.of_settles {r : Range} (h : c.Settles c') (hreaches : c'.Reaches r name) :
    c.Reaches r name := by
  rcases hreaches with ⟨first, hfirst, hpath⟩
  exact ⟨first, hfirst, Relation.ReflTransGen.mono (fun _ _ => h.refers) first name hpath⟩

theorem binding?_of_not_reaches {r : Range} (h : ¬ c.Reaches r name) (v : Observed) :
    (outcome (Range.check g v r) c).2.binding? name = c.binding? name := by
  have hother {other : String} (hreaches : c.Reaches r other) : name ≠ other := by
    rintro rfl
    exact h hreaches
  have hkeeps : Checking.Keeps True (fun d => c.Settles d ∧ d.binding? name = c.binding? name)
      (Range.check g v r) := by
    refine Range.keeps_check (fun other v d (hreaches : c.Reaches r other) hd _ => ?_)
      (fun other v d e s hreaches hd _ hs he => ?_)
      (fun other next d hreaches hd hrefers => ?_) v r
      fun other hmentions => ⟨other, hmentions, .refl⟩
    · refine ⟨hd.1.inferFrom other v, ?_⟩
      rw [binding?_inferFrom (hother hreaches)]
      exact hd.2
    · refine ⟨he.1.narrowBy (fun next h => hd.1.refers ⟨s, hs, h⟩) v, ?_⟩
      rw [binding?_narrowBy (hother hreaches)]
      exact he.2
    · rcases hreaches with ⟨first, hfirst, hpath⟩
      exact ⟨first, hfirst, hpath.tail (hd.1.refers hrefers)⟩
  exact (hkeeps c ⟨.refl c, rfl⟩).1.2

/-- A check against what a generic type parameter is bound to leaves the binding as it is, whatever
else it binds. -/
theorem binding?_check (hacyclic : c.Acyclic) {existing : Range}
    (hbound : c.binding? name = some existing) (v : Observed) :
    (outcome (Range.check g v existing) c).2.binding? name = c.binding? name := by
  apply binding?_of_not_reaches
  rintro ⟨first, hfirst, hpath⟩
  exact hacyclic name (.head' ⟨existing, hbound, hfirst⟩ hpath)

theorem binding?_of_refused (hacyclic : c.Acyclic) {op : Operation} (hop : op.Binds name)
    {e : Rejection} (hfails : outcome (op.step g) c = (.error e, d)) :
    d.binding? name = c.binding? name := by
  cases op with
  | check v r => exact hop.elim
  | bindRange n r =>
      rw [outcome_bindRange] at hfails
      split at hfails
      · cases hfails
      · cases hfails
        rfl
  | bindValue n v =>
      cases hop
      rw [outcome_bindValueStep, Range.outcome_bindValue] at hfails
      cases hrequired : c.requirement? name with
      | error report =>
          rw [hrequired] at hfails
          cases hfails
          rfl
      | ok required =>
          rw [hrequired] at hfails
          cases required with
          | none => cases hfails
          | some existing =>
              have hkept := binding?_check (g := g) hacyclic (requirement?_eq_ok hrequired).2 v
              dsimp only at hfails
              rcases hrun : outcome (Range.check g v existing) c with ⟨e | answer, d⟩
              · rw [hrun] at hfails hkept
                cases hfails
                exact hkept
              · rw [hrun] at hfails
                cases hfails

/-!
# Histories
-/

inductive Action where
  | apply (op : Operation)
  | bindInstances (component : Component) (instances : List NodeId)

def Action.run (g : Graph) (c : Generics) : Action → Generics
  | apply op => op.run g c
  | bindInstances component instances =>
    (outcome (Generics.bindInstances g component instances) c).2

def runActions (g : Graph) (c : Generics) (actions : List Action) : Generics :=
  actions.foldl (Action.run g) c

theorem extends_action (action : Action) (c : Generics) : Extends c (action.run g c) := by
  cases action with
  | apply op => exact extends_operation op c
  | bindInstances component instances => exact extends_bindInstances component instances c

theorem extends_runActions (actions : List Action) (c : Generics) :
    Extends c (runActions g c actions) := by
  induction actions generalizing c with
  | nil => exact .refl c
  | cons action actions ih => exact (extends_action action c).trans (ih (action.run g c))

theorem Extends.mem_scope {scope : List String} (h : Extends (ofScope scope) c)
    (hname : c.binding? name ≠ none) : name ∈ scope := by
  rcases h.inScope hname with hbound | hscope
  · exact absurd rfl hbound
  · exact hscope

/-- After every history, the scope is the one at the start and has all names that are bound.  These
stay bound later on, and other names are refused.  If no generic type parameter leads back to itself,
a value that needs to be accepted for another name is refused, and what is refused for a generic type
parameter leaves its binding as it is. -/
theorem history_in_scope (g : Graph) (scope : List String) (actions : List Action) :
    (runActions g (ofScope scope) actions).scope = scope ∧
    (forall name, (runActions g (ofScope scope) actions).binding? name ≠ none -> name ∈ scope) ∧
    (forall later name, (runActions g (ofScope scope) actions).binding? name ≠ none ->
      (runActions g (runActions g (ofScope scope) actions) later).binding? name ≠ none) ∧
    (forall name, name ∉ scope -> Refuses g (runActions g (ofScope scope) actions) name) ∧
    ((runActions g (ofScope scope) actions).Acyclic ->
      (forall v r, NeedsOutside g scope r v -> exists report d,
        outcome (Range.check g v r) (runActions g (ofScope scope) actions) =
          (.error (.mismatch report), d)) ∧
      forall (op : Operation) name e d, op.Binds name ->
        outcome (op.step g) (runActions g (ofScope scope) actions) = (.error e, d) ->
        d.binding? name = (runActions g (ofScope scope) actions).binding? name) := by
  have hextends : Extends (ofScope scope) (runActions g (ofScope scope) actions) :=
    extends_runActions actions _
  have hscope : (runActions g (ofScope scope) actions).scope = scope := hextends.scope
  refine ⟨hscope, fun _ => hextends.mem_scope, fun later _ => (extends_runActions later _).bound,
    fun name hname => ?_, fun hacyclic => ⟨fun v r hneeds => ?_, fun _ _ _ _ hop hfails => ?_⟩⟩
  · apply refuses_of_not_mem
    rw [hscope]
    exact hname
  · apply refused_of_needsOutside hacyclic
    rw [hscope]
    exact hneeds
  · exact binding?_of_refused hacyclic hop hfails

def numbered : Range :=
  .tuple [.generic "S", .literal Vocabulary.Xsd.integer]

theorem acyclic_numbered : (⟨["T", "S"], [("T", numbered)]⟩ : Generics).Acyclic := by
  apply not_transGen_of_rank fun name => if name = "T" then 1 else 0
  rintro name other ⟨r, hr, hmentions⟩
  rw [binding?, List.lookup_cons] at hr
  split at hr
  · next heq =>
      cases hr
      rw [eq_of_beq heq]
      rcases hmentions with hother | hother | hother
      · cases hother
        decide
      · exact hother.elim
      · exact hother.elim
  · cases hr

theorem history_in_scope_words : exists e d,
    outcome ((Operation.bindValue "T" (.node 2)).step (Graph.empty.runAll words).2)
      (runActions (Graph.empty.runAll words).2 (ofScope ["T", "S"])
        [.apply (.bindRange "T" numbered)]) = (.error e, d) ∧
    (d.binding? "S").isSome ∧ d.binding? "T" = some numbered ∧
    Refuses (Graph.empty.runAll words).2
      (runActions (Graph.empty.runAll words).2 (ofScope ["T", "S"])
        [.apply (.bindRange "T" numbered)]) "U" ∧
    exists report d', outcome (Range.check (Graph.empty.runAll words).2 (.node 2)
        (.tuple [.generic "S", .generic "U"]))
      (runActions (Graph.empty.runAll words).2 (ofScope ["T", "S"])
        [.apply (.bindRange "T" numbered)]) = (.error (.mismatch report), d') := by
  have hmain := history_in_scope (Graph.empty.runAll words).2 ["T", "S"]
    [.apply (.bindRange "T" numbered)]
  have hacyclic := hmain.2.2.2.2 acyclic_numbered
  have hneeds : NeedsOutside (Graph.empty.runAll words).2 ["T", "S"]
      (.tuple [.generic "S", .generic "U"]) (.node 2) := by
    refine .part (.tuple items?_words rfl) (List.mem_cons_of_mem _ List.mem_cons_self) ?_
    exact .generic (by decide) _
  have hfails : (outcome ((Operation.bindValue "T" (.node 2)).step (Graph.empty.runAll words).2)
      (runActions (Graph.empty.runAll words).2 (ofScope ["T", "S"])
        [.apply (.bindRange "T" numbered)])).1.isOk = false := by decide +kernel
  have hother : ((outcome ((Operation.bindValue "T" (.node 2)).step (Graph.empty.runAll words).2)
      (runActions (Graph.empty.runAll words).2 (ofScope ["T", "S"])
        [.apply (.bindRange "T" numbered)])).2.binding? "S").isSome := by decide +kernel
  rcases hrun : outcome ((Operation.bindValue "T" (.node 2)).step (Graph.empty.runAll words).2)
      (runActions (Graph.empty.runAll words).2 (ofScope ["T", "S"])
        [.apply (.bindRange "T" numbered)]) with ⟨e | answer, d⟩
  · rw [hrun] at hother
    refine ⟨e, d, rfl, hother, ?_, hmain.2.2.2.1 "U" (by decide), hacyclic.1 _ _ hneeds⟩
    rw [hacyclic.2 (.bindValue "T" (.node 2)) "T" e d rfl hrun]
    rfl
  · rw [hrun] at hfails
    cases hfails

def wordInstance : List Graph.Operation :=
  [.freshBlank, .addNamed 0 Vocabulary.Oo.parameterRangeGenericBindings Vocabulary.Xsd.string]

def twoParameters : Component :=
  ⟨0, "C", .concrete, ["T", "U"], [], none⟩

/-- A name that is not in scope does not keep what comes before it from being bound, and a union with
another member accepts the value. -/
theorem not_history_in_scope_untouched :
    (¬ forall (g : Graph) (c : Generics) (component : Component) (instances : List NodeId)
        (name : String) (inst node : NodeId),
      name ∉ c.scope -> (name, inst) ∈ component.generics.zip instances ->
      g.object? inst Vocabulary.Oo.parameterRangeGenericBindings = some node ->
      exists failure, outcome (bindInstances g component instances) c = (.error failure, c)) ∧
    ¬ forall (g : Graph) (c : Generics) (v : Observed) (r : Range) (name : String),
      c.Acyclic -> name ∉ c.scope -> r.Mentions name ->
      exists e, outcome (Range.check g v r) c = (.error e, c) := by
  constructor
  · intro hall
    rcases hall (Graph.empty.runAll wordInstance).2 (ofScope ["T"]) twoParameters [0, 0] "U" 0 1
      (by decide) (by decide) (by decide +kernel) with ⟨failure, hrun⟩
    have hbound : ((outcome (bindInstances (Graph.empty.runAll wordInstance).2 twoParameters [0, 0])
        (ofScope ["T"])).2.binding? "T").isSome := by decide +kernel
    rw [hrun] at hbound
    cases hbound
  · intro hall
    rcases hall Graph.empty (ofScope []) .absent (.union [.generic "U", .wildcard]) "U"
      (acyclic_ofScope []) (by decide) (Or.inl rfl) with ⟨e, hrun⟩
    have hok : outcome (Range.check Graph.empty .absent (.union [.generic "U", .wildcard]))
      (ofScope []) = (.ok none, ofScope []) := rfl
    rw [hrun] at hok
    cases hok

end Generics
end Wiring
