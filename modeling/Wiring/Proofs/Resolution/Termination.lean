import Wiring.Proofs.Resolution.Ending

/-!
# Resolution terminates

Definitions and instances go one level deeper each time they need each other, and
levels are counted.  Lists and generic type parameters are followed without a
count.  If no list holds itself and no explicit instance leads a generic type
parameter back to itself, following them ends, so every resolution does.
-/

namespace Wiring

open Vocabulary

def Graph.ItemOf (g : Graph) (item list : NodeId) : Prop :=
  exists items, g.list? list = some items ∧ item ∈ items

theorem Graph.mem_lists {g : Graph} {n : NodeId} {items : List NodeId}
    (h : g.list? n = some items) : n ∈ g.lists.keys := by
  rw [Std.TreeMap.mem_keys, Std.TreeMap.mem_iff_isSome_getElem?]
  exact Option.isSome_of_eq_some h

/-- Lists are well-founded, and explicit instances do not lead generic type parameters back to
themselves. -/
structure Environment.Founded (env : Environment) : Prop where
  lists : WellFounded env.graph.ItemOf
  generics {config : NodeId} {component : Component} {c : Generics} :
    Component.forConfig env.graph config = .ok component ->
      outcome (Generics.bindInstances env.graph component
        (env.graph.ordered config Oo.genericTypeInstances)) (Generics.forComponent component) =
          (.ok (), c) -> c.Acyclic

structure Descent.Terminates (down : Descent) : Prop where
  assemble {f : Frame} (hf : f.Sane) (place : Place) (node : NodeId) :
    Ends Frame.Sane f (down.assemble place node)
  instantiate (s : Session) (active : List NodeId) (config : NodeId) (unique lazy : Bool) :
    Ends (fun _ => True) s (down.instantiate active config unique lazy)

namespace Environment

variable {env : Environment}

/-!
# Lists
-/

section Materialize

variable {instantiate : NodeId → (unique lazy : Bool) → Resolving (Option InstanceId)}

theorem ends_materializeOccurrence {onItems : List NodeId → Resolving Argument} {v : Occurrence}
    (hinstantiate : forall s config unique lazy,
      Ends (fun _ => True) s (instantiate config unique lazy))
    (hitems : forall s items, env.graph.list? v.source = some items ->
      Ends (fun _ => True) s (onItems items)) (s : Session) :
    Ends (fun _ => True) s (env.materializeOccurrence instantiate onItems v) := by
  refine .bind_get (.bind ?_ fun _ _ _ => .pure trivial)
  unfold materializeWith
  split
  · exact .pure trivial
  · exact .pure trivial
  · exact .throw not_false
  · exact .pure trivial
  · split
    · next items hlist => exact hitems s items hlist
    · split
      · refine .bind (hinstantiate s v.source _ _) fun i _ _ => ?_
        cases i with
        | none => exact .pure trivial
        | some id => exact .pure trivial
      · exact .pure trivial

/-- There are enough levels for a list if the lists that have led to it are different ones.  Those
are no more than there are lists, and none of them is an item of itself. -/
theorem ends_materializeWithin (hlists : WellFounded env.graph.ItemOf)
    (hinstantiate : forall s config unique lazy,
      Ends (fun _ => True) s (instantiate config unique lazy))
    (levels : Nat) (chain : List NodeId) (v : Occurrence) (hchain : chain.Nodup)
    (hknown : chain ⊆ env.graph.lists.keys)
    (hlevels : env.graph.lists.keys.length ≤ chain.length + levels)
    (hled : forall n, n ∈ chain -> Relation.TransGen env.graph.ItemOf v.source n) (s : Session) :
    Ends (fun _ => True) s (env.materializeWithin instantiate levels v) := by
  have hself (n : NodeId) : ¬ Relation.TransGen env.graph.ItemOf n n :=
    fun h => hlists.transGen.asymmetric n n h h
  induction levels generalizing chain v s with
  | zero =>
      have hnew : v.source ∉ chain := fun h => hself _ (hled _ h)
      refine ends_materializeOccurrence hinstantiate (fun _ items hitems => ?_) s
      -- All lists have been met, so a list would be among those that have led to it.
      exact absurd (length_lt_of_not_mem hchain hknown (Graph.mem_lists hitems) hnew)
        (Nat.not_lt.mpr hlevels)
  | succ levels ih =>
      have hnew : v.source ∉ chain := fun h => hself _ (hled _ h)
      refine ends_materializeOccurrence hinstantiate (fun s items hitems => ?_) s
      refine .bind (.mapM trivial fun s i _ hi => ?_) fun _ _ _ => .pure trivial
      refine ih (v.source :: chain) (.ofNode i) (List.nodup_cons.mpr ⟨hnew, hchain⟩)
        (List.cons_subset.mpr ⟨Graph.mem_lists hitems, hknown⟩) ?_ (fun n hn => ?_) s
      · rw [List.length_cons]
        omega
      · rcases List.mem_cons.mp hn with rfl | hn
        · exact .single ⟨items, hitems, hi⟩
        · exact .head ⟨items, hitems, hi⟩ (hled n hn)

theorem ends_materialize (hlists : WellFounded env.graph.ItemOf)
    (hinstantiate : forall s config unique lazy,
      Ends (fun _ => True) s (instantiate config unique lazy)) (s : Session) (v : Occurrence) :
    Ends (fun _ => True) s (env.materialize instantiate v) := by
  refine ends_materializeWithin hlists hinstantiate env.graph.lists.size [] v .nil
    (List.nil_subset _) ?_ (fun _ hn => absurd hn List.not_mem_nil) s
  rw [Std.TreeMap.length_keys, List.length_nil, Nat.zero_add]

end Materialize

/-!
# Definitions
-/

section Assemble

variable {down : Descent} {place : Place} {f : Frame}

theorem ends_parameterValues (hf : f.Sane) (node : NodeId) :
    Ends Frame.Sane f (env.parameterValues place node) := by
  refine .bind (Walking.ends_ofExcept hf fun e he => Parameter.not_endless_of_load he) ?_
  intro p f' hf'
  exact Walking.ends_ofPreparing (Stage.ends_steps (b := ⟨f'.session.notes, f'.generics⟩) hf' _)

theorem ends_referenceValues (hlists : WellFounded env.graph.ItemOf) (hdown : down.Terminates)
    (hf : f.Sane) (reference : NodeId) (raw : Bool) :
    Ends Frame.Sane f (env.referenceValues down place reference raw) := by
  unfold referenceValues
  split
  · refine .bind (hdown.assemble hf place reference) fun x f' hf' => ?_
    exact .pure hf'
  · split
    · exact .pure hf
    · refine .bind (ends_parameterValues hf reference) fun vs f' hf' => ?_
      refine .bind_get (.bind (Walking.ends_ofResolving hf' (.mapM trivial fun s v _ _ => ?_)) ?_)
      · exact ends_materialize hlists (fun s => hdown.instantiate s place.active) s v
      · intro arguments f'' hf''
        exact .pure hf''

theorem ends_elementValues (hlists : WellFounded env.graph.ItemOf) (hdown : down.Terminates)
    (hf : f.Sane) (entry : NodeId) : Ends Frame.Sane f (env.elementValues down place entry) := by
  have hreference (reference : NodeId) (raw : Bool) :
      Ends Frame.Sane f (do
        return (← env.referenceValues down place reference raw).values) := by
    refine .bind (ends_referenceValues hlists hdown hf reference raw) fun r f' hf' => ?_
    exact .pure hf'
  unfold elementValues
  dsimp only
  split
  · refine .bind (hdown.assemble hf place entry) fun x f' hf' => ?_
    cases x with
    | entries es => exact .throw not_false
    | _ => exact .pure hf'
  · split
    · exact hreference entry false
    · split
      · exact hreference _ false
      · exact hreference _ true
      · exact .throw not_false

theorem ends_assembleElements (hlists : WellFounded env.graph.ItemOf) (hdown : down.Terminates)
    (hf : f.Sane) (node : NodeId) :
    Ends Frame.Sane f (env.assembleElements down place node) := by
  unfold assembleElements
  split
  · exact .throw not_false
  · refine .bind (.mapM hf fun f' entry hf' _ => ends_elementValues hlists hdown hf' entry) ?_
    intro values f' hf'
    exact .pure hf'

theorem ends_fieldEntries (hdown : down.Terminates) (hf : f.Sane) (field : NodeId) :
    Ends Frame.Sane f (env.fieldEntries down place field) := by
  unfold fieldEntries
  dsimp only
  refine .bind (hdown.assemble hf place field) fun x f' hf' => ?_
  cases x with
  | positional arguments => exact .throw not_false
  | value a =>
      cases a with
      | map es => exact .pure hf'
      | _ => exact .throw not_false
  | entries es => exact .pure hf'
  | resolved r =>
      dsimp only
      cases mapEntries? r.values with
      | none => exact .throw not_false
      | some es => exact .pure hf'
  | values arguments =>
      dsimp only
      cases mapEntries? arguments with
      | none => exact .throw not_false
      | some es => exact .pure hf'

theorem ends_assembleFields (hdown : down.Terminates) (hf : f.Sane) (node : NodeId) :
    Ends Frame.Sane f (env.assembleFields down place node) := by
  unfold assembleFields
  split
  · exact .throw not_false
  · refine .bind (.mapM hf fun f' field hf' _ => ends_fieldEntries hdown hf' field) ?_
    intro entries f' hf'
    exact .pure hf'

theorem ends_positionalArgument (hlists : WellFounded env.graph.ItemOf) (hdown : down.Terminates)
    (hf : f.Sane) (item : NodeId) :
    Ends Frame.Sane f (env.positionalArgument down place item) := by
  unfold positionalArgument
  split
  · refine .bind (ends_referenceValues hlists hdown hf item false) fun r f' hf' => ?_
    exact .pure hf'
  · refine .bind (hdown.assemble hf place item) fun x f' hf' => ?_
    exact .pure hf'

theorem ends_assembleList (hlists : WellFounded env.graph.ItemOf) (hdown : down.Terminates)
    (hf : f.Sane) (node : NodeId) : Ends Frame.Sane f (env.assembleList down place node) := by
  refine .bind (.mapM hf fun f' item hf' _ => ends_positionalArgument hlists hdown hf' item) ?_
  intro arguments f' hf'
  exact .pure hf'

theorem ends_entryKey (hf : f.Sane) (reference : NodeId) :
    Ends Frame.Sane f (env.entryKey place reference) := by
  unfold entryKey
  split
  · exact .pure hf
  · refine .bind (ends_parameterValues hf reference) fun vs f' hf' => ?_
    cases vs with
    | nil => exact .throw not_false
    | cons v _ =>
        refine .bind_get ?_
        split
        · exact .pure hf'
        · exact .pure hf'

theorem ends_collectedValue (hlists : WellFounded env.graph.ItemOf) (hdown : down.Terminates)
    (hf : f.Sane) (node : NodeId) (v : Occurrence) :
    Ends Frame.Sane f (env.collectedValue down place node v) := by
  unfold collectedValue
  split
  · refine .bind (ends_referenceValues hlists hdown hf _ _) fun r f' hf' => ?_
    exact .pure hf'
  · exact Walking.ends_ofResolving hf
      (ends_materialize hlists (fun s => hdown.instantiate s place.active) _ v)

theorem ends_collectEntries (hlists : WellFounded env.graph.ItemOf) (hdown : down.Terminates)
    (hf : f.Sane) (node collected : NodeId) :
    Ends Frame.Sane f (env.collectEntries down place node collected) := by
  refine .bind (ends_parameterValues hf collected) fun vs f' hf' => ?_
  split
  · refine .bind (.mapM hf' fun f'' v hf'' _ => ?_) fun _ _ h => .pure h
    exact ends_collectedValue hlists hdown hf'' node v
  · refine .bind (.mapM hf' fun f'' v hf'' _ => ?_) fun _ _ h => .pure h
    refine .bind (ends_collectedValue hlists hdown hf'' node v) fun a f₃ hf₃ => ?_
    exact .bind (ends_entryKey hf₃ _) fun _ _ h => .pure h

theorem ends_assembleKeyValue (hlists : WellFounded env.graph.ItemOf) (hdown : down.Terminates)
    (hf : f.Sane) (node : NodeId) :
    Ends Frame.Sane f (env.assembleKeyValue down place node) := by
  unfold assembleKeyValue
  split
  · exact ends_collectEntries hlists hdown hf node _
  · refine .bind (Walking.ends_ofExcept hf fun e he => ?_) fun key f' hf' => ?_
    · unfold literalKey? at he
      split at he
      · cases he
      · split at he
        · cases he
        · cases he
          exact not_false
    · split
      · exact .throw not_false
      · refine .bind (ends_referenceValues hlists hdown hf' _ _) fun r f'' hf'' => ?_
        cases key with
        | none => exact .pure hf''
        | some key => exact .pure hf''

theorem ends_assembleShape (hlists : WellFounded env.graph.ItemOf) (hdown : down.Terminates)
    (hf : f.Sane) (node : NodeId) : Ends Frame.Sane f (env.assembleShape down place node) := by
  unfold assembleShape
  cases Shape.of env.graph node with
  | elements => exact ends_assembleElements hlists hdown hf node
  | fields => exact ends_assembleFields hdown hf node
  | list => exact ends_assembleList hlists hdown hf node
  | keyValue => exact ends_assembleKeyValue hlists hdown hf node

end Assemble

/-!
# Instances
-/

theorem ends_resolveArguments (h : env.Founded) {down : Descent} (hdown : down.Terminates)
    {config : NodeId} {component : Component}
    (hcomponent : Component.forConfig env.graph config = .ok component) (s : Session)
    (active : List NodeId) :
    Ends (fun _ => True) s (env.resolveArguments down.assemble active config component) := by
  refine Walking.ends_within (.bind ?_ fun _ f (hf : f.Sane) => ?_)
  -- Only explicit instances could lead a parameter back to itself; checks add no references.
  · exact Walking.ends_ofBinding (fun hrun => h.generics hcomponent hrun)
      fun hrun => (Generics.ends_bindInstances _ _).error hrun
  · split
    · exact .pure hf
    · refine .bind (hdown.assemble hf _ _) fun x f' hf' => ?_
      exact .pure hf'

theorem ends_instantiateWith
    {arguments : List NodeId → NodeId → Component → Resolving (List Argument)}
    (harguments : forall s active config component,
      Component.forConfig env.graph config = .ok component ->
        Ends (fun _ => True) s (arguments active config component))
    (s : Session) (active : List NodeId) (config : NodeId) (unique lazy : Bool) :
    Ends (fun _ => True) s (env.instantiateWith arguments active config unique lazy) := by
  refine ⟨fun _ => trivial, fun {e s'} herror => ?_⟩
  by_cases hactive : config ∈ active
  · rw [outcome_instantiateWith_active hactive] at herror
    cases herror
  by_cases hnew : unique = true ∨ s.shared[config]? = none
  · rcases instantiateWith_new_error hactive hnew herror with
      ⟨hfailure, -⟩ | ⟨component, hcomponent, hrun⟩
    · exact Component.not_endless_of_forConfig hfailure
    · exact (harguments _ _ _ _ hcomponent).error hrun
  · rw [not_or, Bool.not_eq_true] at hnew
    rcases Option.ne_none_iff_exists'.mp hnew.2 with ⟨id, hshared⟩
    rw [hnew.1, outcome_instantiateWith_shared hactive hshared] at herror
    cases herror

theorem terminates_descentBy (h : env.Founded) (levels : Nat) :
    (env.descentBy env.instantiateWith levels).Terminates := by
  induction levels with
  | zero =>
      refine ⟨fun _ _ _ => .throw not_false, ends_instantiateWith fun _ _ _ _ _ => ?_⟩
      exact .throw not_false
  | succ levels ih =>
      refine ⟨fun hf _ node => ends_assembleShape h.lists ih hf node, ends_instantiateWith ?_⟩
      exact fun s active _ _ hcomponent => ends_resolveArguments h ih hcomponent s active

theorem ends_resolve (h : env.Founded) (s : Session) (config : NodeId) :
    Ends (fun _ => True) s (env.resolve config) := by
  rw [resolve_eq]
  refine .bind ((terminates_descentBy h env.depthLimit).instantiate s [] config false false) ?_
  intro i s' _
  cases i with
  | none => exact .throw not_false
  | some id => exact .pure trivial

/-!
# The counter of levels
-/

/-- A walk that counts its levels. It counts one up for each level that it goes deeper, as long as
the count is below the limit, and fails with `violation` if the count is above the limit or if it
goes deeper than `levels` times. -/
def counted (env : Environment) (violation : Failure) : (levels count : Nat) → Descent
  | 0, _ => ⟨fun _ _ => throw violation, fun _ _ _ _ => throw violation⟩
  | levels + 1, count =>
    if env.depthLimit < count then
      ⟨fun _ _ => throw violation, fun _ _ _ _ => throw violation⟩
    else if env.depthLimit ≤ count then
      ⟨fun _ node => throw (env.depthFailure node),
        env.instantiateWith fun _ config _ => throw (env.depthFailure config)⟩
    else
      let down := env.counted violation levels (count + 1)
      ⟨env.assembleShape down, env.instantiateWith (env.resolveArguments down.assemble)⟩

def resolveCounted (env : Environment) (violation : Failure) (levels : Nat) (config : NodeId) :
    Resolving InstanceId := do
  match ← (env.counted violation levels 0).instantiate [] config false false with
  | some id => return id
  | none => throw (.cyclicReference (env.graph.display config))

theorem counted_eq {violation : Failure} {left count levels : Nat}
    (hleft : count + left = env.depthLimit) (hlevels : left < levels) :
    env.counted violation levels count = env.descentBy env.instantiateWith left := by
  induction left generalizing count levels with
  | zero =>
      cases levels with
      | zero => exact absurd hlevels (Nat.not_lt_zero _)
      | succ levels =>
          rw [counted, if_neg (by omega), if_pos (by omega)]
          rfl
  | succ left ih =>
      cases levels with
      | zero => exact absurd hlevels (Nat.not_lt_zero _)
      | succ levels =>
          have hdown : env.counted violation levels (count + 1) =
              env.descentBy env.instantiateWith left := ih (by omega) (by omega)
          rw [counted, if_neg (by omega), if_neg (by omega), hdown]
          rfl

theorem resolveCounted_eq (env : Environment) (violation : Failure) {levels : Nat}
    (h : env.depthLimit < levels) : env.resolveCounted violation levels = env.resolve := by
  funext config
  have hwalk : env.counted violation levels 0 =
      env.descentBy env.instantiateWith env.depthLimit :=
    counted_eq (Nat.zero_add env.depthLimit) h
  rw [resolve_eq]
  exact congrArg (fun down : Descent => down.instantiate [] config false false >>= _) hwalk

/-!
# Termination
-/

/-- Resolution terminates in an answer or a failure, from every session: it does not get lost in
lists or generic type parameters, goes no deeper than the limit, and has seen all superclasses of a
node when it stops to look for them. -/
theorem resolve_terminates (env : Environment) (h : env.Founded) :
    (forall config s subject, (outcome (env.resolve config) s).1 ≠ .error (.endless subject)) ∧
    (forall violation levels, env.depthLimit < levels ->
      env.resolveCounted violation levels = env.resolve) ∧
    forall node layers, env.graph.tripleCount ≤ layers ->
      reachLayers env.graph.directSuperclasses layers [] (env.graph.directSuperclasses node) =
        env.graph.superclasses node := by
  refine ⟨fun config s subject hendless => ?_, fun violation _ => resolveCounted_eq env violation,
    fun node _ => env.graph.superclasses_stable node⟩
  exact (ends_resolve h s config).error (Prod.ext hendless rfl) trivial

/-- Components `X` and `Y` are subclasses of each other.  The arguments of `X` are a definition that
is a field of itself, and `a` and `b` of `Y` refer to each other.  A configuration `c` of `X` binds
its generic type parameter `T` to `S`. -/
def whirl : Environment :=
  let (x, g) := Graph.empty.intern (.named "X")
  let (y, g) := g.intern (.named "Y")
  let (t, g) := g.intern (.named "T")
  let (s, g) := g.intern (.named "S")
  let (p, g) := g.intern (.named "p")
  let (d, g) := g.intern (.named "d")
  let (a, g) := g.intern (.named "a")
  let (c, g) := g.intern (.named "c")
  let (i, g) := g.intern (.named "i")
  let (r, g) := g.intern (.named "r")
  let (generics, g) := g.freshList [t, s]
  let (arguments, g) := g.freshList [p]
  let (instances, g) := g.freshList [i, s]
  let g := ((g.addType x Oo.classType).addType y Oo.classType).addNamed x Rdfs.subClassOf "Y"
  let g := (g.addNamed y Rdfs.subClassOf "X").addEdge x Oo.genericTypeParameters generics
  let g := (g.addEdge x Oo.constructorArguments d).addEdge d Oo.fields d
  let g := (g.addEdge y Oo.constructorArguments arguments).addType a "Y"
  let g := ((g.addNamed a "p" "b").addType c "X").addEdge c Oo.genericTypeInstances instances
  let g := (g.addEdge i Oo.parameterRangeGenericBindings r).addType r Oo.rangeGeneric
  let g := g.addEdge r Oo.rangeGenericType s
  let (b, g) := g.intern (.named "b")
  ⟨(g.addType b "Y").addEdge b "p" a, ∅, 16⟩

theorem acyclic_of_single {c : Generics} {name other : String} (hne : name ≠ other)
    (h : c.bindings = [(name, .generic other)]) : c.Acyclic := by
  have hrefers {n m : String} (hnm : c.Refers n m) : n = name ∧ m = other := by
    rcases hnm with ⟨r, hr, hm⟩
    unfold Generics.binding? at hr
    rw [h, List.lookup_cons] at hr
    split at hr
    · next heq =>
        cases hr
        exact ⟨of_decide_eq_true heq, hm.symm⟩
    · cases hr
  intro n hpath
  rcases Relation.TransGen.head'_iff.mp hpath with ⟨_, hhead, _⟩
  rcases Relation.TransGen.tail'_iff.mp hpath with ⟨_, _, htail⟩
  exact hne ((hrefers hhead).1.symm.trans (hrefers htail).2)

theorem contents_whirl :
    (forall list, list ∈ whirl.graph.lists.toList -> forall item, item ∈ list.2 ->
      item < list.1) ∧
    (forall config, config ∈ whirl.graph.edges.keys -> config = 7 ∨
      whirl.graph.ordered config Oo.genericTypeInstances = []) ∧
    ((Component.forConfig whirl.graph 7).toOption.all fun component =>
      match (outcome (Generics.bindInstances whirl.graph component
        (whirl.graph.ordered 7 Oo.genericTypeInstances))
          (Generics.forComponent component)).2.bindings with
      | [(name, .generic other)] => name != other
      | _ => false) = true := by
  decide +kernel

theorem founded_whirl : whirl.Founded where
  lists := by
    refine Subrelation.wf (r := (· < ·)) ?_ wellFounded_lt
    rintro item list ⟨items, hlist, hitem⟩
    exact contents_whirl.1 (list, items)
      (Std.TreeMap.mem_toList_iff_getElem?_eq_some.mpr hlist) item hitem
  generics {config component c} hcomponent hrun := by
    rcases contents_whirl with ⟨-, hinstances, hbound⟩
    by_cases hkeys : config ∈ whirl.graph.edges.keys
    · rcases hinstances config hkeys with rfl | hnone
      · rw [hcomponent] at hbound
        dsimp only [Except.toOption, Option.all_some] at hbound
        rw [hrun] at hbound
        split at hbound
        · next name other heq => exact acyclic_of_single (bne_iff_ne.mp hbound) heq
        · cases hbound
      · rw [hnone] at hrun
        cases hrun
        exact Generics.acyclic_ofScope _
    · have hnone : whirl.graph.objects config Oo.genericTypeInstances = [] := by
        refine List.eq_nil_iff_forall_not_mem.mpr fun o ho => ?_
        exact hkeys (Graph.mem_keys_of_mem_objects ho)
      unfold Graph.ordered at hrun
      rw [hnone] at hrun
      cases hrun
      exact Generics.acyclic_ofScope _

theorem resolve_terminates_whirl :
    whirl.Founded ∧
    (exists id s, outcome (whirl.resolve 6) Session.empty = (.ok id, s)) ∧
    (exists e s, outcome (whirl.resolve 7) Session.empty = (.error e, s) ∧
      forall subject, e ≠ .endless subject) ∧
    whirl.resolveCounted (.endless "depth") 17 = whirl.resolve ∧
    reachLayers whirl.graph.directSuperclasses 100 [] (whirl.graph.directSuperclasses 0) =
      whirl.graph.superclasses 0 := by
  rcases resolve_terminates whirl founded_whirl with ⟨hends, hcount, hclasses⟩
  have hanswers : (outcome (whirl.resolve 6) Session.empty).1.isOk = true ∧
      (outcome (whirl.resolve 7) Session.empty).1.isOk = false ∧ whirl.depthLimit < 17 ∧
      whirl.graph.tripleCount ≤ 100 := by decide +kernel
  rcases hanswers with ⟨hcycle, hnested, hlimit, htriples⟩
  refine ⟨founded_whirl, ?_, ?_, hcount (.endless "depth") 17 hlimit, hclasses 0 100 htriples⟩
  · rcases hrun : outcome (whirl.resolve 6) Session.empty with ⟨e | id, s⟩
    · rw [hrun] at hcycle
      cases hcycle
    · exact ⟨id, s, rfl⟩
  · have hne := hends 7 Session.empty
    rcases hrun : outcome (whirl.resolve 7) Session.empty with ⟨e | id, s⟩
    · rw [hrun] at hne
      exact ⟨e, s, rfl, fun subject heq => hne subject (congrArg Except.error heq)⟩
    · rw [hrun] at hnested
      cases hnested

end Environment
end Wiring
