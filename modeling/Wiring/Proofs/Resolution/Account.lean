import Wiring.Proofs.Resolution.Frame
import Wiring.Proofs.Resolution.Growth

/-!
# Accounts

Whatever instances a walk is answered with end up in its arguments: each of them
once for each answer, in the order of the answers.  No shape drops or repeats
one.  So what a session owes for an answer is paid by the arguments that are
stored in it.
-/

namespace Wiring

open Argument

/-!
# The references of outcomes
-/

namespace Argument

theorem flatMap_references (as : List Argument) :
    as.flatMap (references true) = itemReferences true as := by
  induction as with
  | nil => rfl
  | cons a rest ih => rw [List.flatMap_cons, ih, itemReferences]

theorem flatMap_entryReferences (es : List (String × Argument)) :
    es.flatMap (fun e => references true e.2) = entryReferences true es := by
  induction es with
  | nil => rfl
  | cons e rest ih => rw [List.flatMap_cons, ih, entryReferences]

theorem itemReferences_append (as bs : List Argument) :
    itemReferences true (as ++ bs) = itemReferences true as ++ itemReferences true bs := by
  rw [← flatMap_references, List.flatMap_append, flatMap_references, flatMap_references]

theorem entryReferences_append (es fs : List (String × Argument)) :
    entryReferences true (es ++ fs) = entryReferences true es ++ entryReferences true fs := by
  rw [← flatMap_entryReferences, List.flatMap_append, flatMap_entryReferences,
    flatMap_entryReferences]

theorem itemReferences_flatten (ass : List (List Argument)) :
    itemReferences true ass.flatten = ass.flatMap (itemReferences true) := by
  induction ass with
  | nil => rfl
  | cons as rest ih => rw [List.flatten_cons, itemReferences_append, ih, List.flatMap_cons]

theorem entryReferences_flatten (ess : List (List (String × Argument))) :
    entryReferences true ess.flatten = ess.flatMap (entryReferences true) := by
  induction ess with
  | nil => rfl
  | cons es rest ih => rw [List.flatten_cons, entryReferences_append, ih, List.flatMap_cons]

theorem references_of_entries? {a : Argument} {es : List (String × Argument)}
    (h : a.entries? = some es) : references true a = entryReferences true es := by
  cases a with
  | map entries =>
      cases h
      rw [references]
  | _ => cases h

end Argument

structure Resolved.Holds (r : Resolved) (ids : List InstanceId) : Prop where
  values : itemReferences true r.values = ids
  unique : r.unique = true -> r.values.length ≤ 1

namespace Resolved.Holds

variable {r : Resolved} {ids : List InstanceId}

theorem single {a : Argument} (h : a.references true = ids) : (Resolved.single a).Holds ids where
  values := by
    rw [Resolved.single, itemReferences, itemReferences, List.append_nil]
    exact h
  unique _ := Nat.le_refl 1

theorem collapse (h : r.Holds ids) : r.collapse.references true = ids := by
  rcases r with ⟨values, unique⟩
  rcases h with ⟨hvalues, hunique⟩
  cases values with
  | nil => exact hvalues
  | cons a rest =>
      cases unique with
      | false => exact hvalues
      | true =>
          have hrest : rest = [] := List.eq_nil_of_length_eq_zero
            (Nat.le_zero.mp (Nat.le_of_succ_le_succ (hunique rfl)))
          subst hrest
          rw [itemReferences, itemReferences, List.append_nil] at hvalues
          exact hvalues

end Resolved.Holds

def Assembled.Holds : Assembled -> List InstanceId -> Prop
  | positional as, ids | values as, ids => itemReferences true as = ids
  | value a, ids => a.references true = ids
  | entries es, ids => entryReferences true es = ids
  | resolved r, ids => r.Holds ids

namespace Assembled.Holds

variable {x : Assembled} {ids : List InstanceId}

theorem toArgument (h : x.Holds ids) : x.toArgument.references true = ids := by
  cases x with
  | positional as | values as => exact h
  | value a => exact h
  | entries es => exact h
  | resolved r => exact Resolved.Holds.collapse h

theorem toPositional (h : x.Holds ids) : itemReferences true x.toPositional = ids := by
  cases x with
  | positional as | values as => exact h
  | value a =>
      rw [Assembled.toPositional, itemReferences, itemReferences, List.append_nil]
      exact h
  | entries es =>
      rw [Assembled.toPositional, itemReferences, itemReferences, references, List.append_nil]
      exact h
  | resolved r => exact Resolved.Holds.values h

end Assembled.Holds

/-!
# Accounts of sessions
-/

/-- A ledger of sessions that is kept by each request for an instance, if it is kept by the requests
that the arguments of a new instance take. -/
structure Account (env : Environment) extends Ledger Session where
  noted {s : Session} {n : Notes} :
    Continues s.notes n -> moves s [] { s with notes := n }
  known {s : Session} {config : NodeId} {id : InstanceId} :
    s.shared[config]? = some id -> moves s [id] s
  made {s s' : Session} {config : NodeId} {component : Component} {unique : Bool}
    {resolved : List Argument} :
    (unique = true ∨ s.shared[config]? = none) ->
    (env.opened s config component unique).Grows s' ->
    moves (env.opened s config component unique) (itemReferences true resolved) s' ->
    moves s [s.instances.size] (s'.setArguments s.instances.size resolved)

namespace Account

variable {env : Environment} {A : Account env} {α : Type} {s : Session} {f : Frame}

def ofFrame (A : Account env) : Ledger Frame where
  moves f ids g := A.moves f.session ids g.session
  refl f := A.refl f.session
  trans := A.trans

theorem posts_ofExcept (x : Except Failure α) :
    A.ofFrame.Posts f (Walking.ofExcept x) fun ids _ _ => ids = [] :=
  Ledger.Posts.mono (Ledger.posts_ofExcept (L := A.toLedger) x) fun _ _ _ _ hends => hends.1

theorem posts_ofResolving {x : Resolving α} {ends : List InstanceId -> Session -> α -> Prop}
    (h : A.Posts f.session x ends) :
    A.ofFrame.Posts f (Walking.ofResolving x) fun ids f' => ends ids f'.session :=
  Ledger.posts_ofResolving h

theorem posts_ofPreparing {x : Preparing α} {ends : Notes -> α -> Prop}
    (h : noting.Posts ⟨f.session.notes, f.generics⟩ x fun _ b => ends b.notes) :
    A.ofFrame.Posts f (Walking.ofPreparing x)
      fun ids f' a => ids = [] ∧ ends f'.session.notes a :=
  Ledger.posts_ofPreparing (fun _ _ => A.noted) h

theorem posts_ofBinding (x : Generics.Binding α) :
    A.ofFrame.Posts f (Walking.ofBinding x) fun ids _ _ => ids = [] :=
  Ledger.posts_ofBinding (L := A.toLedger) x

theorem posts_within {c : Generics} {x : Walking α}
    {ends : List InstanceId -> Session -> α -> Prop}
    (h : A.ofFrame.Posts ⟨s, c⟩ x fun ids f' => ends ids f'.session) :
    A.Posts s (Walking.within c x) ends :=
  Ledger.posts_within h

/-- A descent keeps an account while the given configurations are active. -/
structure Kept (A : Account env) (active : List NodeId) (down : Descent) : Prop where
  assemble (f : Frame) (root element node : NodeId) :
    A.ofFrame.Posts f (down.assemble ⟨root, element, active⟩ node) fun ids _ x => x.Holds ids
  instantiate (s : Session) (config : NodeId) (unique lazy : Bool) :
    A.Posts s (down.instantiate active config unique lazy) fun ids _ i => i.toList = ids

/-!
# From values to arguments
-/

section Materialize

variable {instantiate : NodeId → (unique lazy : Bool) → Resolving (Option InstanceId)}
  {onItems : List NodeId → Resolving Argument}

theorem posts_materializeWith
    (hinstantiate : forall s config unique lazy,
      A.Posts s (instantiate config unique lazy) fun ids _ i => i.toList = ids)
    (hitems : forall s items, A.Posts s (onItems items) fun ids _ a => a.references true = ids)
    (note : Note) (source : NodeId) :
    A.Posts s (env.materializeWith instantiate onItems note source)
      fun ids _ a => a.references true = ids := by
  unfold Environment.materializeWith
  split
  · exact Ledger.Posts.pure rfl
  · exact Ledger.Posts.pure rfl
  · exact Ledger.Posts.throw
  · exact Ledger.Posts.pure rfl
  · split
    · exact hitems s _
    · split
      · apply Ledger.Posts.bind (hinstantiate s source note.unique note.lazy)
        rintro ids s' i - rfl
        cases i <;> exact Ledger.Posts.pure rfl
      · exact Ledger.Posts.pure rfl

theorem posts_materializeOccurrence
    (hinstantiate : forall s config unique lazy,
      A.Posts s (instantiate config unique lazy) fun ids _ i => i.toList = ids)
    (hitems : forall s items, A.Posts s (onItems items) fun ids _ a => a.references true = ids)
    (v : Occurrence) :
    A.Posts s (env.materializeOccurrence instantiate onItems v)
      fun ids _ a => a.references true = ids := by
  refine Ledger.Posts.bind_get ?_
  apply Ledger.Posts.bind (posts_materializeWith hinstantiate hitems _ _)
  rintro ids s' a - rfl
  refine Ledger.Posts.pure ?_
  rw [List.append_nil]
  split
  · rw [references, if_pos rfl]
  · rfl

theorem posts_materializeWithin
    (hinstantiate : forall s config unique lazy,
      A.Posts s (instantiate config unique lazy) fun ids _ i => i.toList = ids)
    (levels : Nat) (v : Occurrence) :
    A.Posts s (env.materializeWithin instantiate levels v)
      fun ids _ a => a.references true = ids := by
  induction levels generalizing s v with
  | zero => exact posts_materializeOccurrence hinstantiate (fun _ _ => Ledger.Posts.throw) v
  | succ levels ih =>
      refine posts_materializeOccurrence hinstantiate (fun s items => ?_) v
      apply Ledger.Posts.bind (Ledger.Posts.mapM_content (c := references true)
        (fun s item => ih (s := s) (.ofNode item)) items)
      rintro ids s' as - ⟨-, rfl⟩
      refine Ledger.Posts.pure ?_
      rw [references, List.append_nil, flatMap_references]

end Materialize

/-!
# From parameters to values
-/

section Places

variable {active : List NodeId} {root element : NodeId} {down : Descent}

theorem posts_parameterValues (node : NodeId) :
    A.ofFrame.Posts f (env.parameterValues ⟨root, element, active⟩ node)
      fun ids f' vs => ids = [] ∧ Stage.Single f'.session.notes vs := by
  apply Ledger.Posts.bind (posts_ofExcept (Parameter.load env.graph node))
  rintro _ f' p - rfl
  exact posts_ofPreparing (Stage.posts_run _)

theorem posts_referenceValues (hdown : A.Kept active down) (reference : NodeId) (raw : Bool) :
    A.ofFrame.Posts f (env.referenceValues down ⟨root, element, active⟩ reference raw)
      fun ids _ r => r.Holds ids := by
  unfold Environment.referenceValues
  split
  · apply Ledger.Posts.bind (hdown.assemble f root element reference)
    intro ids f' x _ hx
    refine Ledger.Posts.pure (Resolved.Holds.single ?_)
    rw [List.append_nil]
    exact hx.toArgument
  · split
    · refine Ledger.Posts.pure (Resolved.Holds.single ?_)
      unfold Environment.rawValue
      split <;> rfl
    · apply Ledger.Posts.bind (posts_parameterValues reference)
      rintro _ f' vs - ⟨rfl, hsingle⟩
      refine Ledger.Posts.bind_get ?_
      apply Ledger.Posts.bind (posts_ofResolving (Ledger.Posts.mapM_content
        (c := references true)
        (fun s v => posts_materializeWithin hdown.instantiate env.graph.lists.size v) vs))
      rintro ids f'' as - ⟨hlength, rfl⟩
      refine Ledger.Posts.pure ⟨?_, fun hunique => ?_⟩
      · rw [List.append_nil, List.nil_append, flatMap_references]
      · rw [hlength]
        exact hsingle hunique

/-!
# Elements and fields
-/

theorem posts_elementValues (hdown : A.Kept active down) (entry : NodeId) :
    A.ofFrame.Posts f (env.elementValues down ⟨root, element, active⟩ entry)
      fun ids _ as => itemReferences true as = ids := by
  have hreference (f : Frame) (reference : NodeId) (raw : Bool) :
      A.ofFrame.Posts f
        (do return (← env.referenceValues down ⟨root, element, active⟩ reference raw).values)
        fun ids _ as => itemReferences true as = ids := by
    apply Ledger.Posts.bind (posts_referenceValues hdown reference raw)
    intro ids f' r _ hr
    refine Ledger.Posts.pure ?_
    rw [List.append_nil]
    exact hr.values
  unfold Environment.elementValues
  dsimp only
  split
  · apply Ledger.Posts.bind (hdown.assemble f root element entry)
    intro ids f' x _ hx
    cases x with
    | entries es => exact Ledger.Posts.throw
    | positional as | values as | resolved r | value a =>
        refine Ledger.Posts.pure ?_
        rw [List.append_nil]
        exact hx.toPositional
  · split
    · exact hreference f entry false
    · split
      · exact hreference f _ false
      · exact hreference f _ true
      · exact Ledger.Posts.throw

theorem posts_assembleElements (hdown : A.Kept active down) (node : NodeId) :
    A.ofFrame.Posts f (env.assembleElements down ⟨root, element, active⟩ node)
      fun ids _ x => x.Holds ids := by
  unfold Environment.assembleElements
  split
  · exact Ledger.Posts.throw
  · next entries _ =>
      apply Ledger.Posts.bind (Ledger.Posts.mapM_content (c := itemReferences true)
        (fun f entry => posts_elementValues (f := f) hdown entry) entries)
      rintro ids f' ass - ⟨-, rfl⟩
      refine Ledger.Posts.pure ?_
      rw [Assembled.Holds, references, List.append_nil, itemReferences_flatten]

theorem entryReferences_of_mapEntries? {as : List Argument} {es : List (String × Argument)}
    (h : Environment.mapEntries? as = some es) :
    entryReferences true es = itemReferences true as := by
  unfold Environment.mapEntries? at h
  rw [Option.map_eq_some_iff] at h
  rcases h with ⟨ess, hess, rfl⟩
  rw [entryReferences_flatten]
  induction as generalizing ess with
  | nil =>
      cases hess
      rfl
  | cons a rest ih =>
      rw [List.mapM_cons] at hess
      simp only [Option.bind_eq_bind, Option.bind_eq_some_iff, Option.pure_def,
        Option.some.injEq] at hess
      rcases hess with ⟨es, hes, ess', hess', rfl⟩
      rw [List.flatMap_cons, ih ess' hess', itemReferences, references_of_entries? hes]

theorem posts_fieldEntries (hdown : A.Kept active down) (field : NodeId) :
    A.ofFrame.Posts f (env.fieldEntries down ⟨root, element, active⟩ field)
      fun ids _ es => entryReferences true es = ids := by
  unfold Environment.fieldEntries
  dsimp only
  apply Ledger.Posts.bind (hdown.assemble f root element field)
  intro ids f' x _ hx
  have hentries {as : List Argument} (has : itemReferences true as = ids)
      {es : List (String × Argument)} (hmap : Environment.mapEntries? as = some es) :
      entryReferences true es = ids ++ [] := by
    rw [List.append_nil, entryReferences_of_mapEntries? hmap, has]
  cases x with
  | positional as => exact Ledger.Posts.throw
  | entries es =>
      refine Ledger.Posts.pure ?_
      rw [List.append_nil]
      exact hx
  | value a =>
      cases a with
      | map es =>
          refine Ledger.Posts.pure ?_
          rw [Assembled.Holds, references] at hx
          rw [List.append_nil]
          exact hx
      | _ => exact Ledger.Posts.throw
  | values as =>
      dsimp only
      split
      · next es hmap => exact Ledger.Posts.pure (hentries hx hmap)
      · exact Ledger.Posts.throw
  | resolved r =>
      dsimp only
      split
      · next es hmap => exact Ledger.Posts.pure (hentries (Resolved.Holds.values hx) hmap)
      · exact Ledger.Posts.throw

theorem posts_assembleFields (hdown : A.Kept active down) (node : NodeId) :
    A.ofFrame.Posts f (env.assembleFields down ⟨root, element, active⟩ node)
      fun ids _ x => x.Holds ids := by
  unfold Environment.assembleFields
  split
  · exact Ledger.Posts.throw
  · next fields _ =>
      apply Ledger.Posts.bind (Ledger.Posts.mapM_content (c := entryReferences true)
        (fun f field => posts_fieldEntries (f := f) hdown field) fields)
      rintro ids f' ess - ⟨-, rfl⟩
      refine Ledger.Posts.pure ?_
      rw [Assembled.Holds, references, List.append_nil, entryReferences_flatten]

/-!
# Lists
-/

theorem posts_positionalArgument (hdown : A.Kept active down) (item : NodeId) :
    A.ofFrame.Posts f (env.positionalArgument down ⟨root, element, active⟩ item)
      fun ids _ a => a.references true = ids := by
  unfold Environment.positionalArgument
  split
  · apply Ledger.Posts.bind (posts_referenceValues hdown item false)
    intro ids f' r _ hr
    refine Ledger.Posts.pure ?_
    rw [List.append_nil]
    exact hr.collapse
  · apply Ledger.Posts.bind (hdown.assemble f root element item)
    intro ids f' x _ hx
    refine Ledger.Posts.pure ?_
    rw [List.append_nil]
    exact hx.toArgument

theorem posts_assembleList (hdown : A.Kept active down) (node : NodeId) :
    A.ofFrame.Posts f (env.assembleList down ⟨root, element, active⟩ node)
      fun ids _ x => x.Holds ids := by
  apply Ledger.Posts.bind (Ledger.Posts.mapM_content (c := references true)
    (fun f item => posts_positionalArgument (f := f) hdown item) _)
  rintro ids f' as - ⟨-, rfl⟩
  refine Ledger.Posts.pure ?_
  rw [Assembled.Holds, List.append_nil, flatMap_references]

/-!
# Collected entries
-/

theorem posts_entryKey (reference : NodeId) :
    A.ofFrame.Posts f (env.entryKey ⟨root, element, active⟩ reference)
      fun ids _ _ => ids = [] := by
  unfold Environment.entryKey
  split
  · exact Ledger.Posts.pure rfl
  · apply Ledger.Posts.bind (posts_parameterValues reference)
    rintro _ f' vs - ⟨rfl, -⟩
    cases vs with
    | nil => exact Ledger.Posts.throw
    | cons v rest =>
        refine Ledger.Posts.bind_get ?_
        split <;> exact Ledger.Posts.pure rfl

theorem posts_collectedValue (hdown : A.Kept active down) (node : NodeId) (v : Occurrence) :
    A.ofFrame.Posts f (env.collectedValue down ⟨root, element, active⟩ node v)
      fun ids _ a => a.references true = ids := by
  unfold Environment.collectedValue
  split
  · apply Ledger.Posts.bind (posts_referenceValues hdown _ _)
    intro ids f' r _ hr
    refine Ledger.Posts.pure ?_
    rw [List.append_nil]
    exact hr.collapse
  · exact posts_ofResolving
      (posts_materializeWithin hdown.instantiate env.graph.lists.size v)

theorem posts_collectEntries (hdown : A.Kept active down) (node collected : NodeId) :
    A.ofFrame.Posts f (env.collectEntries down ⟨root, element, active⟩ node collected)
      fun ids _ x => x.Holds ids := by
  apply Ledger.Posts.bind (posts_parameterValues collected)
  rintro _ f' vs - ⟨rfl, -⟩
  split
  · apply Ledger.Posts.bind (Ledger.Posts.mapM_content (c := references true)
      (fun f v => posts_collectedValue (f := f) hdown node v) vs)
    rintro ids f'' as - ⟨-, rfl⟩
    refine Ledger.Posts.pure ?_
    rw [Assembled.Holds, List.append_nil, List.nil_append, flatMap_references]
  · next reference _ =>
      have hentry (f : Frame) (v : Occurrence) :
          A.ofFrame.Posts f (do
            let value ← env.collectedValue down ⟨root, v.source, active⟩ node v
            let key ← env.entryKey ⟨root, v.source, active⟩ reference
            return (key, value)) fun ids _ e => e.2.references true = ids := by
        apply Ledger.Posts.bind (posts_collectedValue hdown node v)
        intro ids f' a _ ha
        apply Ledger.Posts.bind (posts_entryKey reference)
        rintro _ f'' key - rfl
        refine Ledger.Posts.pure ?_
        rw [List.append_nil, List.append_nil]
        exact ha
      apply Ledger.Posts.bind (Ledger.Posts.mapM_content
        (c := fun e : String × Argument => e.2.references true) hentry vs)
      rintro ids f'' es - ⟨-, rfl⟩
      refine Ledger.Posts.pure ?_
      rw [Assembled.Holds, List.append_nil, List.nil_append, flatMap_entryReferences]

/-!
# Definitions
-/

theorem entryReferences_keyedEntry {r : Resolved} {ids : List InstanceId} (h : r.Holds ids)
    (key : String) : entryReferences true (Environment.keyedEntry key r) = ids := by
  unfold Environment.keyedEntry
  split
  · next hempty =>
      rw [← h.values, List.isEmpty_iff.mp hempty]
      rfl
  · rw [entryReferences, entryReferences, List.append_nil]
    exact h.collapse

theorem posts_assembleKeyValue (hdown : A.Kept active down) (node : NodeId) :
    A.ofFrame.Posts f (env.assembleKeyValue down ⟨root, element, active⟩ node)
      fun ids _ x => x.Holds ids := by
  unfold Environment.assembleKeyValue
  split
  · exact posts_collectEntries hdown node _
  · apply Ledger.Posts.bind (posts_ofExcept (env.literalKey? node))
    rintro _ f' key - rfl
    split
    · exact Ledger.Posts.throw
    · apply Ledger.Posts.bind (posts_referenceValues hdown _ _)
      intro ids f'' r _ hr
      cases key with
      | none =>
          refine Ledger.Posts.pure ?_
          rw [List.append_nil]
          exact hr
      | some key =>
          refine Ledger.Posts.pure ?_
          rw [List.append_nil]
          exact entryReferences_keyedEntry hr key

theorem posts_assembleShape (hdown : A.Kept active down) (node : NodeId) :
    A.ofFrame.Posts f (env.assembleShape down ⟨root, element, active⟩ node)
      fun ids _ x => x.Holds ids := by
  unfold Environment.assembleShape
  split
  · exact posts_assembleElements hdown node
  · exact posts_assembleFields hdown node
  · exact posts_assembleList hdown node
  · exact posts_assembleKeyValue hdown node

end Places

theorem posts_resolveArguments {assemble : Place → NodeId → Walking Assembled}
    {active : List NodeId} {config : NodeId}
    (h : forall f node, A.ofFrame.Posts f (assemble ⟨config, config, active⟩ node)
      fun ids _ x => x.Holds ids)
    (component : Component) :
    A.Posts s (env.resolveArguments assemble active config component)
      fun ids _ as => itemReferences true as = ids := by
  apply posts_within
  apply Ledger.Posts.bind (posts_ofBinding _)
  rintro _ f _ - rfl
  split
  · exact Ledger.Posts.pure rfl
  · apply Ledger.Posts.bind (h f _)
    intro ids f' x _ hx
    refine Ledger.Posts.pure ?_
    rw [List.append_nil]
    exact hx.toPositional

/-!
# Requests
-/

theorem posts_instantiateWith
    {arguments : List NodeId → NodeId → Component → Resolving (List Argument)}
    {active : List NodeId}
    (hgrows : forall s t config component answer,
      outcome (arguments (config :: active) config component) s = (answer, t) -> s.Grows t)
    (harguments : forall s config component,
      A.Posts s (arguments (config :: active) config component)
        fun ids _ as => itemReferences true as = ids)
    (config : NodeId) (unique lazy : Bool) :
    A.Posts s (env.instantiateWith arguments active config unique lazy)
      fun ids _ i => i.toList = ids := by
  intro i t hrun
  refine ⟨i.toList, ?_, rfl⟩
  by_cases hactive : config ∈ active
  · rw [Environment.outcome_instantiateWith_active hactive] at hrun
    cases hrun
    cases lazy with
    | false => exact A.refl s
    | true =>
        cases hshared : s.shared[config]? with
        | none => exact A.refl s
        | some id => exact A.known hshared
  by_cases hnew : unique = true ∨ s.shared[config]? = none
  · rcases Environment.instantiateWith_new_ok hactive hnew hrun with
      ⟨component, resolved, s', -, hinner, rfl, rfl⟩
    rcases harguments _ config component resolved s' hinner with ⟨ids, hmoves, rfl⟩
    exact A.made hnew (hgrows _ _ _ _ _ hinner) hmoves
  · rw [not_or, Bool.not_eq_true] at hnew
    rcases hnew with ⟨rfl, hshared⟩
    rcases Option.ne_none_iff_exists'.mp hshared with ⟨id, hid⟩
    rw [Environment.outcome_instantiateWith_shared hactive hid] at hrun
    cases hrun
    exact A.known hid

theorem kept_within (A : Account env) (levels : Nat) (active : List NodeId) :
    A.Kept active ⟨env.assembleWithin levels, env.instantiateWithin levels⟩ := by
  induction levels generalizing active with
  | zero =>
      refine ⟨fun _ _ _ _ => Ledger.Posts.throw, fun s config unique lazy => ?_⟩
      rw [Environment.instantiateWithin_eq]
      exact posts_instantiateWith (fun _ _ _ _ _ => Environment.grows_argumentsBy 0)
        (fun _ _ _ => Ledger.Posts.throw) config unique lazy
  | succ levels ih =>
      refine ⟨fun _ _ _ node => posts_assembleShape (ih active) node,
        fun s config unique lazy => ?_⟩
      rw [Environment.instantiateWithin_eq]
      refine posts_instantiateWith (fun _ _ _ _ _ => Environment.grows_argumentsBy (levels + 1))
        (fun s config component => ?_) config unique lazy
      rw [Environment.argumentsBy, Environment.descentBy_instantiateWith]
      exact posts_resolveArguments (fun f node => (ih _).assemble f _ _ node) component

theorem moves_instantiateWithin (A : Account env) (levels : Nat) {active : List NodeId}
    {config : NodeId} {unique lazy : Bool} {s t : Session} {i : Option InstanceId}
    (h : outcome (env.instantiateWithin levels active config unique lazy) s = (.ok i, t)) :
    A.moves s i.toList t := by
  rcases (A.kept_within levels active).instantiate s config unique lazy i t h with
    ⟨_, hmoves, rfl⟩
  exact hmoves

end Account
end Wiring
