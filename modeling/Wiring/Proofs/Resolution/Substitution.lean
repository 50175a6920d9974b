import Wiring.Proofs.Parameter.Substitution
import Wiring.Proofs.Resolution.Frame
import Wiring.Proofs.Resolution.Growth

/-!
# Substituted arguments

A value of a parameter that is a variable becomes a literal.  The items of a list
are no values of the parameter, but parts of one, and are taken as they stand: a
variable among them becomes its IRI.  No definition turns what it is given into the
IRI of another variable.
-/

namespace Wiring

open Vocabulary

namespace Environment

/-!
# Arguments
-/

/-- What an item of a list may become: an IRI only if it is that of the item. -/
inductive Held (env : Environment) : NodeId → Argument → Prop where
  | undefined {n : NodeId} : Held env n .undefined
  | literal {n : NodeId} (x : Scalar) : Held env n (.literal x)
  | reference {n : NodeId} (id : InstanceId) : Held env n (.reference id)
  | iri {n : NodeId} {t : Term} (ht : env.graph.term? n = some t) : Held env n (.iri t.text)
  | list {n : NodeId} {items : List NodeId} {as : List Argument}
      (hitems : env.graph.list? n = some items) (has : List.Forall₂ (Held env) items as) :
      Held env n (.list as)

/-- An argument in which the IRI of a variable occurs as an item of a list of the graph only, and
this list is no variable. -/
inductive Substituted (env : Environment) : Argument → Prop where
  | undefined : Substituted env .undefined
  | literal (x : Scalar) : Substituted env (.literal x)
  | reference (id : InstanceId) : Substituted env (.reference id)
  | iri {n : NodeId} {t : Term} (ht : env.graph.term? n = some t)
      (hn : ¬ env.graph.isA n Om.variableType = true) : Substituted env (.iri t.text)
  | lazy {a : Argument} (ha : Substituted env a) : Substituted env (.lazy a)
  | items {n : NodeId} {items : List NodeId} {as : List Argument}
      (hitems : env.graph.list? n = some items) (hn : ¬ env.graph.isA n Om.variableType = true)
      (has : List.Forall₂ (Held env) items as) : Substituted env (.list as)
  | list {as : List Argument} (has : forall a, a ∈ as -> Substituted env a) :
      Substituted env (.list as)
  | map {es : List (String × Argument)} (hes : forall e, e ∈ es -> Substituted env e.2) :
      Substituted env (.map es)

end Environment

def Resolved.Substituted (env : Environment) (r : Resolved) : Prop :=
  forall a, a ∈ r.values -> env.Substituted a

def Assembled.Substituted (env : Environment) : Assembled → Prop
  | positional as | values as => forall a, a ∈ as -> env.Substituted a
  | value a => env.Substituted a
  | entries es => forall e, e ∈ es -> env.Substituted e.2
  | resolved r => r.Substituted env

variable {env : Environment}

theorem Resolved.Substituted.collapse {r : Resolved} (h : r.Substituted env) :
    env.Substituted r.collapse := by
  rcases r with ⟨values, unique⟩
  cases values with
  | nil => exact .undefined
  | cons a rest =>
      cases unique with
      | false => exact .list h
      | true => exact h a List.mem_cons_self

namespace Assembled.Substituted

variable {x : Assembled}

theorem toArgument (h : x.Substituted env) : env.Substituted x.toArgument := by
  cases x with
  | positional as | values as => exact .list h
  | value a => exact h
  | entries es => exact .map h
  | resolved r => exact Resolved.Substituted.collapse h

theorem toPositional (h : x.Substituted env) : forall a, a ∈ x.toPositional -> env.Substituted a := by
  cases x with
  | positional as | values as => exact h
  | value a => exact List.forall_mem_singleton.mpr h
  | entries es => exact List.forall_mem_singleton.mpr (.map h)
  | resolved r => exact h

end Assembled.Substituted

namespace Environment

/-!
# Sessions
-/

def Settled (env : Environment) (s : Session) : Prop :=
  forall (i : InstanceId) (x : Plan.Instance), s.instances[i]? = some x ->
    forall a, a ∈ x.arguments -> env.Substituted a

def settling (env : Environment) : Ledger Session where
  moves s _ t := Continues s.notes t.notes ∧ (env.Settled s -> env.Settled t)
  refl _ := ⟨Continues.refl _, id⟩
  trans h h' := ⟨h.1.trans h'.1, h'.2 ∘ h.2⟩

structure Settles (env : Environment) (down : Descent) : Prop where
  assemble (f : Frame) (place : Place) (node : NodeId) :
    env.settling.ofFrame.Posts f (down.assemble place node) fun _ _ x => x.Substituted env
  instantiate (s : Session) (active : List NodeId) (config : NodeId) (unique lazy : Bool) :
    env.settling.Posts s (down.instantiate active config unique lazy) fun _ _ _ => True

variable {s : Session} {f : Frame}

theorem noted_settling (env : Environment) (s : Session) (n : Notes) (h : Continues s.notes n) :
    env.settling.moves s [] { s with notes := n } :=
  ⟨h, fun hs => hs⟩

/-!
# From values to arguments
-/

section Materialize

variable {instantiate : NodeId → (unique lazy : Bool) → Resolving (Option InstanceId)}
  {onItems : List NodeId → Resolving Argument}

theorem posts_materializeWith {P : Argument → Prop} {note : Note} {source : NodeId}
    (hliteral : forall x, P (.literal x)) (hundefined : P .undefined)
    (hreference : forall id, P (.reference id))
    (hinstantiate : forall s config unique lazy,
      env.settling.Posts s (instantiate config unique lazy) fun _ _ _ => True)
    (hitems : note.literal = none -> forall items, env.graph.list? source = some items ->
      env.settling.Posts s (onItems items) fun _ _ a => P a)
    (hiri : note.literal = none -> forall t, env.graph.term? source = some t -> P (.iri t.text)) :
    env.settling.Posts s (env.materializeWith instantiate onItems note source) fun _ _ a => P a := by
  unfold materializeWith
  split
  · exact .pure (hliteral _)
  · exact .pure (hliteral _)
  · exact .throw
  · exact .pure (hliteral _)
  · next hnote ht =>
      split
      · next items hlist => exact hitems hnote items hlist
      · split
        · apply Ledger.Posts.bind (hinstantiate s source note.unique note.lazy)
          intro _ s' i _ _
          cases i with
          | none => exact .pure hundefined
          | some id => exact .pure (hreference id)
        · exact .pure (hiri hnote _ ht)

theorem posts_held
    (hinstantiate : forall s config unique lazy,
      env.settling.Posts s (instantiate config unique lazy) fun _ _ _ => True)
    (levels : Nat) (n : NodeId) :
    env.settling.Posts s (env.materializeWithin instantiate levels (.ofNode n))
      fun _ _ a => env.Held n a := by
  have hoccurrence (s : Session) (n : NodeId) {onItems : List NodeId → Resolving Argument}
      (hitems : forall items, env.graph.list? n = some items ->
        env.settling.Posts s (onItems items) fun _ _ a => env.Held n a) :
      env.settling.Posts s (env.materializeOccurrence instantiate onItems (.ofNode n))
        fun _ _ a => env.Held n a := by
    refine Ledger.Posts.bind_get ?_
    apply Ledger.Posts.bind (posts_materializeWith (P := env.Held n) .literal .undefined .reference
      hinstantiate (fun _ => hitems) fun _ t ht => .iri ht)
    intro _ s' a _ ha
    exact .pure ha
  induction levels generalizing n s with
  | zero => exact hoccurrence s n fun _ _ => .throw
  | succ levels ih =>
      refine hoccurrence s n fun items hlist => ?_
      apply Ledger.Posts.bind (Ledger.Posts.mapM_each₂ (fun s item => ih (s := s) item) items)
      intro _ s' as _ has
      exact .pure (.list hlist has)

theorem posts_materialize
    (hinstantiate : forall s config unique lazy,
      env.settling.Posts s (instantiate config unique lazy) fun _ _ _ => True)
    {v : Occurrence} (hv : s.notes.Replaced env.graph env.supplied v) :
    env.settling.Posts s (env.materialize instantiate v) fun _ _ a => env.Substituted a := by
  have hother (hliteral : (s.notes.get v).literal = none) :
      ¬ env.graph.isA v.source Om.variableType = true := by
    intro hvariable
    rcases hv.literal hvariable with ⟨l, -, hl, -⟩
    rw [hliteral] at hl
    cases hl
  have hoccurrence {onItems : List NodeId → Resolving Argument}
      (hitems : forall items, env.settling.Posts s (onItems items) fun _ _ a =>
        exists as, a = .list as ∧ List.Forall₂ env.Held items as) :
      env.settling.Posts s (env.materializeOccurrence instantiate onItems v)
        fun _ _ a => env.Substituted a := by
    refine Ledger.Posts.bind_get ?_
    apply Ledger.Posts.bind (posts_materializeWith (P := env.Substituted) .literal .undefined
      .reference hinstantiate (fun hliteral items hlist => ?_)
      fun hliteral t ht => .iri ht (hother hliteral))
    · intro _ s' a _ ha
      refine .pure ?_
      split
      · exact .lazy ha
      · exact ha
    · apply Ledger.Posts.mono (hitems items)
      rintro _ s' _ - ⟨as, rfl, has⟩
      exact .items hlist (hother hliteral) has
  unfold materialize
  cases env.graph.lists.size with
  | zero => exact hoccurrence fun _ => .throw
  | succ levels =>
      refine hoccurrence fun items => ?_
      apply Ledger.Posts.bind
        (Ledger.Posts.mapM_each₂ (fun s item => posts_held hinstantiate levels item) items)
      intro _ s' as _ has
      exact .pure ⟨as, rfl, has⟩

end Materialize

/-!
# Definitions
-/

section Assemble

variable {down : Descent} {place : Place}

def sources (env : Environment) (place : Place) (p : Parameter) : List NodeId :=
  (env.graph.objects place.element p.id).filter fun v => v ≠ place.element

def site (env : Environment) (place : Place) (p : Parameter) : Site :=
  ⟨env.graph, env.supplied, place.root, place.element, p⟩

theorem posts_parameterValues (node : NodeId) :
    env.settling.ofFrame.Posts f (env.parameterValues place node) fun _ f' vs =>
      exists p, Parameter.load env.graph node = .ok p ∧
        Stage.Prepared (env.site place p) (env.sources place p) f'.session.notes vs := by
  apply Ledger.Posts.bind (Ledger.posts_ofExcept (Parameter.load env.graph node))
  rintro _ f' p - ⟨-, hp⟩
  have hposts := Ledger.posts_ofPreparing (f := f') env.noted_settling
    (Stage.posts_run_substituted (env.site place p) (env.sources place p))
  apply Ledger.Posts.mono hposts
  rintro _ f'' vs - ⟨-, hvs⟩
  exact ⟨p, hp, hvs⟩

theorem posts_parameterValues_replaced (node : NodeId) :
    env.settling.ofFrame.Posts f (env.parameterValues place node) fun _ f' vs =>
      forall v, v ∈ vs -> f'.session.notes.Replaced env.graph env.supplied v := by
  apply Ledger.Posts.mono (posts_parameterValues node)
  rintro _ f' vs - ⟨p, -, nodes, -, hvs⟩ v hv
  exact (hvs v hv).2

theorem posts_materialize_all (hdown : env.Settles down) {active : List NodeId}
    {vs : List Occurrence} (hvs : forall v, v ∈ vs -> s.notes.Replaced env.graph env.supplied v) :
    env.settling.Posts s (vs.mapM (env.materialize (down.instantiate active))) fun _ _ as =>
      forall a, a ∈ as -> env.Substituted a :=
  Ledger.Posts.mapM_forall
    (R := fun s v => s.notes.Replaced env.graph env.supplied v) (P := env.Substituted)
    (fun _ _ _ _ hmoves hv => hv.later hmoves.1)
    (fun _ _ hv => posts_materialize (fun s => hdown.instantiate s active) hv) hvs

theorem posts_referenceValues (hdown : env.Settles down) (reference : NodeId) (raw : Bool) :
    env.settling.ofFrame.Posts f (env.referenceValues down place reference raw)
      fun _ _ r => r.Substituted env := by
  unfold referenceValues
  split
  · apply Ledger.Posts.bind (hdown.assemble f place reference)
    intro _ f' x _ hx
    exact .pure (List.forall_mem_singleton.mpr hx.toArgument)
  · split
    · refine .pure (List.forall_mem_singleton.mpr ?_)
      unfold rawValue
      split <;> exact .literal _
    · apply Ledger.Posts.bind (posts_parameterValues_replaced reference)
      intro _ f' vs _ hvs
      refine Ledger.Posts.bind_get ?_
      apply Ledger.Posts.bind (Ledger.posts_ofResolving (posts_materialize_all hdown hvs))
      intro _ f'' as _ has
      exact .pure has

theorem posts_elementValues (hdown : env.Settles down) (entry : NodeId) :
    env.settling.ofFrame.Posts f (env.elementValues down place entry) fun _ _ as =>
      forall a, a ∈ as -> env.Substituted a := by
  have hreference (f : Frame) (reference : NodeId) (raw : Bool) :
      env.settling.ofFrame.Posts f
        (do return (← env.referenceValues down place reference raw).values)
        fun _ _ as => forall a, a ∈ as -> env.Substituted a := by
    apply Ledger.Posts.bind (posts_referenceValues hdown reference raw)
    intro _ f' r _ hr
    exact .pure hr
  unfold elementValues
  dsimp only
  split
  · apply Ledger.Posts.bind (hdown.assemble f place entry)
    intro _ f' x _ hx
    cases x with
    | entries es => exact .throw
    | positional as | values as | resolved r | value a => exact .pure hx.toPositional
  · split
    · exact hreference f entry false
    · split
      · exact hreference f _ false
      · exact hreference f _ true
      · exact .throw

theorem posts_assembleElements (hdown : env.Settles down) (node : NodeId) :
    env.settling.ofFrame.Posts f (env.assembleElements down place node)
      fun _ _ x => x.Substituted env := by
  unfold assembleElements
  split
  · exact .throw
  · apply Ledger.Posts.bind
      (Ledger.Posts.mapM_each (fun f entry => posts_elementValues (f := f) hdown entry) _)
    intro _ f' ass _ hass
    refine .pure (.list fun a ha => ?_)
    rcases List.mem_flatten.mp ha with ⟨as, has, ha⟩
    exact hass as has a ha

theorem exists_of_mem_mapEntries? {as : List Argument} {es : List (String × Argument)}
    (h : mapEntries? as = some es) {e : String × Argument} (he : e ∈ es) :
    exists fs, .map fs ∈ as ∧ e ∈ fs := by
  unfold mapEntries? at h
  rw [Option.map_eq_some_iff] at h
  rcases h with ⟨ess, hess, rfl⟩
  rcases List.mem_flatten.mp he with ⟨fs, hfs, hmem⟩
  refine ⟨fs, ?_, hmem⟩
  clear he
  induction as generalizing ess with
  | nil =>
      cases hess
      cases hfs
  | cons a rest ih =>
      rw [List.mapM_cons] at hess
      simp only [Option.bind_eq_bind, Option.bind_eq_some_iff, Option.pure_def,
        Option.some.injEq] at hess
      rcases hess with ⟨es, ha, ess', hess', rfl⟩
      rcases List.mem_cons.mp hfs with rfl | hfs
      · cases a with
        | map entries =>
            cases ha
            exact List.mem_cons_self
        | _ => cases ha
      · exact List.mem_cons_of_mem a (ih ess' hess' hfs)

theorem substituted_of_mapEntries? {as : List Argument} {es : List (String × Argument)}
    (h : mapEntries? as = some es) (has : forall a, a ∈ as -> env.Substituted a)
    (e : String × Argument) (he : e ∈ es) : env.Substituted e.2 := by
  rcases exists_of_mem_mapEntries? h he with ⟨fs, hfs, he⟩
  cases has _ hfs with
  | map hes => exact hes e he

theorem posts_fieldEntries (hdown : env.Settles down) (field : NodeId) :
    env.settling.ofFrame.Posts f (env.fieldEntries down place field) fun _ _ es =>
      forall e, e ∈ es -> env.Substituted e.2 := by
  unfold fieldEntries
  dsimp only
  apply Ledger.Posts.bind (hdown.assemble f place field)
  intro _ f' x _ hx
  cases x with
  | positional as => exact .throw
  | entries es => exact .pure hx
  | value a =>
      cases a with
      | map es =>
          cases hx with
          | map hes => exact .pure hes
      | _ => exact .throw
  | values as =>
      dsimp only
      split
      · next hmap => exact .pure (substituted_of_mapEntries? hmap hx)
      · exact .throw
  | resolved r =>
      dsimp only
      split
      · next hmap => exact .pure (substituted_of_mapEntries? hmap hx)
      · exact .throw

theorem posts_assembleFields (hdown : env.Settles down) (node : NodeId) :
    env.settling.ofFrame.Posts f (env.assembleFields down place node)
      fun _ _ x => x.Substituted env := by
  unfold assembleFields
  split
  · exact .throw
  · apply Ledger.Posts.bind
      (Ledger.Posts.mapM_each (fun f field => posts_fieldEntries (f := f) hdown field) _)
    intro _ f' ess _ hess
    refine .pure (.map fun e he => ?_)
    rcases List.mem_flatten.mp he with ⟨es, hes, he⟩
    exact hess es hes e he

theorem posts_positionalArgument (hdown : env.Settles down) (item : NodeId) :
    env.settling.ofFrame.Posts f (env.positionalArgument down place item)
      fun _ _ a => env.Substituted a := by
  unfold positionalArgument
  split
  · apply Ledger.Posts.bind (posts_referenceValues hdown item false)
    intro _ f' r _ hr
    exact .pure hr.collapse
  · apply Ledger.Posts.bind (hdown.assemble f place item)
    intro _ f' x _ hx
    exact .pure hx.toArgument

theorem posts_assembleList (hdown : env.Settles down) (node : NodeId) :
    env.settling.ofFrame.Posts f (env.assembleList down place node)
      fun _ _ x => x.Substituted env := by
  apply Ledger.Posts.bind
    (Ledger.Posts.mapM_each (fun f item => posts_positionalArgument (f := f) hdown item) _)
  intro _ f' as _ has
  exact .pure has

theorem posts_entryKey (reference : NodeId) :
    env.settling.ofFrame.Posts f (env.entryKey place reference) fun _ _ _ => True := by
  unfold entryKey
  split
  · exact .pure trivial
  · apply Ledger.Posts.bind (posts_parameterValues_replaced reference)
    intro _ f' vs _ _
    cases vs with
    | nil => exact .throw
    | cons v rest =>
        refine Ledger.Posts.bind_get ?_
        split <;> exact .pure trivial

theorem posts_collectedValue (hdown : env.Settles down) (node : NodeId) {v : Occurrence}
    (hv : f.session.notes.Replaced env.graph env.supplied v) :
    env.settling.ofFrame.Posts f (env.collectedValue down place node v)
      fun _ _ a => env.Substituted a := by
  unfold collectedValue
  split
  · apply Ledger.Posts.bind (posts_referenceValues hdown _ _)
    intro _ f' r _ hr
    exact .pure hr.collapse
  · exact Ledger.posts_ofResolving
      (posts_materialize (fun s => hdown.instantiate s place.active) hv)

theorem posts_collectEntries (hdown : env.Settles down) (node collected : NodeId) :
    env.settling.ofFrame.Posts f (env.collectEntries down place node collected)
      fun _ _ x => x.Substituted env := by
  have hlater (f g : Frame) (ids : List InstanceId) (v : Occurrence)
      (hmoves : env.settling.ofFrame.moves f ids g)
      (hv : f.session.notes.Replaced env.graph env.supplied v) :
      g.session.notes.Replaced env.graph env.supplied v := hv.later hmoves.1
  apply Ledger.Posts.bind (posts_parameterValues_replaced collected)
  intro _ f' vs _ hvs
  split
  · apply Ledger.Posts.bind (Ledger.Posts.mapM_forall (P := env.Substituted) hlater
      (fun f v hv => posts_collectedValue hdown node hv) hvs)
    intro _ f'' as _ has
    exact .pure has
  · next reference _ =>
      have hentry (f : Frame) (v : Occurrence)
          (hv : f.session.notes.Replaced env.graph env.supplied v) :
          env.settling.ofFrame.Posts f (do
            let place := { place with element := v.source }
            let value ← env.collectedValue down place node v
            let key ← env.entryKey place reference
            return (key, value)) fun _ _ e => env.Substituted e.2 := by
        apply Ledger.Posts.bind (posts_collectedValue hdown node hv)
        intro _ f' a _ ha
        apply Ledger.Posts.bind (posts_entryKey reference)
        intro _ f'' key _ _
        exact .pure ha
      apply Ledger.Posts.bind (Ledger.Posts.mapM_forall
        (P := fun e : String × Argument => env.Substituted e.2) hlater hentry hvs)
      intro _ f'' es _ hes
      exact .pure hes

theorem posts_assembleKeyValue (hdown : env.Settles down) (node : NodeId) :
    env.settling.ofFrame.Posts f (env.assembleKeyValue down place node)
      fun _ _ x => x.Substituted env := by
  unfold assembleKeyValue
  split
  · exact posts_collectEntries hdown node _
  · apply Ledger.Posts.bind (Ledger.posts_ofExcept (env.literalKey? node))
    intro _ f' key _ _
    split
    · exact .throw
    · apply Ledger.Posts.bind (posts_referenceValues hdown _ _)
      intro _ f'' r _ hr
      cases key with
      | none => exact .pure hr
      | some key =>
          refine .pure fun e he => ?_
          unfold keyedEntry at he
          split at he
          · cases he
          · rcases List.mem_singleton.mp he with rfl
            exact hr.collapse

theorem posts_assembleShape (hdown : env.Settles down) (node : NodeId) :
    env.settling.ofFrame.Posts f (env.assembleShape down place node)
      fun _ _ x => x.Substituted env := by
  unfold assembleShape
  split
  · exact posts_assembleElements hdown node
  · exact posts_assembleFields hdown node
  · exact posts_assembleList hdown node
  · exact posts_assembleKeyValue hdown node

end Assemble

/-!
# Requests
-/

theorem posts_resolveArguments {down : Descent} (hdown : env.Settles down)
    (active : List NodeId) (config : NodeId) (component : Component) :
    env.settling.Posts s (env.resolveArguments down.assemble active config component)
      fun _ _ as => forall a, a ∈ as -> env.Substituted a := by
  apply Ledger.posts_within
  apply Ledger.Posts.bind (Ledger.posts_ofBinding _)
  intro _ f _ _ _
  split
  · exact .pure fun _ ha => absurd ha List.not_mem_nil
  · apply Ledger.Posts.bind (hdown.assemble f _ _)
    intro _ f' x _ hx
    exact .pure hx.toPositional

theorem Settled.setArguments (h : env.Settled s) (id : InstanceId) {resolved : List Argument}
    (hresolved : forall a, a ∈ resolved -> env.Substituted a) :
    env.Settled (s.setArguments id resolved) := by
  intro i x hx a ha
  rw [Session.getElem?_setArguments] at hx
  split at hx
  · rw [Option.map_eq_some_iff] at hx
    rcases hx with ⟨y, -, rfl⟩
    exact hresolved a ha
  · exact h i x hx a ha

theorem Settled.opened (h : env.Settled s) (config : NodeId) (component : Component)
    (unique : Bool) : env.Settled (env.opened s config component unique) := by
  intro i x hx a ha
  rw [getElem?_opened] at hx
  split at hx
  · cases hx
    cases ha
  · exact h i x hx a ha

theorem posts_instantiateWith
    {arguments : List NodeId → NodeId → Component → Resolving (List Argument)}
    (harguments : forall s active config component,
      env.settling.Posts s (arguments active config component)
        fun _ _ as => forall a, a ∈ as -> env.Substituted a)
    (active : List NodeId) (config : NodeId) (unique lazy : Bool) :
    env.settling.Posts s (env.instantiateWith arguments active config unique lazy)
      fun _ _ _ => True := by
  intro i t hrun
  by_cases hactive : config ∈ active
  · rw [outcome_instantiateWith_active hactive] at hrun
    cases hrun
    exact ⟨[], env.settling.refl s, trivial⟩
  by_cases hnew : unique = true ∨ s.shared[config]? = none
  · rcases instantiateWith_new_ok hactive hnew hrun with
      ⟨component, resolved, s', -, hinner, rfl, rfl⟩
    rcases harguments _ _ _ _ _ _ hinner with ⟨-, ⟨hnotes, hsettled⟩, hresolved⟩
    rw [notes_opened] at hnotes
    exact ⟨[], ⟨hnotes, fun hs => (hsettled (hs.opened _ _ _)).setArguments _ hresolved⟩, trivial⟩
  · rw [not_or, Bool.not_eq_true] at hnew
    rcases hnew with ⟨rfl, hshared⟩
    rcases Option.ne_none_iff_exists'.mp hshared with ⟨id, hid⟩
    rw [outcome_instantiateWith_shared hactive hid] at hrun
    cases hrun
    exact ⟨[], env.settling.refl s, trivial⟩

theorem settles_within (env : Environment) (levels : Nat) :
    env.Settles ⟨env.assembleWithin levels, env.instantiateWithin levels⟩ := by
  induction levels with
  | zero =>
      refine ⟨fun _ _ _ => .throw, fun s active config unique lazy => ?_⟩
      exact posts_instantiateWith (fun _ _ _ _ => .throw) active config unique lazy
  | succ levels ih =>
      refine ⟨fun f place node => posts_assembleShape ih node,
        fun s active config unique lazy => ?_⟩
      exact posts_instantiateWith (fun _ active config component =>
        posts_resolveArguments ih active config component) active config unique lazy

theorem settled_resolve {s t : Session} {config : NodeId} {id : InstanceId}
    (h : outcome (env.resolve config) s = (.ok id, t)) (hs : env.Settled s) : env.Settled t := by
  have hposts : env.settling.Posts s (env.resolve config) fun _ _ _ => True := by
    apply Ledger.Posts.bind ((env.settles_within env.depthLimit).instantiate s [] config false false)
    intro _ s' i _ _
    cases i with
    | none => exact .throw
    | some id => exact .pure trivial
  rcases hposts id t h with ⟨-, ⟨-, hsettled⟩, -⟩
  exact hsettled hs

end Environment
end Wiring
