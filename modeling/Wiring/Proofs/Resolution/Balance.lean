import Wiring.Proofs.Resolution.Guard
import Wiring.Proofs.Resolution.History

/-!
# Balance

A guarded walk leaves its guard as it was, and otherwise does what the walk does that
is told what its guard says.  This holds of each step at each depth, whether or not
the step fails.
-/

namespace Wiring
namespace Guarded

variable {σ α β : Type} {k : Guard} {env : Environment}

def Follows (k : Guard) (x : Guarded σ α) (y : ExceptT Failure (StateM σ) α) : Prop :=
  forall s, outcome x (s, k) = ((outcome y s).1, (outcome y s).2, k)

namespace Follows

variable {x : Guarded σ α} {y : ExceptT Failure (StateM σ) α}

theorem pure (a : α) : Follows k (Pure.pure a : Guarded σ α) (Pure.pure a) :=
  fun _ => rfl

theorem throw (e : Failure) : Follows k (throw e : Guarded σ α) (throw e) :=
  fun _ => rfl

theorem lift (y : ExceptT Failure (StateM σ) α) : Follows k (Guarded.lift y) y :=
  fun _ => rfl

theorem bind {f : α -> Guarded σ β} {g : α -> ExceptT Failure (StateM σ) β} (h : Follows k x y)
    (hfg : forall a, Follows k (f a) (g a)) : Follows k (x >>= f) (y >>= g) := by
  intro s
  rw [outcome_bind, outcome_bind, h s]
  rcases outcome y s with ⟨e | a, s'⟩
  · rfl
  · exact hfg a s'

theorem map (f : α -> β) (h : Follows k x y) : Follows k (f <$> x) (f <$> y) := by
  rw [map_eq_pure_bind, map_eq_pure_bind]
  exact h.bind fun a => pure (f a)

theorem mapM {f : α -> Guarded σ β} {g : α -> ExceptT Failure (StateM σ) β}
    (hfg : forall a, Follows k (f a) (g a)) (as : List α) : Follows k (as.mapM f) (as.mapM g) := by
  induction as with
  | nil => exact pure []
  | cons a rest ih =>
      rw [List.mapM_cons, List.mapM_cons]
      exact (hfg a).bind fun b => ih.bind fun bs => pure (b :: bs)

theorem ofResolving {x : Guarded Session α} {y : Resolving α} (h : Follows k x y) :
    Follows k (Guarded.ofResolving x) (Walking.ofResolving y) := by
  intro f
  change (fun r : Except Failure α × Session × Guard =>
    (r.1, ({ f with session := r.2.1 } : Frame), r.2.2)) (outcome x (f.session, k)) = _
  rw [h f.session]
  rfl

theorem within {c : Generics} {x : Guarded Frame α} {y : Walking α} (h : Follows k x y) :
    Follows k (Guarded.within c x) (Walking.within c y) := by
  intro s
  change (fun r : Except Failure α × Frame × Guard => (r.1, r.2.1.session, r.2.2))
    (outcome x (⟨s, c⟩, k)) = _
  rw [h ⟨s, c⟩]
  rfl

theorem between {first last : Guard -> Guard} (hlast : last (first k) = k)
    (h : Follows (first k) x y) : Follows k (Guarded.between first x last) y := by
  intro s
  change (fun r : Except Failure α × σ × Guard => (r.1, r.2.1, last r.2.2))
    (outcome x (s, first k)) = _
  rw [h s]
  dsimp only
  rw [hlast]

theorem bind_guard {f : Guard -> Guarded σ α} (h : Follows k (f k) y) :
    Follows k (guard >>= f) y :=
  h

theorem descend (node : NodeId) (hdepth : k.depth < env.depthLimit) (h : Follows k.down x y) :
    Follows k (Guarded.descend env node x) y := by
  refine bind_guard ?_
  rw [if_neg (Nat.not_le.mpr hdepth)]
  exact between k.up_down h

theorem descend_too_deep (node : NodeId) (hdepth : env.depthLimit ≤ k.depth) :
    Follows k (Guarded.descend env node x)
      (MonadExcept.throw (env.depthFailure node) : ExceptT Failure (StateM σ) α) := by
  refine bind_guard ?_
  rw [if_pos hdepth]
  exact throw _

end Follows

structure Descent.Follows (k : Guard) (down : Descent) (down' : Wiring.Descent) : Prop where
  assemble (root element node : NodeId) :
    Guarded.Follows k (down.assemble root element node)
      (down'.assemble ⟨root, element, k.active⟩ node)
  instantiate (config : NodeId) (unique lazy : Bool) :
    Guarded.Follows k (down.instantiate config unique lazy)
      (down'.instantiate k.active config unique lazy)

/-!
# From values to arguments
-/

section Materialize

variable {instantiate : NodeId → (unique lazy : Bool) → Guarded Session (Option InstanceId)}
  {instantiate' : NodeId → (unique lazy : Bool) → Resolving (Option InstanceId)}

theorem follows_materializeWith
    (h : forall config unique lazy,
      Follows k (instantiate config unique lazy) (instantiate' config unique lazy))
    {onItems : List NodeId → Guarded Session Argument} {onItems' : List NodeId → Resolving Argument}
    (hitems : forall items, Follows k (onItems items) (onItems' items)) (note : Note)
    (source : NodeId) :
    Follows k (materializeWith env instantiate onItems note source)
      (env.materializeWith instantiate' onItems' note source) := by
  unfold materializeWith Environment.materializeWith
  cases note.cast with
  | some cast => exact .pure _
  | none =>
      cases note.literal with
      | some l => exact .pure _
      | none =>
          cases env.graph.term? source with
          | none => exact .throw _
          | some t =>
              cases t with
              | literal l => exact .pure _
              | _ =>
                  cases env.graph.list? source with
                  | some items => exact hitems items
                  | none =>
                      dsimp only
                      split
                      · refine .bind (h source note.unique note.lazy) fun i => ?_
                        cases i <;> exact .pure _
                      · exact .pure _

theorem follows_materializeOccurrence
    (h : forall config unique lazy,
      Follows k (instantiate config unique lazy) (instantiate' config unique lazy))
    {onItems : List NodeId → Guarded Session Argument} {onItems' : List NodeId → Resolving Argument}
    (hitems : forall items, Follows k (onItems items) (onItems' items)) (v : Occurrence) :
    Follows k (materializeOccurrence env instantiate onItems v)
      (env.materializeOccurrence instantiate' onItems' v) :=
  .bind (.lift get) fun s =>
    .bind (follows_materializeWith h hitems (s.notes.get v) v.source) fun _ => .pure _

theorem follows_materialize
    (h : forall config unique lazy,
      Follows k (instantiate config unique lazy) (instantiate' config unique lazy))
    (v : Occurrence) :
    Follows k (materialize env instantiate v) (env.materialize instantiate' v) := by
  unfold materialize Environment.materialize
  induction env.graph.lists.size generalizing v with
  | zero => exact follows_materializeOccurrence h (fun _ => .throw _) v
  | succ levels ih =>
      exact follows_materializeOccurrence h
        (fun items => .bind (.mapM (fun i => ih (.ofNode i)) items) fun _ => .pure _) v

end Materialize

/-!
# Definitions
-/

section Assemble

variable {down : Descent} {down' : Wiring.Descent} {root element : NodeId}

theorem follows_referenceValues (h : down.Follows k down') (reference : NodeId) (raw : Bool) :
    Follows k (referenceValues env down root element reference raw)
      (env.referenceValues down' ⟨root, element, k.active⟩ reference raw) := by
  unfold referenceValues Environment.referenceValues
  split
  · exact .bind (h.assemble root element reference) fun _ => .pure _
  · split
    · exact .pure _
    · refine .bind (.lift _) fun vs => .bind (.lift get) fun f => ?_
      exact .bind (.ofResolving (.mapM (follows_materialize h.instantiate) vs)) fun _ => .pure _

theorem follows_elementValues (h : down.Follows k down') (entry : NodeId) :
    Follows k (elementValues env down root element entry)
      (env.elementValues down' ⟨root, element, k.active⟩ entry) := by
  have hreference (reference : NodeId) (raw : Bool) :
      Follows k (do return (← referenceValues env down root element reference raw).values)
        (do return (← env.referenceValues down' ⟨root, element, k.active⟩ reference raw).values) :=
    .bind (follows_referenceValues h reference raw) fun _ => .pure _
  unfold elementValues Environment.elementValues
  dsimp only
  split
  · refine .bind (h.assemble root element entry) fun x => ?_
    cases x with
    | entries es => exact .throw _
    | _ => exact .pure _
  · split
    · exact hreference entry false
    · cases env.graph.object? entry Vocabulary.Rdf.value with
      | some value => exact hreference value false
      | none =>
          cases env.graph.object? entry Vocabulary.Oo.valueRawReference with
          | some value => exact hreference value true
          | none => exact .throw _

theorem follows_assembleElements (h : down.Follows k down') (node : NodeId) :
    Follows k (assembleElements env down root element node)
      (env.assembleElements down' ⟨root, element, k.active⟩ node) := by
  unfold assembleElements Environment.assembleElements
  cases env.elementEntries? node with
  | none => exact .throw _
  | some entries => exact .bind (.mapM (follows_elementValues h) entries) fun _ => .pure _

theorem follows_fieldEntries (h : down.Follows k down') (field : NodeId) :
    Follows k (fieldEntries env down root element field)
      (env.fieldEntries down' ⟨root, element, k.active⟩ field) := by
  unfold fieldEntries Environment.fieldEntries
  dsimp only
  refine .bind (h.assemble root element field) fun x => ?_
  cases x with
  | positional as => exact .throw _
  | entries es => exact .pure _
  | value a =>
      cases a with
      | map es => exact .pure _
      | _ => exact .throw _
  | values as =>
      dsimp only
      cases Environment.mapEntries? as with
      | some es => exact .pure _
      | none => exact .throw _
  | resolved r =>
      dsimp only
      cases Environment.mapEntries? r.values with
      | some es => exact .pure _
      | none => exact .throw _

theorem follows_assembleFields (h : down.Follows k down') (node : NodeId) :
    Follows k (assembleFields env down root element node)
      (env.assembleFields down' ⟨root, element, k.active⟩ node) := by
  unfold assembleFields Environment.assembleFields
  cases env.fieldNodes? node with
  | none => exact .throw _
  | some fields => exact .bind (.mapM (follows_fieldEntries h) fields) fun _ => .pure _

theorem follows_positionalArgument (h : down.Follows k down') (item : NodeId) :
    Follows k (positionalArgument env down root element item)
      (env.positionalArgument down' ⟨root, element, k.active⟩ item) := by
  unfold positionalArgument Environment.positionalArgument
  split
  · exact .bind (follows_referenceValues h item false) fun _ => .pure _
  · exact .bind (h.assemble root element item) fun _ => .pure _

theorem follows_assembleList (h : down.Follows k down') (node : NodeId) :
    Follows k (assembleList env down root element node)
      (env.assembleList down' ⟨root, element, k.active⟩ node) :=
  .bind (.mapM (follows_positionalArgument h) _) fun _ => .pure _

theorem follows_collectedValue (h : down.Follows k down') (node : NodeId) (v : Occurrence) :
    Follows k (collectedValue env down root element node v)
      (env.collectedValue down' ⟨root, element, k.active⟩ node v) := by
  unfold collectedValue Environment.collectedValue
  cases env.valueReference? node with
  | some r => exact .bind (follows_referenceValues h r.1 r.2) fun _ => .pure _
  | none => exact .ofResolving (follows_materialize h.instantiate v)

theorem follows_collectEntries (h : down.Follows k down') (node collected : NodeId) :
    Follows k (collectEntries env down root element node collected)
      (env.collectEntries down' ⟨root, element, k.active⟩ node collected) := by
  refine .bind (.lift _) fun vs => ?_
  cases env.graph.object? node Vocabulary.Oo.key with
  | none => exact .bind (.mapM (fun v => follows_collectedValue h node v) vs) fun _ => .pure _
  | some reference =>
      refine .bind (.mapM (fun v => ?_) vs) fun _ => .pure _
      exact .bind (follows_collectedValue h node v) fun _ => .bind (.lift _) fun _ => .pure _

theorem follows_assembleKeyValue (h : down.Follows k down') (node : NodeId) :
    Follows k (assembleKeyValue env down root element node)
      (env.assembleKeyValue down' ⟨root, element, k.active⟩ node) := by
  unfold assembleKeyValue Environment.assembleKeyValue
  cases env.graph.object? node Vocabulary.Oo.collectEntries with
  | some collected => exact follows_collectEntries h node collected
  | none =>
      refine .bind (.lift _) fun key => ?_
      cases env.valueReference? node with
      | none => exact .throw _
      | some r =>
          refine .bind (follows_referenceValues h r.1 r.2) fun r => ?_
          cases key <;> exact .pure _

theorem follows_assembleShape (h : down.Follows k down') (node : NodeId) :
    Follows k (assembleShape env down root element node)
      (env.assembleShape down' ⟨root, element, k.active⟩ node) := by
  unfold assembleShape Environment.assembleShape
  cases Shape.of env.graph node with
  | elements => exact follows_assembleElements h node
  | fields => exact follows_assembleFields h node
  | list => exact follows_assembleList h node
  | keyValue => exact follows_assembleKeyValue h node

end Assemble

/-!
# Instances
-/

theorem follows_resolveArguments {down : Descent} {down' : Wiring.Descent}
    (h : down.Follows k down') (config : NodeId) (component : Component) :
    Follows k (resolveArguments env down config component)
      (env.resolveArguments down'.assemble k.active config component) := by
  refine .within (.bind (.lift _) fun _ => ?_)
  cases component.arguments with
  | none => exact .pure _
  | some node => exact .bind (h.assemble config config node) fun _ => .pure _

section Instances

variable {down : Descent} {config : NodeId}
  {arguments : List NodeId → NodeId → Component → Resolving (List Argument)}

theorem follows_newInstance (hconfig : config ∉ k.active)
    (h : forall component, Follows (k.enter config)
      (Guarded.descend env config (resolveArguments env down config component))
      (arguments (config :: k.active) config component)) (unique : Bool) :
    Follows k (newInstance env down config unique)
      (env.newInstance arguments k.active config unique) := by
  unfold newInstance Environment.newInstance
  cases Component.forConfig env.graph config with
  | error e => exact .throw _
  | ok component =>
      have hresolved (id : InstanceId) :
          Follows k
            (do
              let resolved ← Guarded.between (·.enter config)
                (Guarded.descend env config (resolveArguments env down config component))
                (·.leave config)
              lift (modify fun s => s.setArguments id resolved)
              return id)
            (do
              let resolved ← arguments (config :: k.active) config component
              modify fun s => s.setArguments id resolved
              return id) :=
        .bind (.between (Guard.leave_enter hconfig) (h component)) fun _ =>
          .bind (.lift _) fun _ => .pure _
      refine .bind (.lift _) fun id => ?_
      cases unique with
      | true => exact hresolved id
      | false => exact .bind (.lift _) fun _ => hresolved id

theorem follows_instantiateWith
    (h : forall config, config ∉ k.active -> forall component, Follows (k.enter config)
      (Guarded.descend env config (resolveArguments env down config component))
      (arguments (config :: k.active) config component)) (config : NodeId) (unique lazy : Bool) :
    Follows k (instantiateWith env down config unique lazy)
      (env.instantiateWith arguments k.active config unique lazy) := by
  refine .bind (.lift get) fun s => .bind_guard ?_
  by_cases hactive : config ∈ k.active
  · rw [if_pos (List.contains_iff_mem.mpr hactive), if_pos (List.contains_iff_mem.mpr hactive)]
    exact .pure _
  · have hcontains : ¬ k.active.contains config = true := mt List.contains_iff_mem.mp hactive
    rw [if_neg hcontains, if_neg hcontains]
    have hnew := follows_newInstance hactive (h config hactive) unique
    cases unique with
    | true => exact .bind hnew fun _ => .pure _
    | false =>
        cases s.shared[config]? with
        | some id => exact .pure _
        | none => exact .bind hnew fun _ => .pure _

end Instances

theorem walk_follows (env : Environment) (violation : Failure) {levels left : Nat} {k : Guard}
    (hleft : k.depth + left = env.depthLimit) (hlevels : left < levels) :
    (walk env violation levels).Follows k
      ⟨env.assembleWithin left, env.instantiateWithin left⟩ := by
  induction left generalizing levels k with
  | zero =>
      cases levels with
      | zero => exact absurd hlevels (Nat.not_lt_zero _)
      | succ levels =>
          have hdepth : env.depthLimit ≤ k.depth := Nat.le_of_eq hleft.symm
          refine ⟨fun _ _ node => .descend_too_deep node hdepth, follows_instantiateWith ?_⟩
          exact fun config _ _ => .descend_too_deep config hdepth
  | succ left ih =>
      cases levels with
      | zero => exact absurd hlevels (Nat.not_lt_zero _)
      | succ levels =>
          have hdepth : k.depth < env.depthLimit := by omega
          have hdown (k' : Guard) (hk' : k'.depth = k.depth) : (walk env violation levels).Follows
              k'.down ⟨env.assembleWithin left, env.instantiateWithin left⟩ := by
            have hcount : k'.down.depth = k.depth + 1 := congrArg (· + 1) hk'
            refine ih ?_ (Nat.lt_of_succ_lt_succ hlevels)
            rw [hcount]
            omega
          refine ⟨fun _ _ node => .descend node hdepth (follows_assembleShape (hdown k rfl) node),
            follows_instantiateWith fun config hconfig component => .descend config hdepth ?_⟩
          have hactive : (k.enter config).down.active = config :: k.active :=
            Guard.active_enter hconfig
          rw [← hactive]
          exact follows_resolveArguments (hdown (k.enter config) rfl) config component

end Guarded
end Wiring
