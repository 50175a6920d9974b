import Wiring.Proofs.Resolution.Habit
import Wiring.Proofs.Table

/-!
# Sessions grow

Whatever a resolution does, and whether or not it succeeds, it keeps what is in
the session: notes, instances with their arguments, and shared instances.  What
it shares in addition is new.
-/

namespace Wiring

/-- The configurations that are being resolved and the instances that wait for their arguments. -/
structure Context where
  active : List NodeId
  pending : List InstanceId

def Context.entered (k : Context) (config : NodeId) (id : InstanceId) : Context :=
  ⟨config :: k.active, id :: k.pending⟩

structure Session.Grows (s s' : Session) : Prop where
  notes : Continues s.notes s'.notes
  instances : Continues s.instances s'.instances
  kept {config : NodeId} {id : InstanceId} :
    s.shared[config]? = some id -> s'.shared[config]? = some id
  fresh {config : NodeId} {id : InstanceId} : s'.shared[config]? = some id ->
    s.shared[config]? = some id ∨ s.instances.size ≤ id ∧ id < s'.instances.size

namespace Session
namespace Grows

variable {s s' s'' : Session}

theorem refl (s : Session) : Grows s s where
  notes := Continues.refl _
  instances := Continues.refl _
  kept h := h
  fresh h := Or.inl h

theorem trans (h : Grows s s') (h' : Grows s' s'') : Grows s s'' where
  notes := h.notes.trans h'.notes
  instances := h.instances.trans h'.instances
  kept hs := h'.kept (h.kept hs)
  fresh hs := by
    have hle := h.instances.size_le
    have hle' := h'.instances.size_le
    rcases h'.fresh hs with hs | hs
    · rcases h.fresh hs with hs | hs
      · exact Or.inl hs
      · exact Or.inr ⟨hs.1, Nat.lt_of_lt_of_le hs.2 hle'⟩
    · exact Or.inr ⟨Nat.le_trans hle hs.1, hs.2⟩

theorem noted {n : Notes} (h : Continues s.notes n) : Grows s { s with notes := n } where
  notes := h
  instances := Continues.refl _
  kept h := h
  fresh h := Or.inl h

end Grows

theorem size_setArguments (s : Session) (id : InstanceId) (resolved : List Argument) :
    (s.setArguments id resolved).instances.size = s.instances.size := by
  simp [setArguments]

theorem getElem?_setArguments (s : Session) (id : InstanceId) (resolved : List Argument)
    (i : InstanceId) :
    (s.setArguments id resolved).instances[i]? =
      if id = i then s.instances[i]?.map fun x => { x with arguments := resolved }
      else s.instances[i]? := by
  simp [setArguments, Array.getElem?_modify]

theorem Grows.setArguments {s s' : Session} (h : Grows s s') {id : InstanceId}
    (hid : s.instances.size ≤ id) (resolved : List Argument) :
    Grows s (s'.setArguments id resolved) where
  notes := h.notes
  instances := by
    refine Continues.of_getElem? fun i hi => ?_
    rw [getElem?_setArguments, if_neg (Nat.ne_of_gt (Nat.lt_of_lt_of_le hi hid))]
    exact h.instances.getElem? hi
  kept := h.kept
  fresh hs := by
    rw [size_setArguments]
    exact h.fresh hs

end Session

namespace Environment

variable {env : Environment} {s : Session} {config : NodeId} {component : Component}
  {unique : Bool}

theorem instances_opened :
    (env.opened s config component unique).instances =
      s.instances.push ⟨env.graph.display config, component.id, []⟩ := by
  unfold opened
  split <;> rfl

theorem getElem?_opened (i : InstanceId) :
    (env.opened s config component unique).instances[i]? =
      if i = s.instances.size then some ⟨env.graph.display config, component.id, []⟩
      else s.instances[i]? := by
  rw [instances_opened, Array.getElem?_push]

theorem size_opened :
    (env.opened s config component unique).instances.size = s.instances.size + 1 := by
  rw [instances_opened, Array.size_push]

theorem notes_opened : (env.opened s config component unique).notes = s.notes := by
  unfold opened
  split <;> rfl

theorem shared_opened (c : NodeId) :
    (env.opened s config component unique).shared[c]? =
      if unique = false ∧ c = config then some s.instances.size else s.shared[c]? := by
  cases unique with
  | true => simp [opened, Session.reserve]
  | false =>
      have hinsert : (env.opened s config component false).shared =
          s.shared.insert config s.instances.size := rfl
      rw [hinsert, Table.getElem?_insert]
      simp

theorem grows_opened (hnew : unique = true ∨ s.shared[config]? = none) :
    s.Grows (env.opened s config component unique) where
  notes := by
    rw [notes_opened]
    exact Continues.refl _
  instances := by
    rw [instances_opened]
    exact Continues.push _ _
  kept {c id} hs := by
    rw [shared_opened, if_neg]
    · exact hs
    · rintro ⟨rfl, rfl⟩
      rcases hnew with hfalse | hnone
      · cases hfalse
      · rw [hnone] at hs
        cases hs
  fresh {c id} hs := by
    rw [shared_opened] at hs
    split at hs
    · cases hs
      refine Or.inr ⟨Nat.le_refl _, ?_⟩
      rw [instances_opened, Array.size_push]
      exact Nat.lt_succ_self _
    · exact Or.inl hs

theorem getElem?_reserved {s' : Session} (h : (env.opened s config component unique).Grows s') :
    s'.instances[s.instances.size]? = some ⟨env.graph.display config, component.id, []⟩ := by
  rw [h.instances.getElem? (by rw [size_opened]; exact Nat.lt_succ_self _), getElem?_opened,
    if_pos rfl]

def growth : Habit where
  valid _ := True
  later := Session.Grows
  falls := Session.Grows
  answers _ _ _ _ _ := True
  refl _ := Session.Grows.refl _
  trans := Session.Grows.trans
  falls_refl _ := Session.Grows.refl _
  falls_trans := Session.Grows.trans
  noted _ hn := ⟨trivial, Session.Grows.noted hn⟩
  notes := Session.Grows.notes
  stable _ _ := trivial

theorem growth_steps (env : Environment) :
    Habit.Steps env (fun _ : List NodeId => growth) id where
  ofActive _ _ := trivial
  ofShared _ _ _ := trivial
  ofNew {active s config unique component} hactive _ hnew _ := by
    have hopened : s.Grows (env.opened s config component unique) := grows_opened hnew
    refine ⟨config :: active, rfl, trivial, ?_, ?_⟩
    · intro _ s' resolved _ _ hgrows _
      exact ⟨trivial, (hopened.trans hgrows).setArguments (Nat.le_refl _) resolved,
        fun _ => trivial⟩
    · intro _ _ s' _ hgrows
      exact hopened.trans hgrows

theorem grows_argumentsBy (levels : Nat) {active : List NodeId} {config : NodeId}
    {component : Component} {s t : Session} {answer : Except Failure (List Argument)}
    (h : outcome (env.argumentsBy env.instantiateWith levels active config component) s =
      (answer, t)) : s.Grows t := by
  have hfollows := Habit.follows_argumentsBy
    (Habit.strategyFollows_instantiateWith (growth_steps env)) levels active s config component
  cases answer with
  | ok resolved => exact (hfollows.ok trivial h).2.1
  | error e => exact hfollows.error trivial h

theorem grows_instantiateWithin (levels : Nat) {active : List NodeId} {config : NodeId}
    {unique lazy : Bool} {s t : Session} {answer : Except Failure (Option InstanceId)}
    (h : outcome (env.instantiateWithin levels active config unique lazy) s = (answer, t)) :
    s.Grows t := by
  have hfollows := Habit.follows_strategy
    (Habit.strategyFollows_instantiateWith (growth_steps env)) levels active s config unique lazy
  rw [← instantiateWithin_eq] at hfollows
  cases answer with
  | ok i => exact (hfollows.ok trivial h).2.1
  | error e => exact hfollows.error trivial h

end Environment
end Wiring
