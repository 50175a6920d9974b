import Wiring.Proofs.Resolution.Checked
import Wiring.Proofs.Resolution.Coverage

/-!
# The identity of instances

A configuration shares one instance with all that refer to it, and gets another
one for each reference that asks for an instance of its own.  Such an instance is
never shared, and stands in one place of all arguments.
-/

namespace Wiring

/-!
# Names
-/

structure Session.Named (g : Graph) (s : Session) : Prop where
  name {config : NodeId} {id : InstanceId} : s.shared[config]? = some id ->
    exists x, s.instances[id]? = some x ∧ x.config = g.display config
  single {config other : NodeId} {id : InstanceId} :
    s.shared[config]? = some id -> s.shared[other]? = some id -> other = config

namespace Session

def Unshared (s : Session) (id : InstanceId) : Prop :=
  forall config : NodeId, s.shared[config]? ≠ some id

variable {g : Graph} {s t : Session}

theorem Unshared.later {id : InstanceId} (h : s.Unshared id) (hid : id < s.instances.size)
    (hgrows : s.Grows t) : t.Unshared id := by
  intro config hshared
  rcases hgrows.fresh hshared with hold | hnew
  · exact h config hold
  · exact absurd hid (Nat.not_lt.mpr hnew.1)

theorem Unshared.earlier {id : InstanceId} (h : t.Unshared id) (hgrows : s.Grows t) :
    s.Unshared id :=
  fun config hshared => h config (hgrows.kept hshared)

theorem named_empty : empty.Named g where
  name hs := by simp [empty] at hs
  single hs := by simp [empty] at hs

theorem Named.lt (h : s.Named g) {config : NodeId} {id : InstanceId}
    (hs : s.shared[config]? = some id) : id < s.instances.size := by
  rcases h.name hs with ⟨x, hx, -⟩
  exact (Array.getElem?_eq_some_iff.mp hx).1

theorem Named.noted (h : s.Named g) {n : Notes} : Named g { s with notes := n } :=
  ⟨h.name, h.single⟩

theorem Named.opened {env : Environment} (h : s.Named env.graph) {config : NodeId}
    {component : Component} {unique : Bool} :
    (env.opened s config component unique).Named env.graph where
  name {c id} hs := by
    rw [Environment.shared_opened] at hs
    rw [Environment.getElem?_opened]
    split at hs
    · next hc =>
        cases hs
        exact ⟨_, if_pos rfl, by rw [hc.2]⟩
    · rw [if_neg (Nat.ne_of_lt (h.lt hs))]
      exact h.name hs
  single {c other id} hs hs' := by
    rw [Environment.shared_opened] at hs hs'
    split at hs
    · next hc =>
        cases hs
        split at hs'
        · next hother => rw [hother.2, hc.2]
        · exact absurd (h.lt hs') (Nat.lt_irrefl _)
    · split at hs'
      · cases hs'
        exact absurd (h.lt hs) (Nat.lt_irrefl _)
      · exact h.single hs hs'

theorem Named.setArguments (h : s.Named g) (id : InstanceId) (resolved : List Argument) :
    (s.setArguments id resolved).Named g where
  name {c i} hs := by
    rcases h.name hs with ⟨x, hx, hname⟩
    rw [getElem?_setArguments, hx]
    split
    · exact ⟨_, rfl, hname⟩
    · exact ⟨x, rfl, hname⟩
  single hs hs' := h.single hs hs'

end Session

def Environment.naming (env : Environment) : Habit where
  valid := Session.Named env.graph
  later := Session.Grows
  falls s s' := s.Grows s' ∧ s'.Named env.graph
  answers _ _ _ _ _ := True
  refl _ := Session.Grows.refl _
  trans := Session.Grows.trans
  falls_refl h := ⟨Session.Grows.refl _, h⟩
  falls_trans h h' := ⟨h.trans h'.1, h'.2⟩
  noted h hn := ⟨h.noted, Session.Grows.noted hn⟩
  notes := Session.Grows.notes
  stable _ h := h

namespace Environment

variable {env : Environment}

theorem naming_steps (env : Environment) :
    Habit.Steps env (fun _ : List NodeId => env.naming) id where
  ofActive _ _ := trivial
  ofShared _ _ _ := trivial
  ofNew {active s config unique component} _ hnamed hnew _ := by
    have hopened : s.Grows (env.opened s config component unique) := grows_opened hnew
    refine ⟨config :: active, rfl, hnamed.opened, ?_, ?_⟩
    · intro _ s' resolved _ hnamed' hgrows _
      exact ⟨hnamed'.setArguments _ resolved,
        (hopened.trans hgrows).setArguments (Nat.le_refl _) resolved, fun _ => trivial⟩
    · intro _ _ s' _ hfalls
      exact ⟨hopened.trans hfalls.1, hfalls.2⟩

theorem named_instantiateWithin (levels : Nat) {active : List NodeId} {config : NodeId}
    {unique lazy : Bool} {s t : Session} {answer : Except Failure (Option InstanceId)}
    (h : s.Named env.graph)
    (hrun : outcome (env.instantiateWithin levels active config unique lazy) s = (answer, t)) :
    t.Named env.graph := by
  have hfollows := Habit.follows_strategy
    (Habit.strategyFollows_instantiateWith (naming_steps env)) levels active s config unique lazy
  rw [← instantiateWithin_eq] at hfollows
  cases answer with
  | ok i => exact (hfollows.ok h hrun).1
  | error e => exact (hfollows.error h hrun).2

theorem named_resolve {config : NodeId} {s t : Session} {answer : Except Failure InstanceId}
    (h : s.Named env.graph) (hrun : outcome (env.resolve config) s = (answer, t)) :
    t.Named env.graph := by
  rcases resolve_cases hrun with ⟨_, hinner, -⟩ | ⟨hinner, -⟩ | ⟨_, hinner, -⟩
  all_goals exact named_instantiateWithin env.depthLimit h hinner

theorem named_history (env : Environment) (requests : List Request) :
    (env.history requests).2.Named env.graph :=
  (serve_induction (Session.Named env.graph) (fun _ _ => True) (fun _ _ _ _ _ => trivial)
    (fun _ _ _ _ hs hrun => ⟨named_resolve hs hrun, fun _ _ => trivial⟩) Session.named_empty
    requests).1

/-!
# Answers
-/

end Environment

/-!
# Places
-/

namespace Session

def references (s : Session) : List InstanceId :=
  s.instances.toList.flatMap fun x => Argument.itemReferences true x.arguments

theorem references_opened {env : Environment} {s : Session} {config : NodeId}
    {component : Component} {unique : Bool} :
    (env.opened s config component unique).references = s.references := by
  unfold references
  rw [Environment.instances_opened, Array.toList_push, List.flatMap_append]
  simp [Argument.itemReferences]

theorem count_references_setArguments {s : Session} {id : InstanceId} {x : Plan.Instance}
    (hx : s.instances[id]? = some x) (hnone : x.arguments = []) (resolved : List Argument)
    (i : InstanceId) :
    (s.setArguments id resolved).references.count i =
      s.references.count i + (Argument.itemReferences true resolved).count i := by
  have hlists (xs : List Plan.Instance) (id : Nat) (hx : xs[id]? = some x) :
      ((xs.modify id fun y => { y with arguments := resolved }).flatMap
        fun y => Argument.itemReferences true y.arguments).count i =
      (xs.flatMap fun y => Argument.itemReferences true y.arguments).count i +
        (Argument.itemReferences true resolved).count i := by
    induction xs generalizing id with
    | nil => cases hx
    | cons y rest ih =>
        cases id with
        | zero =>
            cases hx
            rw [List.modify_zero_cons, List.flatMap_cons, List.flatMap_cons, hnone,
              List.count_append, List.count_append]
            simp only [Argument.itemReferences, List.count_nil]
            omega
        | succ id =>
            rw [List.modify_succ_cons, List.flatMap_cons, List.flatMap_cons, List.count_append,
              List.count_append, ih id (by simpa using hx), Nat.add_assoc]
  unfold references setArguments
  rw [Array.toList_modify]
  exact hlists s.instances.toList id (by rwa [Array.getElem?_toList])

def added (s s' : Session) (i : Nat) : Nat :=
  if s.instances.size ≤ i ∧ i < s'.instances.size then 1 else 0

theorem added_trans {s s' s'' : Session} (h : s.instances.size ≤ s'.instances.size)
    (h' : s'.instances.size ≤ s''.instances.size) (i : Nat) :
    s.added s' i + s'.added s'' i = s.added s'' i := by
  unfold added
  split <;> split <;> split <;> omega

theorem added_add_count {n m : Nat} (h : n < m) (i : Nat) :
    (if n + 1 ≤ i ∧ i < m then 1 else 0) + [n].count i = if n ≤ i ∧ i < m then 1 else 0 := by
  rw [List.count_singleton]
  simp only [beq_iff_eq]
  split <;> split <;> split <;> omega

/-- Instances that are not shared: each one that has been added has a place, or is among those that
are owed one. -/
structure Places (s : Session) (ids : List InstanceId) (s' : Session) : Prop where
  grows : s.Grows s'
  count (i : InstanceId) : s'.Unshared i ->
    s'.references.count i + ids.count i = s.references.count i + s.added s' i

namespace Places

variable {s s' s'' : Session} {ids ids' : List InstanceId}

theorem trans (h : s.Places ids s') (h' : s'.Places ids' s'') : s.Places (ids ++ ids') s'' where
  grows := h.grows.trans h'.grows
  count i hi := by
    rw [List.count_append, ← added_trans h.grows.instances.size_le h'.grows.instances.size_le]
    calc
      s''.references.count i + (ids.count i + ids'.count i)
        = s''.references.count i + ids'.count i + ids.count i := by
          rw [Nat.add_comm (ids.count i), Nat.add_assoc]
      _ = s'.references.count i + ids.count i + s'.added s'' i := by
          rw [h'.count i hi, Nat.add_right_comm]
      _ = s.references.count i + (s.added s' i + s'.added s'' i) := by
          rw [h.count i (hi.earlier h'.grows), Nat.add_assoc]

theorem made {env : Environment} {config : NodeId} {component : Component} {unique : Bool}
    {resolved : List Argument} (hnew : unique = true ∨ s.shared[config]? = none)
    (hgrows : (env.opened s config component unique).Grows s')
    (h : (env.opened s config component unique).Places (Argument.itemReferences true resolved)
      s') :
    s.Places [s.instances.size] (s'.setArguments s.instances.size resolved) where
  grows := ((Environment.grows_opened hnew).trans hgrows).setArguments (Nat.le_refl _) resolved
  count i hi := by
    have hsize : (env.opened s config component unique).instances.size = s.instances.size + 1 :=
      Environment.size_opened
    have hreserved := Environment.getElem?_reserved hgrows
    have hlt : s.instances.size < s'.instances.size :=
      (Array.getElem?_eq_some_iff.mp hreserved).1
    have hone : (env.opened s config component unique).added s' i + [s.instances.size].count i =
        s.added (s'.setArguments s.instances.size resolved) i := by
      unfold added
      rw [hsize, size_setArguments]
      exact added_add_count hlt i
    have hcount := h.count i hi
    rw [references_opened] at hcount
    rw [count_references_setArguments hreserved rfl, hcount, Nat.add_assoc, hone]

theorem settle (h : s.Places ids s') (hshared : forall id, id ∈ ids -> ¬ s'.Unshared id) :
    s.Places [] s' where
  grows := h.grows
  count i hi := by
    have hids : ids.count i = 0 := List.count_eq_zero.mpr fun hmem => hshared i hmem hi
    rw [← h.count i hi, hids]
    rfl

end Places
end Session

namespace Environment

variable {env : Environment}

/-!
# Histories
-/

end Environment
end Wiring
