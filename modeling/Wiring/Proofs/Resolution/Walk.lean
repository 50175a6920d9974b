import Wiring.Proofs.Resolution.Assembly

/-!
# Walks

A walk is determined by how it answers requests for instances once arguments can
be resolved one level deeper.  If one level of answers keeps a bond, all levels
do.
-/

namespace Wiring

abbrev Strategy :=
  (List NodeId → NodeId → Component → Resolving (List Argument)) →
    List NodeId → NodeId → (unique lazy : Bool) → Resolving (Option InstanceId)

namespace Environment

/-- The walk with `levels` levels that answers requests in the given way. -/
def descentBy (env : Environment) (S : Strategy) : (levels : Nat) → Descent
  | 0 =>
    ⟨fun _ node => throw (env.depthFailure node),
      S fun _ config _ => throw (env.depthFailure config)⟩
  | levels + 1 =>
    let down := env.descentBy S levels
    ⟨env.assembleShape down, S (env.resolveArguments down.assemble)⟩

theorem descentBy_instantiateWith (env : Environment) (levels : Nat) :
    env.descentBy env.instantiateWith levels =
      ⟨env.assembleWithin levels, env.instantiateWithin levels⟩ := by
  induction levels with
  | zero => rfl
  | succ levels ih =>
      unfold descentBy
      rw [ih]
      rfl

theorem descent_eq (env : Environment) :
    env.descent = env.descentBy env.instantiateWith env.depthLimit :=
  (env.descentBy_instantiateWith env.depthLimit).symm

def argumentsBy (env : Environment) (S : Strategy) :
    (levels : Nat) → List NodeId → NodeId → Component → Resolving (List Argument)
  | 0 => fun _ config _ => throw (env.depthFailure config)
  | levels + 1 => env.resolveArguments (env.descentBy S levels).assemble

theorem descentBy_instantiate (env : Environment) (S : Strategy) (levels : Nat) :
    (env.descentBy S levels).instantiate = S (env.argumentsBy S levels) := by
  cases levels <;> rfl

theorem instantiateWithin_eq (env : Environment) (levels : Nat) :
    env.instantiateWithin levels =
      env.instantiateWith (env.argumentsBy env.instantiateWith levels) := by
  have h := descentBy_instantiate env env.instantiateWith levels
  rw [descentBy_instantiateWith] at h
  exact h

/-!
# Two walks side by side
-/

section Join

variable {κ : Type} {env : Environment} {S S' : Strategy} {B : κ -> Bond}
  {active active' : κ -> List NodeId}

def ArgumentsFit (B : κ -> Bond) (active active' : κ -> List NodeId)
    (arguments arguments' : List NodeId → NodeId → Component → Resolving (List Argument)) : Prop :=
  forall k s t config component,
    (B k).Resolves s t (arguments (active k) config component)
      (arguments' (active' k) config component)
      fun w => List.Forall₂ (Argument.Fits ((B k).answers w) false)

/-- The second walk has as many levels as the first one; more, up to a bound, if the failures of
the first are excused. -/
def Deeper (B : κ -> Bond) (bound levels levels' : Nat) : Prop :=
  levels ≤ levels' ∧ levels' ≤ bound ∧ (levels = levels' ∨ forall k e, (B k).excused e)

def StrategiesKeep (env : Environment) (S S' : Strategy) (B : κ -> Bond)
    (active active' : κ -> List NodeId) (bound : Nat) : Prop :=
  forall levels levels', Deeper B bound levels levels' ->
    (forall levels'', Deeper B bound levels levels'' ->
      ArgumentsFit B active active' (env.argumentsBy S levels) (env.argumentsBy S' levels'')) ->
    forall k s t config unique lazy,
      (B k).Resolves s t (S (env.argumentsBy S levels) (active k) config unique lazy)
        (S' (env.argumentsBy S' levels') (active' k) config unique lazy)
        fun w => (B k).answers w config unique lazy

theorem assembles_and_fits {bound : Nat} (h : StrategiesKeep env S S' B active active' bound)
    {levels levels' : Nat} (hdeeper : Deeper B bound levels levels') :
    (forall k f g root element node,
      (B k).Walks f g ((env.descentBy S levels).assemble ⟨root, element, active k⟩ node)
        ((env.descentBy S' levels').assemble ⟨root, element, active' k⟩ node)
        fun w => Assembled.Fits ((B k).answers w)) ∧
    ArgumentsFit B active active' (env.argumentsBy S levels) (env.argumentsBy S' levels') := by
  induction levels generalizing levels' with
  | zero =>
      cases levels' with
      | zero => exact ⟨fun _ _ _ _ _ _ => Bond.Keeps.throw, fun _ _ _ _ _ => Bond.Keeps.throw⟩
      | succ levels' =>
          have hexcused := hdeeper.2.2.resolve_left (Nat.succ_ne_zero levels').symm
          exact ⟨fun k _ _ _ _ _ => Bond.Keeps.throw_excused (hexcused k _),
            fun k _ _ _ _ => Bond.Keeps.throw_excused (hexcused k _)⟩
  | succ levels ih =>
      cases levels' with
      | zero => exact absurd hdeeper.1 (Nat.not_succ_le_zero levels)
      | succ levels' =>
          have hdeeper' : Deeper B bound levels levels' :=
            ⟨Nat.le_of_succ_le_succ hdeeper.1, Nat.le_of_succ_le hdeeper.2.1,
              hdeeper.2.2.imp_left Nat.succ.inj⟩
          have hassemble := (ih hdeeper').1
          constructor
          · intro k f g root element node
            refine walks_assembleShape ⟨.refl _ _, hassemble k, ?_⟩ node
            intro s t
            rw [descentBy_instantiate, descentBy_instantiate]
            exact h levels levels' hdeeper' (fun levels'' hdeeper'' => (ih hdeeper'').2) k s t
          · intro k s t config component
            exact resolves_resolveArguments (fun f g => hassemble k f g config config) component

theorem resolves_strategies {bound : Nat} (h : StrategiesKeep env S S' B active active' bound)
    {levels levels' : Nat} (hdeeper : Deeper B bound levels levels') (k : κ) (s t : Session)
    (config : NodeId) (unique lazy : Bool) :
    (B k).Resolves s t (S (env.argumentsBy S levels) (active k) config unique lazy)
      (S' (env.argumentsBy S' levels') (active' k) config unique lazy)
      fun w => (B k).answers w config unique lazy :=
  h levels levels' hdeeper (fun _ hdeeper' => (assembles_and_fits h hdeeper').2) k s t config
    unique lazy

end Join

/-!
# Answers to requests
-/

def opened (env : Environment) (s : Session) (config : NodeId) (component : Component)
    (unique : Bool) : Session :=
  let r := s.reserve (env.graph.display config) component.id
  if unique then r.2 else r.2.share config r.1

section Answers

variable {env : Environment}
  {arguments : List NodeId → NodeId → Component → Resolving (List Argument)}
  {active : List NodeId} {config : NodeId} {unique lazy : Bool} {s : Session}

theorem outcome_instantiateWith_active (hactive : config ∈ active) :
    outcome (env.instantiateWith arguments active config unique lazy) s =
      (.ok (if lazy then s.shared[config]? else none), s) := by
  unfold instantiateWith
  rw [outcome_bind_ok (outcome_get s)]
  simp only [List.contains_iff_mem, hactive, if_true]
  rfl

theorem outcome_instantiateWith_shared {id : InstanceId} (hactive : config ∉ active)
    (hshared : s.shared[config]? = some id) :
    outcome (env.instantiateWith arguments active config false lazy) s = (.ok (some id), s) := by
  unfold instantiateWith
  rw [outcome_bind_ok (outcome_get s)]
  simp only [List.contains_iff_mem, hactive, if_false, hshared]
  rfl

theorem outcome_complete (x : Resolving (List Argument)) (id : InstanceId) :
    outcome (do
      let resolved ← x
      modify fun s => s.setArguments id resolved
      return id) s =
      match outcome x s with
      | (.ok resolved, s') => (.ok id, s'.setArguments id resolved)
      | (.error e, s') => (.error e, s') := by
  rw [outcome_bind]
  rcases outcome x s with ⟨e | resolved, s'⟩
  · rfl
  · rfl

theorem outcome_instantiateWith_new (hactive : config ∉ active)
    (hnew : unique = true ∨ s.shared[config]? = none) :
    outcome (env.instantiateWith arguments active config unique lazy) s =
      match Component.forConfig env.graph config with
      | .error e => (.error e, s)
      | .ok component =>
        match outcome (arguments (config :: active) config component)
            (env.opened s config component unique) with
        | (.ok resolved, s') =>
          (.ok (some s.instances.size), s'.setArguments s.instances.size resolved)
        | (.error e, s') => (.error e, s') := by
  have hmatch : outcome (env.instantiateWith arguments active config unique lazy) s =
      outcome (some <$> env.newInstance arguments active config unique) s := by
    unfold instantiateWith
    rw [outcome_bind_ok (outcome_get s)]
    simp only [List.contains_iff_mem, hactive, if_false]
    rcases hnew with rfl | hnone
    · rfl
    · rw [hnone]
      cases unique <;> rfl
  rw [hmatch, outcome_map]
  unfold newInstance opened
  cases Component.forConfig env.graph config with
  | error e => rfl
  | ok component =>
      dsimp only
      rw [outcome_bind_ok (outcome_modifyGet _ s)]
      cases unique with
      | true =>
          rw [if_pos rfl, if_pos rfl, outcome_complete]
          rcases outcome (arguments (config :: active) config component) _ with ⟨e | resolved, s'⟩
          · rfl
          · rfl
      | false =>
          rw [if_neg Bool.false_ne_true, if_neg Bool.false_ne_true,
            outcome_bind_ok (outcome_modify _ _), outcome_complete]
          rcases outcome (arguments (config :: active) config component) _ with ⟨e | resolved, s'⟩
          · rfl
          · rfl

theorem instantiateWith_new_ok (hactive : config ∉ active)
    (hnew : unique = true ∨ s.shared[config]? = none) {i : Option InstanceId} {t : Session}
    (h : outcome (env.instantiateWith arguments active config unique lazy) s = (.ok i, t)) :
    exists component resolved s', Component.forConfig env.graph config = .ok component ∧
      outcome (arguments (config :: active) config component)
        (env.opened s config component unique) = (.ok resolved, s') ∧
      i = some s.instances.size ∧ t = s'.setArguments s.instances.size resolved := by
  rw [outcome_instantiateWith_new hactive hnew] at h
  cases hcomponent : Component.forConfig env.graph config with
  | error e =>
      rw [hcomponent] at h
      cases h
  | ok component =>
      rw [hcomponent] at h
      dsimp only at h
      rcases hresolved : outcome (arguments (config :: active) config component)
        (env.opened s config component unique) with ⟨e | resolved, s'⟩
      · rw [hresolved] at h
        cases h
      · rw [hresolved] at h
        cases h
        exact ⟨component, resolved, s', rfl, hresolved, rfl, rfl⟩

theorem instantiateWith_new_error (hactive : config ∉ active)
    (hnew : unique = true ∨ s.shared[config]? = none) {e : Failure} {t : Session}
    (h : outcome (env.instantiateWith arguments active config unique lazy) s = (.error e, t)) :
    Component.forConfig env.graph config = .error e ∧ t = s ∨
      exists component, Component.forConfig env.graph config = .ok component ∧
        outcome (arguments (config :: active) config component)
          (env.opened s config component unique) = (.error e, t) := by
  rw [outcome_instantiateWith_new hactive hnew] at h
  cases hcomponent : Component.forConfig env.graph config with
  | error e' =>
      rw [hcomponent] at h
      cases h
      exact Or.inl ⟨rfl, rfl⟩
  | ok component =>
      rw [hcomponent] at h
      dsimp only at h
      rcases hresolved : outcome (arguments (config :: active) config component)
        (env.opened s config component unique) with ⟨e' | resolved, s'⟩
      · rw [hresolved] at h
        cases h
        exact Or.inr ⟨component, rfl, hresolved⟩
      · rw [hresolved] at h
        cases h

end Answers

/-!
# Resolution
-/

section Resolve

variable {env : Environment} {config : NodeId}

def resolveBy (env : Environment) (S : Strategy) (config : NodeId) : Resolving InstanceId := do
  match ← (env.descentBy S env.depthLimit).instantiate [] config false false with
  | some id => return id
  | none => throw (.cyclicReference (env.graph.display config))

theorem resolve_eq (env : Environment) (config : NodeId) :
    env.resolve config = env.resolveBy env.instantiateWith config := by
  unfold resolveBy
  rw [← descent_eq]
  rfl

theorem resolveBy_ok {S : Strategy} {s s' : Session} {id : InstanceId} :
    outcome (env.resolveBy S config) s = (.ok id, s') <->
      outcome (S (env.argumentsBy S env.depthLimit) [] config false false) s =
        (.ok (some id), s') := by
  unfold resolveBy
  rw [descentBy_instantiate, outcome_bind]
  rcases outcome (S (env.argumentsBy S env.depthLimit) [] config false false) s with ⟨e | i, t⟩
  · constructor <;> intro h <;> cases h
  · cases i with
    | none => constructor <;> intro h <;> cases h
    | some i =>
        constructor
        · intro h
          cases h
          rfl
        · intro h
          cases h
          rfl

end Resolve

end Environment
end Wiring
