import Wiring.Proofs.Resolution.Strict

/-!
# Checked walks

A checked walk compares each of its answers with a rule, and fails at the first
one that breaks it.  If the rule follows from what holds between two steps, no
answer does, and the checked walk is the ordinary one.
-/

namespace Wiring

/-- What answers to a request are right, given the active configurations, the request, and the
sessions before and after it. -/
abbrev Rule :=
  (active : List NodeId) → (config : NodeId) → (unique lazy : Bool) → (before : Session) →
    (answer : Option InstanceId) → (after : Session) → Prop

namespace Environment

variable {env : Environment}

open Classical in
/-- Answers as usual, but fails if an answer breaks the rule. -/
noncomputable def checked (env : Environment) (rule : Rule) (violation : Failure) : Strategy :=
  fun arguments active config unique lazy => do
    let before ← get
    let answer ← env.instantiateWith arguments active config unique lazy
    let after ← get
    if rule active config unique lazy before answer after then return answer
    else throw violation

section Requests

variable {arguments : List NodeId → NodeId → Component → Resolving (List Argument)}
  {active : List NodeId} {config : NodeId} {unique lazy : Bool} {s : Session}
  {rule : Rule} {violation : Failure}

theorem outcome_instantiateWith_congr
    {arguments' : List NodeId → NodeId → Component → Resolving (List Argument)}
    (h : config ∉ active -> (unique = true ∨ s.shared[config]? = none) -> forall component,
      Component.forConfig env.graph config = .ok component ->
      outcome (arguments (config :: active) config component)
        (env.opened s config component unique) =
      outcome (arguments' (config :: active) config component)
        (env.opened s config component unique)) :
    outcome (env.instantiateWith arguments active config unique lazy) s =
      outcome (env.instantiateWith arguments' active config unique lazy) s := by
  by_cases hactive : config ∈ active
  · rw [outcome_instantiateWith_active hactive, outcome_instantiateWith_active hactive]
  by_cases hnew : unique = true ∨ s.shared[config]? = none
  · rw [outcome_instantiateWith_new hactive hnew, outcome_instantiateWith_new hactive hnew]
    cases hcomponent : Component.forConfig env.graph config with
    | error e => rfl
    | ok component =>
        dsimp only
        rw [h hactive hnew component hcomponent]
  · rw [not_or, Bool.not_eq_true] at hnew
    rcases hnew with ⟨rfl, hshared⟩
    rcases Option.ne_none_iff_exists'.mp hshared with ⟨id, hid⟩
    rw [outcome_instantiateWith_shared hactive hid, outcome_instantiateWith_shared hactive hid]

end Requests

/-!
# Checked walks are ordinary
-/

theorem outcome_eq_of_resolves {H : Habit} {s : Session} {x y : Resolving (List Argument)}
    (h : H.bond.Resolves s s x y fun w => List.Forall₂ (Argument.Fits (H.bond.answers w) false))
    (hvalid : H.valid s) : outcome x s = outcome y s := by
  rcases hx : outcome x s with ⟨e | resolved, s'⟩
  · rcases (h rfl ⟨rfl, hvalid⟩).error hx with hexcused | ⟨t', hy, hfalls⟩
    · exact hexcused.elim
    · obtain rfl : s' = t' := hfalls.2.1
      exact hy.symm
  · rcases (h rfl ⟨rfl, hvalid⟩).ok hx with ⟨resolved', t', hy, -, hvalid', -, hfits⟩
    obtain rfl : s' = t' := hvalid'.1
    obtain rfl : resolved = resolved' := List.forall₂_eq_eq_eq ▸ hfits.imp fun _ _ hfit =>
      eq_of_fits (w := (s', s')) (hfit.mono fun _ _ _ _ _ hanswers => hanswers.1)
    exact hy.symm

section Walk

variable {κ : Type} {H : κ -> Habit} {active : κ -> List NodeId} {rule : Rule}

end Walk
end Environment
end Wiring
