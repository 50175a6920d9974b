import Wiring.Proofs.Lockstep
import Wiring.Range.Check

/-!
# Chains of generic type parameters

A check is one on chains of some length.  Which length that is does not matter to
what holds on chains of every length.
-/

namespace Wiring
namespace Range

variable {g : Graph} {v : Observed} {r : Range} {c : Generics}

def genericWithin (g : Graph) : (links : Nat) → String → Observed → Checking (Option Scalar)
  | 0, name => checkGeneric g (fun _ _ => throw (.endless name)) name
  | links + 1, name => checkGeneric g (checkWithin g links) name

theorem checkWithin_eq (links : Nat) (v : Observed) (r : Range) :
    checkWithin g links v r = checkWith g (genericWithin g links) v r := by
  cases links <;> rfl

theorem isCut_iff {α : Type} {run : Except Rejection α × Generics} :
    isCut run = true <-> exists name, run.1 = .error (.endless name) := by
  rcases run with ⟨(report | name) | a, d⟩
  · exact ⟨fun h => (nomatch h), fun ⟨_, h⟩ => nomatch h⟩
  · exact ⟨fun _ => ⟨name, rfl⟩, fun _ => rfl⟩
  · exact ⟨fun h => (nomatch h), fun ⟨_, h⟩ => nomatch h⟩

theorem not_isCut_iff {α : Type} {run : Except Rejection α × Generics} :
    isCut run = false <-> forall name, run.1 ≠ .error (.endless name) := by
  rw [← Bool.not_eq_true, isCut_iff, not_exists]

theorem outcome_check_eq (v : Observed) (r : Range) (c : Generics) :
    outcome (check g v r) c = outcome (checkWithin g (chainLength g v r c) v r) c := by
  unfold check
  rw [outcome_bind_ok (outcome_get c)]

theorem exists_links (g : Graph) (v : Observed) (r : Range) (c : Generics) :
    exists links, outcome (check g v r) c = outcome (checkWithin g links v r) c :=
  ⟨_, outcome_check_eq v r c⟩

theorem chainLength_eq :
    chainLength g v r c =
      if isCut (outcome (checkWithin g c.scope.length v r) c) then
        (lengthFrom g v r c (c.scope.length + 1)).getD 0
      else c.scope.length := rfl

theorem lengthFrom_eq (links : Nat) :
    lengthFrom g v r c links =
      if isCut (outcome (checkWithin g links v r) c) then lengthFrom g v r c (links + 1)
      else some links := by
  rw [lengthFrom, repeatM_eq_of_monadTail, repeatM.body, outcome]
  split <;> rfl

theorem exists_lengthFrom {links more : Nat} (hle : links ≤ more)
    (h : isCut (outcome (checkWithin g more v r) c) = false) :
    exists first, lengthFrom g v r c links = some first ∧
      isCut (outcome (checkWithin g first v r) c) = false := by
  rcases Nat.exists_eq_add_of_le' hle with ⟨longer, rfl⟩
  induction longer generalizing links with
  | zero =>
      rw [Nat.zero_add] at h
      exists links
      rw [lengthFrom_eq, h]
      exact ⟨rfl, rfl⟩
  | succ longer ih =>
      rw [lengthFrom_eq]
      cases hcut : isCut (outcome (checkWithin g links v r) c) with
      | false => exact ⟨links, rfl, hcut⟩
      | true =>
          rw [Nat.succ_add_eq_add_succ] at h
          exact ih (Nat.le_add_left _ _) h

end Range
end Wiring
