import Wiring.Proofs.Range.Agreement

/-!
# Unfolding checks

A check that ends has followed finitely many generic type parameters.  On all chains
that are long enough it has the same run, and so it is made of the checks of what
generic type parameters are bound to, of which each one may be on chains of its own
length.
-/

namespace Wiring
namespace Checking

variable {α β : Type}

/-!
# Checks that come closer to another one
-/

theorem isCut_within (x : Checking α) (wrap : Report → Report) (c : Generics) :
    Range.isCut (Wiring.outcome (x.within wrap) c) = Range.isCut (Wiring.outcome x c) := by
  rw [outcome_within]
  rcases Wiring.outcome x c with ⟨(report | name) | a, d⟩ <;> rfl

theorem isCut_outcome (x : Checking α) (c : Generics) :
    Range.isCut (Wiring.outcome x.outcome c) = Range.isCut (Wiring.outcome x c) := by
  rw [outcome_outcome]
  rcases Wiring.outcome x c with ⟨(report | name) | a, d⟩ <;> rfl

theorem isCut_of_bind {x : Checking α} {k : α → Checking β} {c : Generics}
    (h : Range.isCut (Wiring.outcome (x >>= k) c) = false) :
    Range.isCut (Wiring.outcome x c) = false := by
  rw [outcome_bind] at h
  rcases hx : Wiring.outcome x c with ⟨(report | name) | a, d⟩
  · rfl
  · rw [hx] at h
    exact h
  · rfl

/-- Where the last check is not cut, the others have its run from some place on. -/
def Tends {α : Type} (x : Nat → Checking α) (y : Checking α) : Prop :=
  forall c, Range.isCut (Wiring.outcome y c) = false ->
    exists first, forall n, first ≤ n -> Wiring.outcome (x n) c = Wiring.outcome y c

namespace Tends

theorem const (y : Checking α) : Tends (fun _ => y) y :=
  fun _ _ => ⟨0, fun _ _ => rfl⟩

theorem bind {x : Nat → Checking α} {y : Checking α} {k : Nat → α → Checking β}
    {l : α → Checking β} (h : Tends x y) (hk : forall a, Tends (fun n => k n a) (l a)) :
    Tends (fun n => x n >>= k n) (y >>= l) := by
  intro c hends
  rcases h c (isCut_of_bind hends) with ⟨first, hfirst⟩
  rcases hy : Wiring.outcome y c with ⟨e | a, d⟩
  · exists first
    intro n hn
    rw [outcome_bind, outcome_bind, hfirst n hn, hy]
  · rw [outcome_bind, hy] at hends
    rcases hk a d hends with ⟨first', hfirst'⟩
    exists max first first'
    intro n hn
    rw [outcome_bind, outcome_bind, hfirst n (Nat.le_trans (Nat.le_max_left _ _) hn), hy]
    exact hfirst' n (Nat.le_trans (Nat.le_max_right _ _) hn)

theorem within {x : Nat → Checking α} {y : Checking α} (h : Tends x y) (wrap : Report → Report) :
    Tends (fun n => (x n).within wrap) (y.within wrap) := by
  intro c hends
  rw [isCut_within] at hends
  rcases h c hends with ⟨first, hfirst⟩
  exists first
  intro n hn
  rw [outcome_within, outcome_within, hfirst n hn]

theorem outcome {x : Nat → Checking α} {y : Checking α} (h : Tends x y) :
    Tends (fun n => (x n).outcome) y.outcome := by
  intro c hends
  rw [isCut_outcome] at hends
  rcases h c hends with ⟨first, hfirst⟩
  exists first
  intro n hn
  rw [outcome_outcome, outcome_outcome, hfirst n hn]

theorem compatible : Compatible fun x y => Tends x y where
  pure _ := const _
  refuse _ := const _
  bind := bind
  within wrap h := h.within wrap
  outcome := outcome

end Tends
end Checking

namespace Range

open Checking (Agree Tends)

variable {g : Graph} {v : Observed} {r : Range} {c : Generics}

/-!
# Chains of different lengths
-/

theorem agree_checkGeneric_eq {onBinding onBinding' : Observed → Range → Checking (Option Scalar)}
    (name : String) (v : Observed) (h : forall r, Agree True Eq (onBinding v r) (onBinding' v r)) :
    Agree True Eq (checkGeneric g onBinding name v) (checkGeneric g onBinding' name v) := by
  apply agree_checkGeneric
  · intro c d hcd
    rw [hcd]
    exact ⟨rfl, rfl⟩
  · intro c d hcd _ _
    rw [hcd]
  · intro c d c' d' existing _ _ _ hcd
    rw [hcd]
  · exact fun c d r _ _ _ => h r

theorem agree_checkWithin {links more : Nat} (hle : links ≤ more) (v : Observed) (r : Range) :
    Agree True Eq (checkWithin g links v r) (checkWithin g more v r) := by
  rw [checkWithin_eq, checkWithin_eq]
  induction links generalizing more v r with
  | zero =>
      apply agree_checkWith
      intro name _ v
      have hmore : exists onBinding, genericWithin g more name = checkGeneric g onBinding name := by
        cases more <;> exact ⟨_, rfl⟩
      rcases hmore with ⟨onBinding, hmore⟩
      rw [genericWithin, hmore]
      exact agree_checkGeneric_eq name v fun r => .lost trivial name _
  | succ links ih =>
      cases more with
      | zero => exact absurd hle (Nat.not_succ_le_zero links)
      | succ more =>
          apply agree_checkWith
          intro name _ v
          rw [genericWithin, genericWithin]
          apply agree_checkGeneric_eq
          intro r
          rw [checkWithin_eq, checkWithin_eq]
          exact ih (Nat.le_of_succ_le_succ hle) v r

theorem outcome_checkWithin_of_le {links more : Nat} (hle : links ≤ more)
    (h : isCut (outcome (checkWithin g links v r) c) = false) :
    outcome (checkWithin g more v r) c = outcome (checkWithin g links v r) c := by
  have hmatches := (agree_checkWithin hle v r c c rfl).of_ends fun _ => not_isCut_iff.mp h
  exact (Prod.ext hmatches.1 hmatches.2).symm

theorem not_isCut_chainLength {links : Nat}
    (h : isCut (outcome (checkWithin g links v r) c) = false) :
    isCut (outcome (checkWithin g (chainLength g v r c) v r) c) = false := by
  rw [chainLength_eq]
  split
  · have hlonger := outcome_checkWithin_of_le (Nat.le_max_right (c.scope.length + 1) links) h
    rcases exists_lengthFrom (Nat.le_max_left (c.scope.length + 1) links) (by rw [hlonger, h])
      with ⟨first, hfirst, hends⟩
    rw [hfirst]
    exact hends
  · next hcut => exact Bool.not_eq_true _ ▸ hcut

/-- A check has the run that it has on chains of some length, if it is not cut on them. -/
theorem outcome_check_of_links {links : Nat}
    (h : isCut (outcome (checkWithin g links v r) c) = false) :
    outcome (check g v r) c = outcome (checkWithin g links v r) c := by
  rw [outcome_check_eq, ← outcome_checkWithin_of_le (Nat.le_max_left _ links)
    (not_isCut_chainLength h)]
  exact outcome_checkWithin_of_le (Nat.le_max_right _ links) h

theorem agree_check (links : Nat) (v : Observed) (r : Range) :
    Agree True Eq (checkWithin g links v r) (check g v r) := by
  rintro c _ rfl
  cases hcut : isCut (outcome (checkWithin g links v r) c) with
  | false =>
      rw [outcome_check_of_links hcut]
      exact .same _ rfl
  | true =>
      rcases isCut_iff.mp hcut with ⟨name, hname⟩
      rcases hrun : outcome (checkWithin g links v r) c with ⟨answer, d⟩
      rw [hrun] at hname
      cases hname
      exact .lost trivial name d _

/-- A check ends exactly if it is not cut on chains of some length. -/
theorem check_ends_iff : isCut (outcome (check g v r) c) = false <->
    exists links, isCut (outcome (checkWithin g links v r) c) = false := by
  constructor
  · intro h
    rcases exists_links g v r c with ⟨links, hrun⟩
    rw [hrun] at h
    exact ⟨links, h⟩
  · rintro ⟨links, h⟩
    rw [outcome_check_of_links h]
    exact h

/-!
# The recursion of checks
-/

theorem tends_checkGeneric {onBinding : Nat → Observed → Range → Checking (Option Scalar)}
    {onBinding' : Observed → Range → Checking (Option Scalar)}
    (h : forall v r, Tends (fun n => onBinding n v r) (onBinding' v r)) (name : String)
    (v : Observed) :
    Tends (fun n => checkGeneric g (onBinding n) name v) (checkGeneric g onBinding' name v) := by
  intro c hends
  simp only [outcome_checkGeneric] at hends ⊢
  cases hrequired : c.requirement? name with
  | error report => exact ⟨0, fun _ _ => rfl⟩
  | ok required =>
      rw [hrequired] at hends
      cases required with
      | none =>
          dsimp only at hends ⊢
          cases hbinding : (c.inferFrom g name v).binding? name with
          | none => exact ⟨0, fun _ _ => rfl⟩
          | some bound =>
              rw [hbinding] at hends
              exact (h v bound).within _ _ hends
      | some existing =>
          dsimp only at hends ⊢
          have hexisting : isCut (outcome (onBinding' v existing) c) = false := by
            rcases hrun : outcome (onBinding' v existing) c with ⟨(report | other) | cast, d⟩
            · rfl
            · rw [hrun] at hends
              exact hends
            · rfl
          rcases h v existing c hexisting with ⟨first, hsame⟩
          exists first
          intro n hn
          rw [hsame n hn]

theorem tends_check (v : Observed) (r : Range) :
    Tends (fun links => checkWithin g links v r) (check g v r) := by
  intro c hends
  rw [outcome_check_eq] at hends
  exists chainLength g v r c
  intro more hmore
  rw [outcome_check_eq]
  exact outcome_checkWithin_of_le hmore hends

/-- A check is made of the checks of what generic type parameters are bound to, and ends exactly if
what is made of them does. -/
theorem outcome_check_unfold (h : isCut (outcome (check g v r) c) = false ∨
      isCut (outcome (checkWith g (checkGeneric g (check g)) v r) c) = false) :
    outcome (check g v r) c = outcome (checkWith g (checkGeneric g (check g)) v r) c := by
  rcases h with h | h
  · rcases check_ends_iff.mp h with ⟨links, hends⟩
    have hlonger := outcome_checkWithin_of_le (Nat.le_succ links) hends
    rw [← hlonger] at hends
    have hagree : Agree True Eq (checkWithin g (links + 1) v r)
        (checkWith g (checkGeneric g (check g)) v r) :=
      agree_checkWith r (fun name _ v => agree_checkGeneric_eq name v (agree_check links v)) v
    have hsame := (hagree c c rfl).of_ends fun _ => not_isCut_iff.mp hends
    rw [outcome_check_of_links hends]
    exact Prod.ext hsame.1 hsame.2
  · have htends : Tends (fun links => checkWith g (checkGeneric g (checkWithin g links)) v r)
        (checkWith g (checkGeneric g (check g)) v r) :=
      compatible_checkWith Tends.compatible r
        (fun name _ v => tends_checkGeneric tends_check name v) v
    rcases htends c h with ⟨links, hlinks⟩
    have hrun : outcome (checkWithin g (links + 1) v r) c =
        outcome (checkWith g (checkGeneric g (check g)) v r) c := hlinks links (Nat.le_refl links)
    rw [← hrun] at h ⊢
    exact outcome_check_of_links h

theorem outcome_check_eq_ok {cast : Option Scalar} {c' : Generics} :
    outcome (check g v r) c = (.ok cast, c') <->
      outcome (checkWith g (checkGeneric g (check g)) v r) c = (.ok cast, c') := by
  constructor
  · intro h
    exact (outcome_check_unfold (.inl (by rw [h]; rfl))).symm.trans h
  · intro h
    exact (outcome_check_unfold (.inr (by rw [h]; rfl))).trans h

end Range
end Wiring
