import Mathlib.Tactic.Choose
import Wiring.Proofs.Datatype
import Wiring.Proofs.Range.Admission

/-!
# Successful merges

The ways in which two ranges merge, as rules.  The rules say nothing of the order in
which the cases are tried, so each one has its mirror image.
-/

namespace Wiring
namespace Range

/-- The ranges `a` and `b` merge into the third one. -/
inductive Merges (isSubtype : String → String → Bool) : Range → Range → Range → Prop where
  | wildcardLeft (b : Range) : Merges isSubtype wildcard b b
  | wildcardRight (a : Range) : Merges isSubtype a wildcard a
  | genericLeft (name : String) (b : Range) : Merges isSubtype (generic name) b b
  | genericRight (a : Range) (name : String) : Merges isSubtype a (generic name) a
  | undefined : Merges isSubtype undefined undefined undefined
  | literalLeft {x y : String} (h : Datatype.isSubtype x y = true) :
      Merges isSubtype (literal x) (literal y) (literal x)
  | literalRight {x y : String} (h : Datatype.isSubtype y x = true) :
      Merges isSubtype (literal x) (literal y) (literal y)
  | typeLeft {x y : String} (h : isSubtype x y = true) :
      Merges isSubtype (type x) (type y) (type x)
  | typeRight {x y : String} (h : isSubtype y x = true) :
      Merges isSubtype (type x) (type y) (type y)
  | union {xs ys ms : List Range} (hleft : ms.length = xs.length) (hright : ms.length = ys.length)
      (h : forall (i : Nat) (x y m : Range), xs[i]? = some x -> ys[i]? = some y ->
        ms[i]? = some m -> Merges isSubtype x y m) :
      Merges isSubtype (union xs) (union ys) (union ms)
  | intersection {xs ys ms : List Range} (hleft : ms.length = xs.length)
      (hright : ms.length = ys.length)
      (h : forall (i : Nat) (x y m : Range), xs[i]? = some x -> ys[i]? = some y ->
        ms[i]? = some m -> Merges isSubtype x y m) :
      Merges isSubtype (intersection xs) (intersection ys) (intersection ms)
  | tuple {xs ys ms : List Range} (hleft : ms.length = xs.length) (hright : ms.length = ys.length)
      (h : forall (i : Nat) (x y m : Range), xs[i]? = some x -> ys[i]? = some y ->
        ms[i]? = some m -> Merges isSubtype x y m) :
      Merges isSubtype (tuple xs) (tuple ys) (tuple ms)
  | array {x y m : Range} (h : Merges isSubtype x y m) :
      Merges isSubtype (array x) (array y) (array m)
  | rest {x y m : Range} (h : Merges isSubtype x y m) : Merges isSubtype (rest x) (rest y) (rest m)
  | keyof {x y m : Range} (h : Merges isSubtype x y m) :
      Merges isSubtype (keyof x) (keyof y) (keyof m)
  | left {xs ms : List Range} {b : Range} (hb : forall ys, b ≠ Range.union ys) (hms : ms ≠ [])
      (source : Range → Range) (hsource : forall m, m ∈ ms -> source m ∈ xs)
      (h : forall m, m ∈ ms -> Merges isSubtype (source m) b m) :
      Merges isSubtype (Range.union xs) b (Range.union ms)
  | right {a : Range} {ys ms : List Range} (ha : forall xs, a ≠ Range.union xs) (hms : ms ≠ [])
      (source : Range → Range) (hsource : forall m, m ∈ ms -> source m ∈ ys)
      (h : forall m, m ∈ ms -> Merges isSubtype a (source m) m) :
      Merges isSubtype a (Range.union ys) (Range.union ms)

variable {isSubtype : String → String → Bool} {a b m : Range}

/-!
# What a merge is made of
-/

theorem lift_eq_ok {α : Type} {build : α → Range} {result : Except Report α}
    (h : lift a b build result = .ok m) : exists inner, result = .ok inner ∧ m = build inner := by
  cases result with
  | error cause => cases h
  | ok inner =>
      cases h
      exact ⟨inner, rfl, rfl⟩

theorem lift_mergePairs_eq_ok {xs ys : List Range} {build : List Range → Range} {cause : Report}
    (h : (if xs.length = ys.length then lift a b build (mergePairs isSubtype xs ys)
      else .error cause) = .ok m) :
    xs.length = ys.length ∧ exists ms, mergePairs isSubtype xs ys = .ok ms ∧ m = build ms := by
  split at h
  · next hlen => exact ⟨hlen, lift_eq_ok h⟩
  · cases h

theorem keepMerged_eq_ok {results : List Range × List Report}
    (h : keepMerged a b results = .ok m) : results.1 ≠ [] ∧ m = union results.1 := by
  unfold keepMerged at h
  split at h
  · cases h
  · next hempty =>
      cases h
      exact ⟨fun hnil => hempty (List.isEmpty_iff.mpr hnil), rfl⟩

theorem mem_addResult {result : Except Report Range} {others : List Range × List Report}
    (h : m ∈ (addResult result others).1) : result = .ok m ∨ m ∈ others.1 := by
  cases result with
  | error cause => exact Or.inr h
  | ok r =>
      rcases List.mem_cons.mp h with rfl | h
      · exact Or.inl rfl
      · exact Or.inr h

mutual

theorem merges_of_merge (a b : Range) {m : Range} (h : merge isSubtype a b = .ok m) :
    Merges isSubtype a b m := by
  unfold merge at h
  split at h
  · cases h
    exact .wildcardLeft b
  · cases h
    exact .genericLeft _ b
  · cases h
    exact .wildcardRight a
  · cases h
    exact .genericRight a _
  · cases h
    exact .undefined
  · split at h
    · next hnarrower =>
        cases h
        rcases Datatype.narrower?_eq_some hnarrower with ⟨rfl, hsub⟩ | ⟨rfl, hsub⟩
        · exact .literalLeft hsub
        · exact .literalRight hsub
    · cases h
  · split at h
    · next hsub =>
        cases h
        exact .typeLeft hsub
    split at h
    · next hsub =>
        cases h
        exact .typeRight hsub
    · cases h
  · next xs ys =>
      rcases lift_mergePairs_eq_ok h with ⟨hlen, ms, hms, rfl⟩
      rcases merges_of_mergePairs xs ys hlen hms with ⟨hleft, hpairs⟩
      exact .union hleft (hleft.trans hlen) hpairs
  · next xs ys =>
      rcases lift_mergePairs_eq_ok h with ⟨hlen, ms, hms, rfl⟩
      rcases merges_of_mergePairs xs ys hlen hms with ⟨hleft, hpairs⟩
      exact .intersection hleft (hleft.trans hlen) hpairs
  · next xs ys =>
      rcases lift_mergePairs_eq_ok h with ⟨hlen, ms, hms, rfl⟩
      rcases merges_of_mergePairs xs ys hlen hms with ⟨hleft, hpairs⟩
      exact .tuple hleft (hleft.trans hlen) hpairs
  · next x y =>
      rcases lift_eq_ok h with ⟨inner, hinner, rfl⟩
      exact .array (merges_of_merge x y hinner)
  · next x y =>
      rcases lift_eq_ok h with ⟨inner, hinner, rfl⟩
      exact .rest (merges_of_merge x y hinner)
  · next x y =>
      rcases lift_eq_ok h with ⟨inner, hinner, rfl⟩
      exact .keyof (merges_of_merge x y hinner)
  · next xs _ _ hb =>
      rcases keepMerged_eq_ok h with ⟨hms, rfl⟩
      choose! source hsource hmerges using merges_of_mergeLeft xs b
      exact .left hb hms source hsource hmerges
  · next ys _ _ ha =>
      rcases keepMerged_eq_ok h with ⟨hms, rfl⟩
      choose! source hsource hmerges using merges_of_mergeRight a ys
      exact .right ha hms source hsource hmerges
  · cases h
termination_by sizeOf a + sizeOf b

theorem merges_of_mergePairs (xs ys : List Range) (hlen : xs.length = ys.length)
    {ms : List Range} (h : mergePairs isSubtype xs ys = .ok ms) :
    ms.length = xs.length ∧ forall (i : Nat) (x y m : Range), xs[i]? = some x -> ys[i]? = some y ->
      ms[i]? = some m -> Merges isSubtype x y m := by
  unfold mergePairs at h
  split at h
  · next x xs y ys =>
      split at h
      · cases h
      · next r hr =>
          split at h
          · cases h
          · next rs hrs =>
              cases h
              rcases merges_of_mergePairs xs ys (Nat.succ.inj hlen) hrs with ⟨hrest, hpairs⟩
              refine ⟨congrArg Nat.succ hrest, fun i x' y' m hx hy hm => ?_⟩
              cases i with
              | zero =>
                  cases hx
                  cases hy
                  cases hm
                  exact merges_of_merge x y hr
              | succ i => exact hpairs i x' y' m hx hy hm
  · next hne =>
      cases h
      cases xs with
      | nil => exact ⟨rfl, fun i x y m hx => nomatch hx⟩
      | cons x xs =>
          cases ys with
          | nil => cases hlen
          | cons y ys => exact (hne x xs y ys rfl rfl).elim
termination_by sizeOf xs + sizeOf ys

theorem merges_of_mergeLeft (xs : List Range) (b m : Range)
    (h : m ∈ (mergeLeft isSubtype xs b).1) : exists x, x ∈ xs ∧ Merges isSubtype x b m := by
  cases xs with
  | nil => rw [mergeLeft] at h; cases h
  | cons x xs =>
      rw [mergeLeft] at h
      rcases mem_addResult h with hx | hxs
      · exact ⟨x, List.mem_cons_self, merges_of_merge x b hx⟩
      · rcases merges_of_mergeLeft xs b m hxs with ⟨x', hx', hmerges⟩
        exact ⟨x', List.mem_cons_of_mem x hx', hmerges⟩
termination_by sizeOf xs + sizeOf b

theorem merges_of_mergeRight (a : Range) (ys : List Range) (m : Range)
    (h : m ∈ (mergeRight isSubtype a ys).1) : exists y, y ∈ ys ∧ Merges isSubtype a y m := by
  cases ys with
  | nil => rw [mergeRight] at h; cases h
  | cons y ys =>
      rw [mergeRight] at h
      rcases mem_addResult h with hy | hys
      · exact ⟨y, List.mem_cons_self, merges_of_merge a y hy⟩
      · rcases merges_of_mergeRight a ys m hys with ⟨y', hy', hmerges⟩
        exact ⟨y', List.mem_cons_of_mem y hy', hmerges⟩
termination_by sizeOf a + sizeOf ys

end

/-!
# What is kept by a merge
-/

theorem getElem?_of_mem_left {xs ys ms : List Range} (hleft : ms.length = xs.length)
    (hright : ms.length = ys.length) {x : Range} (hx : x ∈ xs) :
    exists (i : Nat) (y m : Range), xs[i]? = some x ∧ ys[i]? = some y ∧ ms[i]? = some m := by
  rcases List.getElem?_of_mem hx with ⟨i, hi⟩
  rcases List.getElem?_eq_some_iff.mp hi with ⟨hlt, -⟩
  exact ⟨i, ys[i], ms[i], hi, List.getElem?_eq_getElem (by omega),
    List.getElem?_eq_getElem (by omega)⟩

theorem getElem?_of_mem_merged {xs ys ms : List Range} (hleft : ms.length = xs.length)
    (hright : ms.length = ys.length) {m : Range} (hm : m ∈ ms) :
    exists (i : Nat) (x y : Range), xs[i]? = some x ∧ ys[i]? = some y ∧ ms[i]? = some m := by
  rcases List.getElem?_of_mem hm with ⟨i, hi⟩
  rcases List.getElem?_eq_some_iff.mp hi with ⟨hlt, -⟩
  exact ⟨i, xs[i], ys[i], List.getElem?_eq_getElem (by omega),
    List.getElem?_eq_getElem (by omega), hi⟩

/-- A property that a range has from its parts. Keys may have it from what they are the keys of, or
not at all. -/
structure FromParts (P : Range → Prop) : Prop where
  undefined : ¬ P undefined
  literal (datatype : String) : ¬ P (literal datatype)
  type (iri : String) : ¬ P (type iri)
  union {members : List Range} : P (union members) <-> exists r, r ∈ members ∧ P r
  intersection {members : List Range} : P (intersection members) <-> exists r, r ∈ members ∧ P r
  tuple {members : List Range} : P (tuple members) <-> exists r, r ∈ members ∧ P r
  array {inner : Range} : P (array inner) <-> P inner
  rest {inner : Range} : P (rest inner) <-> P inner
  keyof {x y m : Range} : (P m -> P x ∨ P y) -> P (keyof m) -> P (keyof x) ∨ P (keyof y)

theorem exists_mem_of_pairs {P : Range → Prop} {xs ys ms : List Range}
    (hleft : ms.length = xs.length) (hright : ms.length = ys.length)
    (hms : exists m, m ∈ ms ∧ P m)
    (h : forall (i : Nat) (x y m : Range), xs[i]? = some x -> ys[i]? = some y ->
      ms[i]? = some m -> P m -> P x ∨ P y) :
    (exists x, x ∈ xs ∧ P x) ∨ exists y, y ∈ ys ∧ P y := by
  rcases hms with ⟨m, hm, hp⟩
  rcases getElem?_of_mem_merged hleft hright hm with ⟨i, x, y, hx, hy, hi⟩
  apply (h i x y m hx hy hi hp).imp
  · exact fun hpx => ⟨x, List.mem_of_getElem? hx, hpx⟩
  · exact fun hpy => ⟨y, List.mem_of_getElem? hy, hpy⟩

theorem Merges.fromParts {P : Range → Prop} (hP : FromParts P) (h : Merges isSubtype a b m)
    (hm : P m) : P a ∨ P b := by
  induction h with
  | wildcardLeft b => exact Or.inr hm
  | wildcardRight a => exact Or.inl hm
  | genericLeft name b => exact Or.inr hm
  | genericRight a name => exact Or.inl hm
  | undefined => exact (hP.undefined hm).elim
  | literalLeft h => exact (hP.literal _ hm).elim
  | literalRight h => exact (hP.literal _ hm).elim
  | typeLeft h => exact (hP.type _ hm).elim
  | typeRight h => exact (hP.type _ hm).elim
  | union hleft hright h ih =>
      rw [hP.union] at hm ⊢
      rw [hP.union]
      exact exists_mem_of_pairs hleft hright hm ih
  | intersection hleft hright h ih =>
      rw [hP.intersection] at hm ⊢
      rw [hP.intersection]
      exact exists_mem_of_pairs hleft hright hm ih
  | tuple hleft hright h ih =>
      rw [hP.tuple] at hm ⊢
      rw [hP.tuple]
      exact exists_mem_of_pairs hleft hright hm ih
  | array h ih =>
      rw [hP.array] at hm ⊢
      rw [hP.array]
      exact ih hm
  | rest h ih =>
      rw [hP.rest] at hm ⊢
      rw [hP.rest]
      exact ih hm
  | keyof h ih => exact hP.keyof ih hm
  | left hb hms source hsource h ih =>
      rcases hP.union.mp hm with ⟨m, hmem, hp⟩
      exact (ih m hmem hp).imp_left fun hx => hP.union.mpr ⟨_, hsource m hmem, hx⟩
  | right ha hms source hsource h ih =>
      rcases hP.union.mp hm with ⟨m, hmem, hp⟩
      exact (ih m hmem hp).imp_right fun hy => hP.union.mpr ⟨_, hsource m hmem, hy⟩

theorem exists_not_concrete {rs : List Range} :
    ¬ AllConcrete rs <-> exists r, r ∈ rs ∧ ¬ r.Concrete := by
  simp only [allConcrete_iff, not_forall, exists_prop]

theorem fromParts_not_concrete : FromParts fun r => ¬ r.Concrete where
  undefined h := h trivial
  literal _ h := h trivial
  type _ h := h trivial
  union := exists_not_concrete
  intersection := exists_not_concrete
  tuple := exists_not_concrete
  array := Iff.rfl
  rest := Iff.rfl
  keyof := id

theorem Merges.concrete (h : Merges isSubtype a b m) (ha : a.Concrete) (hb : b.Concrete) :
    m.Concrete := by
  by_contra hm
  exact (h.fromParts fromParts_not_concrete hm).elim (absurd ha) (absurd hb)

end Range
end Wiring
