import Wiring.Proofs.Graph.Hierarchy
import Wiring.Proofs.Range.Merging

/-!
# Merges narrow

What a merge of two ranges admits was admitted by the first of them, except for
tuples.  A rest member takes the items that are left, and a merge does not look at
what stands around it: a wildcard, which stands for one item, gives way to a rest
member like to any other range, and a rest member that meets a union becomes one
that stands for one item.
-/

namespace Wiring
namespace Range

/-- Members of tuples that stand for one item on one side and for all that are left on the other,
where this adds to what is admitted. Nothing behind a rest member of the first tuple matters. -/
inductive Misaligned : List Range → List Range → Prop where
  | wildcard (xs : List Range) (inner : Range) (ys : List Range) :
      Misaligned (wildcard :: xs) (rest inner :: ys)
  | union (inner : Range) {xs : List Range} (hxs : xs ≠ []) (members ys : List Range) :
      Misaligned (rest inner :: xs) (union members :: ys)
  | tail {x : Range} (hx : forall inner, x ≠ rest inner) (y : Range) {xs ys : List Range}
      (h : Misaligned xs ys) : Misaligned (x :: xs) (y :: ys)

/-- Misaligned tuples meet in a merge of the two ranges.  Members of a union that do not merge are
dropped, so they do not count. -/
inductive Clash (isSubtype : String → String → Bool) : Range → Range → Prop where
  | tuple {xs ys : List Range} (h : Misaligned xs ys) : Clash isSubtype (tuple xs) (tuple ys)
  | member {xs ys : List Range} {i : Nat} {x y : Range} (hx : xs[i]? = some x)
      (hy : ys[i]? = some y) (h : Clash isSubtype x y) :
      Clash isSubtype (Range.tuple xs) (Range.tuple ys)
  | union {xs ys : List Range} {i : Nat} {x y : Range} (hx : xs[i]? = some x)
      (hy : ys[i]? = some y) (h : Clash isSubtype x y) : Clash isSubtype (union xs) (union ys)
  | intersection {xs ys : List Range} {i : Nat} {x y : Range} (hx : xs[i]? = some x)
      (hy : ys[i]? = some y) (h : Clash isSubtype x y) :
      Clash isSubtype (intersection xs) (intersection ys)
  | array {x y : Range} (h : Clash isSubtype x y) : Clash isSubtype (array x) (array y)
  | rest {x y : Range} (h : Clash isSubtype x y) : Clash isSubtype (rest x) (rest y)
  | left {xs : List Range} {x b m : Range} (hb : forall ys, b ≠ Range.union ys) (hx : x ∈ xs)
      (hm : Merges isSubtype x b m) (h : Clash isSubtype x b) :
      Clash isSubtype (Range.union xs) b
  | right {a y m : Range} {ys : List Range} (ha : forall xs, a ≠ Range.union xs) (hy : y ∈ ys)
      (hm : Merges isSubtype a y m) (h : Clash isSubtype a y) :
      Clash isSubtype a (Range.union ys)

variable {isSubtype : String → String → Bool} {a b m : Range}

/-!
# Tuples
-/

theorem Merges.rest_left {inner : Range} (h : Merges isSubtype (Range.rest inner) b m) :
    (exists inner', m = Range.rest inner') ∨ exists members, b = Range.union members := by
  cases h with
  | wildcardRight a => exact Or.inl ⟨inner, rfl⟩
  | genericRight a name => exact Or.inl ⟨inner, rfl⟩
  | rest h => exact Or.inl ⟨_, rfl⟩
  | right ha hms source hsource h => exact Or.inr ⟨_, rfl⟩

theorem Merges.rest_merged {inner : Range} (h : Merges isSubtype a b (Range.rest inner))
    (ha : a.Concrete) :
    (exists inner', a = Range.rest inner') ∨
      a = Range.wildcard ∧ exists inner', b = Range.rest inner' := by
  cases h with
  | wildcardLeft b => exact Or.inr ⟨rfl, inner, rfl⟩
  | wildcardRight a => exact Or.inl ⟨inner, rfl⟩
  | genericLeft name b => exact ha.elim
  | genericRight a name => exact Or.inl ⟨inner, rfl⟩
  | rest h => exact Or.inl ⟨_, rfl⟩

variable {g : Graph}

theorem admitsItems_of_pairs {xs ys ms : List Range} (hleft : ms.length = xs.length)
    (hright : ms.length = ys.length) (hxs : AllConcrete xs) (haligned : ¬ Misaligned xs ys)
    (hmerges : forall (i : Nat) (x y m : Range), xs[i]? = some x -> ys[i]? = some y ->
      ms[i]? = some m -> Merges isSubtype x y m)
    (hadmits : forall (i : Nat) (x y m : Range), xs[i]? = some x -> ys[i]? = some y ->
      ms[i]? = some m -> forall v, m.Admits g v -> x.Admits g v)
    {items : List Observed} (h : AdmitsItems g ms items) : AdmitsItems g xs items := by
  induction xs generalizing ys ms items with
  | nil =>
      cases List.eq_nil_of_length_eq_zero hleft
      exact h
  | cons x xs ih =>
      rcases List.exists_cons_of_length_eq_add_one hleft with ⟨m, ms, rfl⟩
      rcases List.exists_cons_of_length_eq_add_one hright.symm with ⟨y, ys, rfl⟩
      have hm : Merges isSubtype x y m := hmerges 0 x y m rfl rfl rfl
      have hx := hadmits 0 x y m rfl rfl rfl
      by_cases hrest : exists inner, x = rest inner
      · rcases hrest with ⟨inner, rfl⟩
        intro item hitem
        by_cases hm' : exists inner', m = rest inner'
        · rcases hm' with ⟨inner', rfl⟩
          exact hx item (h item hitem)
        · -- The member became one for a single item, so it has to be the last one.
          rcases hm.rest_left.resolve_left hm' with ⟨members, rfl⟩
          have hlast : xs = [] := by
            by_contra hne
            exact haligned (.union inner hne members ys)
          subst hlast
          cases List.eq_nil_of_length_eq_zero (Nat.succ.inj hleft)
          rcases (admitsItems_cons (fun inner' h => hm' ⟨inner', h⟩) [] items).mp h with
            ⟨hhead, htail⟩
          cases hitem with
          | head => exact hx item hhead
          | tail other hitem =>
              have hnil : _ = [] := htail
              rw [List.tail_cons] at hnil
              rw [hnil] at hitem
              cases hitem
      · have hne (inner : Range) : x ≠ rest inner := fun heq => hrest ⟨inner, heq⟩
        have hm' (inner : Range) : m ≠ rest inner := by
          rintro rfl
          rcases (hm.rest_merged hxs.1).resolve_left hrest with ⟨rfl, inner', rfl⟩
          exact haligned (.wildcard xs inner' ys)
        rcases (admitsItems_cons hm' ms items).mp h with ⟨hhead, htail⟩
        refine (admitsItems_cons hne xs items).mpr ⟨hx _ hhead, ?_⟩
        exact ih (Nat.succ.inj hleft) (Nat.succ.inj hright) hxs.2
          (fun h => haligned (.tail hne y h)) (fun i => hmerges (i + 1))
          (fun i => hadmits (i + 1)) htail

/-!
# Ranges
-/

theorem Merges.narrows (hg : g.Sound) (h : Merges g.isSubclassOf a b m) (ha : a.Concrete)
    (hclash : ¬ Clash g.isSubclassOf a b) {v : Observed} (hv : m.Admits g v) : a.Admits g v := by
  induction h generalizing v with
  | wildcardLeft b => trivial
  | wildcardRight a => exact hv
  | genericLeft name b => exact ha.elim
  | genericRight a name => exact hv
  | undefined => exact hv
  | literalLeft h => exact hv
  | literalRight h =>
      rcases hv with ⟨l, cast, rfl, hcast⟩
      rcases Datatype.cast_of_isSubtype h hcast with ⟨cast', hcast'⟩
      exact ⟨l, cast', rfl, hcast'⟩
  | typeLeft h => exact hv
  | typeRight h =>
      rcases hv with ⟨id, rfl, hisA⟩
      exact ⟨id, rfl, hg.isA_of_isSubclassOf hisA h⟩
  | union hleft hright h ih =>
      rcases admitsAny_iff.mp hv with ⟨m, hm, hv⟩
      rcases getElem?_of_mem_merged hleft hright hm with ⟨i, x, y, hx, hy, hi⟩
      have hmem := List.mem_of_getElem? hx
      exact admitsAny_iff.mpr ⟨x, hmem, ih i x y m hx hy hi (allConcrete_iff.mp ha x hmem)
        (fun h => hclash (.union hx hy h)) hv⟩
  | intersection hleft hright h ih =>
      refine admitsAll_iff.mpr fun x hmem => ?_
      rcases getElem?_of_mem_left hleft hright hmem with ⟨i, y, m, hx, hy, hi⟩
      exact ih i x y m hx hy hi (allConcrete_iff.mp ha x hmem)
        (fun h => hclash (.intersection hx hy h))
        (admitsAll_iff.mp hv m (List.mem_of_getElem? hi))
  | tuple hleft hright h ih =>
      rcases hv with ⟨items, hitems, hv⟩
      refine ⟨items, hitems, ?_⟩
      refine admitsItems_of_pairs hleft hright ha (fun h => hclash (.tuple h)) h ?_ hv
      intro i x y m hx hy hi v hv
      exact ih i x y m hx hy hi (allConcrete_iff.mp ha x (List.mem_of_getElem? hx))
        (fun h => hclash (.member hx hy h)) hv
  | array h ih =>
      rcases hv with ⟨items, hitems, hv⟩
      exact ⟨items, hitems, fun item hitem => ih ha (fun h => hclash (.array h)) (hv item hitem)⟩
  | rest h ih => exact ih ha (fun h => hclash (.rest h)) hv
  | keyof h ih => exact hv
  | left hb hms source hsource h ih =>
      rcases admitsAny_iff.mp hv with ⟨m, hm, hv⟩
      have hmem := hsource m hm
      exact admitsAny_iff.mpr ⟨source m, hmem, ih m hm (allConcrete_iff.mp ha _ hmem)
        (fun hc => hclash (.left hb hmem (h m hm) hc)) hv⟩
  | right hne hms source hsource h ih =>
      rcases admitsAny_iff.mp hv with ⟨m, hm, hv⟩
      exact ih m hm ha (fun hc => hclash (.right hne (hsource m hm) (h m hm) hc)) hv

end Range
end Wiring
