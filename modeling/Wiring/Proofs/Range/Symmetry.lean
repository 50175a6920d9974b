import Wiring.Proofs.Range.Merging

/-!
# Merges in the other order

A merge succeeds in one order of its ranges if it does in the other.  Both orders
give the same range if no two types are subtypes of each other, of which the left one
would win, and no generic type parameters stand in the ranges, which give way to each
other.
-/

namespace Wiring
namespace Range

theorem Merges.symm {isSubtype : String → String → Bool} {a b m : Range}
    (h : Merges isSubtype a b m) : Merges isSubtype b a m := by
  induction h with
  | wildcardLeft b => exact .wildcardRight b
  | wildcardRight a => exact .wildcardLeft a
  | genericLeft name b => exact .genericRight b name
  | genericRight a name => exact .genericLeft name a
  | undefined => exact .undefined
  | literalLeft h => exact .literalRight h
  | literalRight h => exact .literalLeft h
  | typeLeft h => exact .typeRight h
  | typeRight h => exact .typeLeft h
  | union hleft hright h ih => exact .union hright hleft fun i y x m hy hx => ih i x y m hx hy
  | intersection hleft hright h ih =>
      exact .intersection hright hleft fun i y x m hy hx => ih i x y m hx hy
  | tuple hleft hright h ih => exact .tuple hright hleft fun i y x m hy hx => ih i x y m hx hy
  | array h ih => exact .array ih
  | rest h ih => exact .rest ih
  | keyof h ih => exact .keyof ih
  | left hb hms source hsource h ih => exact .right hb hms source hsource ih
  | right ha hms source hsource h ih => exact .left ha hms source hsource ih

/-!
# Results of two merges
-/

inductive Alike {α : Type} (same : Prop) : Except Report α → Except Report α → Prop where
  | ok {x y : α} (h : same -> x = y) : Alike same (.ok x) (.ok y)
  | error (cause cause' : Report) : Alike same (.error cause) (.error cause')

structure KeptAlike (same : Prop) (results results' : List Range × List Report) : Prop where
  length : results.1.length = results'.1.length
  members : same -> results.1 = results'.1

def Antisymmetric (isSubtype : String → String → Bool) : Prop :=
  forall x y, isSubtype x y = true -> isSubtype y x = true -> x = y

variable {same : Prop} {isSubtype : String → String → Bool} {a b : Range}

namespace Alike

variable {α : Type} {x y : Except Report α}

theorem exists_ok (h : Alike same x y) : (exists m, x = .ok m) <-> exists m, y = .ok m := by
  cases h with
  | @ok m m' hsame => exact ⟨fun _ => ⟨m', rfl⟩, fun _ => ⟨m, rfl⟩⟩
  | error cause cause' => exact ⟨fun ⟨_, h⟩ => (nomatch h), fun ⟨_, h⟩ => nomatch h⟩

theorem eq_ok_iff (h : Alike same x y) (hsame : same) (m : α) : x = .ok m <-> y = .ok m := by
  cases h with
  | ok heq => rw [heq hsame]
  | error cause cause' => exact ⟨fun h => (nomatch h), fun h => nomatch h⟩

theorem lift (h : Alike same x y) (build : α -> Range) :
    Alike same (lift a b build x) (lift b a build y) := by
  cases h with
  | ok heq => exact .ok fun hsame => congrArg build (heq hsame)
  | error cause cause' => exact .error _ _

theorem cons {x y : Except Report Range} {xs ys : Except Report (List Range)} :
    Alike same x y -> Alike same xs ys -> Alike same
      (match x with
        | .error cause => .error cause
        | .ok m =>
          match xs with
          | .error cause => .error cause
          | .ok ms => .ok (m :: ms))
      (match y with
        | .error cause => .error cause
        | .ok m =>
          match ys with
          | .error cause => .error cause
          | .ok ms => .ok (m :: ms)) := by
  intro h hrest
  cases h with
  | error cause cause' => exact .error _ _
  | ok heq =>
      cases hrest with
      | error cause cause' => exact .error _ _
      | ok heqs =>
          apply Alike.ok
          intro hsame
          rw [heq hsame, heqs hsame]

theorem addResult {x y : Except Report Range} {others others' : List Range × List Report}
    (h : Alike same x y) (hothers : KeptAlike same others others') :
    KeptAlike same (addResult x others) (addResult y others') := by
  cases h with
  | @ok m m' heq =>
      constructor
      · exact congrArg Nat.succ hothers.length
      · intro hsame
        change m :: others.1 = m' :: others'.1
        rw [heq hsame, hothers.members hsame]
  | error cause cause' => exact ⟨hothers.length, hothers.members⟩

end Alike

theorem KeptAlike.keepMerged {results results' : List Range × List Report}
    (h : KeptAlike same results results') (a b : Range) :
    Alike same (keepMerged a b results) (keepMerged b a results') := by
  have hempty : results.1.isEmpty = results'.1.isEmpty := by
    rw [Bool.eq_iff_iff, List.isEmpty_iff_length_eq_zero, List.isEmpty_iff_length_eq_zero, h.length]
  unfold Range.keepMerged
  rw [hempty]
  split
  · exact .error _ _
  · exact .ok fun hsame => congrArg union (h.members hsame)

/-!
# Merges in both orders
-/

theorem alike_wildcard (hb : same -> b.Concrete) :
    Alike same (.ok b) (merge isSubtype b wildcard) := by
  cases b with
  | generic name =>
      rw [merge]
      exact .ok fun hsame => (hb hsame).elim
  | _ => simp [merge, Alike.ok]

theorem alike_generic {name : String} (ha : same -> (generic name).Concrete) (b : Range) :
    Alike same (.ok b) (merge isSubtype b (generic name)) := by
  cases b with
  | wildcard =>
      rw [merge]
      exact .ok fun hsame => (ha hsame).elim
  | generic other =>
      rw [merge]
      exact .ok fun hsame => (ha hsame).elim
  | _ => simp [merge, Alike.ok]

theorem alike_literal (x y : String) :
    Alike same (merge isSubtype (literal x) (literal y))
      (merge isSubtype (literal y) (literal x)) := by
  rw [merge, merge, Datatype.narrower?_comm y x]
  cases Datatype.narrower? x y with
  | none => exact .error _ _
  | some narrower => exact .ok fun _ => rfl

theorem alike_type (hanti : same -> Antisymmetric isSubtype) (x y : String) :
    Alike same (merge isSubtype (type x) (type y)) (merge isSubtype (type y) (type x)) := by
  rw [merge, merge]
  by_cases hxy : isSubtype x y = true
  · by_cases hyx : isSubtype y x = true
    · rw [if_pos hxy, if_pos hyx]
      exact .ok fun hsame => congrArg type (hanti hsame x y hxy hyx)
    · rw [if_pos hxy, if_neg hyx, if_pos hxy]
      exact .ok fun _ => rfl
  · rw [if_neg hxy, if_neg hxy]
    split
    · exact .ok fun _ => rfl
    · exact .error _ _

theorem alike_pairs {xs ys : List Range} {cause cause' : Report} (build : List Range -> Range)
    (h : xs.length = ys.length ->
      Alike same (mergePairs isSubtype xs ys) (mergePairs isSubtype ys xs)) :
    Alike same
      (if xs.length = ys.length then lift a b build (mergePairs isSubtype xs ys)
        else .error cause)
      (if ys.length = xs.length then lift b a build (mergePairs isSubtype ys xs)
        else .error cause') := by
  by_cases hlength : xs.length = ys.length
  · rw [if_pos hlength, if_pos hlength.symm]
    exact (h hlength).lift build
  · rw [if_neg hlength, if_neg (Ne.symm hlength)]
    exact .error _ _

theorem merge_union_left (hwildcard : b ≠ wildcard) (hgeneric : forall name, b ≠ generic name)
    (hunion : forall ys, b ≠ union ys) (xs : List Range) :
    merge isSubtype (union xs) b = keepMerged (union xs) b (mergeLeft isSubtype xs b) := by
  cases b <;> simp_all [merge]

theorem merge_union_right (hwildcard : a ≠ wildcard) (hgeneric : forall name, a ≠ generic name)
    (hunion : forall xs, a ≠ union xs) (ys : List Range) :
    merge isSubtype a (union ys) = keepMerged a (union ys) (mergeRight isSubtype a ys) := by
  cases a <;> simp_all [merge]

mutual

theorem alike_merge (hanti : same -> Antisymmetric isSubtype) (a b : Range)
    (ha : same -> a.Concrete) (hb : same -> b.Concrete) :
    Alike same (merge isSubtype a b) (merge isSubtype b a) := by
  rw [merge.eq_def isSubtype a b]
  split
  · exact alike_wildcard hb
  · exact alike_generic ha b
  · rw [merge]
    exact .ok fun _ => rfl
  · rw [merge]
    exact .ok fun _ => rfl
  · rw [merge]
    exact .ok fun _ => rfl
  · next x y =>
      have h : Alike same (merge isSubtype (literal x) (literal y))
          (merge isSubtype (literal y) (literal x)) := alike_literal x y
      rwa [merge.eq_def isSubtype (literal x)] at h
  · next x y =>
      have h := alike_type hanti x y
      rwa [merge.eq_def isSubtype (type x)] at h
  · next xs ys =>
      rw [merge]
      exact alike_pairs union fun _ => alike_mergePairs hanti xs ys ha hb
  · next xs ys =>
      rw [merge]
      exact alike_pairs intersection fun _ => alike_mergePairs hanti xs ys ha hb
  · next xs ys =>
      rw [merge]
      exact alike_pairs tuple fun _ => alike_mergePairs hanti xs ys ha hb
  · next x y =>
      rw [merge]
      exact (alike_merge hanti x y ha hb).lift array
  · next x y =>
      rw [merge]
      exact (alike_merge hanti x y ha hb).lift rest
  · next x y =>
      rw [merge]
      exact (alike_merge hanti x y ha hb).lift keyof
  · next xs hwildcard hgeneric hunion =>
      rw [merge_union_right hwildcard hgeneric hunion]
      exact (alike_mergeLeft hanti xs b ha hb).keepMerged (union xs) b
  · next ys hwildcard hgeneric hunion =>
      rw [merge_union_left hwildcard hgeneric hunion]
      exact (alike_mergeRight hanti a ys ha hb).keepMerged a (union ys)
  · -- Whatever merges in the other order is of one of the shapes above.
    cases hba : merge isSubtype b a with
    | error cause => exact .error _ _
    | ok m => cases merges_of_merge b a hba <;> simp_all
termination_by sizeOf a + sizeOf b

theorem alike_mergePairs (hanti : same -> Antisymmetric isSubtype) (xs ys : List Range)
    (hxs : same -> AllConcrete xs) (hys : same -> AllConcrete ys) :
    Alike same (mergePairs isSubtype xs ys) (mergePairs isSubtype ys xs) := by
  cases xs with
  | nil => simp [mergePairs, Alike.ok]
  | cons x xs =>
      cases ys with
      | nil => simp [mergePairs, Alike.ok]
      | cons y ys =>
          have hhead := alike_merge hanti x y (fun h => (hxs h).1) fun h => (hys h).1
          have htail := alike_mergePairs hanti xs ys (fun h => (hxs h).2) fun h => (hys h).2
          rw [mergePairs, mergePairs]
          exact hhead.cons htail
termination_by sizeOf xs + sizeOf ys

theorem alike_mergeLeft (hanti : same -> Antisymmetric isSubtype) (xs : List Range) (b : Range)
    (hxs : same -> AllConcrete xs) (hb : same -> b.Concrete) :
    KeptAlike same (mergeLeft isSubtype xs b) (mergeRight isSubtype b xs) := by
  cases xs with
  | nil =>
      rw [mergeLeft, mergeRight]
      exact ⟨rfl, fun _ => rfl⟩
  | cons x xs =>
      rw [mergeLeft, mergeRight]
      exact (alike_merge hanti x b (fun h => (hxs h).1) hb).addResult
        (alike_mergeLeft hanti xs b (fun h => (hxs h).2) hb)
termination_by sizeOf xs + sizeOf b

theorem alike_mergeRight (hanti : same -> Antisymmetric isSubtype) (a : Range) (ys : List Range)
    (ha : same -> a.Concrete) (hys : same -> AllConcrete ys) :
    KeptAlike same (mergeRight isSubtype a ys) (mergeLeft isSubtype ys a) := by
  cases ys with
  | nil =>
      rw [mergeLeft, mergeRight]
      exact ⟨rfl, fun _ => rfl⟩
  | cons y ys =>
      rw [mergeLeft, mergeRight]
      exact (alike_merge hanti a y ha fun h => (hys h).1).addResult
        (alike_mergeRight hanti a ys ha fun h => (hys h).2)
termination_by sizeOf a + sizeOf ys

end

/-- A merge succeeds in one order if it does in the other.  It gives the same range in both orders if
no generic type parameter stands in the ranges and no two types are subtypes of each other. -/
theorem merge_symmetric (isSubtype : String → String → Bool) (a b : Range) :
    ((exists m, merge isSubtype a b = .ok m) <-> exists m, merge isSubtype b a = .ok m) ∧
    (a.Concrete -> b.Concrete -> Antisymmetric isSubtype ->
      forall m, merge isSubtype a b = .ok m <-> merge isSubtype b a = .ok m) := by
  have halike : Alike (a.Concrete ∧ b.Concrete ∧ Antisymmetric isSubtype)
      (merge isSubtype a b) (merge isSubtype b a) :=
    alike_merge (fun h => h.2.2) a b (fun h => h.1) fun h => h.2.1
  constructor
  · exact halike.exists_ok
  · intro ha hb hanti m
    exact halike.eq_ok_iff ⟨ha, hb, hanti⟩ m

def dogsAreAnimals (sub sup : String) : Bool :=
  sub = sup || (sub = "Dog" && sup = "Animal")

theorem antisymmetric_dogsAreAnimals : Antisymmetric dogsAreAnimals := by
  intro x y hxy hyx
  simp only [dogsAreAnimals, Bool.or_eq_true, Bool.and_eq_true, decide_eq_true_eq] at hxy hyx
  rcases hxy with hxy | ⟨hx, hy⟩
  · exact hxy
  · rcases hyx with hyx | ⟨hy', -⟩
    · exact hyx.symm
    · rw [hy] at hy'
      exact absurd hy' (by decide)

theorem merge_symmetric_dogs :
    Antisymmetric dogsAreAnimals ∧
    merge dogsAreAnimals
      (tuple [union [type "Dog", literal Vocabulary.Xsd.string], keyof wildcard])
      (tuple [type "Animal", keyof (array undefined)]) =
        .ok (tuple [union [type "Dog"], keyof (array undefined)]) ∧
    merge dogsAreAnimals
      (tuple [type "Animal", keyof (array undefined)])
      (tuple [union [type "Dog", literal Vocabulary.Xsd.string], keyof wildcard]) =
        .ok (tuple [union [type "Dog"], keyof (array undefined)]) := by
  have hfirst : merge dogsAreAnimals
      (tuple [union [type "Dog", literal Vocabulary.Xsd.string], keyof wildcard])
      (tuple [type "Animal", keyof (array undefined)]) =
        .ok (tuple [union [type "Dog"], keyof (array undefined)]) := by
    simp [merge, mergePairs, mergeLeft, lift, keepMerged, addResult, dogsAreAnimals]
  have hboth := (merge_symmetric dogsAreAnimals
    (tuple [union [type "Dog", literal Vocabulary.Xsd.string], keyof wildcard])
    (tuple [type "Animal", keyof (array undefined)])).2
      ⟨⟨trivial, trivial, trivial⟩, trivial, trivial⟩ ⟨trivial, trivial, trivial⟩
      antisymmetric_dogsAreAnimals
  exact ⟨antisymmetric_dogsAreAnimals, hfirst, (hboth _).mp hfirst⟩

end Range
end Wiring
