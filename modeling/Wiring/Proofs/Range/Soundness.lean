import Wiring.Proofs.Graph.Import
import Wiring.Proofs.Range.Agreement
import Wiring.Proofs.Range.Narrowing
import Wiring.Proofs.Range.Symmetry

/-!
# Merges are sound for checks

What a merge of two ranges accepts is accepted by both of them, if the tuples in them
have a fixed length.  Such tuples do not clash, and the second range is the first one
of the merge in the other order.
-/

namespace Wiring
namespace Range

mutual

def FixedLength : Range → Prop
  | wildcard | undefined | literal _ | type _ | generic _ => True
  | union members | intersection members => AllFixedLength members
  | tuple members => (forall inner, rest inner ∉ members) ∧ AllFixedLength members
  | array inner | rest inner | keyof inner => FixedLength inner

def AllFixedLength : List Range → Prop
  | [] => True
  | r :: rs => FixedLength r ∧ AllFixedLength rs

end

theorem allFixedLength_iff {rs : List Range} :
    AllFixedLength rs <-> forall r, r ∈ rs -> FixedLength r := by
  induction rs with
  | nil => exact ⟨fun _ r hr => absurd hr List.not_mem_nil, fun _ => trivial⟩
  | cons r rs ih => rw [AllFixedLength, ih, List.forall_mem_cons]

theorem Misaligned.exists_rest {xs ys : List Range} (h : Misaligned xs ys) :
    exists inner, rest inner ∈ xs ∨ rest inner ∈ ys := by
  induction h with
  | wildcard xs inner ys => exact ⟨inner, Or.inr List.mem_cons_self⟩
  | union inner hxs members ys => exact ⟨inner, Or.inl List.mem_cons_self⟩
  | tail hx y h ih =>
      rcases ih with ⟨inner, hinner⟩
      exists inner
      exact hinner.imp (List.mem_cons_of_mem _) (List.mem_cons_of_mem _)

theorem not_clash_of_fixedLength {isSubtype : String → String → Bool} {a b : Range}
    (ha : a.FixedLength) (hb : b.FixedLength) : ¬ Clash isSubtype a b := by
  intro h
  induction h with
  | tuple h =>
      rcases h.exists_rest with ⟨inner, hinner | hinner⟩
      · exact ha.1 inner hinner
      · exact hb.1 inner hinner
  | member hx hy h ih =>
      exact ih (allFixedLength_iff.mp ha.2 _ (List.mem_of_getElem? hx))
        (allFixedLength_iff.mp hb.2 _ (List.mem_of_getElem? hy))
  | union hx hy h ih =>
      exact ih (allFixedLength_iff.mp ha _ (List.mem_of_getElem? hx))
        (allFixedLength_iff.mp hb _ (List.mem_of_getElem? hy))
  | intersection hx hy h ih =>
      exact ih (allFixedLength_iff.mp ha _ (List.mem_of_getElem? hx))
        (allFixedLength_iff.mp hb _ (List.mem_of_getElem? hy))
  | array h ih => exact ih ha hb
  | rest h ih => exact ih ha hb
  | left hne hx hm h ih => exact ih (allFixedLength_iff.mp ha _ hx) hb
  | right hne hy hm h ih => exact ih ha (allFixedLength_iff.mp hb _ hy)

theorem Merges.sound {g : Graph} {a b m : Range} (hg : g.Sound) (h : Merges g.isSubclassOf a b m)
    (ha : a.Concrete) (hb : b.Concrete) (ha' : a.FixedLength) (hb' : b.FixedLength) {v : Observed}
    (hv : m.Admits g v) : a.Admits g v ∧ b.Admits g v := by
  constructor
  · exact h.narrows hg ha (not_clash_of_fixedLength ha' hb') hv
  · exact h.symm.narrows hg hb (not_clash_of_fixedLength hb' ha') hv

/-- A check against a range without generic type parameters neither reads nor changes what they are
bound to.  What it accepts for a merge of two such ranges, with tuples of fixed length, it accepts
for both of them, on every graph. -/
theorem merge_sound (g : Graph) (hg : g.Built) :
    (forall (r : Range) (v : Observed), r.Concrete ->
      exists answer, forall c, outcome (check g v r) c = (answer, c)) ∧
    forall (a b m : Range) (v : Observed) (c d : Generics), a.Concrete -> b.Concrete ->
      a.FixedLength -> b.FixedLength -> merge g.isSubclassOf a b = .ok m -> Accepts g c v m ->
      Accepts g d v a ∧ Accepts g d v b := by
  constructor
  · intro r v hr
    exact outcome_check_concrete hr v
  · intro a b m v c d ha hb ha' hb' hmerge haccepts
    have hmerges := merges_of_merge a b hmerge
    have hadmits := (accepts_iff (hmerges.concrete ha hb) c v).mp haccepts
    have hsound := hmerges.sound hg.sound ha hb ha' hb' hadmits
    constructor
    · exact (accepts_iff ha d v).mpr hsound.1
    · exact (accepts_iff hb d v).mpr hsound.2

def kennel : List Graph.Operation :=
  [.intern (.named "Dog"), .addNamed 0 Vocabulary.Rdfs.subClassOf "Animal", .intern (.named "rex"),
   .addType 2 "Dog", .intern (.literal ⟨"5", Vocabulary.Xsd.integer, none⟩), .freshList [2, 3]]

theorem merge_sound_kennel :
    merge (Graph.empty.runAll kennel).2.isSubclassOf
      (tuple [type "Animal", literal Vocabulary.Xsd.number, wildcard])
      (tuple [type "Dog", union [literal Vocabulary.Xsd.integer, type "Cat"], undefined]) =
        .ok (tuple [type "Dog", union [literal Vocabulary.Xsd.integer], undefined]) ∧
    Accepts (Graph.empty.runAll kennel).2 (.ofScope []) (.node 4)
      (tuple [type "Animal", literal Vocabulary.Xsd.number, wildcard]) ∧
    Accepts (Graph.empty.runAll kennel).2 (.ofScope []) (.node 4)
      (tuple [type "Dog", union [literal Vocabulary.Xsd.integer, type "Cat"], undefined]) := by
  have hdog : (Graph.empty.runAll kennel).2.isSubclassOf "Dog" "Animal" = true := by decide +kernel
  have hanimal : (Graph.empty.runAll kennel).2.isSubclassOf "Animal" "Dog" = false := by
    decide +kernel
  have hmerge : merge (Graph.empty.runAll kennel).2.isSubclassOf
      (tuple [type "Animal", literal Vocabulary.Xsd.number, wildcard])
      (tuple [type "Dog", union [literal Vocabulary.Xsd.integer, type "Cat"], undefined]) =
        .ok (tuple [type "Dog", union [literal Vocabulary.Xsd.integer], undefined]) := by
    have hnumber : Datatype.narrower? Vocabulary.Xsd.number Vocabulary.Xsd.integer =
        some Vocabulary.Xsd.integer := by decide +kernel
    simp [merge, mergePairs, mergeRight, lift, keepMerged, addResult, hdog, hanimal, hnumber]
  have haccepts : Accepts (Graph.empty.runAll kennel).2 (.ofScope ["T"]) (.node 4)
      (tuple [type "Dog", union [literal Vocabulary.Xsd.integer], undefined]) := ⟨none, _, rfl⟩
  have hbuilt : (Graph.empty.runAll kennel).2.Built := ⟨Graph.empty, kennel, Or.inl rfl, rfl⟩
  have hsound := (merge_sound _ hbuilt).2
    (tuple [type "Animal", literal Vocabulary.Xsd.number, wildcard])
    (tuple [type "Dog", union [literal Vocabulary.Xsd.integer, type "Cat"], undefined]) _ (.node 4)
    (.ofScope ["T"]) (.ofScope []) ⟨trivial, trivial, trivial, trivial⟩
    ⟨trivial, ⟨trivial, trivial, trivial⟩, trivial, trivial⟩
    ⟨fun inner h => by simp at h, trivial, trivial, trivial, trivial⟩
    ⟨fun inner h => by simp at h, trivial, ⟨trivial, trivial, trivial⟩, trivial, trivial⟩ hmerge
    haccepts
  exact ⟨hmerge, hsound.1, hsound.2⟩

end Range
end Wiring
