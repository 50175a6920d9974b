import Mathlib.Data.List.TakeWhile
import Wiring.Datatype

/-!
# Wider datatypes

A lexical form that has a value under a datatype has one under the datatypes
above it.
-/

namespace Wiring

theorem Decimal.read?_of_readInt? {cs : List Char} {n : Int} (h : readInt? cs = some n) :
    exists d, read? cs = some d := by
  unfold readInt? at h
  dsimp only at h
  split at h
  · cases h
  · next hdigits =>
      rw [Bool.or_eq_true, not_or, Bool.not_eq_true, Bool.not_eq_true,
        Bool.not_eq_false'] at hdigits
      have hall (c : Char) (hc : c ∈ (splitSign cs).2) : isDigit c = true :=
        List.all_eq_true.mp hdigits.2 c hc
      have hwhole : (splitSign cs).2.takeWhile isDigit = (splitSign cs).2 :=
        List.takeWhile_eq_self_iff.mpr hall
      have hrest : (splitSign cs).2.dropWhile isDigit = [] :=
        List.dropWhile_eq_nil_iff.mpr hall
      unfold read?
      dsimp only
      rw [hwhole, hrest, hdigits.1]
      exact ⟨_, rfl⟩

namespace Datatype

open Vocabulary

theorem castFloat_of_readInt? {lexical : String} {n : Int}
    (h : Decimal.readInt? lexical.toList = some n) : exists x, castFloat lexical = .ok x := by
  unfold castFloat
  split
  · exact ⟨_, rfl⟩
  split
  · exact ⟨_, rfl⟩
  split
  · exact ⟨_, rfl⟩
  rcases Decimal.read?_of_readInt? h with ⟨d, hd⟩
  rw [hd]
  exact ⟨_, rfl⟩

theorem castInteger_eq_ok {lexical datatype : String} {n : Int}
    (h : castInteger lexical datatype = .ok n) : Decimal.readInt? lexical.toList = some n := by
  unfold castInteger at h
  split at h
  · cases h
  · next m hread =>
      dsimp only at h
      split at h
      · cases h
      split at h
      · cases h
      cases h
      exact hread

theorem castFloat_of_isNumeric {lexical datatype : String} (hnumeric : isNumeric datatype = true)
    {cast : Option Scalar} (h : Datatype.cast lexical datatype = .ok cast) :
    exists x, castFloat lexical = .ok x := by
  unfold Datatype.cast at h
  split at h
  · next hboolean =>
      subst hboolean
      have hnot : isNumeric Xsd.boolean = false := by decide +kernel
      rw [hnot] at hnumeric
      cases hnumeric
  split at h
  · cases hcast : castInteger lexical datatype with
    | error fault =>
        rw [hcast] at h
        cases h
    | ok n => exact castFloat_of_readInt? (castInteger_eq_ok hcast)
  split at h
  · cases hcast : castFloat lexical with
    | error fault =>
        rw [hcast] at h
        cases h
    | ok x => exact ⟨x, rfl⟩
  · next hinteger hfloat =>
      unfold isNumeric at hnumeric
      rw [Bool.or_eq_true] at hnumeric
      exact absurd hnumeric (not_or.mpr ⟨hinteger, hfloat⟩)

theorem cast_number (lexical : String) :
    Datatype.cast lexical Xsd.number = (castFloat lexical).map fun x => some (.double x) := by
  have hboolean : Xsd.number ≠ Xsd.boolean := by decide +kernel
  have hinteger : integerTypes.contains Xsd.number = false := by decide +kernel
  have hfloat : floatTypes.contains Xsd.number = true := by decide +kernel
  unfold Datatype.cast
  rw [if_neg hboolean, hinteger, hfloat]
  rfl

theorem cast_string (lexical : String) : Datatype.cast lexical Xsd.string = .ok none := by
  have hboolean : Xsd.string ≠ Xsd.boolean := by decide +kernel
  have hinteger : integerTypes.contains Xsd.string = false := by decide +kernel
  have hfloat : floatTypes.contains Xsd.string = false := by decide +kernel
  have hjson : Xsd.string ≠ Rdf.json := by decide +kernel
  unfold Datatype.cast
  rw [if_neg hboolean, hinteger, hfloat, if_neg hjson]
  rfl

theorem cast_of_isSubtype {sub sup : String} (hsub : isSubtype sub sup = true) {lexical : String}
    {cast : Option Scalar} (h : Datatype.cast lexical sub = .ok cast) :
    exists cast', Datatype.cast lexical sup = .ok cast' := by
  unfold isSubtype at hsub
  simp only [Bool.or_eq_true, Bool.and_eq_true, decide_eq_true_eq] at hsub
  rcases hsub with (rfl | ⟨rfl, hnumeric⟩) | ⟨rfl, -⟩
  · exact ⟨cast, h⟩
  · rcases castFloat_of_isNumeric hnumeric h with ⟨x, hx⟩
    rw [cast_number, hx]
    exact ⟨_, rfl⟩
  · exact ⟨none, cast_string lexical⟩

theorem narrower?_eq_some {a b narrower : String} (h : narrower? a b = some narrower) :
    narrower = a ∧ isSubtype a b = true ∨ narrower = b ∧ isSubtype b a = true := by
  unfold narrower? at h
  split at h
  · next hab =>
      cases h
      exact Or.inl ⟨rfl, hab⟩
  split at h
  · next hba =>
      cases h
      exact Or.inr ⟨rfl, hba⟩
  · cases h

theorem eq_or_eq_of_isSubtype {a b c : String} (hab : isSubtype a b = true)
    (hbc : isSubtype b c = true) : a = b ∨ b = c := by
  have hstring : isNumeric Xsd.string = false := by decide +kernel
  have hnumber : stringTypes.contains Xsd.number = false := by decide +kernel
  unfold isSubtype at hab hbc
  simp only [Bool.or_eq_true, Bool.and_eq_true, decide_eq_true_eq] at hab hbc
  rcases hab with (hab | ⟨rfl, -⟩) | ⟨rfl, -⟩
  · exact Or.inl hab
  · rcases hbc with (hbc | ⟨hc, -⟩) | ⟨-, hword⟩
    · exact Or.inr hbc
    · exact Or.inr hc.symm
    · rw [hnumber] at hword
      cases hword
  · rcases hbc with (hbc | ⟨-, hnumeric⟩) | ⟨hc, -⟩
    · exact Or.inr hbc
    · rw [hstring] at hnumeric
      cases hnumeric
    · exact Or.inr hc.symm

theorem isSubtype_antisymm {a b : String} (hab : isSubtype a b = true)
    (hba : isSubtype b a = true) : a = b := by
  rcases eq_or_eq_of_isSubtype hab hba with h | h
  · exact h
  · exact h.symm

theorem eq_of_isSubtype_of_ne {a b c : String} (hab : isSubtype a b = true)
    (hac : isSubtype a c = true) (hb : a ≠ b) (hc : a ≠ c) : b = c := by
  have hdisjoint : forall word, word ∈ stringTypes -> isNumeric word = false := by decide +kernel
  unfold isSubtype at hab hac
  simp only [Bool.or_eq_true, Bool.and_eq_true, decide_eq_true_eq, List.contains_iff_mem, hb, hc,
    false_or] at hab hac
  rcases hab with ⟨rfl, hnumeric⟩ | ⟨rfl, hword⟩
  · rcases hac with ⟨rfl, -⟩ | ⟨-, hword⟩
    · rfl
    · rw [hdisjoint a hword] at hnumeric
      cases hnumeric
  · rcases hac with ⟨-, hnumeric⟩ | ⟨rfl, -⟩
    · rw [hdisjoint a hword] at hnumeric
      cases hnumeric
    · rfl

theorem narrower?_comm (a b : String) : narrower? a b = narrower? b a := by
  unfold narrower?
  by_cases hab : isSubtype a b = true
  · by_cases hba : isSubtype b a = true
    · rw [isSubtype_antisymm hab hba]
    · simp [hab, hba]
  · simp [hab]

end Datatype
end Wiring
