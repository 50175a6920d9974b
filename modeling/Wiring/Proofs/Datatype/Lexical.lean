import Mathlib
import Wiring.Proofs.Datatype
import Wiring.Proofs.Number.Numeral

/-!
# Lexical forms of numbers

The lexical forms that have a value under the integer datatypes and under the
other numeric ones.  An integer is the one that its numeral denotes, and has to
fit into 64 bits and between the limits of the datatype.  The other numbers are
decimal numerals and four words.
-/

namespace Wiring
namespace Datatype

open Vocabulary

/-!
# Limits
-/

structure Limits where
  datatype : String
  least : Option Int
  greatest : Option Int

def Limits.Admit (limits : Limits) (n : Int) : Prop :=
  (forall k, limits.least = some k -> k ≤ n) ∧ forall k, limits.greatest = some k -> n ≤ k

def integerLimits : List Limits :=
  [⟨Xsd.integer, none, none⟩,
   ⟨Xsd.nonPositiveInteger, none, some 0⟩,
   ⟨Xsd.negativeInteger, none, some (-1)⟩,
   ⟨Xsd.nonNegativeInteger, some 0, none⟩,
   ⟨Xsd.positiveInteger, some 1, none⟩,
   ⟨Xsd.long, some (-9223372036854775808), some 9223372036854775807⟩,
   ⟨Xsd.int, some (-2147483648), some 2147483647⟩,
   ⟨Xsd.short, some (-32768), some 32767⟩,
   ⟨Xsd.byte, some (-128), some 127⟩,
   ⟨Xsd.unsignedLong, some 0, some 18446744073709551615⟩,
   ⟨Xsd.unsignedInt, some 0, some 4294967295⟩,
   ⟨Xsd.unsignedShort, some 0, some 65535⟩,
   ⟨Xsd.unsignedByte, some 0, some 255⟩]

def InWord (n : Int) : Prop :=
  -9223372036854775808 ≤ n ∧ n ≤ 9223372036854775807

instance (n : Int) : Decidable (InWord n) :=
  inferInstanceAs (Decidable (-9223372036854775808 ≤ n ∧ n ≤ 9223372036854775807))

theorem integerBounds_eq {limits : Limits} (h : limits ∈ integerLimits) :
    integerBounds limits.datatype =
      (max (limits.least.getD minInteger) minInteger,
        min (limits.greatest.getD maxInteger) maxInteger) := by
  revert limits
  decide +kernel

theorem inWord_and_admit_iff {limits : Limits} (h : limits ∈ integerLimits) (n : Int) :
    InWord n ∧ limits.Admit n <->
      (integerBounds limits.datatype).1 ≤ n ∧ n ≤ (integerBounds limits.datatype).2 := by
  rw [integerBounds_eq h]
  unfold InWord Limits.Admit minInteger maxInteger
  rcases limits with ⟨datatype, least, greatest⟩
  cases least <;> cases greatest <;> simp <;> omega

/-!
# Integers
-/

theorem castInteger_eq_ok_iff {limits : Limits} (h : limits ∈ integerLimits) {lexical : String}
    {n : Int} : castInteger lexical limits.datatype = .ok n <->
      Numeral.Denotes lexical.toList n ∧ InWord n ∧ limits.Admit n := by
  rw [← Numeral.readInt?_eq_some_iff, inWord_and_admit_iff h]
  have hbounds := integerBounds_eq h
  unfold castInteger
  cases Decimal.readInt? lexical.toList with
  | none => simp
  | some m =>
      dsimp only
      constructor
      · intro hcast
        split at hcast
        · cases hcast
        split at hcast
        · cases hcast
        · next hadmits =>
            cases hcast
            exact ⟨rfl, by omega⟩
      · rintro ⟨hm, hadmits⟩
        cases hm
        have hword : ¬ (n < minInteger ∨ maxInteger < n) := by
          rw [hbounds] at hadmits
          omega
        rw [if_neg hword, if_neg (by omega)]

theorem cast_of_mem_integerLimits {limits : Limits} (h : limits ∈ integerLimits)
    (lexical : String) : cast lexical limits.datatype =
      (castInteger lexical limits.datatype).map fun n => some (.int n) := by
  have hinteger : forall l, l ∈ integerLimits ->
      l.datatype ≠ Xsd.boolean ∧ integerTypes.contains l.datatype = true := by decide +kernel
  rcases hinteger limits h with ⟨hboolean, hcontains⟩
  rw [cast, if_neg hboolean, if_pos hcontains]

/-- A lexical form has the value `n` under an integer datatype exactly if it is an integer numeral for
`n`, and `n` fits into 64 bits and is within the limits of the datatype.  It has no other value and
otherwise none.  No numeral that an accepted one begins with leaves the 64 bits, so that they suffice
to read it digit by digit. -/
theorem cast_integer (lexical : String) (limits : Limits) (h : limits ∈ integerLimits) :
    integerTypes = integerLimits.map Limits.datatype ∧
    (forall n, cast lexical limits.datatype = .ok (some (.int n)) <->
      Numeral.Denotes lexical.toList n ∧ InWord n ∧ limits.Admit n) ∧
    ((¬ exists n, Numeral.Denotes lexical.toList n ∧ InWord n ∧ limits.Admit n) <->
      exists fault, cast lexical limits.datatype = .error fault) ∧
    forall n, cast lexical limits.datatype = .ok (some (.int n)) ->
      forall start m, start <+: lexical.toList -> Numeral.Denotes start m -> InWord m := by
  have hvalue (n : Int) : cast lexical limits.datatype = .ok (some (.int n)) <->
      Numeral.Denotes lexical.toList n ∧ InWord n ∧ limits.Admit n := by
    rw [← castInteger_eq_ok_iff h, cast_of_mem_integerLimits h]
    cases castInteger lexical limits.datatype <;> simp [Except.map]
  refine ⟨rfl, hvalue, ?_, fun n hn start m hstart hm => ?_⟩
  · simp only [← castInteger_eq_ok_iff h, cast_of_mem_integerLimits h]
    cases castInteger lexical limits.datatype <;> simp [Except.map]
  · rcases (hvalue n).mp hn with ⟨hdenotes, hword, -⟩
    rcases hstart with ⟨rest, hrest⟩
    rw [← hrest] at hdenotes
    have hbetween := hdenotes.between hm
    unfold InWord at hword ⊢
    omega

/-- The least byte has leading zeros here, and one less has no value. -/
theorem cast_integer_least :
    cast "-000128" Xsd.byte = .ok (some (.int (-128))) ∧
    (exists fault, cast "-129" Xsd.byte = .error fault) ∧ InWord (-12) := by
  have hbyte : (⟨Xsd.byte, some (-128), some 127⟩ : Limits) ∈ integerLimits := by
    simp [integerLimits]
  have hleast : Numeral.Denotes "-000128".toList (-128) :=
    ⟨.minus, ['0', '0', '0', '1', '2', '8'], rfl, by decide, by decide, by decide⟩
  have hless : Numeral.Denotes "-129".toList (-129) :=
    ⟨.minus, ['1', '2', '9'], rfl, by decide, by decide, by decide⟩
  have hvalue : cast "-000128" Xsd.byte = .ok (some (.int (-128))) :=
    ((cast_integer "-000128" _ hbyte).2.1 (-128)).mpr
      ⟨hleast, by decide, by simp [Limits.Admit]⟩
  refine ⟨hvalue, (cast_integer "-129" _ hbyte).2.2.1.mp ?_, ?_⟩
  · rintro ⟨n, hn, -, hadmits⟩
    obtain rfl := hn.unique hless
    exact absurd (hadmits.1 (-128) rfl) (by decide)
  · exact (cast_integer "-000128" _ hbyte).2.2.2 (-128) hvalue ['-', '0', '0', '0', '1', '2'] (-12)
      ⟨['8'], rfl⟩ ⟨.minus, ['0', '0', '0', '1', '2'], rfl, by decide, by decide, by decide⟩

/-!
# Other numbers
-/

def numberWords : List String :=
  ["INF", "+INF", "-INF", "NaN"]

variable {lexical : String}

theorem mem_numberWords : lexical ∈ numberWords <->
    (lexical = "INF" ∨ lexical = "+INF") ∨ lexical = "-INF" ∨ lexical = "NaN" := by
  simp [numberWords, or_assoc]

theorem ne_of_not_mem_numberWords (h : lexical ∉ numberWords) :
    ¬ (lexical = "INF" ∨ lexical = "+INF") ∧ lexical ≠ "-INF" ∧ lexical ≠ "NaN" := by
  rcases not_or.mp (mt mem_numberWords.mpr h) with ⟨hplus, hrest⟩
  exact ⟨hplus, not_or.mp hrest⟩

theorem castFloat_of_not_mem (h : lexical ∉ numberWords) :
    castFloat lexical =
      match Decimal.read? lexical.toList with
      | some d => .ok d.toBinary64
      | none => .error (.notNumber lexical) := by
  rcases ne_of_not_mem_numberWords h with ⟨hplus, hminus, hnan⟩
  cases hread : Decimal.read? lexical.toList <;> simp [castFloat, hplus, hminus, hnan, hread]

theorem exists_castFloat_iff : (exists x, castFloat lexical = .ok x) <->
    lexical ∈ numberWords ∨ Numeral.IsDecimal lexical.toList := by
  by_cases hword : lexical ∈ numberWords
  · have hvalue : exists x, castFloat lexical = .ok x := by
      rcases mem_numberWords.mp hword with (rfl | rfl) | rfl | rfl <;> exact ⟨_, rfl⟩
    simp only [hvalue, hword, true_or]
  · rw [castFloat_of_not_mem hword, ← Numeral.exists_read?_iff]
    cases Decimal.read? lexical.toList <;> simp [hword]

theorem cast_of_mem_floatTypes {datatype : String} (h : datatype ∈ floatTypes) (lexical : String) :
    cast lexical datatype = (castFloat lexical).map fun x => some (.double x) := by
  have hfloat : forall d, d ∈ floatTypes -> d ≠ Xsd.boolean ∧ ¬ integerTypes.contains d = true ∧
      floatTypes.contains d = true := by decide +kernel
  rcases hfloat datatype h with ⟨hboolean, hinteger, hcontains⟩
  rw [cast, if_neg hboolean, if_neg hinteger, if_pos hcontains]

/-!
# Words in other spellings

A reader of doubles may know words for infinity and not-a-number in any case and
with any sign.  All of them have a letter that no decimal numeral has.
-/

def isForeign (c : Char) : Bool :=
  c.isAlpha && c != 'e' && c != 'E'

/-- Knows the words, refuses all other letters, and leaves the rest to a reader with words of its
own. -/
def castGuarded (lexical : String) : Except Fault Binary64 :=
  if lexical = "INF" ∨ lexical = "+INF" then .ok (.infinite false)
  else if lexical = "-INF" then .ok (.infinite true)
  else if lexical = "NaN" then .ok .nan
  else if lexical.toList.any isForeign then .error (.notNumber lexical)
  else
    match Binary64.ofText? lexical with
    | some x => .ok x
    | none => .error (.notNumber lexical)

theorem isAlpha_eq_false_of_digit {c : Char} (h : '0' ≤ c ∧ c ≤ '9') : c.isAlpha = false := by
  rw [Char.le_def, Char.le_def, UInt32.le_iff_toNat_le, UInt32.le_iff_toNat_le] at h
  simp only [Char.isAlpha, Char.isUpper, Char.isLower, Bool.or_eq_false_iff, Bool.and_eq_false_iff,
    decide_eq_false_iff_not, ge_iff_le, UInt32.le_iff_toNat_le]
  simp only [Char.reduceVal, UInt32.reduceToNat] at h ⊢
  omega

theorem isForeign_eq_false {cs : List Char} (h : Numeral.IsDecimal cs) {c : Char} (hc : c ∈ cs) :
    isForeign c = false := by
  rcases h.mem hc with hdigit | hother
  · simp [isForeign, isAlpha_eq_false_of_digit hdigit]
  · simp only [List.mem_cons, List.not_mem_nil, or_false] at hother
    rcases hother with rfl | rfl | rfl | rfl | rfl <;> rfl

theorem isForeign_of_toLower {c : Char} (h : c.toLower = 'n' ∨ c.toLower = 'i') :
    isForeign c = true := by
  have hne : c ≠ 'e' ∧ c ≠ 'E' := by
    constructor
    · rintro rfl
      exact absurd h (by decide)
    · rintro rfl
      exact absurd h (by decide)
  have halpha : c.isAlpha = true := by
    rw [← Char.isLower_toLower_eq_isAlpha]
    rcases h with h | h <;> rw [h] <;> rfl
  simp [isForeign, halpha, hne]

theorem ofText?_of_not_foreign (h : lexical.toList.any isForeign = false) :
    Binary64.ofText? lexical = (Decimal.read? lexical.toList).map Decimal.toBinary64 := by
  have hlower {c : Char} (hc : c ∈ lexical.toList) : c.toLower ≠ 'n' ∧ c.toLower ≠ 'i' := by
    have hforeign := List.any_eq_false.mp h c hc
    exact not_or.mp fun hword => hforeign (isForeign_of_toLower hword)
  have hword (negative : Bool) : Binary64.ofWord? negative
      (String.ofList ((Decimal.splitSign lexical.toList).2.map Char.toLower)) = none := by
    have hmem {c : Char} (hc : c ∈ (Decimal.splitSign lexical.toList).2) : c ∈ lexical.toList := by
      rcases Numeral.exists_sign lexical.toList with ⟨sign, hsign, -⟩
      rw [hsign]
      exact List.mem_append_right _ hc
    have hne {c : Char} (word : String) (hletter : c ∈ word.toList) (hc : c = 'n' ∨ c = 'i') :
       String.ofList ((Decimal.splitSign lexical.toList).2.map Char.toLower) ≠ word := by
      rintro rfl
      rw [String.toList_ofList] at hletter
      rcases List.mem_map.mp hletter with ⟨d, hd, rfl⟩
      exact (not_or.mpr (hlower (hmem hd))) hc
    unfold Binary64.ofWord?
    rw [if_neg (hne "nan" (c := 'n') (by simp) (Or.inl rfl)), if_neg]
    rintro (heq | heq)
    · exact hne "inf" (c := 'i') (by simp) (Or.inr rfl) heq
    · exact hne "infinity" (c := 'i') (by simp) (Or.inr rfl) heq
  unfold Binary64.ofText?
  dsimp only
  rw [hword]

theorem castFloat_eq_castGuarded (lexical : String) : castFloat lexical = castGuarded lexical := by
  by_cases hword : lexical ∈ numberWords
  · rcases mem_numberWords.mp hword with (rfl | rfl) | rfl | rfl <;> rfl
  · rcases ne_of_not_mem_numberWords hword with ⟨hplus, hminus, hnan⟩
    rw [castFloat_of_not_mem hword, castGuarded, if_neg hplus, if_neg hminus, if_neg hnan]
    by_cases hforeign : lexical.toList.any isForeign = true
    · rcases List.any_eq_true.mp hforeign with ⟨c, hc, hletter⟩
      rw [if_pos hforeign]
      cases hread : Decimal.read? lexical.toList with
      | none => rfl
      | some d =>
          rw [isForeign_eq_false (Numeral.isDecimal_of_read? hread) hc] at hletter
          cases hletter
    · rw [if_neg hforeign, ofText?_of_not_foreign (Bool.eq_false_iff.mpr hforeign)]
      cases Decimal.read? lexical.toList <;> rfl

/-- A lexical form has a value under the other numeric datatypes exactly if it is one of the words or a
decimal numeral, and every one that an integer datatype accepts is such. -/
theorem cast_float (lexical datatype : String)
    (h : datatype ∈ [Xsd.decimal, Xsd.float, Xsd.double, Xsd.number]) :
    ((exists x, cast lexical datatype = .ok (some (.double x))) <->
      lexical ∈ numberWords ∨ Numeral.IsDecimal lexical.toList) ∧
    ((exists fault, cast lexical datatype = .error fault) <->
      ¬ (lexical ∈ numberWords ∨ Numeral.IsDecimal lexical.toList)) ∧
    castFloat lexical = castGuarded lexical ∧
    forall integer value, integer ∈ integerTypes -> cast lexical integer = .ok value ->
      exists x, cast lexical datatype = .ok (some (.double x)) := by
  rw [← exists_castFloat_iff, cast_of_mem_floatTypes h]
  refine ⟨?_, ?_, castFloat_eq_castGuarded lexical, fun integer value hinteger hvalue => ?_⟩
  · cases castFloat lexical <;> simp [Except.map]
  · cases castFloat lexical <;> simp [Except.map]
  · have hnumeric : isNumeric integer = true := by
      rw [isNumeric, List.contains_iff_mem.mpr hinteger, Bool.true_or]
    rcases castFloat_of_isNumeric hnumeric hvalue with ⟨x, hx⟩
    exact ⟨x, by rw [hx]; rfl⟩

theorem cast_float_fraction :
    (exists x, cast "+.5E-03" Xsd.decimal = .ok (some (.double x))) ∧
    (exists fault, cast "-" Xsd.double = .error fault) ∧
    (exists fault, cast "inf" Xsd.float = .error fault) ∧
    exists x, cast "-000128" Xsd.number = .ok (some (.double x)) := by
  have hnone (lexical : String) (hword : lexical ∉ numberWords)
      (hread : Decimal.read? lexical.toList = none) :
      ¬ (lexical ∈ numberWords ∨ Numeral.IsDecimal lexical.toList) := by
    rw [← Numeral.exists_read?_iff, hread]
    simp [hword]
  have hfraction : Numeral.IsDecimal "+.5E-03".toList := by
    have hmantissa : Numeral.IsMantissa ['.', '5'] := by
      refine ⟨fun c hc => ?_, by decide, '5', by decide, by decide⟩
      have hcases : c = '.' ∨ c = '5' := by simpa using hc
      rcases hcases with rfl | rfl
      · exact .inr rfl
      · exact .inl (by decide)
    have hexponent : Numeral.IsExponent ['E', '-', '0', '3'] :=
      Or.inr ⟨'E', ['-', '0', '3'], -3, Or.inr rfl, rfl, .minus, ['0', '3'], rfl, by decide,
        by decide, by decide⟩
    exact ⟨.plus, _, _, rfl, hmantissa, hexponent⟩
  have hbyte : cast "-000128" Xsd.byte = .ok (some (.int (-128))) := by rfl
  exact ⟨(cast_float "+.5E-03" Xsd.decimal (by simp)).1.mpr (Or.inr hfraction),
    (cast_float "-" Xsd.double (by simp)).2.1.mpr (hnone "-" (by decide) rfl),
    (cast_float "inf" Xsd.float (by simp)).2.1.mpr (hnone "inf" (by decide) rfl),
    (cast_float "-000128" Xsd.number (by simp)).2.2.2 Xsd.byte _ (by simp [integerTypes]) hbyte⟩

end Datatype
end Wiring
