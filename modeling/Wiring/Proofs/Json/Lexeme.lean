import Mathlib.Tactic.IntervalCases
import Std.Data.String.ToNat
import Wiring.Json.Draft
import Wiring.Json.Printer

/-!
# Strings and naturals are read as they were written
-/

namespace Wiring
namespace Json

/-!
# Strings
-/

namespace Draft

theorem unitOfHex?_controlEscape : forall n, n < 0x20 -> exists a b c d,
    controlEscape (Char.ofNat n) = ['\\', 'u', a, b, c, d] ∧ unitOfHex? a b c d = some n := by
  intro n hn
  interval_cases n <;> exact ⟨_, _, _, _, rfl, rfl⟩

theorem escapeChar_cases (c : Char) :
    (exists e, escapeChar c = ['\\', e] ∧ shortEscape? e = some c) ∨
      (c.toNat < 0x20 ∧ escapeChar c = controlEscape c) ∨
      (c ≠ '"' ∧ c ≠ '\\' ∧ ¬ c.toNat < 0x20 ∧ escapeChar c = [c]) := by
  unfold escapeChar
  split
  · next h =>
      subst h
      exact Or.inl ⟨_, rfl, rfl⟩
  split
  · next h =>
      subst h
      exact Or.inl ⟨_, rfl, rfl⟩
  split
  · next h =>
      subst h
      exact Or.inl ⟨_, rfl, rfl⟩
  split
  · next h =>
      subst h
      exact Or.inl ⟨_, rfl, rfl⟩
  split
  · next h =>
      subst h
      exact Or.inl ⟨_, rfl, rfl⟩
  split
  · next h =>
      have hc : c = '\x08' := by rw [← Char.ofNat_toNat c, h]
      exact Or.inl ⟨_, rfl, hc ▸ rfl⟩
  split
  · next h =>
      have hc : c = '\x0c' := by rw [← Char.ofNat_toNat c, h]
      exact Or.inl ⟨_, rfl, hc ▸ rfl⟩
  split
  · next h => exact Or.inr (Or.inl ⟨h, rfl⟩)
  · next hquote hbackslash _ _ _ _ _ hcontrol =>
      exact Or.inr (Or.inr ⟨hquote, hbackslash, hcontrol, rfl⟩)

theorem readPieces?_short {e c : Char} (h : shortEscape? e = some c) (cs : List Char) :
    readPieces? ('\\' :: e :: cs) = (readPieces? cs).map fun r => (.char c :: r.1, r.2) := by
  have hu : e ≠ 'u' := by
    rintro rfl
    cases h
  rw [readPieces?.eq_def]
  split
  · next heq => cases heq
  · next heq => cases heq
  · next heq =>
      cases heq
      exact absurd rfl hu
  · next heq =>
      cases heq
      rw [h]
      cases readPieces? cs <;> rfl
  · next hne heq =>
      cases heq
      exact (hne _ _ rfl rfl).elim

theorem readPieces?_cons {c : Char} (hquote : c ≠ '"') (hbackslash : c ≠ '\\')
    (hcontrol : ¬ c.toNat < 0x20) (cs : List Char) :
    readPieces? (c :: cs) = (readPieces? cs).map fun r => (.char c :: r.1, r.2) := by
  rw [readPieces?.eq_def]
  split
  · next heq => cases heq
  · next heq =>
      cases heq
      exact absurd rfl hquote
  · next heq =>
      cases heq
      exact absurd rfl hbackslash
  · next heq =>
      cases heq
      exact absurd rfl hbackslash
  · next heq =>
      cases heq
      rw [if_neg fun h => h.elim hbackslash hcontrol]
      cases readPieces? cs <;> rfl

theorem decode?_unit {c : Char} (hcontrol : c.toNat < 0x20) (rest : List Piece) :
    decode? (.unit c.toNat :: rest) = (decode? rest).map (c :: ·) := by
  have hhigh : isHighSurrogate c.toNat = false := by
    have hlt : ¬ 0xd800 ≤ c.toNat := by omega
    simp [isHighSurrogate, hlt]
  have hlow : isLowSurrogate c.toNat = false := by
    have hlt : ¬ 0xdc00 ≤ c.toNat := by omega
    simp [isLowSurrogate, hlt]
  rw [decode?.eq_def]
  dsimp only
  rw [hhigh, hlow, if_neg Bool.false_ne_true, if_neg Bool.false_ne_true, Char.ofNat_toNat]

theorem exists_piece (c : Char) (cs : List Char) : exists p,
    readPieces? (escapeChar c ++ cs) = (readPieces? cs).map (fun r => (p :: r.1, r.2)) ∧
      forall rest, decode? (p :: rest) = (decode? rest).map (c :: ·) := by
  rcases escapeChar_cases c with ⟨e, heq, he⟩ | ⟨hcontrol, heq⟩ |
    ⟨hquote, hbackslash, hcontrol, heq⟩
  · rw [heq]
    exact ⟨.char c, readPieces?_short he cs, fun _ => rfl⟩
  · rcases unitOfHex?_controlEscape c.toNat hcontrol with ⟨a, b, d, e, hescape, hunit⟩
    rw [Char.ofNat_toNat] at hescape
    rw [heq, hescape]
    refine ⟨.unit c.toNat, ?_, decode?_unit hcontrol⟩
    simp only [List.cons_append, List.nil_append, readPieces?, hunit]
    cases readPieces? cs <;> rfl
  · rw [heq]
    exact ⟨.char c, readPieces?_cons hquote hbackslash hcontrol cs, fun _ => rfl⟩

theorem readString?_escaped (cs rest : List Char) :
    readString? (cs.flatMap escapeChar ++ '"' :: rest) = some (some (String.ofList cs), rest) := by
  have hpieces : exists ps, readPieces? (cs.flatMap escapeChar ++ '"' :: rest) =
      some (ps, rest) ∧ decode? ps = some cs := by
    induction cs with
    | nil => exact ⟨[], rfl, rfl⟩
    | cons c cs ih =>
        rcases ih with ⟨ps, hread, hdecode⟩
        rcases exists_piece c (cs.flatMap escapeChar ++ '"' :: rest) with ⟨p, hread', hdecode'⟩
        refine ⟨p :: ps, ?_, ?_⟩
        · rw [List.flatMap_cons, List.append_assoc, hread', hread]
          rfl
        · rw [hdecode', hdecode]
          rfl
  rcases hpieces with ⟨ps, hread, hdecode⟩
  rw [readString?, hread]
  simp [hdecode]

theorem exists_quoted (s : String) : exists cs, quoted s = '"' :: cs ∧
    forall rest, readString? (cs ++ rest) = some (some s, rest) := by
  refine ⟨_, rfl, fun rest => ?_⟩
  rw [List.append_assoc, List.cons_append, List.nil_append, readString?_escaped,
    String.ofList_toList]

end Draft

/-!
# Naturals
-/

/-- What comes after a value: nothing, a comma or a new line. -/
def Follows (rest : List Char) : Prop :=
  rest = [] ∨ exists cs, rest = ',' :: cs ∨ rest = '\n' :: cs

theorem follows_newline (indent : Nat) (rest : List Char) : Follows (newline indent ++ rest) :=
  Or.inr ⟨_, Or.inr rfl⟩

namespace Numeral

theorem isDigit_of_mem {n : Nat} {c : Char} (h : c ∈ Nat.toDigits 10 n) :
    Decimal.isDigit c = true := by
  show c.isDigit = true
  exact Nat.isDigit_of_mem_toDigits (by omega) (by omega) h

theorem exists_toDigits (n : Nat) : exists c cs, Nat.toDigits 10 n = c :: cs ∧
    (c = '0' -> n = 0) := by
  induction n using Nat.strongRecOn with
  | ind n ih =>
      by_cases hn : n < 10
      · refine ⟨_, _, Nat.toDigits_of_lt_base hn, ?_⟩
        interval_cases n <;> decide
      · rcases ih (n / 10) (by omega) with ⟨c, cs, heq, hzero⟩
        rw [Nat.toDigits_of_base_le (by omega) (Nat.not_lt.mp hn), heq]
        exact ⟨c, _, rfl, fun hc => absurd (hzero hc) (by omega)⟩

theorem takeWhile_digits {n : Nat} {rest : List Char} (h : Follows rest) :
    (Nat.toDigits 10 n ++ rest).takeWhile Decimal.isDigit = Nat.toDigits 10 n := by
  rw [List.takeWhile_append_of_pos fun c => isDigit_of_mem]
  rcases h with rfl | ⟨cs, rfl | rfl⟩
  · simp
  · simp [Decimal.isDigit]
  · simp [Decimal.isDigit]

theorem dropWhile_digits {n : Nat} {rest : List Char} (h : Follows rest) :
    (Nat.toDigits 10 n ++ rest).dropWhile Decimal.isDigit = rest := by
  rw [List.dropWhile_append_of_pos fun c => isDigit_of_mem]
  rcases h with rfl | ⟨cs, rfl | rfl⟩
  · rfl
  · simp [Decimal.isDigit]
  · simp [Decimal.isDigit]

theorem readWhole?_toDigits (n : Nat) {rest : List Char} (h : Follows rest) :
    readWhole? (Nat.toDigits 10 n ++ rest) = some (Nat.toDigits 10 n, rest) := by
  unfold readWhole?
  rw [takeWhile_digits h, dropWhile_digits h]
  rcases exists_toDigits n with ⟨c, cs, heq, hzero⟩
  rw [heq]
  by_cases hc : c = '0'
  · have hn := hzero hc
    subst hn
    rw [Nat.toDigits_zero] at heq
    cases heq
    rfl
  · split
    · next hnil => cases hnil
    · next hcs =>
        cases hcs
        exact absurd rfl hc
    · next hcs =>
        cases hcs
        exact absurd rfl hc
    · rfl

theorem read?_toDigits (n : Nat) {rest : List Char} (h : Follows rest) :
    read? (Nat.toDigits 10 n ++ rest) = some (⟨false, Nat.toDigits 10 n, none, none⟩, rest) := by
  have hsign : readSign (Nat.toDigits 10 n ++ rest) = (false, Nat.toDigits 10 n ++ rest) := by
    rcases exists_toDigits n with ⟨c, cs, heq, -⟩
    have hdigit : Decimal.isDigit c = true := isDigit_of_mem (heq ▸ List.mem_cons_self)
    rw [heq]
    unfold readSign
    split
    · next hminus =>
        cases hminus
        cases hdigit
    · rfl
  have hfraction : readFraction? rest = some (none, rest) := by
    rcases h with rfl | ⟨cs, rfl | rfl⟩ <;> rfl
  have hexponent : readExponent? rest = some (none, rest) := by
    rcases h with rfl | ⟨cs, rfl | rfl⟩ <;> rfl
  simp [read?, hsign, readWhole?_toDigits n h, hfraction, hexponent]

theorem le_ofDigitChars (ds : List Char) (m : Nat) : m ≤ Nat.ofDigitChars 10 ds m := by
  induction ds generalizing m with
  | nil => exact Nat.le_refl m
  | cons c ds ih =>
      rw [Nat.ofDigitChars_cons]
      exact Nat.le_trans (by omega) (ih _)

theorem absorb_digits {ds : List Char} {m : Nat} (h : Nat.ofDigitChars 10 ds m ≤ maxWord) :
    absorb m ds = (Nat.ofDigitChars 10 ds m, []) := by
  induction ds generalizing m with
  | nil => rfl
  | cons c ds ih =>
      rw [Nat.ofDigitChars_cons] at h ⊢
      have hnext := Nat.le_trans (le_ofDigitChars ds _) h
      have hfits : ¬ maxWord < 10 * m + Decimal.digitValue c := Nat.not_lt.mpr hnext
      unfold absorb
      dsimp only
      rw [if_neg hfits]
      exact ih h

theorem value?_toDigits {n : Nat} (h : n ≤ maxWord) :
    value? ⟨false, Nat.toDigits 10 n, none, none⟩ = some (.int n) := by
  have habsorb : absorb 0 (Nat.toDigits 10 n) = (n, []) := by
    rw [absorb_digits (by rwa [Nat.ofDigitChars_ten_toDigits]), Nat.ofDigitChars_ten_toDigits]
  simp [value?, habsorb, wholeValue]

end Numeral
end Json
end Wiring
