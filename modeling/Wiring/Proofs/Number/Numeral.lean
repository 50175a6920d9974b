import Mathlib.Data.List.Induction
import Mathlib.Data.List.TakeWhile
import Mathlib.Data.Nat.Digits.Defs
import Wiring.Number.Decimal

/-!
# Numerals

What an integer numeral and a decimal numeral look like, said without reading
them from left to right.  The readers accept these texts and no others, and the
integer that is read has the value of its digits by their places.
-/

namespace Wiring
namespace Numeral

inductive Sign where
  | none
  | plus
  | minus
  deriving DecidableEq

def Sign.text : Sign → List Char
  | none => []
  | plus => ['+']
  | minus => ['-']

def Sign.apply : Sign → Nat → Int
  | none, n => n
  | plus, n => n
  | minus, n => -n

def IsDigits (cs : List Char) : Prop :=
  forall c, c ∈ cs -> '0' ≤ c ∧ c ≤ '9'

def placeValue (digits : List Char) : Nat :=
  Nat.ofDigits 10 (digits.reverse.map fun c => c.toNat - '0'.toNat)

/-- An integer numeral: at most one sign and at least one digit. -/
def Denotes (cs : List Char) (n : Int) : Prop :=
  exists (sign : Sign) (digits : List Char), cs = sign.text ++ digits ∧ digits ≠ [] ∧
    IsDigits digits ∧ n = sign.apply (placeValue digits)

/-- Digits with at most one point, and at least one digit. -/
def IsMantissa (cs : List Char) : Prop :=
  (forall c, c ∈ cs -> '0' ≤ c ∧ c ≤ '9' ∨ c = '.') ∧ cs.count '.' ≤ 1 ∧
    exists c, c ∈ cs ∧ '0' ≤ c ∧ c ≤ '9'

def IsExponent (cs : List Char) : Prop :=
  cs = [] ∨ exists e numeral n, (e = 'e' ∨ e = 'E') ∧ cs = e :: numeral ∧ Denotes numeral n

/-- A decimal numeral: at most one sign, a mantissa and an exponent that may be missing. -/
def IsDecimal (cs : List Char) : Prop :=
  exists (sign : Sign) (mantissa exponent : List Char),
    cs = sign.text ++ (mantissa ++ exponent) ∧ IsMantissa mantissa ∧ IsExponent exponent

/-!
# Digits
-/

theorem isDigit_iff {c : Char} : Decimal.isDigit c = true <-> '0' ≤ c ∧ c ≤ '9' := by
  simp [Decimal.isDigit]

theorem isDigits_iff {cs : List Char} : IsDigits cs <-> cs.all Decimal.isDigit = true := by
  simp [IsDigits, isDigit_iff]

instance (cs : List Char) : Decidable (IsDigits cs) :=
  decidable_of_iff _ isDigits_iff.symm

theorem IsDigits.takeWhile (cs : List Char) : IsDigits (cs.takeWhile Decimal.isDigit) :=
  fun _ hc => isDigit_iff.mp (List.mem_takeWhile_imp hc)

theorem takeWhile_append {digits rest : List Char} (h : IsDigits digits)
    (hrest : forall c, c ∈ rest.head? -> Decimal.isDigit c = false) :
    (digits ++ rest).takeWhile Decimal.isDigit = digits ∧
      (digits ++ rest).dropWhile Decimal.isDigit = rest := by
  have hall (c : Char) (hc : c ∈ digits) : Decimal.isDigit c = true := isDigit_iff.mpr (h c hc)
  rw [List.takeWhile_append_of_pos hall, List.dropWhile_append_of_pos hall]
  cases rest with
  | nil => simp
  | cons c rest => simp [hrest c rfl]

theorem natOfDigits_append (cs : List Char) (c : Char) :
    Decimal.natOfDigits (cs ++ [c]) =
      10 * Decimal.natOfDigits cs + Decimal.digitValue c := by
  simp [Decimal.natOfDigits]

theorem natOfDigits_eq (cs : List Char) : Decimal.natOfDigits cs = placeValue cs := by
  induction cs using List.reverseRecOn with
  | nil => rfl
  | append_singleton cs c ih =>
      rw [natOfDigits_append, ih]
      simp [placeValue, Nat.ofDigits_cons, Nat.add_comm, Decimal.digitValue]

theorem placeValue_le_append (cs ds : List Char) : placeValue cs ≤ placeValue (cs ++ ds) := by
  induction ds using List.reverseRecOn with
  | nil => simp
  | append_singleton ds d ih =>
      rw [← List.append_assoc, ← natOfDigits_eq, ← natOfDigits_eq, natOfDigits_append,
        natOfDigits_eq, natOfDigits_eq]
      omega

/-!
# Signs
-/

theorem exists_sign (cs : List Char) : exists sign : Sign,
    cs = sign.text ++ (Decimal.splitSign cs).2 ∧
      (Decimal.splitSign cs).1 = decide (sign = .minus) := by
  unfold Decimal.splitSign
  split
  · exact ⟨.minus, rfl, rfl⟩
  · exact ⟨.plus, rfl, rfl⟩
  · exact ⟨.none, rfl, rfl⟩

theorem splitSign_append (sign : Sign) {rest : List Char}
    (h : forall c, c ∈ rest.head? -> c ≠ '-' ∧ c ≠ '+') :
    Decimal.splitSign (sign.text ++ rest) = (decide (sign = .minus), rest) := by
  cases sign with
  | plus => rfl
  | minus => rfl
  | none =>
      unfold Sign.text Decimal.splitSign
      split
      · next heq => exact absurd rfl (h '-' (by rw [← List.nil_append rest, heq]; rfl)).1
      · next heq => exact absurd rfl (h '+' (by rw [← List.nil_append rest, heq]; rfl)).2
      · rfl

theorem ne_sign_of_digit {c : Char} (h : '0' ≤ c ∧ c ≤ '9') : c ≠ '-' ∧ c ≠ '+' := by
  constructor
  · rintro rfl
    exact absurd h (by decide)
  · rintro rfl
    exact absurd h (by decide)

theorem apply_eq (sign : Sign) (n : Nat) :
    (if decide (sign = .minus) then -(n : Int) else n) = sign.apply n := by
  cases sign <;> rfl

theorem splitSign_digits (sign : Sign) {digits : List Char} (hne : digits ≠ [])
    (h : IsDigits digits) (rest : List Char) :
    Decimal.splitSign (sign.text ++ (digits ++ rest)) =
      (decide (sign = .minus), digits ++ rest) := by
  apply splitSign_append
  cases digits with
  | nil => exact absurd rfl hne
  | cons d ds =>
      rintro _ ⟨⟩
      exact ne_sign_of_digit (h d List.mem_cons_self)

/-!
# Integers
-/

theorem readInt?_eq_some_iff {cs : List Char} {n : Int} :
    Decimal.readInt? cs = some n <-> Denotes cs n := by
  constructor
  · intro h
    rcases exists_sign cs with ⟨sign, hcs, hminus⟩
    unfold Decimal.readInt? at h
    dsimp only at h
    split at h
    · cases h
    · next hdigits =>
        rw [Bool.or_eq_true, not_or, Bool.not_eq_true, Bool.not_eq_true, Bool.not_eq_false',
          List.isEmpty_eq_false_iff] at hdigits
        rw [hminus, apply_eq, natOfDigits_eq] at h
        exact ⟨sign, _, hcs, hdigits.1, isDigits_iff.mpr hdigits.2, (Option.some.inj h).symm⟩
  · rintro ⟨sign, digits, rfl, hne, hdigits, rfl⟩
    have hsplit := splitSign_digits sign hne hdigits []
    rw [List.append_nil] at hsplit
    unfold Decimal.readInt?
    rw [hsplit]
    dsimp only
    rw [isDigits_iff.mp hdigits, List.isEmpty_eq_false_iff.mpr hne, apply_eq, natOfDigits_eq]
    rfl

theorem Denotes.unique {cs : List Char} {n m : Int} (h : Denotes cs n) (h' : Denotes cs m) :
    n = m := by
  rw [← readInt?_eq_some_iff] at h h'
  exact Option.some.inj (h.symm.trans h')

theorem Denotes.between {start rest : List Char} {n m : Int} (h : Denotes (start ++ rest) n)
    (h' : Denotes start m) : (0 ≤ m ∧ m ≤ n) ∨ (n ≤ m ∧ m ≤ 0) := by
  rcases h' with ⟨sign, digits, rfl, hne, hdigits, rfl⟩
  rcases h with ⟨sign', digits', hcs, hne', hdigits', rfl⟩
  have hsplit := congrArg Decimal.splitSign hcs
  rw [← List.append_nil digits', List.append_assoc, splitSign_digits sign hne hdigits,
    splitSign_digits sign' hne' hdigits', List.append_nil] at hsplit
  rcases Prod.mk.inj hsplit with ⟨hminus, rfl⟩
  have hle := placeValue_le_append digits rest
  cases sign <;> cases sign' <;> first
    | exact absurd hminus (by decide)
    | simp only [Sign.apply]; omega

/-!
# Decimals
-/

theorem not_digit_point : ¬ ('0' ≤ '.' ∧ '.' ≤ '9') := by
  decide

theorem IsDigits.count_point {ds : List Char} (h : IsDigits ds) : ds.count '.' = 0 :=
  List.count_eq_zero.mpr fun hmem => not_digit_point (h '.' hmem)

theorem IsMantissa.exists_parts {cs : List Char} (h : IsMantissa cs) : exists whole fraction,
    IsDigits whole ∧ IsDigits fraction ∧ whole ++ fraction ≠ [] ∧
      (cs = whole ++ '.' :: fraction ∨ fraction = [] ∧ cs = whole) := by
  rcases h with ⟨hchars, hone, c, hc, hdigit⟩
  by_cases hmem : '.' ∈ cs
  · rcases List.append_of_mem hmem with ⟨whole, fraction, rfl⟩
    -- The point at which the text is split is the only one.
    rw [List.count_append, List.count_cons_self] at hone
    have hwhole : '.' ∉ whole := List.count_eq_zero.mp (by omega)
    have hfraction : '.' ∉ fraction := List.count_eq_zero.mp (by omega)
    refine ⟨whole, fraction, fun d hd => ?_, fun d hd => ?_, ?_, Or.inl rfl⟩
    · exact (hchars d (by simp [hd])).resolve_right fun heq => hwhole (heq ▸ hd)
    · exact (hchars d (by simp [hd])).resolve_right fun heq => hfraction (heq ▸ hd)
    · intro hnil
      rcases List.append_eq_nil_iff.mp hnil with ⟨rfl, rfl⟩
      obtain rfl : c = '.' := by simpa using hc
      exact not_digit_point hdigit
  · refine ⟨cs, [], fun d hd => ?_, fun _ hd => absurd hd List.not_mem_nil, ?_, Or.inr ⟨rfl, rfl⟩⟩
    · exact (hchars d hd).resolve_right fun heq => hmem (heq ▸ hd)
    · rw [List.append_nil]
      exact List.ne_nil_of_mem hc

theorem isMantissa_of_point {whole fraction : List Char} (hwhole : IsDigits whole)
    (hfraction : IsDigits fraction) (hne : whole ++ fraction ≠ []) :
    IsMantissa (whole ++ '.' :: fraction) := by
  rcases List.exists_mem_of_ne_nil _ hne with ⟨c, hc⟩
  have hdigit : '0' ≤ c ∧ c ≤ '9' := (List.mem_append.mp hc).elim (hwhole c) (hfraction c)
  refine ⟨fun d hd => ?_, ?_, c, ?_, hdigit⟩
  · rcases List.mem_append.mp hd with hd | hd
    · exact Or.inl (hwhole d hd)
    · rcases List.mem_cons.mp hd with rfl | hd
      · exact Or.inr rfl
      · exact Or.inl (hfraction d hd)
  · rw [List.count_append, List.count_cons_self, hwhole.count_point, hfraction.count_point]
  · rcases List.mem_append.mp hc with hc | hc
    · exact List.mem_append_left _ hc
    · exact List.mem_append_right _ (List.mem_cons_of_mem _ hc)

theorem isMantissa_of_digits {digits : List Char} (h : IsDigits digits) (hne : digits ≠ []) :
    IsMantissa digits := by
  rcases List.exists_mem_of_ne_nil _ hne with ⟨c, hc⟩
  exact ⟨fun d hd => Or.inl (h d hd), by rw [h.count_point]; omega, c, hc, h c hc⟩

theorem exists_readExponent?_iff {cs : List Char} :
    (exists n, Decimal.readExponent? cs = some n) <-> IsExponent cs := by
  cases cs with
  | nil => exact ⟨fun _ => Or.inl rfl, fun _ => ⟨0, rfl⟩⟩
  | cons e numeral =>
      unfold Decimal.readExponent? IsExponent
      dsimp only
      by_cases he : e = 'e' ∨ e = 'E'
      · rw [if_pos he]
        simp only [readInt?_eq_some_iff]
        constructor
        · rintro ⟨n, hn⟩
          exact Or.inr ⟨e, numeral, n, he, rfl, hn⟩
        · rintro (hnil | ⟨_, _, n, -, heq, hn⟩)
          · cases hnil
          · cases heq
            exact ⟨n, hn⟩
      · rw [if_neg he]
        constructor
        · rintro ⟨n, hn⟩
          cases hn
        · rintro (hnil | ⟨_, _, n, he', heq, -⟩)
          · cases hnil
          · cases heq
            exact absurd he' he

theorem IsExponent.head {cs : List Char} (h : IsExponent cs) {c : Char} (hc : c ∈ cs.head?) :
    Decimal.isDigit c = false ∧ c ≠ '.' ∧ c ≠ '-' ∧ c ≠ '+' := by
  rcases h with rfl | ⟨e, numeral, n, rfl | rfl, rfl, -⟩
  · cases hc
  · cases hc
    decide
  · cases hc
    decide

theorem splitFraction_of_head_ne {cs : List Char} (h : forall c, c ∈ cs.head? -> c ≠ '.') :
    Decimal.splitFraction cs = ([], cs) := by
  unfold Decimal.splitFraction
  split
  · exact absurd rfl (h '.' rfl)
  · rfl

theorem splitFraction_cases (cs : List Char) :
    (IsDigits (Decimal.splitFraction cs).1 ∧
      cs = '.' :: ((Decimal.splitFraction cs).1 ++ (Decimal.splitFraction cs).2)) ∨
    ((Decimal.splitFraction cs).1 = [] ∧ (Decimal.splitFraction cs).2 = cs) := by
  unfold Decimal.splitFraction
  split
  · exact Or.inl ⟨.takeWhile _, by rw [List.takeWhile_append_dropWhile]⟩
  · exact Or.inr ⟨rfl, rfl⟩

theorem read?_eq (sign : Sign) {whole rest : List Char} (hwhole : IsDigits whole)
    (hrest : forall c, c ∈ rest.head? -> Decimal.isDigit c = false ∧ c ≠ '-' ∧ c ≠ '+') :
    Decimal.read? (sign.text ++ (whole ++ rest)) =
      if whole.isEmpty && (Decimal.splitFraction rest).1.isEmpty then none
      else (Decimal.readExponent? (Decimal.splitFraction rest).2).map fun e =>
        ⟨decide (sign = .minus), Decimal.natOfDigits (whole ++ (Decimal.splitFraction rest).1),
          e - (Decimal.splitFraction rest).1.length⟩ := by
  have hsplit : Decimal.splitSign (sign.text ++ (whole ++ rest)) =
      (decide (sign = .minus), whole ++ rest) := by
    cases whole with
    | nil => exact splitSign_append sign fun c hc => (hrest c hc).2
    | cons d ds => exact splitSign_digits sign (List.cons_ne_nil d ds) hwhole rest
  rcases takeWhile_append hwhole fun c hc => (hrest c hc).1 with ⟨htake, hdrop⟩
  unfold Decimal.read?
  rw [hsplit]
  dsimp only
  rw [htake, hdrop]

theorem IsDecimal.exists_read? {cs : List Char} (h : IsDecimal cs) :
    exists d, Decimal.read? cs = some d := by
  rcases h with ⟨sign, mantissa, exponent, rfl, hmantissa, hexponent⟩
  rcases hmantissa.exists_parts with ⟨whole, fraction, hwhole, hfraction, hne, hparts⟩
  rcases exists_readExponent?_iff.mpr hexponent with ⟨e, he⟩
  have hnonempty : (whole.isEmpty && fraction.isEmpty) = false := by
    rw [Bool.and_eq_false_iff, List.isEmpty_eq_false_iff, List.isEmpty_eq_false_iff]
    rw [ne_eq, List.append_eq_nil_iff, not_and_or] at hne
    exact hne
  rcases hparts with rfl | ⟨rfl, rfl⟩
  · have hpoint (c : Char) (hc : c ∈ ('.' :: (fraction ++ exponent)).head?) :
        Decimal.isDigit c = false ∧ c ≠ '-' ∧ c ≠ '+' := by
      cases hc
      decide
    have hsplit : Decimal.splitFraction ('.' :: (fraction ++ exponent)) = (fraction, exponent) :=
      Prod.ext_iff.mpr (takeWhile_append hfraction fun c hc =>
        (hexponent.head hc).1)
    rw [List.append_assoc, List.cons_append, read?_eq sign hwhole hpoint, hsplit, hnonempty, he]
    exact ⟨_, rfl⟩
  · have hhead (c : Char) (hc : c ∈ exponent.head?) :
        Decimal.isDigit c = false ∧ c ≠ '-' ∧ c ≠ '+' :=
      (hexponent.head hc).imp_right And.right
    have hsplit : Decimal.splitFraction exponent = ([], exponent) :=
      splitFraction_of_head_ne fun c hc => (hexponent.head hc).2.1
    rw [read?_eq sign hwhole hhead, hsplit, hnonempty, he]
    exact ⟨_, rfl⟩

theorem isDecimal_of_read? {cs : List Char} {d : Decimal} (h : Decimal.read? cs = some d) :
    IsDecimal cs := by
  rcases exists_sign cs with ⟨sign, hcs, -⟩
  unfold Decimal.read? at h
  dsimp only at h
  split at h
  · cases h
  · next hsome =>
      rcases Option.map_eq_some_iff.mp h with ⟨e, he, -⟩
      have hexponent := exists_readExponent?_iff.mp ⟨e, he⟩
      have hwhole := IsDigits.takeWhile (Decimal.splitSign cs).2
      rw [← List.takeWhile_append_dropWhile (p := Decimal.isDigit)
        (l := (Decimal.splitSign cs).2)] at hcs
      rw [Bool.and_eq_true, List.isEmpty_iff, List.isEmpty_iff, ← List.append_eq_nil_iff] at hsome
      rcases splitFraction_cases ((Decimal.splitSign cs).2.dropWhile Decimal.isDigit) with
        ⟨hfraction, hrest⟩ | ⟨hfraction, hrest⟩
      · refine ⟨sign, _, _, ?_, isMantissa_of_point hwhole hfraction hsome, hexponent⟩
        rw [List.append_assoc, List.cons_append, ← hrest]
        exact hcs
      · rw [hfraction, List.append_nil] at hsome
        rw [hrest] at hexponent
        exact ⟨sign, _, _, hcs, isMantissa_of_digits hwhole hsome, hexponent⟩

theorem exists_read?_iff {cs : List Char} :
    (exists d, Decimal.read? cs = some d) <-> IsDecimal cs :=
  ⟨fun ⟨_, hd⟩ => isDecimal_of_read? hd, IsDecimal.exists_read?⟩

theorem IsDecimal.mem {cs : List Char} (h : IsDecimal cs) {c : Char} (hc : c ∈ cs) :
    '0' ≤ c ∧ c ≤ '9' ∨ c ∈ ['.', '-', '+', 'e', 'E'] := by
  have hsign {sign : Sign} (hc : c ∈ sign.text) : c ∈ ['.', '-', '+', 'e', 'E'] := by
    cases sign <;> simp_all [Sign.text]
  rcases h with ⟨sign, mantissa, exponent, rfl, hmantissa, hexponent⟩
  rcases List.mem_append.mp hc with hc | hc
  · exact Or.inr (hsign hc)
  rcases List.mem_append.mp hc with hc | hc
  · exact (hmantissa.1 c hc).imp_right fun heq => by simp [heq]
  · rcases hexponent with rfl | ⟨e, numeral, n, he, rfl, sign', digits, rfl, -, hdigits, -⟩
    · cases hc
    rcases List.mem_cons.mp hc with rfl | hc
    · rcases he with rfl | rfl <;> simp
    rcases List.mem_append.mp hc with hc | hc
    · exact Or.inr (hsign hc)
    · exact Or.inl (hdigits c hc)

end Numeral
end Wiring
