/-!
# Double-precision numbers

A double-precision number is kept as the exact value it stands for: a sign, a
significand and a power of two.  Arithmetic is exact arithmetic on naturals
followed by one rounding, so every fact about these numbers is a fact about
`Nat` and `Int`.
-/

namespace Wiring

/-- A double-precision number; a finite one is `± significand * 2 ^ exponent`. -/
inductive Binary64 where
  | finite (negative : Bool) (significand : Nat) (exponent : Int)
  | infinite (negative : Bool)
  | nan
  deriving DecidableEq, Repr, Inhabited

namespace Binary64

def minExponent : Int := -1074

def maxExponent : Int := 971

def leastNormal : Nat := 4503599627370496

def zero (negative : Bool) : Binary64 :=
  finite negative 0 minExponent

/-- The natural nearest to `num / den`; a half goes to the even neighbour. -/
def nearest (num den : Nat) : Nat :=
  let q := num / den
  let twice := 2 * (num % den)
  if den < twice ∨ (twice = den ∧ q % 2 = 1) then q + 1 else q

def scaled (num den : Nat) (e : Int) : Nat × Nat :=
  (num * Nat.pow 2 (-e).toNat, den * Nat.pow 2 e.toNat)

def binaryOrder (num den : Nat) : Int :=
  let k : Int := (num.log2 : Int) - den.log2
  let s := scaled num den k
  if s.2 ≤ s.1 then k else k - 1

def ofRatio (negative : Bool) (num den : Nat) : Binary64 :=
  if num = 0 then zero negative
  else
    let e := max minExponent (binaryOrder num den - 52)
    let s := scaled num den e
    let m := nearest s.1 s.2
    let r : Nat × Int := if m = 2 * leastNormal then (leastNormal, e + 1) else (m, e)
    if maxExponent < r.2 then infinite negative else finite negative r.1 r.2

def ofScaled (negative : Bool) (num den : Nat) (e : Int) : Binary64 :=
  ofRatio negative (num * Nat.pow 2 e.toNat) (den * Nat.pow 2 (-e).toNat)

def ofNat (n : Nat) : Binary64 :=
  ofRatio false n 1

def neg : Binary64 → Binary64
  | finite negative m e => finite (!negative) m e
  | infinite negative => infinite (!negative)
  | nan => nan

/-!
# Products and quotients

Only finite operands occur where numbers are scaled by powers of ten; any other
operand makes the result `nan`.
-/

def mul : Binary64 → Binary64 → Binary64
  | finite n₁ m₁ e₁, finite n₂ m₂ e₂ => ofScaled (n₁ != n₂) (m₁ * m₂) 1 (e₁ + e₂)
  | _, _ => nan

def div : Binary64 → Binary64 → Binary64
  | finite n₁ m₁ e₁, finite n₂ m₂ e₂ =>
    if m₂ = 0 then nan else ofScaled (n₁ != n₂) m₁ m₂ (e₁ - e₂)
  | _, _ => nan

/-!
# Decimal values
-/

def decimalReach : Int := 400

/-- The double nearest to `digits * 10 ^ exponent`.

Exponents far outside the range of doubles are answered without building the
power of ten. -/
def ofDecimal (negative : Bool) (digits : Nat) (exponent : Int) : Binary64 :=
  if digits = 0 then zero negative
  else
    let size : Int := (Nat.toDigits 10 digits).length + exponent
    if decimalReach < size then infinite negative
    else if size < -decimalReach then zero negative
    else ofRatio negative (digits * Nat.pow 10 exponent.toNat) (Nat.pow 10 (-exponent).toNat)

end Binary64
end Wiring
