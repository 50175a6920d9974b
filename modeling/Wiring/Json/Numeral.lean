import Wiring.Json.Basic
import Wiring.Number.Decimal

/-!
# JSON numerals

A numeral is an integer, an optional fraction and an optional exponent.  As much
of its digits as fits in 64 bits is read as one integer.  A numeral without
fraction and exponent that fits in 64 bits stays an integer; any other becomes a
double by one multiplication with, or division by, a rounded power of ten.
-/

namespace Wiring
namespace Json

structure Numeral where
  negative : Bool
  whole : List Char
  fraction : Option (List Char)
  exponent : Option (Bool × List Char)
  deriving Repr

namespace Numeral

/-!
# Grammar
-/

def readSign : List Char → Bool × List Char
  | '-' :: cs => (true, cs)
  | cs => (false, cs)

def readWhole? (cs : List Char) : Option (List Char × List Char) :=
  match cs.takeWhile Decimal.isDigit with
  | [] => none
  | ['0'] => some (['0'], cs.dropWhile Decimal.isDigit)
  | '0' :: _ => none
  | ds => some (ds, cs.dropWhile Decimal.isDigit)

def readDigits? (cs : List Char) : Option (List Char × List Char) :=
  match cs.takeWhile Decimal.isDigit with
  | [] => none
  | ds => some (ds, cs.dropWhile Decimal.isDigit)

def readFraction? : List Char → Option (Option (List Char) × List Char)
  | '.' :: cs => (readDigits? cs).map fun r => (some r.1, r.2)
  | cs => some (none, cs)

def readExponent? : List Char → Option (Option (Bool × List Char) × List Char)
  | [] => some (none, [])
  | c :: cs =>
    if c = 'e' ∨ c = 'E' then
      let s := Decimal.splitSign cs
      (readDigits? s.2).map fun r => (some (s.1, r.1), r.2)
    else some (none, c :: cs)

def read? (cs : List Char) : Option (Numeral × List Char) := do
  let (negative, cs) := readSign cs
  let (whole, cs) ← readWhole? cs
  let (fraction, cs) ← readFraction? cs
  let (exponent, cs) ← readExponent? cs
  return (⟨negative, whole, fraction, exponent⟩, cs)

/-!
# Value
-/

def maxWord : Nat := 18446744073709551615

def maxExponent : Nat := 2147483647

def maxNegative : Nat := 9223372036854775808

/-- Appends digits to a natural as long as it fits in 64 bits, and leaves the others. -/
def absorb (n : Nat) : List Char → Nat × List Char
  | [] => (n, [])
  | c :: cs =>
    let next := 10 * n + Decimal.digitValue c
    if maxWord < next then (n, c :: cs) else absorb next cs

def powerOfTen (k : Nat) : Binary64 :=
  Binary64.ofNat (Nat.pow 10 k)

def isZero : Binary64 → Bool
  | .finite _ m _ => m = 0
  | _ => false

/-- Divides by `10 ^ k`, in steps of at most `10 ^ 308`. Three steps leave nothing of a 64-bit
integer. -/
def divideByPower : Nat → Binary64 → Nat → Binary64
  | 0, _, _ => Binary64.zero false
  | steps + 1, x, k =>
    if k ≤ 308 then x.div (powerOfTen k)
    else if isZero x then x
    else divideByPower steps (x.div (powerOfTen 308)) (k - 308)

def scale? (n : Nat) (exponent : Int) : Option Binary64 :=
  let x := Binary64.ofNat n
  if exponent < 0 then some (divideByPower 4 x (-exponent).toNat)
  else if exponent ≤ 308 then
    match x.mul (powerOfTen exponent.toNat) with
    | .finite negative m e => some (.finite negative m e)
    | _ => none
  else if isZero x then some x
  else none

def toDouble? (n : Nat) (start : Int) : Option (Bool × List Char) → Option Binary64
  | none => scale? n start
  | some (negative, ds) =>
    let e := Decimal.natOfDigits ds
    if maxExponent < e then
      if n ≠ 0 ∧ !negative then none else some (Binary64.zero false)
    else scale? n (if negative then start - e else start + e)

/-- A numeral without fraction and exponent whose digits fit in 64 bits. Zero with a minus and
negative numbers that do not fit in 64 bits are doubles. -/
def wholeValue (negative : Bool) (n : Nat) : Json :=
  if negative then
    if n = 0 ∨ maxNegative < n then double (Binary64.ofNat n).neg else int (-(n : Int))
  else int n

def value? (x : Numeral) : Option Json :=
  let w := absorb 0 x.whole
  if w.2.isEmpty && x.fraction.isNone && x.exponent.isNone then
    some (wholeValue x.negative w.1)
  else
    let fraction := x.fraction.getD []
    let f := absorb w.1 fraction
    let start : Int := (w.2.length : Int) - (fraction.length - f.2.length : Nat)
    (toDouble? f.1 start x.exponent).map fun y => double (if x.negative then y.neg else y)

end Numeral
end Json
end Wiring
