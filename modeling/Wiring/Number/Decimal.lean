import Wiring.Number.Binary64

/-!
# Decimal numerals

The grammar of decimal numerals with an optional fraction and an optional
exponent, and the double that such a numeral denotes.
-/

namespace Wiring

/-- A decimal numeral: `± digits * 10 ^ exponent`. -/
structure Decimal where
  negative : Bool
  digits : Nat
  exponent : Int
  deriving DecidableEq, Repr

namespace Decimal

def isDigit (c : Char) : Bool :=
  decide ('0' ≤ c) && decide (c ≤ '9')

def digitValue (c : Char) : Nat :=
  c.toNat - 48

def natOfDigits (cs : List Char) : Nat :=
  cs.foldl (fun n c => 10 * n + digitValue c) 0

def splitSign : List Char → Bool × List Char
  | '-' :: cs => (true, cs)
  | '+' :: cs => (false, cs)
  | cs => (false, cs)

def readInt? (cs : List Char) : Option Int :=
  let s := splitSign cs
  if s.2.isEmpty || !s.2.all isDigit then none
  else some (if s.1 then -(natOfDigits s.2 : Int) else natOfDigits s.2)

def readExponent? : List Char → Option Int
  | [] => some 0
  | c :: cs => if c = 'e' ∨ c = 'E' then readInt? cs else none

def splitFraction : List Char → List Char × List Char
  | '.' :: cs => (cs.takeWhile isDigit, cs.dropWhile isDigit)
  | cs => ([], cs)

def read? (cs : List Char) : Option Decimal :=
  let s := splitSign cs
  let whole := s.2.takeWhile isDigit
  let f := splitFraction (s.2.dropWhile isDigit)
  if whole.isEmpty && f.1.isEmpty then none
  else (readExponent? f.2).map fun e =>
    ⟨s.1, natOfDigits (whole ++ f.1), e - f.1.length⟩

def toBinary64 (d : Decimal) : Binary64 :=
  Binary64.ofDecimal d.negative d.digits d.exponent

end Decimal

namespace Binary64

def ofWord? (negative : Bool) (word : String) : Option Binary64 :=
  if word = "nan" then some nan
  else if word = "inf" ∨ word = "infinity" then some (infinite negative)
  else none

def ofText? (text : String) : Option Binary64 :=
  let s := Decimal.splitSign text.toList
  match ofWord? s.1 (String.ofList (s.2.map Char.toLower)) with
  | some x => some x
  | none => (Decimal.read? text.toList).map Decimal.toBinary64

end Binary64
end Wiring
