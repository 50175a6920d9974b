import Wiring.Number.Binary64

/-!
# Shortest decimal forms

A double is written with the fewest decimal digits that still read back as the
same double.  Among the decimal grids `10 ^ k` the coarsest one that has a point
in the interval of reals rounding to the double is taken, and on it the point
nearest to the double.
-/

namespace Wiring

inductive Tie where
  | even
  | up
  deriving DecidableEq, Repr

namespace Binary64

/-- Positive reals over one common denominator, measured against the points of a decimal grid: the
point `d` of the grid is `d * step`, the number is `value`, and the reals from `low` to `high`
round to it. -/
structure Grid where
  step : Nat
  value : Nat
  low : Nat
  high : Nat
  closed : Bool

/-- The grid `10 ^ k` beside the number `m * 2 ^ e`.  Below a power of two the interval is half as
wide as above it, and its ends belong to it exactly when `m` is even. -/
def grid (m : Nat) (e k : Int) : Grid :=
  let q := e - 2
  let unit := Nat.pow 2 q.toNat * Nat.pow 10 (-k).toNat
  let below := if m = leastNormal ∧ minExponent < e then 1 else 2
  { step := Nat.pow 10 k.toNat * Nat.pow 2 (-q).toNat
    value := 4 * m * unit
    low := (4 * m - below) * unit
    high := (4 * m + 2) * unit
    closed := m % 2 = 0 }

def Grid.holds (g : Grid) (d : Nat) : Bool :=
  if g.closed then decide (g.low ≤ d * g.step) && decide (d * g.step ≤ g.high)
  else decide (g.low < d * g.step) && decide (d * g.step < g.high)

def Grid.point? (g : Grid) (tie : Tie) : Option Nat :=
  let d := g.value / g.step
  let twice := 2 * (g.value % g.step)
  let upper : Bool :=
    decide (g.step < twice) ||
      (decide (twice = g.step) &&
        match tie with
        | .even => d % 2 = 1
        | .up => true)
  match g.holds d, g.holds (d + 1) with
  | true, true => some (if upper then d + 1 else d)
  | true, false => some d
  | false, true => some (d + 1)
  | false, false => none

def firstPoint (m : Nat) (e : Int) (tie : Tie) : Nat → Int → Nat × Int
  | 0, k => (m, k)
  | steps + 1, k =>
    match (grid m e k).point? tie with
    | some d => (d, k)
    | none => firstPoint m e tie steps (k - 1)

/-- A power of ten above the number `m * 2 ^ e`: `log10 2` is a little below `30103 / 100000`. -/
def decimalCeiling (m : Nat) (e : Int) : Int :=
  ((m.log2 : Int) + e + 1) * 30103 / 100000 + 2

/-- The shortest digits `d` and the exponent `k` with `d * 10 ^ k` reading back as `m * 2 ^ e`.
Seventeen digits always suffice. -/
def shortest (m : Nat) (e : Int) (tie : Tie) : Nat × Int :=
  firstPoint m e tie 24 (decimalCeiling m e)

end Binary64

/-!
# Layout

How shortest digits are laid out as text.
-/

structure NumeralStyle where
  positional : Option (Int × Int)
  wholeSuffix : List Char
  tie : Tie
  nan : String
  infinity : String

namespace NumeralStyle

def layout (style : NumeralStyle) (ds : List Char) (point : Int) : List Char :=
  if point ≤ 0 then ['0', '.'] ++ List.replicate (-point).toNat '0' ++ ds
  else if (ds.length : Int) ≤ point then
    ds ++ List.replicate (point - ds.length).toNat '0' ++ style.wholeSuffix
  else ds.take point.toNat ++ ['.'] ++ ds.drop point.toNat

def scientific (ds : List Char) (order : Int) : List Char :=
  let fraction := ds.drop 1
  ds.take 1 ++ (if fraction.isEmpty then [] else '.' :: fraction) ++
    ['e', if order < 0 then '-' else '+'] ++ Nat.toDigits 10 order.natAbs

def magnitude (style : NumeralStyle) (m : Nat) (e : Int) : List Char :=
  let s := Binary64.shortest m e style.tie
  let ds := Nat.toDigits 10 s.1
  let order : Int := ds.length + s.2 - 1
  match style.positional with
  | none => style.layout ds (order + 1)
  | some (least, most) =>
    if least ≤ order ∧ order ≤ most then style.layout ds (order + 1)
    else scientific ds order

def signed (negative : Bool) (cs : List Char) : List Char :=
  if negative then '-' :: cs else cs

def text (style : NumeralStyle) : Binary64 → String
  | .finite negative m e =>
    String.ofList
      (signed negative (if m = 0 then '0' :: style.wholeSuffix else style.magnitude m e))
  | .infinite negative => String.ofList (signed negative style.infinity.toList)
  | .nan => style.nan

end NumeralStyle

namespace Binary64

def plainStyle : NumeralStyle :=
  ⟨none, [], .up, "NaN", "inf"⟩

def text (x : Binary64) : String :=
  plainStyle.text x

end Binary64
end Wiring
