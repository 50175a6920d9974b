import Wiring.Number.Decimal
import Wiring.Toml.Text

/-!
# Numbers and dates of TOML

Values that are written without quotes are told apart by their form.
-/

namespace Wiring
namespace Toml

/-!
# Underscores

Underscores group the digits of a number, and have no meaning of their own.
-/

def isGroupedAfter (isDigit : Char → Bool) : Bool → List Char → Bool
  | _, [] => true
  | opened, '_' :: cs => opened && cs.head?.any isDigit && isGroupedAfter isDigit false cs
  | _, c :: cs => isGroupedAfter isDigit (isDigit c) cs

def isGrouped (isDigit : Char → Bool) (cs : List Char) : Bool :=
  isGroupedAfter isDigit false cs

def ungrouped (cs : List Char) : List Char :=
  cs.filter (· ≠ '_')

/-!
# Integers

The reader of a document takes an integer for one by its outline.  Its digits are
read only where the integer is asked for, so it may turn out to have no value.
-/

def isDigitOf (base : Nat) (c : Char) : Bool :=
  (hexValue? c).any (· < base)

def natOfDigits (base : Nat) (cs : List Char) : Nat :=
  cs.foldl (fun n c => base * n + (hexValue? c).getD 0) 0

def valueOfDigits? (base : Nat) (cs : List Char) : Option Nat :=
  if cs.isEmpty || !cs.all (isDigitOf base) then none else some (natOfDigits base cs)

def readBased? (base : Nat) (cs : List Char) : Option (Option Int) :=
  if (ungrouped cs).all (isDigitOf base) && isGrouped (isDigitOf base) cs then
    some ((valueOfDigits? base (ungrouped cs)).map Int.ofNat)
  else none

def hasLeadingZero (cs : List Char) : Bool :=
  cs.head? = some '0' && decide (1 < cs.length)

def isMark (c : Char) : Bool :=
  c = 'e' || c = 'E'

/-- Whether digits, which may be missing, are all of a text, or an underscore follows them and
there is no sign of a float and no space. -/
def isWhole (cs : List Char) : Bool :=
  match cs.dropWhile Decimal.isDigit with
  | [] => true
  | c :: rest => c = '_' && !rest.any fun d => d = '.' || d = ' ' || isMark d

/-- A decimal integer with an optional sign and without a leading zero. Behind the first underscore
of its outline, only the neighbours of underscores need to be digits, of any base. -/
def readDecimal? (cs : List Char) : Option (Option Int) :=
  let s := Decimal.splitSign cs
  if s.2.isEmpty || hasLeadingZero s.2 || !isWhole s.2 then none
  else if isGrouped (isDigitOf 16) s.2 then
    some ((valueOfDigits? 10 (ungrouped s.2)).map fun n => if s.1 then -(n : Int) else n)
  else none

def readInteger? : List Char → Option (Option Int)
  | '0' :: 'x' :: cs => readBased? 16 cs
  | '0' :: 'o' :: cs => readBased? 8 cs
  | '0' :: 'b' :: cs => readBased? 2 cs
  | cs => readDecimal? cs

/-!
# Floats
-/

def isFloatDigit (c : Char) : Bool :=
  c = '_' || Decimal.isDigit c

def splitDigits? (cs : List Char) : Option (List Char × List Char) :=
  let ds := cs.takeWhile isFloatDigit
  if ds.any Decimal.isDigit then some (ds, cs.dropWhile isFloatDigit) else none

def skipFraction? : List Char → Option (List Char)
  | '.' :: cs => (splitDigits? cs).map Prod.snd
  | cs => some cs

def skipExponent? : List Char → Option (List Char)
  | [] => some []
  | c :: cs =>
    if isMark c then (splitDigits? (Decimal.splitSign cs).2).map Prod.snd else some (c :: cs)

def isNumeral (cs : List Char) : Bool :=
  match splitDigits? cs with
  | some (ds, rest) =>
    !(ds.head? = some '0' && decide (1 < (ungrouped ds).length)) && !rest.isEmpty &&
      (skipFraction? rest).bind skipExponent? = some []
  | none => false

def isFloat (cs : List Char) : Bool :=
  let body := (Decimal.splitSign cs).2
  body = ['i', 'n', 'f'] || body = ['n', 'a', 'n'] ||
    isNumeral body && isGrouped Decimal.isDigit body

/-!
# Dates and times
-/

def readFixed? (width : Nat) (cs : List Char) : Option (Nat × List Char) :=
  let ds := cs.take width
  if ds.length = width && ds.all Decimal.isDigit then
    some (Decimal.natOfDigits ds, cs.drop width)
  else none

def expect? (c : Char) : List Char → Option (List Char)
  | [] => none
  | d :: cs => if d = c then some cs else none

def isLeapYear (year : Nat) : Bool :=
  year % 4 = 0 && (year % 100 ≠ 0 || year % 400 = 0)

def daysOfMonth (year month : Nat) : Nat :=
  if month = 2 then (if isLeapYear year then 29 else 28)
  else if month = 4 ∨ month = 6 ∨ month = 9 ∨ month = 11 then 30
  else 31

def padded (width n : Nat) : List Char :=
  let ds := Nat.toDigits 10 n
  List.replicate (width - ds.length) '0' ++ ds

def readDate? (cs : List Char) : Option (List Char × List Char) := do
  let (year, cs) ← readFixed? 4 cs
  let cs ← expect? '-' cs
  let (month, cs) ← readFixed? 2 cs
  let cs ← expect? '-' cs
  let (day, cs) ← readFixed? 2 cs
  if 1 ≤ month ∧ month ≤ 12 ∧ 1 ≤ day ∧ day ≤ daysOfMonth year month then
    return (padded 4 year ++ '-' :: padded 2 month ++ '-' :: padded 2 day, cs)
  else none

/-- The digits of a fraction of a second: nine at most, without zeros at the end. -/
def fractionDigits (ds : List Char) : List Char :=
  match ((ds.take 9).reverse.dropWhile (· = '0')).reverse with
  | [] => ['0']
  | ds => ds

def readSecondFraction? : List Char → Option (List Char × List Char)
  | '.' :: cs =>
    match cs.takeWhile Decimal.isDigit with
    | [] => none
    | ds => some ('.' :: fractionDigits ds, cs.dropWhile Decimal.isDigit)
  | cs => some ([], cs)

def readSeconds? : List Char → Option (List Char × List Char)
  | ':' :: cs => do
    let (second, cs) ← readFixed? 2 cs
    let (fraction, cs) ← readSecondFraction? cs
    if second ≤ 60 then return (':' :: padded 2 second ++ fraction, cs)
    else none
  | cs => some ([], cs)

def readTime? (cs : List Char) : Option (List Char × List Char) := do
  let (hour, cs) ← readFixed? 2 cs
  let cs ← expect? ':' cs
  let (minute, cs) ← readFixed? 2 cs
  let (seconds, cs) ← readSeconds? cs
  if hour ≤ 23 ∧ minute ≤ 59 then
    return (padded 2 hour ++ ':' :: padded 2 minute ++ seconds, cs)
  else none

/-- The offset of a time that is given for a place, in its canonical form: an offset of zero is
written with a plus. -/
def readOffset? : List Char → Option (List Char)
  | [] => some []
  | ['Z'] => some ['Z']
  | ['z'] => some ['Z']
  | c :: cs => do
    let (hour, cs) ← readFixed? 2 cs
    let cs ← expect? ':' cs
    let (minute, cs) ← readFixed? 2 cs
    if (c = '+' ∨ c = '-') ∧ hour ≤ 23 ∧ minute ≤ 59 ∧ cs = [] then
      let sign := if hour = 0 ∧ minute = 0 then '+' else c
      return sign :: padded 2 hour ++ ':' :: padded 2 minute
    else none

def readClock? : List Char → Option (List Char)
  | [] => some []
  | c :: cs => do
    let (time, cs) ← readTime? cs
    let offset ← readOffset? cs
    if c = 'T' ∨ c = 't' ∨ c = ' ' then return 'T' :: time ++ offset
    else none

def readDatetime? (cs : List Char) : Option (List Char) :=
  match readDate? cs with
  | some (date, cs) => (readClock? cs).map (date ++ ·)
  | none =>
    match readTime? cs with
    | some (time, []) => some time
    | _ => none

end Toml
end Wiring
