import Wiring.Json.Numeral

/-!
# JSON drafts

A draft is a JSON text taken apart by its grammar alone.  Fields may repeat, a
number may be beyond the doubles and a string may hold half of a surrogate pair:
such things are judged by whoever uses the part in question, so a part that
nobody uses may hold them.
-/

namespace Wiring
namespace Json

inductive Draft where
  | null
  | bool (b : Bool)
  /-- A numeral; nothing is known of one beyond the doubles. -/
  | number (value : Option Json)
  /-- A string; nothing is known of one with an unpaired surrogate. -/
  | string (text : Option String)
  | array (items : List Draft)
  | object (fields : List (Option String × Draft))
  deriving Inhabited

namespace Draft

/-!
# Strings
-/

inductive Piece where
  | char (c : Char)
  | unit (n : Nat)
  deriving DecidableEq, Repr

def hexValue? (c : Char) : Option Nat :=
  if '0' ≤ c ∧ c ≤ '9' then some (c.toNat - 48)
  else if 'a' ≤ c ∧ c ≤ 'f' then some (c.toNat - 87)
  else if 'A' ≤ c ∧ c ≤ 'F' then some (c.toNat - 55)
  else none

def unitOfHex? (a b c d : Char) : Option Nat := do
  let a ← hexValue? a
  let b ← hexValue? b
  let c ← hexValue? c
  let d ← hexValue? d
  return 4096 * a + 256 * b + 16 * c + d

def shortEscape? (c : Char) : Option Char :=
  if c = '"' ∨ c = '\\' ∨ c = '/' then some c
  else if c = 'n' then some '\n'
  else if c = 'r' then some '\r'
  else if c = 't' then some '\t'
  else if c = 'b' then some '\x08'
  else if c = 'f' then some '\x0c'
  else none

def readPieces? : List Char → Option (List Piece × List Char)
  | [] => none
  | '"' :: cs => some ([], cs)
  | '\\' :: 'u' :: a :: b :: c :: d :: cs => do
    let n ← unitOfHex? a b c d
    let (pieces, cs) ← readPieces? cs
    return (.unit n :: pieces, cs)
  | '\\' :: e :: cs => do
    let e ← shortEscape? e
    let (pieces, cs) ← readPieces? cs
    return (.char e :: pieces, cs)
  | c :: cs =>
    if c = '\\' ∨ c.toNat < 0x20 then none
    else do
      let (pieces, cs) ← readPieces? cs
      return (.char c :: pieces, cs)

def isHighSurrogate (n : Nat) : Bool :=
  decide (0xd800 ≤ n) && decide (n < 0xdc00)

def isLowSurrogate (n : Nat) : Bool :=
  decide (0xdc00 ≤ n) && decide (n < 0xe000)

/-- Joins surrogate pairs; a surrogate on its own has no text. -/
def decode? : List Piece → Option (List Char)
  | [] => some []
  | .char c :: rest => (decode? rest).map (c :: ·)
  | .unit n :: rest =>
    if isHighSurrogate n then
      match rest with
      | .unit m :: rest =>
        if isLowSurrogate m then
          (decode? rest).map (Char.ofNat (0x10000 + (n - 0xd800) * 1024 + (m - 0xdc00)) :: ·)
        else none
      | _ => none
    else if isLowSurrogate n then none
    else (decode? rest).map (Char.ofNat n :: ·)

def readString? (cs : List Char) : Option (Option String × List Char) :=
  (readPieces? cs).map fun r => ((decode? r.1).map String.ofList, r.2)

/-!
# Values
-/

def isBlank (c : Char) : Bool :=
  c = ' ' || c = '\n' || c = '\t' || c = '\r'

def skipBlanks (cs : List Char) : List Char :=
  cs.dropWhile isBlank

def readScalar? : List Char → Option (Draft × List Char)
  | 'n' :: 'u' :: 'l' :: 'l' :: cs => some (null, cs)
  | 't' :: 'r' :: 'u' :: 'e' :: cs => some (bool true, cs)
  | 'f' :: 'a' :: 'l' :: 's' :: 'e' :: cs => some (bool false, cs)
  | cs => (Numeral.read? cs).map fun r => (number r.1.value?, r.2)

mutual

/-- A value and what follows it. Each nested call has used up a character, so the length of the
text is fuel enough. -/
def readValue? : Nat → List Char → Option (Draft × List Char)
  | 0, _ => none
  | fuel + 1, cs =>
    match skipBlanks cs with
    | '"' :: cs => (readString? cs).map fun r => (string r.1, r.2)
    | '[' :: cs =>
      match skipBlanks cs with
      | ']' :: cs => some (array [], cs)
      | cs => (readItems? fuel cs).map fun r => (array r.1, r.2)
    | '\x7b' :: cs =>
      match skipBlanks cs with
      | '\x7d' :: cs => some (object [], cs)
      | cs => (readFields? fuel cs).map fun r => (object r.1, r.2)
    | cs => readScalar? cs

def readItems? : Nat → List Char → Option (List Draft × List Char)
  | 0, _ => none
  | fuel + 1, cs => do
    let (value, cs) ← readValue? fuel cs
    match skipBlanks cs with
    | ']' :: cs => return ([value], cs)
    | ',' :: cs =>
      let (rest, cs) ← readItems? fuel cs
      return (value :: rest, cs)
    | _ => none

def readFields? : Nat → List Char → Option (List (Option String × Draft) × List Char)
  | 0, _ => none
  | fuel + 1, cs =>
    match skipBlanks cs with
    | '"' :: cs => do
      let (key, cs) ← readString? cs
      match skipBlanks cs with
      | ':' :: cs =>
        let (value, cs) ← readValue? fuel cs
        match skipBlanks cs with
        | '\x7d' :: cs => return ([(key, value)], cs)
        | ',' :: cs =>
          let (rest, cs) ← readFields? fuel cs
          return ((key, value) :: rest, cs)
        | _ => none
      | _ => none
    | _ => none

end

def ofText? (text : String) : Option Draft :=
  let cs := text.toList
  match readValue? (cs.length + 1) cs with
  | some (value, rest) => if (skipBlanks rest).isEmpty then some value else none
  | none => none

/-!
# Judgement
-/

def maxNesting : Nat := 127

mutual

/-- The value of a draft with containers nested at most `depth` deep. A repeated key keeps its
first place and takes its last value. -/
def toJson? (depth : Nat) : Draft → Option Json
  | null => some .null
  | bool b => some (.bool b)
  | number value => value
  | string text => text.map .str
  | array items =>
    match depth with
    | 0 => none
    | depth + 1 => (itemsToJson? depth items).map .arr
  | object fields =>
    match depth with
    | 0 => none
    | depth + 1 => (fieldsToJson? depth fields).map ofFields

def itemsToJson? (depth : Nat) : List Draft → Option (List Json)
  | [] => some []
  | value :: rest => do
    let value ← toJson? depth value
    let rest ← itemsToJson? depth rest
    return value :: rest

def fieldsToJson? (depth : Nat) :
    List (Option String × Draft) → Option (List (String × Json))
  | [] => some []
  | (key, value) :: rest => do
    let key ← key
    let value ← toJson? depth value
    let rest ← fieldsToJson? depth rest
    return (key, value) :: rest

end

end Draft

def parse? (text : String) : Option Json :=
  (Draft.ofText? text).bind (Draft.toJson? Draft.maxNesting)

end Json
end Wiring
