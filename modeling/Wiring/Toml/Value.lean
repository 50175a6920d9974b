import Wiring.Toml.Number
import Wiring.Toml.Table

/-!
# Reading TOML values

Values with and without quotes, arrays, and tables between braces.
-/

namespace Wiring
namespace Toml

/-!
# Values without quotes
-/

/-- What ends a value without quotes. A quote does not: only at the start of a value does it open a
string. -/
def isStop (c : Char) : Bool :=
  isBlank c || ['\n', '\r', ',', ']', '[', '\x7b', '\x7d', '#', '='].contains c

def isQuote (c : Char) : Bool :=
  c = '"' || c = '\''

/-- Whether what follows a word belongs to it: blanks with another word behind them, as between a
date and a time. A string, which begins with a quote, is no word. -/
def goesOn (cs : List Char) : Bool :=
  match skipBlanks cs with
  | c :: _ => !isStop c && !isQuote c
  | [] => false

def splitWords : Nat → List Char → List Char × List Char
  | 0, cs => ([], cs)
  | fuel + 1, cs =>
    let word := cs.takeWhile fun c => !isStop c
    let rest := cs.dropWhile fun c => !isStop c
    if goesOn rest then
      let more := splitWords fuel (skipBlanks rest)
      (word ++ rest.takeWhile isBlank ++ more.1, more.2)
    else (word, rest)

def wordValue? (word : List Char) : Option Value :=
  if word = ['t', 'r', 'u', 'e'] ∨ word = ['f', 'a', 'l', 's', 'e'] then some .boolean
  else
    match readInteger? word with
    | some n => some (.integer n)
    | none =>
      if isFloat word then some .float
      else (readDatetime? word).map fun text => .datetime (String.ofList text)

def readSimple? (cs : List Char) : Option (Value × List Char) :=
  match cs with
  | [] => none
  | c :: _ =>
    if isQuote c then (readString? cs).map fun r => (.string r.1, r.2)
    else
      let w := splitWords cs.length cs
      (wordValue? w.1).map fun value => (value, w.2)

/-!
# Arrays and tables between braces
-/

mutual

def readValue? : Nat → Nat → List Char → Option (Value × List Char)
  | 0, _, _ => none
  | fuel + 1, room, cs =>
    match cs with
    | '[' :: cs => do
      guard (0 < room)
      let (items, cs) ← readItems? fuel (room - 1) (← skipAllFiller? cs)
      return (.array items, cs)
    | '\x7b' :: cs => do
      guard (0 < room)
      let (t, cs) ← readFields? fuel (room - 1) (Table.empty .inline) (← skipAllFiller? cs)
      return (t.toValue, cs)
    | cs => readSimple? cs

def readItems? : Nat → Nat → List Char → Option (List Value × List Char)
  | 0, _, _ => none
  | fuel + 1, room, cs =>
    match cs with
    | ']' :: cs => some ([], cs)
    | cs => do
      let (value, cs) ← readValue? fuel room cs
      match ← skipAllFiller? cs with
      | ',' :: cs =>
        let (items, cs) ← readItems? fuel room (← skipAllFiller? cs)
        return (value :: items, cs)
      | ']' :: cs => return ([value], cs)
      | _ => none

/-- The fields of a table between braces up to its end, added to those read before. A key and its
value may stand on different lines. -/
def readFields? : Nat → Nat → Table → List Char → Option (Table × List Char)
  | 0, _, _, _ => none
  | fuel + 1, room, t, cs =>
    match cs with
    | '\x7d' :: cs => some (t, cs)
    | cs => do
      let (path, key, cs) ← readKey? cs
      let cs ← expect? '=' (← skipAllFiller? cs)
      let (value, cs) ← readValue? fuel room (← skipAllFiller? cs)
      let t ← t.insert? path key value
      match ← skipAllFiller? cs with
      | ',' :: cs => readFields? fuel room t (← skipAllFiller? cs)
      | '\x7d' :: cs => return (t, cs)
      | _ => none

end

def readFullValue? (cs : List Char) : Option (Value × List Char) :=
  readValue? (cs.length + 1) nestingLimit cs

end Toml
end Wiring
