/-!
# Texts and keys of TOML

Strings of the four kinds, comments, line ends and keys.  A reading function takes
the characters from a place in the text on, and gives back what it has read and
the characters behind it.
-/

namespace Wiring
namespace Toml

/-!
# Blanks, comments and line ends
-/

def isBlank (c : Char) : Bool :=
  c = ' ' || c = '\t'

def skipBlanks (cs : List Char) : List Char :=
  cs.dropWhile isBlank

def isPlain (c : Char) : Bool :=
  c = '\t' || (decide (0x20 ≤ c.toNat) && c.toNat ≠ 0x7f)

def skipComment? : List Char → Option (List Char)
  | [] => some []
  | '\n' :: cs => some ('\n' :: cs)
  | '\r' :: '\n' :: cs => some ('\r' :: '\n' :: cs)
  | c :: cs => if isPlain c then skipComment? cs else none

def readNewline? : List Char → Option (List Char)
  | '\n' :: cs => some cs
  | '\r' :: '\n' :: cs => some cs
  | _ => none

def skipTrail? (cs : List Char) : Option (List Char) :=
  match skipBlanks cs with
  | '#' :: cs => skipComment? cs
  | cs => some cs

def skipFiller? : Nat → List Char → Option (List Char)
  | 0, cs => some cs
  | fuel + 1, cs => do
    let cs ← skipTrail? cs
    match readNewline? cs with
    | some cs => skipFiller? fuel cs
    | none => return cs

def skipAllFiller? (cs : List Char) : Option (List Char) :=
  skipFiller? (cs.length + 1) cs

/-!
# Escapes
-/

def hexValue? (c : Char) : Option Nat :=
  if '0' ≤ c ∧ c ≤ '9' then some (c.toNat - 48)
  else if 'a' ≤ c ∧ c ≤ 'f' then some (c.toNat - 87)
  else if 'A' ≤ c ∧ c ≤ 'F' then some (c.toNat - 55)
  else none

def charOfHex? (digits : List Char) : Option Char := do
  let values ← digits.mapM hexValue?
  let n := values.foldl (fun n v => 16 * n + v) 0
  if n.isValidChar then some (Char.ofNat n) else none

def escapeWidth? (c : Char) : Option Nat :=
  if c = 'x' then some 2
  else if c = 'u' then some 4
  else if c = 'U' then some 8
  else none

def shortEscape? (c : Char) : Option Char :=
  if c = '"' ∨ c = '\\' then some c
  else if c = 'b' then some '\x08'
  else if c = 't' then some '\t'
  else if c = 'n' then some '\n'
  else if c = 'f' then some '\x0c'
  else if c = 'r' then some '\r'
  else if c = 'e' then some '\x1b'
  else none

def readEscape? : List Char → Option (Char × List Char)
  | [] => none
  | c :: cs =>
    match escapeWidth? c with
    | some width =>
      if (cs.take width).length = width then
        (charOfHex? (cs.take width)).map fun d => (d, cs.drop width)
      else none
    | none => (shortEscape? c).map fun d => (d, cs)

/-!
# Strings of one line
-/

def readBasic? : Nat → List Char → Option (List Char × List Char)
  | 0, _ => none
  | fuel + 1, cs =>
    match cs with
    | [] => none
    | '"' :: cs => some ([], cs)
    | '\\' :: cs => do
      let (c, cs) ← readEscape? cs
      let (text, cs) ← readBasic? fuel cs
      return (c :: text, cs)
    | c :: cs =>
      if isPlain c then (readBasic? fuel cs).map fun r => (c :: r.1, r.2)
      else none

def readLiteral? : List Char → Option (List Char × List Char)
  | [] => none
  | '\'' :: cs => some ([], cs)
  | c :: cs =>
    if isPlain c then (readLiteral? cs).map fun r => (c :: r.1, r.2)
    else none

/-!
# Strings of several lines
-/

def dropFirstNewline (cs : List Char) : List Char :=
  (readNewline? cs).getD cs

def skipSpace : List Char → List Char
  | '\r' :: '\n' :: cs => skipSpace cs
  | c :: cs => if c = '\n' || isBlank c then skipSpace cs else c :: cs
  | [] => []

def readContinuation? (cs : List Char) : Option (List Char) :=
  (readNewline? (skipBlanks cs)).map skipSpace

/-- The end of a string of several lines, which may hold up to two quotes of its own. -/
def readClosing? (quote : Char) (cs : List Char) : Option (List Char × List Char) :=
  let count := (cs.takeWhile (· = quote)).length
  if count < 3 then none
  else some (List.replicate (min count 5 - 3) quote, cs.drop (min count 5))

def readBasicLines? : Nat → List Char → Option (List Char × List Char)
  | 0, _ => none
  | fuel + 1, cs =>
    match readClosing? '"' cs with
    | some r => some r
    | none =>
      match cs with
      | [] => none
      | '\\' :: cs =>
        match readContinuation? cs with
        | some cs => readBasicLines? fuel cs
        | none => do
          let (c, cs) ← readEscape? cs
          let (text, cs) ← readBasicLines? fuel cs
          return (c :: text, cs)
      | '\r' :: '\n' :: cs =>
        (readBasicLines? fuel cs).map fun r => ('\r' :: '\n' :: r.1, r.2)
      | c :: cs =>
        if c = '\n' || isPlain c then (readBasicLines? fuel cs).map fun r => (c :: r.1, r.2)
        else none

def readLiteralLines? : Nat → List Char → Option (List Char × List Char)
  | 0, _ => none
  | fuel + 1, cs =>
    match readClosing? '\'' cs with
    | some r => some r
    | none =>
      match cs with
      | [] => none
      | '\r' :: '\n' :: cs =>
        (readLiteralLines? fuel cs).map fun r => ('\r' :: '\n' :: r.1, r.2)
      | c :: cs =>
        if c = '\n' || isPlain c then (readLiteralLines? fuel cs).map fun r => (c :: r.1, r.2)
        else none

def readString? : List Char → Option (String × List Char)
  | '"' :: '"' :: '"' :: cs =>
    (readBasicLines? (cs.length + 1) (dropFirstNewline cs)).map fun r =>
      (String.ofList r.1, r.2)
  | '"' :: cs => (readBasic? (cs.length + 1) cs).map fun r => (String.ofList r.1, r.2)
  | '\'' :: '\'' :: '\'' :: cs =>
    (readLiteralLines? (cs.length + 1) (dropFirstNewline cs)).map fun r =>
      (String.ofList r.1, r.2)
  | '\'' :: cs => (readLiteral? cs).map fun r => (String.ofList r.1, r.2)
  | _ => none

/-!
# Keys
-/

def isBareKeyChar (c : Char) : Bool :=
  c.isAlphanum || c = '_' || c = '-'

def readKeyPart? : List Char → Option (String × List Char)
  | '"' :: cs => (readBasic? (cs.length + 1) cs).map fun r => (String.ofList r.1, r.2)
  | '\'' :: cs => (readLiteral? cs).map fun r => (String.ofList r.1, r.2)
  | cs =>
    match cs.takeWhile isBareKeyChar with
    | [] => none
    | word => some (String.ofList word, cs.dropWhile isBareKeyChar)

def readKeyParts? : Nat → List Char → Option (List String × List Char)
  | 0, _ => none
  | fuel + 1, cs => do
    let (part, cs) ← readKeyPart? cs
    match skipBlanks cs with
    | '.' :: cs =>
      let (parts, cs) ← readKeyParts? fuel (skipBlanks cs)
      return (part :: parts, cs)
    | cs => return ([part], cs)

/-- The most parts that a key may have, and the most brackets that may stand inside one another. -/
def nestingLimit : Nat := 80

def readKey? (cs : List Char) : Option (List String × String × List Char) := do
  let (parts, cs) ← readKeyParts? cs.length cs
  let name ← parts.getLast?
  if parts.length ≤ nestingLimit then return (parts.dropLast, name, cs) else none

end Toml
end Wiring
