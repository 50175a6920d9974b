import Wiring.Json.Basic

/-!
# JSON text

The two text forms of a JSON value: compact, and spread over lines with an
indentation of two blanks.
-/

namespace Wiring
namespace Json

/-!
# Scalars
-/

def controlEscape (c : Char) : List Char :=
  let ds := Nat.toDigits 16 c.toNat
  ['\\', 'u'] ++ List.replicate (4 - ds.length) '0' ++ ds

def escapeChar (c : Char) : List Char :=
  if c = '"' then ['\\', '"']
  else if c = '\\' then ['\\', '\\']
  else if c = '\n' then ['\\', 'n']
  else if c = '\r' then ['\\', 'r']
  else if c = '\t' then ['\\', 't']
  else if c.toNat = 8 then ['\\', 'b']
  else if c.toNat = 12 then ['\\', 'f']
  else if c.toNat < 0x20 then controlEscape c
  else [c]

def quoted (s : String) : List Char :=
  '"' :: (s.toList.flatMap escapeChar ++ ['"'])

/-- Numbers from `1e-5` up to below `1e16` are positional, and a whole one ends in `.0`. -/
def numeralStyle : NumeralStyle :=
  ⟨some (-5, 15), ['.', '0'], .even, "null", "null"⟩

def scalarText : Json → List Char
  | bool true => ['t', 'r', 'u', 'e']
  | bool false => ['f', 'a', 'l', 's', 'e']
  | int n => (toString n).toList
  | double (.finite negative m e) => (numeralStyle.text (.finite negative m e)).toList
  | str s => quoted s
  | _ => ['n', 'u', 'l', 'l']

/-!
# Compact text
-/

mutual

def compactChars : Json → List Char
  | arr items => '[' :: (compactItems items ++ [']'])
  | obj fields => '\x7b' :: (compactFields fields ++ ['\x7d'])
  | value => scalarText value

def compactItems : List Json → List Char
  | [] => []
  | [value] => compactChars value
  | value :: rest => compactChars value ++ ',' :: compactItems rest

def compactFields : List (String × Json) → List Char
  | [] => []
  | [(key, value)] => quoted key ++ ':' :: compactChars value
  | (key, value) :: rest =>
    quoted key ++ ':' :: (compactChars value ++ ',' :: compactFields rest)

end

def compact (value : Json) : String :=
  String.ofList (compactChars value)

/-!
# Indented text
-/

def newline (indent : Nat) : List Char :=
  '\n' :: List.replicate (2 * indent) ' '

mutual

def prettyChars (indent : Nat) : Json → List Char
  | arr [] => ['[', ']']
  | arr (value :: rest) =>
    '[' :: (prettyItems (indent + 1) (value :: rest) ++ newline indent ++ [']'])
  | obj [] => ['\x7b', '\x7d']
  | obj (field :: rest) =>
    '\x7b' :: (prettyFields (indent + 1) (field :: rest) ++ newline indent ++ ['\x7d'])
  | value => scalarText value

def prettyItems (indent : Nat) : List Json → List Char
  | [] => []
  | [value] => newline indent ++ prettyChars indent value
  | value :: rest =>
    newline indent ++ prettyChars indent value ++ ',' :: prettyItems indent rest

def prettyFields (indent : Nat) : List (String × Json) → List Char
  | [] => []
  | [(key, value)] => newline indent ++ quoted key ++ ':' :: ' ' :: prettyChars indent value
  | (key, value) :: rest =>
    newline indent ++ quoted key ++ ':' :: ' ' ::
      (prettyChars indent value ++ ',' :: prettyFields indent rest)

end

def pretty (value : Json) : String :=
  String.ofList (prettyChars 0 value)

end Json
end Wiring
