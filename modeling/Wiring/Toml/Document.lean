import Wiring.Toml.Value

/-!
# TOML documents

A document is a sequence of lines.  A line gives a value to a key of the table
that was opened last, or opens another one.
-/

namespace Wiring
namespace Toml

/-- A document up to some line: its root, and the path of the table that was opened last. -/
structure Draft where
  root : Table
  current : List String

namespace Draft

def empty : Draft :=
  ⟨Table.empty .header, []⟩

def assign? (d : Draft) (path : List String) (key : String) (value : Value) : Option Draft :=
  (Table.update? false (Table.insert? path key value) d.current d.root).map fun root =>
    { d with root := root }

def open? (d : Draft) (many : Bool) (path : List String) (key : String) : Option Draft :=
  let step := if many then Table.openTables? key else Table.openTable? key
  (Table.update? false step path d.root).map fun root => ⟨root, path ++ [key]⟩

end Draft

/-!
# Lines
-/

def readHeader? (d : Draft) (many : Bool) (cs : List Char) : Option (Draft × List Char) := do
  let (path, key, cs) ← readKey? (skipBlanks cs)
  let cs ← expect? ']' cs
  let cs ← if many then expect? ']' cs else some cs
  let d ← d.open? many path key
  return (d, cs)

def readAssignment? (d : Draft) (cs : List Char) : Option (Draft × List Char) := do
  let (path, key, cs) ← readKey? cs
  let cs ← expect? '=' cs
  let (value, cs) ← readFullValue? (skipBlanks cs)
  let d ← d.assign? path key value
  return (d, cs)

def readStatement? (d : Draft) (cs : List Char) : Option (Draft × List Char) :=
  match cs with
  | '[' :: '[' :: cs => readHeader? d true cs
  | '[' :: cs => readHeader? d false cs
  | cs => readAssignment? d cs

def readLines? : Nat → Draft → List Char → Option Draft
  | 0, _, _ => none
  | fuel + 1, d, cs => do
    match ← skipAllFiller? cs with
    | [] => return d
    | cs =>
      let (d, cs) ← readStatement? d cs
      let cs ← skipTrail? cs
      match cs with
      | [] => return d
      | cs => readLines? fuel d (← readNewline? cs)

def dropMark : List Char → List Char
  | '\ufeff' :: cs => cs
  | cs => cs

def parse? (text : String) : Option Table :=
  let cs := dropMark text.toList
  (readLines? (cs.length + 1) Draft.empty cs).map Draft.root

end Toml
end Wiring
