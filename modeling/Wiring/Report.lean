import Wiring.Json.Draft
import Wiring.Json.Printer

/-!
# Failure reports

A report says what went wrong in one sentence, names the values involved, and
keeps the reports of the failures that led to it.
-/

namespace Wiring

structure Report where
  description : String
  context : List (String × Json)
  causes : List Report
  deriving Inhabited, Repr

namespace Report

def ofText (description : String) : Report :=
  ⟨description, [], []⟩

def insertSorted (key : String) (value : Json) : List (String × Json) → List (String × Json)
  | [] => [(key, value)]
  | (k, v) :: rest =>
    match compare key k with
    | .lt => (key, value) :: (k, v) :: rest
    | .eq => (key, value) :: rest
    | .gt => (k, v) :: insertSorted key value rest

def withContext (r : Report) (key : String) (value : Json) : Report :=
  { r with context := insertSorted key value r.context }

def withText (r : Report) (key value : String) : Report :=
  r.withContext key (.str value)

def withCount (r : Report) (key : String) (n : Nat) : Report :=
  r.withContext key (.int n)

def withCauses (r : Report) (causes : List Report) : Report :=
  { r with causes := r.causes ++ causes }

def withCause (r : Report) (cause : Report) : Report :=
  r.withCauses [cause]

/-!
# Text
-/

def indentation (depth : Nat) : String :=
  String.ofList (List.replicate (2 * depth) ' ')

def valueText : Json → String
  | .str s => s
  | value => value.compact

mutual

def renderAt (depth : Nat) : Report → String
  | ⟨description, context, causes⟩ =>
    indentation depth ++ description ++ "\n" ++
      String.join (context.map fun entry =>
        indentation (depth + 1) ++ entry.1 ++ ": " ++ valueText entry.2 ++ "\n") ++
      renderAll (depth + 1) causes

def renderAll (depth : Nat) : List Report → String
  | [] => ""
  | cause :: rest => renderAt depth cause ++ renderAll depth rest

end

def render (r : Report) : String :=
  renderAt 0 r

/-!
# JSON form

An empty context and an empty list of causes are left out.
-/

mutual

def toJson : Report → Json
  | ⟨description, context, causes⟩ =>
    .obj ([("description", .str description)] ++
      (if context.isEmpty then [] else [("context", .obj context)]) ++
      (if causes.isEmpty then [] else [("causes", .arr (allToJson causes))]))

def allToJson : List Report → List Json
  | [] => []
  | cause :: rest => toJson cause :: allToJson rest

end

def contextOf (fields : List (String × Json)) : List (String × Json) :=
  fields.foldl (fun acc entry => insertSorted entry.1 entry.2 acc) []

def readCauses? (read : Json → Option Report) : Option Json → Option (List Report)
  | none => some []
  | some (.arr items) => items.mapM read
  | some _ => none

def readContext? : Option Json → Option (List (String × Json))
  | none => some []
  | some (.obj fields) => some (contextOf fields)
  | some _ => none

def readParts? (read : Json → Option Report) (description context causes : Option Json) :
    Option Report :=
  match description with
  | some (.str text) => do
    let context ← readContext? context
    let causes ← readCauses? read causes
    return ⟨text, context, causes⟩
  | _ => none

/-- Reads a report nested at most `depth` deep. It is an object, whose context and causes may be
missing and whose other fields do not count, or the array of its parts in order. -/
def readAt? : Nat → Json → Option Report
  | 0, _ => none
  | depth + 1, .obj fields =>
    readParts? (readAt? depth) (fields.lookup "description") (fields.lookup "context")
      (fields.lookup "causes")
  | depth + 1, .arr parts =>
    if parts.length ≤ 3 then readParts? (readAt? depth) parts[0]? parts[1]? parts[2]?
    else none
  | _ + 1, _ => none

def ofJson? (value : Json) : Option Report :=
  readAt? (Json.Draft.maxNesting + 1) value

end Report
end Wiring
