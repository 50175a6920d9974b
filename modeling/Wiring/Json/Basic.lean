import Wiring.Number.Shortest

/-!
# JSON values

Objects keep their fields in the order of insertion, and each key stands once.
-/

namespace Wiring

inductive Json where
  | null
  | bool (b : Bool)
  | int (n : Int)
  | double (x : Binary64)
  | str (s : String)
  | arr (items : List Json)
  | obj (fields : List (String × Json))
  deriving Inhabited, Repr

namespace Json

/-- Writes a field: a known key keeps its place and takes the new value, a new key comes last. -/
def setField (fields : List (String × Json)) (key : String) (value : Json) :
    List (String × Json) :=
  match fields with
  | [] => [(key, value)]
  | (k, v) :: rest =>
    if k = key then (key, value) :: rest else (k, v) :: setField rest key value

def ofFields (fields : List (String × Json)) : Json :=
  obj (fields.foldl (fun acc f => setField acc f.1 f.2) [])

def field? (value : Json) (key : String) : Option Json :=
  match value with
  | obj fields => fields.lookup key
  | _ => none

def ofBinary64 : Binary64 → Json
  | .finite negative m e => double (.finite negative m e)
  | _ => null

end Json
end Wiring
