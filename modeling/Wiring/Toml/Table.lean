/-!
# Tables of TOML

The values of a TOML document.  A table remembers how it came to be, since that
decides on what may be added to it later.
-/

namespace Wiring
namespace Toml

inductive Origin where
  | passed
  | dotted
  /-- By a header of its own; the root of a document counts as one. -/
  | header
  | inline
  deriving DecidableEq, Repr

inductive Value where
  | string (s : String)
  /-- An integer, which has no value if its characters are not digits. -/
  | integer (n : Option Int)
  | float
  | boolean
  | datetime (text : String)
  | array (items : List Value)
  | tables (items : List Value)
  | table (origin : Origin) (fields : List (String × Value))
  deriving Inhabited

structure Table where
  origin : Origin
  fields : List (String × Value)

namespace Table

def empty (origin : Origin) : Table :=
  ⟨origin, []⟩

def toValue (t : Table) : Value :=
  .table t.origin t.fields

def field? (t : Table) (key : String) : Option Value :=
  t.fields.lookup key

def setField (key : String) (value : Value) : List (String × Value) → List (String × Value)
  | [] => [(key, value)]
  | (k, v) :: rest =>
    if k = key then (key, value) :: rest else (k, v) :: setField key value rest

def put (t : Table) (key : String) (value : Value) : Table :=
  { t with fields := setField key value t.fields }

def opensToDots : Origin → Bool
  | .passed => true
  | .dotted => true
  | _ => false

def updateLast? (f : Table → Option Table) (items : List Value) : Option Value :=
  match items.getLast? with
  | some (.table origin fields) =>
    (f ⟨origin, fields⟩).map fun t => .tables (items.dropLast ++ [t.toValue])
  | _ => none

/-- Changes the table at the end of a path. Tables that are missing on the way are made, by points
if `dots`. A finished table is not changed. -/
def update? (dots : Bool) (f : Table → Option Table) : List String → Table → Option Table
  | [], t => f t
  | key :: path, t =>
    match t.field? key with
    | none =>
      (update? dots f path (empty (if dots then .dotted else .passed))).map fun child =>
        t.put key child.toValue
    | some (.table origin fields) =>
      if origin = .inline || (dots && !opensToDots origin) then none
      else (update? dots f path ⟨origin, fields⟩).map fun child => t.put key child.toValue
    | some (.tables items) => (updateLast? (update? dots f path) items).map (t.put key)
    | some _ => none

/-- Adds a value under a key that is not there yet. Keys with points go to tables made by points
only, and keys without to all others. -/
def add? (dots : Bool) (key : String) (value : Value) (t : Table) : Option Table :=
  if (t.origin = .dotted) != dots then none
  else
    match t.field? key with
    | none => some (t.put key value)
    | some _ => none

def insert? (path : List String) (key : String) (value : Value) (t : Table) : Option Table :=
  update? (!path.isEmpty) (add? (!path.isEmpty) key value) path t

/-- Opens the table of a header: a new one, or one that was only passed so far. -/
def openTable? (key : String) (parent : Table) : Option Table :=
  match parent.field? key with
  | none => some (parent.put key (empty .header).toValue)
  | some (.table .passed fields) => some (parent.put key (.table .header fields))
  | some _ => none

def openTables? (key : String) (parent : Table) : Option Table :=
  match parent.field? key with
  | none => some (parent.put key (.tables [(empty .header).toValue]))
  | some (.tables items) => some (parent.put key (.tables (items ++ [(empty .header).toValue])))
  | some _ => none

end Table
end Toml
end Wiring
