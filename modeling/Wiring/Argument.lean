import Wiring.Scalar

/-!
# Constructor arguments

The resolved arguments of a constructor, and the look-up of a key in them.
-/

namespace Wiring

abbrev InstanceId := Nat

inductive Argument where
  | undefined
  | literal (value : Scalar)
  | iri (text : String)
  | reference (id : InstanceId)
  | lazy (inner : Argument)
  | list (items : List Argument)
  | map (entries : List (String × Argument))
  deriving Inhabited, Repr

namespace Argument

def string (s : String) : Argument :=
  literal (.str s)

def isUndefined : Argument → Bool
  | undefined => true
  | _ => false

def entries? : Argument → Option (List (String × Argument))
  | map entries => some entries
  | _ => none

/-- The value under a key of a map; of several entries the first counts. -/
def get? (a : Argument) (key : String) : Option Argument :=
  match a with
  | map entries => entries.lookup key
  | _ => none

/-!
# Text
-/

def instanceText (id : InstanceId) : String :=
  "#" ++ toString id

mutual

def text : Argument → String
  | undefined => "undefined"
  | literal value => value.text
  | iri s => "<" ++ s ++ ">"
  | reference id => instanceText id
  | lazy inner => "lazy(" ++ text inner ++ ")"
  | list items => "[" ++ itemsText items ++ "]"
  | map entries => "\x7b" ++ entriesText entries ++ "\x7d"

def itemsText : List Argument → String
  | [] => ""
  | [a] => text a
  | a :: rest => text a ++ ", " ++ itemsText rest

def entriesText : List (String × Argument) → String
  | [] => ""
  | [(key, a)] => key ++ ": " ++ text a
  | (key, a) :: rest => key ++ ": " ++ text a ++ ", " ++ entriesText rest

end

/-!
# JSON form
-/

def tagged (kind : String) (value : Json) : Json :=
  .obj [("kind", .str kind), ("value", value)]

mutual

def toJson : Argument → Json
  | undefined => .obj [("kind", .str "undefined")]
  | literal value => tagged "literal" value.toJson
  | iri s => tagged "iri" (.str s)
  | reference id => tagged "instance" (.int id)
  | lazy inner => tagged "lazy" (toJson inner)
  | list items => tagged "list" (.arr (itemsToJson items))
  | map entries => tagged "map" (.arr (entriesToJson entries))

def itemsToJson : List Argument → List Json
  | [] => []
  | a :: rest => toJson a :: itemsToJson rest

def entriesToJson : List (String × Argument) → List Json
  | [] => []
  | (key, a) :: rest => .obj [("key", .str key), ("value", toJson a)] :: entriesToJson rest

end

end Argument
end Wiring
