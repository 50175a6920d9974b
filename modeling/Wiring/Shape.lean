import Wiring.Argument
import Wiring.Graph.Basic

/-!
# Shapes of constructor arguments

A node of a constructor argument definition is read as one of four shapes.  What
comes out of a shape can be used as one argument or as a list of arguments.
-/

namespace Wiring

open Vocabulary

inductive Shape where
  | elements
  | fields
  | list
  | keyValue
  deriving DecidableEq, Repr

namespace Shape

def text : Shape → String
  | elements => "elements"
  | fields => "fields"
  | list => "list"
  | keyValue => "key/value"

def all : List Shape :=
  [elements, fields, list, keyValue]

def fits (g : Graph) (node : NodeId) : Shape → Bool
  | elements => g.has node Oo.elements
  | fields => g.has node Oo.fields
  | list => (g.list? node).isSome
  | keyValue => true

def of (g : Graph) (node : NodeId) : Shape :=
  (all.find? (fits g node)).getD keyValue

end Shape

structure Resolved where
  values : List Argument
  unique : Bool
  deriving Repr

namespace Resolved

def single (a : Argument) : Resolved :=
  ⟨[a], true⟩

/-- The values as one argument: no value is `undefined`, and values that are not unique are a
list. -/
def collapse (r : Resolved) : Argument :=
  match r.values with
  | [] => .undefined
  | a :: rest => if r.unique then a else .list (a :: rest)

end Resolved

inductive Assembled where
  | positional (arguments : List Argument)
  | value (a : Argument)
  | entries (entries : List (String × Argument))
  | resolved (r : Resolved)
  | values (arguments : List Argument)
  deriving Repr

namespace Assembled

def toArgument : Assembled → Argument
  | positional arguments => .list arguments
  | value a => a
  | entries es => .map es
  | resolved r => r.collapse
  | values arguments => .list arguments

def toPositional : Assembled → List Argument
  | positional arguments => arguments
  | value a => [a]
  | entries es => [.map es]
  | resolved r => r.values
  | values arguments => arguments

end Assembled
end Wiring
