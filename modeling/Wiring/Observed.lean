import Wiring.Graph.Basic
import Wiring.Range.Basic

/-!
# Observed values

A value as a range sees it.  A literal may come from the graph or from outside of
it, so it is carried along and not looked up.
-/

namespace Wiring

inductive Observed where
  | absent
  | literal (l : Literal)
  | node (id : NodeId)
  deriving DecidableEq, Repr

namespace Observed

def ofNode (g : Graph) (id : NodeId) : Observed :=
  match g.literal? id with
  | some l => literal l
  | none => node id

def text (g : Graph) : Observed → String
  | absent => "undefined"
  | literal l => l.value
  | node id => g.display id

def items? (g : Graph) : Observed → Option (List Observed)
  | node id => (g.list? id).map fun items => items.map (ofNode g)
  | _ => none

/-- The range that a value belongs to of itself: a literal to its datatype, a node to its types.
Nothing is known of a node without a type. -/
def inferredRange? (g : Graph) : Observed → Option Range
  | absent => some .undefined
  | literal l => some (.literal l.datatype)
  | node id =>
    match g.types id with
    | [] => none
    | [iri] => some (.type iri)
    | iris => some (.union (iris.map .type))

end Observed
end Wiring
