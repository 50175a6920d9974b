import Wiring.Datatype
import Wiring.Failure
import Wiring.Graph.Basic
import Wiring.Range.Basic

/-!
# Range descriptions

How a node of a graph describes a range.  A node may carry the types of several
kinds of range; the kinds are tried in a fixed order and the first counts.  A
named node that carries none is a datatype or a type of nodes.
-/

namespace Wiring
namespace Range

open Vocabulary

inductive Description where
  | done (r : Range)
  | composed (build : List Range → Range) (members : List NodeId)
  | around (build : Range → Range) (inner : NodeId)
  | malformed (message : String)

def describeAround (g : Graph) (node : NodeId) (build : Range → Range) : Description :=
  match g.object? node Oo.rangeValue with
  | some inner => .around build inner
  | none => .malformed "range without a parameterRangeValue"

def describeComposed (g : Graph) (node : NodeId) (build : List Range → Range) : Description :=
  .composed build (g.ordered node Oo.rangeElements)

def describeGeneric (g : Graph) (node : NodeId) : Description :=
  match (g.object? node Oo.rangeGenericType).bind g.iri? with
  | some name => .done (generic name)
  | none => .malformed "generic type reference without a generic type"

def describeLeaf (g : Graph) (node : NodeId) : Description :=
  match g.iri? node with
  | some iri => .done (if Datatype.isDatatype iri then literal iri else type iri)
  | none => .malformed "unknown range kind"

def describe (g : Graph) (node : NodeId) : Description :=
  let types := g.types node
  if types.contains Oo.rangeWildcard then .done wildcard
  else if types.contains Oo.rangeUndefined then .done undefined
  else if types.contains Oo.rangeGeneric then describeGeneric g node
  else if types.contains Oo.rangeUnion then describeComposed g node union
  else if types.contains Oo.rangeIntersection then describeComposed g node intersection
  else if types.contains Oo.rangeTuple then describeComposed g node tuple
  else if types.contains Oo.rangeArray then describeAround g node array
  else if types.contains Oo.rangeRest then describeAround g node rest
  else if types.contains Oo.rangeKeyof then describeAround g node keyof
  else describeLeaf g node

def malformedAt (g : Graph) (node : NodeId) (message : String) : Failure :=
  .definition (g.display node) message

/-- How deep a description may be nested below its root. -/
def maxNesting : Nat := 64

/-- The range described at a node with fewer than `levels` levels below it. -/
def readWithin (g : Graph) : Nat → NodeId → Except Failure Range
  | 0, node => .error (malformedAt g node "range nesting is too deep")
  | levels + 1, node =>
    match describe g node with
    | .done r => .ok r
    | .composed build members => do
      let members ← members.mapM (readWithin g levels)
      return build members
    | .around build inner => do
      let inner ← readWithin g levels inner
      return build inner
    | .malformed message => .error (malformedAt g node message)

def read (g : Graph) (node : NodeId) : Except Failure Range :=
  readWithin g (maxNesting + 1) node

end Range
end Wiring
