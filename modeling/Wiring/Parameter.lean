import Wiring.Range.Description

/-!
# Parameters

A parameter is a named node; its IRI is the predicate under which configurations
supply values for it.
-/

namespace Wiring

open Vocabulary

structure Parameter where
  node : NodeId
  id : String
  range : Option Range
  unique : Bool
  required : Bool
  lazy : Bool
  defaults : List NodeId
  /-- Entries with values for configurations of certain types. -/
  scopedDefaults : List NodeId
  /-- Values that are added to those of every configuration. -/
  fixed : List NodeId
  deriving Repr

namespace Parameter

def readRange? (g : Graph) (node : NodeId) : Except Failure (Option Range) :=
  match g.object? node Rdfs.range with
  | none => .ok none
  | some r => (Range.read g r).map some

def load (g : Graph) (node : NodeId) : Except Failure Parameter :=
  match g.iri? node with
  | none => .error (.definition (g.display node) "a parameter must be a named node")
  | some id => do
    let range ← readRange? g node
    return {
      node := node
      id := id
      range := range
      unique := g.flag node Oo.uniqueValue
      required := g.flag node Oo.required
      lazy := g.flag node Oo.lazy
      defaults := g.ordered node Oo.default
      scopedDefaults := g.objects node Oo.defaultScoped
      fixed := g.ordered node Oo.fixed }

end Parameter
end Wiring
