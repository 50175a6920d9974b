import Wiring.Graph.Basic

/-!
# Superclasses

The nodes that can be reached by steps along `rdfs:subClassOf`, nearest first.
Cycles in the hierarchy do no harm, since each node is entered once.
-/

namespace Wiring

def unseen (seen : List NodeId) (nodes : List NodeId) : List NodeId :=
  (nodes.filter fun n => !seen.contains n).eraseDups

/-- The nodes reached from `frontier` along `next`, layer by layer. Nodes in `seen` are not entered,
and there are at most `layers` layers. -/
def reachLayers (next : NodeId → List NodeId) :
    Nat → List NodeId → List NodeId → List NodeId
  | 0, _, _ => []
  | layers + 1, seen, frontier =>
    match unseen seen frontier with
    | [] => []
    | layer => layer ++ reachLayers next layers (seen ++ layer) (layer.flatMap next)

namespace Graph

def directSuperclasses (g : Graph) (node : NodeId) : List NodeId :=
  g.objects node Vocabulary.Rdfs.subClassOf

/-- The nodes reached from `node` by one or more steps to a superclass, nearest first. Each layer
uses up an edge of the graph. -/
def superclasses (g : Graph) (node : NodeId) : List NodeId :=
  reachLayers g.directSuperclasses g.tripleCount [] (g.directSuperclasses node)

def isSubclassOf (g : Graph) (sub sup : String) : Bool :=
  sub = sup ||
    match g.lookupNamed? sub with
    | none => false
    | some start => (g.superclasses start).any fun n => g.iri? n = some sup

def isA (g : Graph) (id : NodeId) (iri : String) : Bool :=
  (g.types id).any fun t => g.isSubclassOf t iri

end Graph
end Wiring
