import Wiring.Failure
import Wiring.Graph.Reach

/-!
# Components

A component is a type that can be instantiated: it has parameters, generic type
parameters and a definition of its constructor arguments.  What it does not
declare itself it takes from its superclasses, nearest first.
-/

namespace Wiring

open Vocabulary

inductive ComponentKind where
  | concrete
  | abstract
  deriving DecidableEq, Repr

namespace ComponentKind

def text : ComponentKind → String
  | concrete => "class"
  | abstract => "abstract class"

def of? (g : Graph) (node : NodeId) : Option ComponentKind :=
  let types := g.types node
  if types.contains Oo.classType then some concrete
  else if types.contains Oo.abstractClass then some abstract
  else none

end ComponentKind

structure Component where
  node : NodeId
  id : String
  kind : ComponentKind
  generics : List String
  parameters : List NodeId
  arguments : Option NodeId
  deriving Repr

namespace Component

def isComponent (g : Graph) (node : NodeId) : Bool :=
  (ComponentKind.of? g node).isSome

/-!
# Declarations of one node
-/

def declaredGenerics (g : Graph) (node : NodeId) : List String :=
  (g.ordered node Oo.genericTypeParameters).map g.display

def declaredParameters (g : Graph) (node : NodeId) : List NodeId :=
  g.ordered node Oo.parameter

def declaredArguments (g : Graph) (node : NodeId) : Option NodeId :=
  g.object? node Oo.constructorArguments

/-!
# Inheritance
-/

/-- The superclasses of a node that are components, nearest first and without the node itself. -/
def ancestors (g : Graph) (node : NodeId) : List NodeId :=
  (g.superclasses node).filter fun a => a ≠ node && isComponent g a

def inherit (parameters inherited : List NodeId) : List NodeId :=
  inherited.foldl (fun acc p => if acc.contains p then acc else acc ++ [p]) parameters

def inheritedParameters (g : Graph) (node : NodeId) (ancestors : List NodeId) : List NodeId :=
  (ancestors.map (declaredParameters g)).foldl inherit (declaredParameters g node)

def inheritedArguments (g : Graph) (node : NodeId) (ancestors : List NodeId) : Option NodeId :=
  (node :: ancestors).findSome? (declaredArguments g)

/-- The first generic type parameters that are not empty among those of a node and its ancestors. -/
def inheritedGenerics (g : Graph) (node : NodeId) (ancestors : List NodeId) : List String :=
  (((node :: ancestors).map (declaredGenerics g)).find? fun names => !names.isEmpty).getD []

def load (g : Graph) (node : NodeId) : Except Failure Component :=
  match ComponentKind.of? g node with
  | none => .error (.notAComponent (g.display node))
  | some kind =>
    let ancestors := ancestors g node
    .ok {
      node := node
      id := g.display node
      kind := kind
      generics := inheritedGenerics g node ancestors
      parameters := inheritedParameters g node ancestors
      arguments := inheritedArguments g node ancestors }

/-!
# Configurations
-/

/-- The component that a configuration instantiates: the first of its types that is one. -/
def ofConfig? (g : Graph) (config : NodeId) : Option NodeId :=
  ((g.types config).filterMap g.lookupNamed?).find? (isComponent g)

def forConfig (g : Graph) (config : NodeId) : Except Failure Component :=
  match ofConfig? g config with
  | none => .error (.notAComponent (g.display config))
  | some node => load g node

def configurations (g : Graph) : List NodeId :=
  (List.range g.size).filter fun id =>
    (g.iri? id).isSome && !isComponent g id && (ofConfig? g id).isSome

end Component
end Wiring
