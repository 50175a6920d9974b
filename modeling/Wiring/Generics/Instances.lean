import Wiring.Component
import Wiring.Generics
import Wiring.Range.Description

/-!
# Explicit generic instances

A configuration may say what the generic type parameters of its component stand
for, one instance for each parameter in order of declaration.
-/

namespace Wiring
namespace Generics

open Vocabulary

def forComponent (c : Component) : Generics :=
  ofScope c.generics

abbrev Binding (α : Type) := ExceptT Failure (StateM Generics) α

def bindInstance (g : Graph) (component name : String) (inst : NodeId) : Binding Unit := do
  match g.object? inst Oo.parameterRangeGenericBindings with
  | none => return ()
  | some node =>
    match Range.read g node with
    | .error failure => throw failure
    | .ok range =>
      match (← get).bindRange g name range with
      | .ok c => set c
      | .error report => throw (.genericBinding name component report)

def bindInstances (g : Graph) (component : Component) (instances : List NodeId) : Binding Unit := do
  if instances.isEmpty then return ()
  else if instances.length ≠ component.generics.length then
    throw (.genericArity component.id component.generics.length instances.length)
  else
    (component.generics.zip instances).forM fun p => bindInstance g component.id p.1 p.2

end Generics
end Wiring
