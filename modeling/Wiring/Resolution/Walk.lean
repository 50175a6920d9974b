import Wiring.Resolution.Assembly

/-!
# The walk

Instances need definitions and definitions need instances.  Each time one goes
into the other the walk is one level deeper, and the depth limit says how many
levels there are.
-/

namespace Wiring

open Vocabulary

namespace Environment

def depthFailure (env : Environment) (node : NodeId) : Failure :=
  .depthExceeded env.depthLimit (env.graph.display node)

def resolveArguments (env : Environment) (assemble : Place → NodeId → Walking Assembled)
    (active : List NodeId) (config : NodeId) (component : Component) :
    Resolving (List Argument) :=
  Walking.within (Generics.forComponent component) do
    let instances := env.graph.ordered config Oo.genericTypeInstances
    Walking.ofBinding (Generics.bindInstances env.graph component instances)
    match component.arguments with
    | none => return []
    | some node => return (← assemble ⟨config, config, active⟩ node).toPositional

/-- A new instance of a configuration that is not active. The instance has its number, and is shared
unless it is unique, before its arguments are resolved. -/
def newInstance (env : Environment)
    (arguments : List NodeId → NodeId → Component → Resolving (List Argument))
    (active : List NodeId) (config : NodeId) (unique : Bool) : Resolving InstanceId := do
  match Component.forConfig env.graph config with
  | .error failure => throw failure
  | .ok component =>
    let id ← modifyGet fun s => s.reserve (env.graph.display config) component.id
    unless unique do modify fun s => s.share config id
    let resolved ← arguments (config :: active) config component
    modify fun s => s.setArguments id resolved
    return id

/-- The instance of a configuration. An active configuration has none, but a lazy reference gets the
shared one that is waiting for its arguments. -/
def instantiateWith (env : Environment)
    (arguments : List NodeId → NodeId → Component → Resolving (List Argument))
    (active : List NodeId) (config : NodeId) (unique lazy : Bool) :
    Resolving (Option InstanceId) := do
  let shared := (← get).shared[config]?
  if active.contains config then return if lazy then shared else none
  else
    match unique, shared with
    | false, some id => return some id
    | _, _ => return some (← env.newInstance arguments active config unique)

mutual

def assembleWithin (env : Environment) : Nat → Place → NodeId → Walking Assembled
  | 0, _, node => throw (env.depthFailure node)
  | levels + 1, place, node =>
    env.assembleShape ⟨assembleWithin env levels, instantiateWithin env levels⟩ place node

def instantiateWithin (env : Environment) :
    Nat → List NodeId → NodeId → (unique lazy : Bool) → Resolving (Option InstanceId)
  | 0, active, config, unique, lazy =>
    env.instantiateWith (fun _ config _ => throw (env.depthFailure config)) active config unique
      lazy
  | levels + 1, active, config, unique, lazy =>
    env.instantiateWith (env.resolveArguments (assembleWithin env levels)) active config unique
      lazy

end

def descent (env : Environment) : Descent :=
  ⟨env.assembleWithin env.depthLimit, env.instantiateWithin env.depthLimit⟩

/-!
# Resolution
-/

def resolve (env : Environment) (config : NodeId) : Resolving InstanceId := do
  match ← env.descent.instantiate [] config false false with
  | some id => return id
  | none => throw (.cyclicReference (env.graph.display config))

def resolveIri (env : Environment) (iri : String) : Resolving InstanceId := do
  match env.graph.lookupNamed? iri with
  | some config => env.resolve config
  | none => throw (.nodeNotFound iri)

def plan (env : Environment) (config : NodeId) : Except Failure Plan :=
  let (answer, session) := (env.resolve config).run.run Session.empty
  answer.map session.toPlan

end Environment
end Wiring
