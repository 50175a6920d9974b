import Wiring.Resolution.Session

/-!
# Values of parameters

How the values of a parameter are found and prepared, and how a prepared value
becomes an argument.
-/

namespace Wiring

open Vocabulary

namespace Environment

/-!
# From values to arguments
-/

def materializeWith (env : Environment)
    (instantiate : NodeId → (unique lazy : Bool) → Resolving (Option InstanceId))
    (onItems : List NodeId → Resolving Argument) (note : Note) (source : NodeId) :
    Resolving Argument := do
  match note.cast, note.literal, env.graph.term? source with
  | some cast, _, _ => return .literal cast
  | none, some l, _ => return .string l.value
  | none, none, none => throw (.nodeNotFound (env.graph.display source))
  | none, none, some (.literal l) => return .string l.value
  | none, none, some t =>
    match env.graph.list? source with
    | some items => onItems items
    | none =>
      if (Component.ofConfig? env.graph source).isSome then
        match ← instantiate source note.unique note.lazy with
        | some id => return .reference id
        | none => return .undefined
      else return .iri t.text

def materializeOccurrence (env : Environment)
    (instantiate : NodeId → (unique lazy : Bool) → Resolving (Option InstanceId))
    (onItems : List NodeId → Resolving Argument) (v : Occurrence) : Resolving Argument := do
  let note := (← get).notes.get v
  let a ← env.materializeWith instantiate onItems note v.source
  return if note.lazy then .lazy a else a

def materializeWithin (env : Environment)
    (instantiate : NodeId → (unique lazy : Bool) → Resolving (Option InstanceId)) :
    Nat → Occurrence → Resolving Argument
  | 0, v =>
    env.materializeOccurrence instantiate
      (fun _ => throw (.endless (env.graph.display v.source))) v
  | levels + 1, v =>
    env.materializeOccurrence instantiate
      (fun items => do
        let items ← items.mapM fun i => env.materializeWithin instantiate levels (.ofNode i)
        return .list items) v

/-- An occurrence as an argument. Lists that do not hold themselves are nested no deeper than there
are lists. -/
def materialize (env : Environment)
    (instantiate : NodeId → (unique lazy : Bool) → Resolving (Option InstanceId))
    (v : Occurrence) : Resolving Argument :=
  env.materializeWithin instantiate env.graph.lists.size v

def rawValue (env : Environment) (node : NodeId) : Argument :=
  match env.graph.literal? node with
  | some l => .string l.value
  | none => .string (env.graph.display node)

/-!
# From parameters to values
-/

def suppliedValues (env : Environment) (element : NodeId) (p : Parameter) : List Occurrence :=
  ((env.graph.objects element p.id).filter fun v => v ≠ element).map .ofNode

def parameterValues (env : Environment) (place : Place) (node : NodeId) :
    Walking (List Occurrence) := do
  let p ← Walking.ofExcept (Parameter.load env.graph node)
  let site := ⟨env.graph, env.supplied, place.root, place.element, p⟩
  Walking.ofPreparing (Stage.run site (env.suppliedValues place.element p))

def isNested (env : Environment) (node : NodeId) : Bool :=
  env.graph.has node Oo.fields || env.graph.has node Oo.elements

/-- The values behind a reference: those of a nested definition, the node itself if it is referred
to as it stands or is not named, and otherwise the values of the parameter that it names. -/
def referenceValues (env : Environment) (down : Descent) (place : Place) (reference : NodeId)
    (raw : Bool) : Walking Resolved := do
  if env.isNested reference then
    let assembled ← down.assemble place reference
    return .single assembled.toArgument
  else if raw || (env.graph.iri? reference).isNone then
    return .single (env.rawValue reference)
  else
    let values ← env.parameterValues place reference
    let notes := (← get).session.notes
    let unique := values.head?.any notes.isUnique
    let arguments ← Walking.ofResolving
      (values.mapM (env.materialize (down.instantiate place.active)))
    return ⟨arguments, unique⟩

end Environment
end Wiring
