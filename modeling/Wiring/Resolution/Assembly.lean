import Wiring.Resolution.Values

/-!
# Assembling constructor arguments

What each shape of a constructor argument definition makes of the values behind
its references.
-/

namespace Wiring

open Vocabulary

namespace Environment

def shapeFailure (env : Environment) (node : NodeId) (message : String) : Failure :=
  .shape (env.graph.display node) message

/-!
# Elements
-/

def elementValues (env : Environment) (down : Descent) (place : Place) (entry : NodeId) :
    Walking (List Argument) := do
  let g := env.graph
  if env.isNested entry || g.has entry Oo.collectEntries then
    match ← down.assemble place entry with
    | .value a => return [a]
    | .values arguments => return arguments
    | .positional arguments => return arguments
    | .resolved r => return r.values
    | .entries _ => throw (env.shapeFailure entry "Illegal keyed entry inside elements")
  else if (g.iri? entry).isSome then
    return (← env.referenceValues down place entry false).values
  else
    match g.object? entry Rdf.value, g.object? entry Oo.valueRawReference with
    | some value, _ => return (← env.referenceValues down place value false).values
    | none, some value => return (← env.referenceValues down place value true).values
    | none, none =>
      throw (env.shapeFailure entry
        "Illegal elements entry: must be a reference or have a value or valueRawReference")

def elementEntries? (env : Environment) (node : NodeId) : Option (List NodeId) :=
  match env.graph.objects node Oo.elements with
  | [single] => env.graph.list? single
  | _ => none

def assembleElements (env : Environment) (down : Descent) (place : Place) (node : NodeId) :
    Walking Assembled := do
  match env.elementEntries? node with
  | none => throw (env.shapeFailure node "Illegal non-RDF-list elements")
  | some entries =>
    let values ← entries.mapM (env.elementValues down place)
    return .value (.list values.flatten)

/-!
# Fields
-/

def mapEntries? (values : List Argument) : Option (List (String × Argument)) :=
  (values.mapM Argument.entries?).map List.flatten

def fieldEntries (env : Environment) (down : Descent) (place : Place) (field : NodeId) :
    Walking (List (String × Argument)) := do
  let ofValues (values : List Argument) : Walking (List (String × Argument)) :=
    match mapEntries? values with
    | some entries => return entries
    | none => throw (env.shapeFailure field "Illegal fields entry without key")
  match ← down.assemble place field with
  | .entries entries => return entries
  | .value (.map entries) => return entries
  | .values values => ofValues values
  | .resolved r => ofValues r.values
  | .value _ | .positional _ =>
    throw (env.shapeFailure field "Illegal fields entry: expected a keyed entry")

/-- The fields of a fields definition: the one field that it names, or the items of the one list. -/
def fieldNodes? (env : Environment) (node : NodeId) : Option (List NodeId) :=
  match env.graph.objects node Oo.fields with
  | [single] => some ((env.graph.list? single).getD [single])
  | _ => none

def assembleFields (env : Environment) (down : Descent) (place : Place) (node : NodeId) :
    Walking Assembled := do
  match env.fieldNodes? node with
  | none => throw (env.shapeFailure node "Detected more than one fields value")
  | some fields =>
    let entries ← fields.mapM (env.fieldEntries down place)
    return .value (.map entries.flatten)

/-!
# Lists
-/

def positionalArgument (env : Environment) (down : Descent) (place : Place) (item : NodeId) :
    Walking Argument := do
  if (env.graph.iri? item).isSome && !env.isNested item then
    return (← env.referenceValues down place item false).collapse
  else
    return (← down.assemble place item).toArgument

def assembleList (env : Environment) (down : Descent) (place : Place) (node : NodeId) :
    Walking Assembled := do
  let arguments ← ((env.graph.list? node).getD []).mapM (env.positionalArgument down place)
  return .positional arguments

/-!
# Collected entries
-/

def valueReference? (env : Environment) (node : NodeId) : Option (NodeId × Bool) :=
  match env.graph.object? node Rdf.value, env.graph.object? node Oo.valueRawReference with
  | some value, _ => some (value, false)
  | none, some value => some (value, true)
  | none, none => none

/-- The key of a collected entry: the literal itself, or the first value of the parameter that is
named for the key. -/
def entryKey (env : Environment) (place : Place) (reference : NodeId) : Walking String := do
  match env.graph.literal? reference with
  | some l => return l.value
  | none =>
    match ← env.parameterValues place reference with
    | [] => throw (env.shapeFailure place.element "Missing key for collected entry")
    | key :: _ =>
      match (← get).session.notes.observe env.graph key with
      | .literal l => return l.value
      | _ => return env.graph.display key.source

def collectedValue (env : Environment) (down : Descent) (place : Place) (node : NodeId)
    (source : Occurrence) : Walking Argument := do
  match env.valueReference? node with
  | some (reference, raw) => return (← env.referenceValues down place reference raw).collapse
  | none => Walking.ofResolving (env.materialize (down.instantiate place.active) source)

/-- Collects an entry for each value of a parameter. Its references are read from the value. -/
def collectEntries (env : Environment) (down : Descent) (place : Place) (node collected : NodeId) :
    Walking Assembled := do
  let sources ← env.parameterValues place collected
  match env.graph.object? node Oo.key with
  | none =>
    let values ← sources.mapM fun source =>
      env.collectedValue down { place with element := source.source } node source
    return .values values
  | some reference =>
    let entries ← sources.mapM fun source => do
      let place := { place with element := source.source }
      let value ← env.collectedValue down place node source
      let key ← env.entryKey place reference
      return (key, value)
    return .entries entries

/-!
# Keys and values
-/

def literalKey? (env : Environment) (node : NodeId) : Except Failure (Option String) :=
  match env.graph.object? node Oo.key with
  | none => .ok none
  | some key =>
    match env.graph.literal? key with
    | some l => .ok (some l.value)
    | none =>
      .error (env.shapeFailure node ("Illegal IRI object key " ++ env.graph.display key))

def keyedEntry (key : String) (r : Resolved) : List (String × Argument) :=
  if r.values.isEmpty then [] else [(key, r.collapse)]

def assembleKeyValue (env : Environment) (down : Descent) (place : Place) (node : NodeId) :
    Walking Assembled := do
  match env.graph.object? node Oo.collectEntries with
  | some collected => env.collectEntries down place node collected
  | none =>
    let key ← Walking.ofExcept (env.literalKey? node)
    match env.valueReference? node with
    | none => throw (env.shapeFailure node "Missing value or valueRawReference")
    | some (reference, raw) =>
      let r ← env.referenceValues down place reference raw
      match key with
      | some key => return .entries (keyedEntry key r)
      | none => return .resolved r

def assembleShape (env : Environment) (down : Descent) (place : Place) (node : NodeId) :
    Walking Assembled :=
  match Shape.of env.graph node with
  | .elements => env.assembleElements down place node
  | .fields => env.assembleFields down place node
  | .list => env.assembleList down place node
  | .keyValue => env.assembleKeyValue down place node

end Environment
end Wiring
