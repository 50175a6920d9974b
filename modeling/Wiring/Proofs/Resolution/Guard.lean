import Wiring.Proofs.Lockstep
import Wiring.Resolution.Walk

/-!
# Guarded walks

A walk can be told what is in progress and how deep it is, or it can keep both in
its state.  A guarded walk keeps them: it changes the state before it goes deeper,
and has to put it back afterwards, whether or not it has failed in between.
-/

namespace Wiring

/-- The configurations that are being resolved, each of them once, and how deep the walk is. -/
structure Guard where
  active : List NodeId
  depth : Nat
  deriving DecidableEq, Repr

namespace Guard

def idle : Guard :=
  ⟨[], 0⟩

def enter (k : Guard) (config : NodeId) : Guard :=
  { k with active := k.active.insert config }

def leave (k : Guard) (config : NodeId) : Guard :=
  { k with active := k.active.erase config }

def down (k : Guard) : Guard :=
  { k with depth := k.depth + 1 }

def up (k : Guard) : Guard :=
  { k with depth := k.depth - 1 }

theorem up_down (k : Guard) : k.down.up = k := rfl

theorem leave_enter {k : Guard} {config : NodeId} (h : config ∉ k.active) :
    (k.enter config).leave config = k := by
  rw [enter, leave, List.insert_of_not_mem h, List.erase_cons_head]

theorem active_enter {k : Guard} {config : NodeId} (h : config ∉ k.active) :
    (k.enter config).active = config :: k.active :=
  List.insert_of_not_mem h

end Guard

/-!
# Steps with a guard
-/

abbrev Guarded (σ α : Type) := ExceptT Failure (StateM (σ × Guard)) α

namespace Guarded

variable {σ α : Type}

def lift (x : ExceptT Failure (StateM σ) α) : Guarded σ α :=
  ExceptT.mk do
    let (s, k) ← get
    let (answer, s) := x.run.run s
    set (s, k)
    return answer

def ofResolving (x : Guarded Session α) : Guarded Frame α :=
  ExceptT.mk do
    let (frame, k) ← get
    let (answer, session, k) := x.run.run (frame.session, k)
    set (({ frame with session := session } : Frame), k)
    return answer

def within (generics : Generics) (x : Guarded Frame α) : Guarded Session α :=
  ExceptT.mk do
    let (s, k) ← get
    let (answer, frame, k) := x.run.run (⟨s, generics⟩, k)
    set (frame.session, k)
    return answer

/-- Changes the guard for the time of a step, and puts it back also if the step fails. -/
def between (first : Guard → Guard) (x : Guarded σ α) (last : Guard → Guard) : Guarded σ α :=
  ExceptT.mk do
    modify fun s => (s.1, first s.2)
    let answer ← x.run
    modify fun s => (s.1, last s.2)
    return answer

def guard : Guarded σ Guard :=
  Prod.snd <$> get

def descend (env : Environment) (node : NodeId) (x : Guarded σ α) : Guarded σ α := do
  if env.depthLimit ≤ (← guard).depth then throw (env.depthFailure node)
  else between .down x .up

structure Descent where
  assemble : (root element node : NodeId) → Guarded Frame Assembled
  instantiate : NodeId → (unique lazy : Bool) → Guarded Session (Option InstanceId)

/-!
# From values to arguments
-/

variable (env : Environment)

section Materialize

variable (instantiate : NodeId → (unique lazy : Bool) → Guarded Session (Option InstanceId))

def materializeWith (onItems : List NodeId → Guarded Session Argument) (note : Note)
    (source : NodeId) : Guarded Session Argument := do
  match note.cast, note.literal, env.graph.term? source with
  | some cast, _, _ => return .literal cast
  | none, some l, _ => return .string l.value
  | none, none, none => throw (.nodeNotFound (env.graph.display source))
  | none, none, some (.literal l) => return .string l.value
  | none, none, some t =>
    match env.graph.list? source with
    | some items => onItems items
    | none =>
      if (Component.ofConfig? env.graph source).isSome then
        match ← instantiate source note.unique note.lazy with
        | some id => return .reference id
        | none => return .undefined
      else return .iri t.text

def materializeOccurrence (onItems : List NodeId → Guarded Session Argument) (v : Occurrence) :
    Guarded Session Argument := do
  let note := (← lift get).notes.get v
  let a ← materializeWith env instantiate onItems note v.source
  return if note.lazy then .lazy a else a

def materializeWithin : Nat → Occurrence → Guarded Session Argument
  | 0, v =>
    materializeOccurrence env instantiate
      (fun _ => throw (.endless (env.graph.display v.source))) v
  | levels + 1, v =>
    materializeOccurrence env instantiate
      (fun items => do
        let items ← items.mapM fun i => materializeWithin levels (.ofNode i)
        return .list items) v

def materialize (v : Occurrence) : Guarded Session Argument :=
  materializeWithin env instantiate env.graph.lists.size v

end Materialize

/-!
# Definitions
-/

section Assemble

variable (down : Descent) (root element : NodeId)

def referenceValues (reference : NodeId) (raw : Bool) : Guarded Frame Resolved := do
  if env.isNested reference then
    let assembled ← down.assemble root element reference
    return .single assembled.toArgument
  else if raw || (env.graph.iri? reference).isNone then
    return .single (env.rawValue reference)
  else
    let values ← lift (env.parameterValues ⟨root, element, []⟩ reference)
    let notes := (← lift get).session.notes
    let unique := values.head?.any notes.isUnique
    let arguments ← ofResolving (values.mapM (materialize env down.instantiate))
    return ⟨arguments, unique⟩

def elementValues (entry : NodeId) : Guarded Frame (List Argument) := do
  let g := env.graph
  if env.isNested entry || g.has entry Vocabulary.Oo.collectEntries then
    match ← down.assemble root element entry with
    | .value a => return [a]
    | .values arguments => return arguments
    | .positional arguments => return arguments
    | .resolved r => return r.values
    | .entries _ => throw (env.shapeFailure entry "Illegal keyed entry inside elements")
  else if (g.iri? entry).isSome then
    return (← referenceValues env down root element entry false).values
  else
    match g.object? entry Vocabulary.Rdf.value, g.object? entry Vocabulary.Oo.valueRawReference with
    | some value, _ => return (← referenceValues env down root element value false).values
    | none, some value => return (← referenceValues env down root element value true).values
    | none, none =>
      throw (env.shapeFailure entry
        "Illegal elements entry: must be a reference or have a value or valueRawReference")

def assembleElements (node : NodeId) : Guarded Frame Assembled := do
  match env.elementEntries? node with
  | none => throw (env.shapeFailure node "Illegal non-RDF-list elements")
  | some entries =>
    let values ← entries.mapM (elementValues env down root element)
    return .value (.list values.flatten)

def fieldEntries (field : NodeId) : Guarded Frame (List (String × Argument)) := do
  let ofValues (values : List Argument) : Guarded Frame (List (String × Argument)) :=
    match Environment.mapEntries? values with
    | some entries => return entries
    | none => throw (env.shapeFailure field "Illegal fields entry without key")
  match ← down.assemble root element field with
  | .entries entries => return entries
  | .value (.map entries) => return entries
  | .values values => ofValues values
  | .resolved r => ofValues r.values
  | .value _ | .positional _ =>
    throw (env.shapeFailure field "Illegal fields entry: expected a keyed entry")

def assembleFields (node : NodeId) : Guarded Frame Assembled := do
  match env.fieldNodes? node with
  | none => throw (env.shapeFailure node "Detected more than one fields value")
  | some fields =>
    let entries ← fields.mapM (fieldEntries env down root element)
    return .value (.map entries.flatten)

def positionalArgument (item : NodeId) : Guarded Frame Argument := do
  if (env.graph.iri? item).isSome && !env.isNested item then
    return (← referenceValues env down root element item false).collapse
  else
    return (← down.assemble root element item).toArgument

def assembleList (node : NodeId) : Guarded Frame Assembled := do
  let arguments ← ((env.graph.list? node).getD []).mapM (positionalArgument env down root element)
  return .positional arguments

def collectedValue (node : NodeId) (source : Occurrence) : Guarded Frame Argument := do
  match env.valueReference? node with
  | some (reference, raw) => return (← referenceValues env down root element reference raw).collapse
  | none => ofResolving (materialize env down.instantiate source)

def collectEntries (node collected : NodeId) : Guarded Frame Assembled := do
  let sources ← lift (env.parameterValues ⟨root, element, []⟩ collected)
  match env.graph.object? node Vocabulary.Oo.key with
  | none =>
    let values ← sources.mapM fun source =>
      collectedValue env down root source.source node source
    return .values values
  | some reference =>
    let entries ← sources.mapM fun source => do
      let value ← collectedValue env down root source.source node source
      let key ← lift (env.entryKey ⟨root, source.source, []⟩ reference)
      return (key, value)
    return .entries entries

def assembleKeyValue (node : NodeId) : Guarded Frame Assembled := do
  match env.graph.object? node Vocabulary.Oo.collectEntries with
  | some collected => collectEntries env down root element node collected
  | none =>
    let key ← lift (Walking.ofExcept (env.literalKey? node))
    match env.valueReference? node with
    | none => throw (env.shapeFailure node "Missing value or valueRawReference")
    | some (reference, raw) =>
      let r ← referenceValues env down root element reference raw
      match key with
      | some key => return .entries (Environment.keyedEntry key r)
      | none => return .resolved r

def assembleShape (node : NodeId) : Guarded Frame Assembled :=
  match Shape.of env.graph node with
  | .elements => assembleElements env down root element node
  | .fields => assembleFields env down root element node
  | .list => assembleList env down root element node
  | .keyValue => assembleKeyValue env down root element node

end Assemble

/-!
# Instances
-/

def resolveArguments (down : Descent) (config : NodeId) (component : Component) :
    Guarded Session (List Argument) :=
  within (Generics.forComponent component) do
    let instances := env.graph.ordered config Vocabulary.Oo.genericTypeInstances
    lift (Walking.ofBinding (Generics.bindInstances env.graph component instances))
    match component.arguments with
    | none => return []
    | some node => return (← down.assemble config config node).toPositional

def newInstance (down : Descent) (config : NodeId) (unique : Bool) :
    Guarded Session InstanceId := do
  match Component.forConfig env.graph config with
  | .error failure => throw failure
  | .ok component =>
    let id ← lift (modifyGet fun s => s.reserve (env.graph.display config) component.id)
    unless unique do lift (modify fun s => s.share config id)
    let resolved ← between (·.enter config)
      (descend env config (resolveArguments env down config component)) (·.leave config)
    lift (modify fun s => s.setArguments id resolved)
    return id

def instantiateWith (down : Descent) (config : NodeId) (unique lazy : Bool) :
    Guarded Session (Option InstanceId) := do
  let shared := (← lift get).shared[config]?
  if (← guard).active.contains config then return if lazy then shared else none
  else
    match unique, shared with
    | false, some id => return some id
    | _, _ => return some (← newInstance env down config unique)

/-- The guarded walk. It fails with `violation` if it goes deeper than `levels` times. -/
def walk (violation : Failure) : (levels : Nat) → Descent
  | 0 => ⟨fun _ _ _ => throw violation, fun _ _ _ => throw violation⟩
  | levels + 1 =>
    let down := walk violation levels
    ⟨fun root element node => descend env node (assembleShape env down root element node),
      instantiateWith env down⟩

end Guarded
end Wiring
