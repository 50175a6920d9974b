import Wiring.Generics.Instances
import Wiring.Parameter.Stage
import Wiring.Plan.Basic
import Wiring.Shape

/-!
# Sessions

What a resolution reads, what it writes, and the steps it is made of.

A session only grows: instances, shared instances and notes are added, and
an instance gets its arguments once they are resolved.  A step that fails leaves
behind what it has added.
-/

namespace Wiring

structure Environment where
  graph : Graph
  supplied : Variables
  /-- How deep definitions and instances may be nested in each other. -/
  depthLimit : Nat

structure Session where
  notes : Notes
  instances : Array Plan.Instance
  /-- The instance that a configuration shares with all that refer to it. -/
  shared : Std.TreeMap NodeId InstanceId
  deriving Inhabited

namespace Session

def empty : Session :=
  ⟨#[], #[], ∅⟩

def toPlan (s : Session) (root : InstanceId) : Plan :=
  ⟨root, s.instances⟩

def reserve (s : Session) (config component : String) : InstanceId × Session :=
  (s.instances.size, { s with instances := s.instances.push ⟨config, component, []⟩ })

def share (s : Session) (config : NodeId) (id : InstanceId) : Session :=
  { s with shared := s.shared.insert config id }

def setArguments (s : Session) (id : InstanceId) (arguments : List Argument) : Session :=
  { s with instances := s.instances.modify id fun x => { x with arguments := arguments } }

end Session

structure Frame where
  session : Session
  generics : Generics

abbrev Resolving (α : Type) := ExceptT Failure (StateM Session) α

abbrev Walking (α : Type) := ExceptT Failure (StateM Frame) α

namespace Walking

variable {α : Type}

def ofResolving (x : Resolving α) : Walking α :=
  ExceptT.mk do
    let frame ← get
    let (answer, session) := x.run.run frame.session
    set { frame with session := session }
    return answer

def ofPreparing (x : Preparing α) : Walking α :=
  ExceptT.mk do
    let frame ← get
    let (answer, bench) := x.run.run ⟨frame.session.notes, frame.generics⟩
    set (Frame.mk { frame.session with notes := bench.notes } bench.generics)
    return answer

def ofBinding (x : Generics.Binding α) : Walking α :=
  ExceptT.mk do
    let frame ← get
    let (answer, generics) := x.run.run frame.generics
    set { frame with generics := generics }
    return answer

def ofExcept (x : Except Failure α) : Walking α :=
  ExceptT.mk (return x)

def within (generics : Generics) (x : Walking α) : Resolving α :=
  ExceptT.mk do
    let (answer, frame) := x.run.run ⟨← get, generics⟩
    set frame.session
    return answer

end Walking

structure Place where
  /-- The configuration whose types decide on scoped defaults. -/
  root : NodeId
  element : NodeId
  active : List NodeId
  deriving Repr

structure Descent where
  assemble : Place → NodeId → Walking Assembled
  /-- Resolves a configuration to an instance, given the active ones; a unique instance is not
  shared. There is none for an active configuration, unless it is asked for lazily. -/
  instantiate : List NodeId → NodeId → (unique lazy : Bool) → Resolving (Option InstanceId)

end Wiring
