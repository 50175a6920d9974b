import Std.Data.TreeMap
import Wiring.Failure
import Wiring.Plan.Basic

/-!
# Building the instances of a plan

A builder makes one instance out of its component and its constructed arguments.
Construction asks it for every instance that the root needs, each once and after
the instances it needs itself.  What a lazy argument holds is passed on unbuilt.
-/

namespace Wiring

inductive Constructed (ι : Type) where
  | undefined
  | literal (value : Scalar)
  | iri (text : String)
  | built (object : ι)
  | lazy (inner : Argument)
  | list (items : List (Constructed ι))
  | map (entries : List (String × Constructed ι))
  deriving Inhabited

abbrev Builder (σ ι : Type) :=
  Plan.Instance → List (Constructed ι) → ExceptT Failure (StateM σ) ι

namespace Plan

structure Workshop (σ ι : Type) where
  world : σ
  built : Std.TreeMap InstanceId ι

abbrev Building (σ ι α : Type) := ExceptT Failure (StateM (Workshop σ ι)) α

variable {σ ι : Type}

def buildInstance (builder : Builder σ ι) (x : Instance) (arguments : List (Constructed ι)) :
    Building σ ι ι := do
  let shop ← get
  let (answer, world) := (builder x arguments).run shop.world
  set { shop with world := world }
  match answer with
  | .ok object => return object
  | .error failure => throw failure

/-!
# Arguments
-/

mutual

def constructWith (onReference : InstanceId → Building σ ι ι) :
    Argument → Building σ ι (Constructed ι)
  | .undefined => return .undefined
  | .literal value => return .literal value
  | .iri s => return .iri s
  | .reference id => do
    let object ← onReference id
    return .built object
  | .lazy inner => return .lazy inner
  | .list items => do
    let items ← constructAll onReference items
    return .list items
  | .map entries => do
    let entries ← constructEntries onReference entries
    return .map entries

def constructAll (onReference : InstanceId → Building σ ι ι) :
    List Argument → Building σ ι (List (Constructed ι))
  | [] => return []
  | a :: rest => do
    let a ← constructWith onReference a
    let rest ← constructAll onReference rest
    return a :: rest

def constructEntries (onReference : InstanceId → Building σ ι ι) :
    List (String × Argument) → Building σ ι (List (String × Constructed ι))
  | [] => return []
  | (key, a) :: rest => do
    let a ← constructWith onReference a
    let rest ← constructEntries onReference rest
    return (key, a) :: rest

end

/-!
# Instances
-/

def missing (id : InstanceId) : Failure :=
  .nodeNotFound ("instance " ++ Argument.instanceText id)

/-- Constructs an instance while those on `path` are under construction. At most `room` more can
be, since each stands on the path once. -/
def constructInstance (p : Plan) (builder : Builder σ ι) :
    Nat → List InstanceId → InstanceId → Building σ ι ι
  | room, path, id => do
    match (← get).built[id]? with
    | some object => return object
    | none =>
      match p.get? id with
      | none => throw (missing id)
      | some x =>
        match room with
        | 0 => throw (.cyclicReference x.config)
        | room + 1 =>
          if path.contains id then throw (.cyclicReference x.config)
          let arguments ← constructAll (constructInstance p builder room (id :: path)) x.arguments
          let object ← buildInstance builder x arguments
          modify fun shop => { shop with built := shop.built.insert id object }
          return object

def startingFrom {α : Type} (x : Building σ ι α) : ExceptT Failure (StateM σ) α :=
  ExceptT.mk do
    let (answer, shop) := x.run.run ⟨← get, ∅⟩
    set shop.world
    return answer

def construct (p : Plan) (builder : Builder σ ι) : ExceptT Failure (StateM σ) ι :=
  startingFrom (constructInstance p builder (p.instances.size + 1) [] p.root)

def constructArgument (p : Plan) (builder : Builder σ ι) (a : Argument) :
    ExceptT Failure (StateM σ) (Constructed ι) :=
  startingFrom (constructWith (constructInstance p builder (p.instances.size + 1) []) a)

end Plan
end Wiring
