import Wiring.Argument
import Wiring.Text.Blank

/-!
# Plans

The instances that a configuration needs, each with the arguments of its
constructor.
-/

namespace Wiring

structure Plan.Instance where
  config : String
  component : String
  arguments : List Argument
  deriving Inhabited, Repr

structure Plan where
  root : InstanceId
  instances : Array Plan.Instance
  deriving Inhabited, Repr

namespace Plan

def get? (p : Plan) (id : InstanceId) : Option Instance :=
  p.instances[id]?

/-!
# Text
-/

def argumentLine (argument : Argument × Nat) : String :=
  s!"  {argument.2}: {argument.1.text}\n"

def instanceLines (root : InstanceId) (entry : Instance × InstanceId) : String :=
  s!"#{entry.2} {entry.1.config} : {entry.1.component}" ++
    (if entry.2 = root then " (root)" else "") ++ "\n" ++
    String.join (entry.1.arguments.zipIdx.map argumentLine)

def render (p : Plan) : String :=
  Text.trimEnd (String.join (p.instances.toList.zipIdx.map (instanceLines p.root)))

/-!
# JSON form
-/

def Instance.toJson (x : Instance) : Json :=
  .obj [
    ("config", .str x.config),
    ("component", .str x.component),
    ("arguments", .arr (x.arguments.map Argument.toJson))]

def toJson (p : Plan) : Json :=
  .obj [
    ("root", .int p.root),
    ("instances", .arr (p.instances.toList.map Instance.toJson))]

end Plan
end Wiring
