import Wiring.CommandLine.Invocation
import Wiring.Graph.Reader
import Wiring.Plan.Tree
import Wiring.Resolution.Walk
import Wiring.Settings

/-!
# Carrying out commands

What each command answers, given the contents of files.
-/

namespace Wiring

inductive FileFault where
  | missing (reason : String)
  | unreadable (reason : String)
  deriving Repr

abbrev Files := String → Except FileFault String

structure Output where
  text : String
  success : Bool
  deriving DecidableEq, Repr

namespace CommandLine

def readGraph (files : Files) (path : String) : Except Failure Graph :=
  match files path with
  | .ok text => Graph.importText text
  | .error (.missing reason) => .error (.io s!"Cannot read file metadata: {reason}")
  | .error (.unreadable reason) => .error (.io s!"Cannot read '{path}': {reason}")

def readSettings (files : Files) : Option String → Except Failure Settings
  | none => .ok .default
  | some path =>
    match files path with
    | .ok text => Settings.ofToml text
    | .error (.missing reason) | .error (.unreadable reason) =>
      .error (.io s!"Cannot read settings '{path}': {reason}")

def environment (s : Settings) (g : Graph) : Environment :=
  ⟨g, s.literals, s.depthLimit⟩

def overridden (s : Settings) (overrides : List String) : Except Failure Settings :=
  let (answer, s) := s.applyOverrides overrides
  answer.map fun _ => s

/-!
# Resolving one configuration
-/

def planIri (env : Environment) (iri : String) : Except Failure Plan :=
  let (answer, session) := (env.resolveIri iri).run.run Session.empty
  answer.map session.toPlan

def renderResolution (json expand : Bool) (p : Plan) : Except Failure String := do
  if expand then
    let tree ← p.tree
    return if json then tree.pretty else tree.compact
  else return if json then p.toJson.pretty else p.render

/-!
# Checking all configurations
-/

structure CheckFailure where
  config : String
  failure : Failure

structure CheckReport where
  checked : Nat
  failures : List CheckFailure

def checkConfig (env : Environment) (config : NodeId) : Option CheckFailure :=
  match env.plan config with
  | .ok _ => none
  | .error failure => some ⟨env.graph.display config, failure⟩

def checkAll (env : Environment) : CheckReport :=
  let configs := Component.configurations env.graph
  ⟨configs.length, configs.filterMap (checkConfig env)⟩

def CheckFailure.toJson (f : CheckFailure) : Json :=
  .obj [
    ("config", .str f.config),
    ("error", .str f.failure.message),
    ("report", f.failure.report.toJson)]

def CheckReport.toJson (r : CheckReport) : Json :=
  .obj [("checked", .int r.checked), ("failures", .arr (r.failures.map CheckFailure.toJson))]

def CheckFailure.line (f : CheckFailure) : String :=
  "\n  " ++ f.config ++ ": " ++ f.failure.message

def CheckReport.text (r : CheckReport) : String :=
  s!"Checked {r.checked} configurations: {r.failures.length} failed" ++
    String.join (r.failures.map CheckFailure.line)

def CheckReport.output (json : Bool) (r : CheckReport) : Output :=
  ⟨if json then r.toJson.pretty else r.text, r.failures.isEmpty⟩

/-!
# Listing components
-/

def listed (g : Graph) : Except Failure (List Component) :=
  let nodes := (List.range g.size).filter fun id =>
    (g.iri? id).isSome && Component.isComponent g id
  nodes.mapM (Component.load g)

def componentJson (g : Graph) (c : Component) : Json :=
  .obj [
    ("component", .str c.id),
    ("kind", .str c.kind.text),
    ("generic_type_parameters", .arr (c.generics.map .str)),
    ("parameters", .arr (c.parameters.map fun p => .str (g.display p)))]

def componentText (g : Graph) (c : Component) : String :=
  let generics := if c.generics.isEmpty then "" else "<" ++ ", ".intercalate c.generics ++ ">"
  c.id ++ generics ++ " (" ++ c.kind.text ++ ")\n" ++
    String.join (c.parameters.map fun p => "  - " ++ g.display p ++ "\n")

def renderComponents (json : Bool) (g : Graph) (cs : List Component) : String :=
  if json then (Json.arr (cs.map (componentJson g))).pretty
  else Text.trimEnd (String.join (cs.map (componentText g)))

/-!
# Execution
-/

def run (files : Files) (json : Bool) (s : Settings) : Command → Except Failure Output
  | .resolve path config overrides expand => do
    let s ← overridden s overrides
    let g ← readGraph files path
    let p ← planIri (environment s g) config
    let text ← renderResolution json expand p
    return ⟨text, true⟩
  | .check path overrides => do
    let s ← overridden s overrides
    let g ← readGraph files path
    return (checkAll (environment s g)).output json
  | .components path => do
    let g ← readGraph files path
    let cs ← listed g
    return ⟨renderComponents json g cs, true⟩

def execute (files : Files) (inv : Invocation) : Except Failure Output := do
  let s ← readSettings files inv.settings
  run files inv.json s inv.command

end CommandLine
end Wiring
