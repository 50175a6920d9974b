import Wiring.Occurrence
import Wiring.Parameter
import Wiring.Range.Check

/-!
# Stages of a parameter

The values of a parameter pass through eight stages on their way to a
constructor.  A stage that applies to the values left by the stage before it
replaces them; the others leave them as they are.
-/

namespace Wiring

open Vocabulary

abbrev Variables := Std.TreeMap String Literal

structure Workbench where
  notes : Notes
  generics : Generics

structure Site where
  graph : Graph
  supplied : Variables
  /-- The configuration whose types decide on scoped defaults. -/
  root : NodeId
  /-- The node that the values belong to. -/
  element : NodeId
  parameter : Parameter

abbrev Preparing (α : Type) := ExceptT Failure (StateM Workbench) α

def Preparing.annotate (v : Occurrence) (edit : Note → Note) : Preparing Occurrence :=
  modifyGet fun bench =>
    let r := bench.notes.annotate v edit
    (r.1, { bench with notes := r.2 })

inductive Stage where
  | scopedDefaults
  | defaults
  | fixed
  | substitution
  | range
  | lazy
  | unique
  | required
  deriving DecidableEq, Repr

namespace Stage

def all : List Stage :=
  [scopedDefaults, defaults, fixed, substitution, range, lazy, unique, required]

def applies (stage : Stage) (p : Parameter) (values : List Occurrence) : Bool :=
  match stage with
  | scopedDefaults => values.isEmpty && !p.scopedDefaults.isEmpty
  | defaults => values.isEmpty && !p.defaults.isEmpty
  | fixed => !p.fixed.isEmpty
  | substitution => !values.isEmpty
  | range => p.range.isSome && !values.isEmpty
  | lazy => p.lazy && !values.isEmpty
  | unique => p.unique && !values.isEmpty
  | required => p.required && values.isEmpty

/-!
# Defaults
-/

/-- The values of a scoped default, which count if the root has one of the types in its scope. -/
def scopedValues (site : Site) (entry : NodeId) : Except Failure (List NodeId) :=
  let g := site.graph
  let scopes := g.objects entry Oo.defaultScope
  let values := g.objects entry Oo.defaultScopedValue
  if scopes.isEmpty then
    .error (.definition site.parameter.id "Invalid defaultScoped value: missing defaultScope")
  else if values.isEmpty then
    .error (.definition site.parameter.id
      "Invalid defaultScoped value: missing defaultScopedValue")
  else if (scopes.filterMap g.iri?).any (g.isA site.root) then .ok values
  else .ok []

def applyScopedDefaults (site : Site) (values : List Occurrence) :
    Except Failure (List Occurrence) := do
  let added ← site.parameter.scopedDefaults.mapM (scopedValues site)
  return values ++ added.flatten.map .ofNode

/-!
# Variables
-/

def substitute (site : Site) (v : Occurrence) : Preparing Occurrence :=
  if site.graph.isA v.source Om.variableType then
    let name := site.graph.display v.source
    match site.supplied[name]? with
    | some l => Preparing.annotate v fun note => { note with literal := some l }
    | none => throw (.undefinedVariable name)
  else return v

/-!
# Ranges
-/

def refusal (site : Site) (r : Range) (value : Observed) : Rejection → Failure
  | .endless generic => .endless generic
  | .mismatch report =>
    match value, r with
    | .literal l, .literal datatype => .invalidLiteral l.value datatype site.parameter.id
    | _, _ => .rangeConflict site.parameter.id report

def checkValue (site : Site) (r : Range) (v : Occurrence) : Preparing Occurrence := do
  let bench ← get
  let value := bench.notes.observe site.graph v
  let (answer, generics) := (Range.check site.graph value r).run bench.generics
  set { bench with generics := generics }
  match answer with
  | .ok none => return v
  | .ok (some cast) => Preparing.annotate v fun note => { note with cast := some cast }
  | .error rejection => throw (refusal site r value rejection)

/-!
# Application
-/

def apply (site : Site) (stage : Stage) (values : List Occurrence) :
    Preparing (List Occurrence) :=
  let p := site.parameter
  match stage with
  | scopedDefaults => liftExcept (applyScopedDefaults site values)
  | defaults => return p.defaults.map .ofNode
  | fixed => return values ++ p.fixed.map .ofNode
  | substitution => values.mapM (substitute site)
  | range =>
    match p.range with
    | some r => values.mapM (checkValue site r)
    | none => return values
  | lazy => values.mapM fun v => Preparing.annotate v fun note => { note with lazy := true }
  | unique =>
    (values.take 1).mapM fun v => Preparing.annotate v fun note => { note with unique := true }
  | required => throw (.missingValue p.id (site.graph.display site.element))
where
  liftExcept {α : Type} : Except Failure α → Preparing α
    | .ok a => return a
    | .error failure => throw failure

def step (site : Site) (values : List Occurrence) (stage : Stage) :
    Preparing (List Occurrence) :=
  if stage.applies site.parameter values then stage.apply site values else return values

def run (site : Site) (values : List Occurrence) : Preparing (List Occurrence) :=
  all.foldlM (step site) values

end Stage
end Wiring
