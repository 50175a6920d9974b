import Wiring.Graph.Reach
import Wiring.Observed
import Wiring.Range.Merge

/-!
# Generic type parameters

What the generic type parameters of a component stand for while one of its
configurations is resolved.

A parameter in scope starts unbound.  It is bound by an explicit range or by the
first value that is checked against it; from then on every value has to satisfy
what it is bound to, and its range is only replaced by a merge with it.
-/

namespace Wiring

structure Generics where
  scope : List String
  /-- The ranges of the bound ones; each name stands at most once. -/
  bindings : List (String × Range)
  deriving Inhabited, Repr

inductive Rejection where
  | mismatch (report : Report)
  /-- The check of the generic type parameter is followed no further. -/
  | endless (generic : String)
  deriving Inhabited, Repr

def Rejection.within (wrap : Report → Report) : Rejection → Rejection
  | mismatch report => mismatch (wrap report)
  | endless generic => endless generic

/-- A check may bind generic type parameters, and what it has bound stays when it fails. -/
abbrev Checking (α : Type) := ExceptT Rejection (StateM Generics) α

namespace Checking

def refuse {α : Type} (report : Report) : Checking α :=
  throw (.mismatch report)

def within {α : Type} (wrap : Report → Report) (x : Checking α) : Checking α :=
  x.adapt (Rejection.within wrap)

def outcome {α : Type} (x : Checking α) : Checking (Except Report α) :=
  tryCatch (x >>= fun a => pure (.ok a)) fun
    | .mismatch report => pure (.error report)
    | .endless generic => throw (.endless generic)

end Checking

namespace Generics

def ofScope (scope : List String) : Generics :=
  ⟨scope, []⟩

def inScope (c : Generics) (name : String) : Bool :=
  c.scope.contains name

def binding? (c : Generics) (name : String) : Option Range :=
  c.bindings.lookup name

def setEntry (name : String) (r : Range) : List (String × Range) → List (String × Range)
  | [] => [(name, r)]
  | (k, v) :: others => if k = name then (k, r) :: others else (k, v) :: setEntry name r others

def assign (c : Generics) (name : String) (r : Range) : Generics :=
  { c with bindings := setEntry name r c.bindings }

def outOfScope (name : String) : Report :=
  (Report.ofText s!"Unknown generic type {name}").withText "generic" name

/-- What a value of the generic type parameter has to satisfy: nothing while it is unbound. -/
def requirement? (c : Generics) (name : String) : Except Report (Option Range) :=
  if c.inScope name then .ok (c.binding? name) else .error (outOfScope name)

/-!
# Binding to ranges
-/

def rangeConflict (name : String) (existing range : Range) (cause : Report) : Report :=
  ((Report.ofText (s!"Generic type {name} with existing range \"{existing.text}\" " ++
    s!"can not be bound to range \"{range.text}\"")).withText "generic" name).withCause cause

def bindRange (g : Graph) (c : Generics) (name : String) (range : Range) :
    Except Report Generics :=
  match c.requirement? name with
  | .error report => .error report
  | .ok none => .ok (c.assign name range)
  | .ok (some existing) =>
    match Range.merge g.isSubclassOf existing range with
    | .ok merged => .ok (c.assign name merged)
    | .error cause => .error (rangeConflict name existing range cause)

/-!
# Binding to values
-/

def valueConflict (name : String) (existing : Range) (value : String) (cause : Report) : Report :=
  (((Report.ofText (s!"Generic type {name} with existing range \"{existing.text}\" " ++
    s!"can not be bound to value \"{value}\"")).withText "generic" name).withText
      "range" existing.text).withCause cause

def inferFrom (g : Graph) (c : Generics) (name : String) (value : Observed) : Generics :=
  match value.inferredRange? g with
  | some r => c.assign name r
  | none => c

def narrowBy (g : Graph) (c : Generics) (name : String) (existing : Range) (value : Observed) :
    Generics :=
  match value.inferredRange? g with
  | none => c
  | some r =>
    match Range.merge g.isSubclassOf existing r with
    | .ok narrowed => c.assign name narrowed
    | .error _ => c

/-- Binds an unbound generic type parameter to the range of the value. A bound one keeps its range
if `validate` accepts it for the value, narrowed by the range of the value; the answer of `validate`
is the result. -/
def bindValue {α : Type} (g : Graph) (name : String) (value : Observed)
    (validate : Range → Checking α) : Checking (Option α) := do
  match (← get).requirement? name with
  | .error report => Checking.refuse report
  | .ok none =>
    modify fun c => c.inferFrom g name value
    return none
  | .ok (some existing) =>
    let answer ← (validate existing).within (valueConflict name existing (value.text g))
    modify fun c => c.narrowBy g name existing value
    return some answer

end Generics
end Wiring
