import Wiring.Report

/-!
# Failures

Every way in which reading, resolving or building can fail, with its message and
its report.
-/

namespace Wiring

inductive Failure where
  | shape (node message : String)
  | definition (node message : String)
  | missingValue (parameter config : String)
  | invalidLiteral (value range parameter : String)
  | rangeConflict (parameter : String) (report : Report)
  | undefinedVariable (name : String)
  | genericArity (component : String) (expected actual : Nat)
  | genericBinding (generic component : String) (report : Report)
  | notAComponent (node : String)
  | nodeNotFound (node : String)
  | cyclicReference (node : String)
  | depthExceeded (limit : Nat) (node : String)
  | instantiation (reason : String)
  | serialization (reason : String)
  | deserialization (reason : String)
  | io (reason : String)
  /-- A list holds itself, or a check follows generic type parameters without an end. -/
  | endless (subject : String)
  deriving Inhabited, Repr

namespace Failure

def summary : Failure → String
  | shape node message => s!"Invalid constructor arguments at {node}: {message}"
  | definition node message => s!"Invalid definition of {node}: {message}"
  | missingValue parameter config =>
    s!"Required parameter missing: no value for \"{parameter}\" in config \"{config}\""
  | invalidLiteral value range parameter =>
    s!"Parameter value \"{value}\" is not of required range type \"{range}\" " ++
      s!"for parameter \"{parameter}\""
  | rangeConflict parameter _ =>
    s!"The value for parameter \"{parameter}\" does not match its range"
  | undefinedVariable name => s!"Undefined variable: {name}"
  | genericArity component expected actual =>
    s!"Invalid generic type instantiation: component \"{component}\" declares {expected} " ++
      s!"generic type parameters, but {actual} were given"
  | genericBinding generic component _ =>
    s!"Invalid binding for generic type {generic} of component \"{component}\""
  | notAComponent node => s!"Config \"{node}\" does not instantiate a known component"
  | nodeNotFound node => s!"Node not found: {node}"
  | cyclicReference node => s!"Cyclic reference to {node}"
  | depthExceeded limit node => s!"Resolution depth limit {limit} exceeded at {node}"
  | instantiation reason => s!"Instantiation failed: {reason}"
  | serialization reason => s!"Serialization error: {reason}"
  | deserialization reason => s!"Deserialization error: {reason}"
  | io reason => s!"I/O error: {reason}"
  | endless subject => s!"Endless nesting at {subject}"

def wrapped? : Failure → Option Report
  | rangeConflict _ report => some report
  | genericBinding _ _ report => some report
  | _ => none

def message (f : Failure) : String :=
  match f.wrapped? with
  | some report => f.summary ++ ": " ++ report.description
  | none => f.summary

def context (f : Failure) (r : Report) : Report :=
  match f with
  | shape node _ | definition node _ => r.withText "node" node
  | missingValue parameter config =>
    (r.withText "parameter" parameter).withText "config" config
  | invalidLiteral value range parameter =>
    ((r.withText "value" value).withText "range" range).withText "parameter" parameter
  | rangeConflict parameter _ => r.withText "parameter" parameter
  | undefinedVariable name => r.withText "variable" name
  | genericArity component expected actual =>
    ((r.withText "component" component).withCount "expected" expected).withCount "actual" actual
  | genericBinding generic component _ =>
    (r.withText "generic" generic).withText "component" component
  | notAComponent node | nodeNotFound node | cyclicReference node | endless node =>
    r.withText "node" node
  | depthExceeded limit node => (r.withCount "limit" limit).withText "node" node
  | instantiation _ | serialization _ | deserialization _ | io _ => r

/-- The failure as a report. A wrapped report becomes its only cause. -/
def report (f : Failure) : Report :=
  (f.context (Report.ofText f.summary)).withCauses f.wrapped?.toList

end Failure
end Wiring
