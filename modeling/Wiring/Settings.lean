import Std.Data.TreeMap
import Wiring.Failure
import Wiring.Term
import Wiring.Toml.Document

/-!
# Settings

The values of variables and the depth limit that a resolution is run with.  They
come from a TOML document, and variables may be overridden one by one; overrides
before a malformed one stay.
-/

namespace Wiring

structure Settings where
  supplied : Std.TreeMap String String
  depthLimit : Nat
  deriving Inhabited

namespace Settings

def defaultDepthLimit : Nat := 256

def default : Settings :=
  ⟨∅, defaultDepthLimit⟩

/-!
# Settings in TOML
-/

/-- The key under which a date stands for a table with the text of the date. -/
def datetimeKey : String := "$__toml_private_datetime"

def variableOf? : String × Toml.Value → Option (String × String)
  | (name, .string value) => some (name, value)
  | _ => none

def variablesOf? : Toml.Value → Option (List (String × String))
  | .table _ fields => fields.mapM variableOf?
  | .datetime text => some [(datetimeKey, text)]
  | _ => none

def limitOf? : Toml.Value → Option Nat
  | .integer (some n) => if 0 ≤ n ∧ n < 18446744073709551616 then some n.toNat else none
  | _ => none

def limitField? : String × Toml.Value → Option Nat
  | (name, value) => if name = "max_depth" then limitOf? value else none

/-- The depth limit of a table with no other field, or of an array that begins with it. -/
def resolverOf? : Toml.Value → Option Nat
  | .table _ fields => (fields.mapM limitField?).map fun limits => limits.headD defaultDepthLimit
  | .array [] => some defaultDepthLimit
  | .array (limit :: _) => limitOf? limit
  | _ => none

def addSection? (s : Settings) : String × Toml.Value → Option Settings
  | (name, value) =>
    if name = "variables" then
      (variablesOf? value).map fun fields => { s with supplied := .ofList fields }
    else if name = "resolver" then
      (resolverOf? value).map fun limit => { s with depthLimit := limit }
    else none

/-- The settings of a document. A depth limit of zero is refused. -/
def ofToml (text : String) : Except Failure Settings :=
  match (Toml.parse? text).bind fun root => root.fields.foldlM addSection? default with
  | none => .error (.deserialization "Settings: the text is no settings document")
  | some s =>
    if s.depthLimit = 0 then
      .error (.deserialization "Settings: resolver.max_depth must be positive")
    else .ok s

/-!
# Overrides
-/

def splitAssignment? (assignment : List Char) : Option (List Char × List Char) :=
  match assignment.dropWhile (· ≠ '=') with
  | [] => none
  | _ :: value =>
    match assignment.takeWhile (· ≠ '=') with
    | [] => none
    | name => some (name, value)

def malformedAssignment (assignment : String) : Failure :=
  .deserialization s!"Invalid variable '{assignment}': expected NAME=VALUE"

def override (s : Settings) (assignment : String) : Except Failure Settings :=
  match splitAssignment? assignment.toList with
  | some (name, value) =>
    .ok { s with
      supplied := s.supplied.insert (String.ofList name) (String.ofList value) }
  | none => .error (malformedAssignment assignment)

/-- Applies assignments in order, up to the first malformed one. -/
def applyOverrides (s : Settings) : List String → Except Failure Unit × Settings
  | [] => (.ok (), s)
  | assignment :: rest =>
    match s.override assignment with
    | .ok s => s.applyOverrides rest
    | .error failure => (.error failure, s)

def literals (s : Settings) : Std.TreeMap String Literal :=
  s.supplied.map fun _ value => Literal.plain value

end Settings
end Wiring
