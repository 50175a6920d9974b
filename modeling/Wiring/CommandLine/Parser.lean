/-!
# Parsing command lines

A parser for command lines with options, and with commands that have options of
their own.  An option that takes a value is complete when the next one begins,
when the words end, or when a command is done; only then its value is judged.
-/

namespace Wiring
namespace CommandLine

inductive Fault where
  | displayHelp
  | displayHelpOnMissing
  | displayVersion
  | unknownArgument
  | invalidSubcommand
  | missingSubcommand
  | missingRequiredArgument
  | invalidValue
  | argumentConflict
  | tooManyValues
  deriving DecidableEq, Repr

def Fault.text : Fault → String
  | displayHelp => "DisplayHelp"
  | displayHelpOnMissing => "DisplayHelpOnMissingArgumentOrSubcommand"
  | displayVersion => "DisplayVersion"
  | unknownArgument => "UnknownArgument"
  | invalidSubcommand => "InvalidSubcommand"
  | missingSubcommand => "MissingSubcommand"
  | missingRequiredArgument => "MissingRequiredArgument"
  | invalidValue => "InvalidValue"
  | argumentConflict => "ArgumentConflict"
  | tooManyValues => "TooManyValues"

inductive OptionKind where
  | flag
  | text
  | path
  | repeated
  | help
  | version
  deriving DecidableEq, Repr

structure OptionSpec where
  name : String
  short : Option Char
  kind : OptionKind
  required : Bool
  deriving Repr

def OptionSpec.takesValue (o : OptionSpec) : Bool :=
  match o.kind with
  | .text | .path | .repeated => true
  | _ => false

abbrev Given := List (String × List String)

def valuesOf (given : Given) (name : String) : List String :=
  (given.lookup name).getD []

def isGiven (given : Given) (name : String) : Bool :=
  given.any fun g => g.1 = name

def giveValues (name : String) (values : List String) : Given → Given
  | [] => [(name, values)]
  | (k, v) :: rest =>
    if k = name then (name, values) :: rest else (k, v) :: giveValues name values rest

structure State where
  given : Given
  pending : Option (OptionSpec × Option String)

def State.awaitsValue (s : State) : Bool :=
  match s.pending with
  | some (_, none) => true
  | _ => false

def accept (given : Given) (o : OptionSpec) (value : Option String) : Except Fault Given :=
  match o.kind with
  | .help => .error .displayHelp
  | .version => .error .displayVersion
  | .flag =>
    if isGiven given o.name then .error .argumentConflict
    else .ok (giveValues o.name [] given)
  | .repeated =>
    match value with
    | none => .error .invalidValue
    | some v => .ok (giveValues o.name (valuesOf given o.name ++ [v]) given)
  | .text | .path =>
    match value with
    | none => .error .invalidValue
    | some v =>
      if isGiven given o.name then .error .argumentConflict
      else if o.kind = .path ∧ v.isEmpty then .error .invalidValue
      else .ok (giveValues o.name [v] given)

def settle (s : State) : Except Fault State :=
  match s.pending with
  | none => .ok s
  | some (o, value) => (accept s.given o value).map fun given => ⟨given, none⟩

def take (s : State) (o : OptionSpec) (value : Option String) : Except Fault State := do
  let s ← settle s
  let given ← accept s.given o value
  return ⟨given, none⟩

def begin (s : State) (o : OptionSpec) (attached : Option String) : Except Fault State :=
  match attached with
  | some v => take s o (some v)
  | none => (settle s).map fun s => { s with pending := some (o, none) }

/-!
# Words
-/

def findLong? (options : List OptionSpec) (name : List Char) : Option OptionSpec :=
  options.find? fun o => o.name.toList = name

def findShort? (options : List OptionSpec) (c : Char) : Option OptionSpec :=
  options.find? fun o => o.short = some c

def readLong (options : List OptionSpec) (s : State) (word : List Char) : Except Fault State :=
  let name := word.takeWhile (· ≠ '=')
  let attached : Option String :=
    match word.dropWhile (· ≠ '=') with
    | [] => none
    | _ :: value => some (String.ofList value)
  match findLong? options name with
  | none => .error .unknownArgument
  | some o =>
    if o.takesValue then begin s o attached
    else
      match attached with
      | some _ => .error .tooManyValues
      | none => take s o none

def attachedValue : List Char → Option String
  | [] => none
  | '=' :: cs => some (String.ofList cs)
  | cs => some (String.ofList cs)

def readShort (options : List OptionSpec) (s : State) : List Char → Except Fault State
  | [] => .ok s
  | c :: cs =>
    match findShort? options c with
    | none => .error .unknownArgument
    | some o =>
      if o.takesValue then begin s o (attachedValue cs)
      else
        match take s o none with
        | .error fault => .error fault
        | .ok s => readShort options s cs

inductive Word where
  | dashes
  | long (text : List Char)
  | short (text : List Char)
  | plain (text : String)

def Word.of (word : String) : Word :=
  match word.toList with
  | ['-', '-'] => dashes
  | '-' :: '-' :: cs => long cs
  | ['-'] => plain word
  | '-' :: cs => short cs
  | _ => plain word

inductive Remainder where
  | nothing
  | command (name : String) (words : List String)
  | stray (word : String) (behindDashes : Bool)

def readOptions (options : List OptionSpec) (commands : List String) (s : State) :
    List String → Except Fault (State × Remainder)
  | [] => .ok (s, .nothing)
  | word :: words =>
    let isCommand := !s.awaitsValue && commands.contains word
    if isCommand then .ok (s, .command word words)
    else
      match Word.of word with
      | .dashes =>
        match words with
        | [] => .ok (s, .nothing)
        | stray :: _ => .ok (s, .stray stray true)
      | .long text =>
        match readLong options s text with
        | .error fault => .error fault
        | .ok s => readOptions options commands s words
      | .short text =>
        match readShort options s text with
        | .error fault => .error fault
        | .ok s => readOptions options commands s words
      | .plain text =>
        match s.pending with
        | some (o, none) =>
          readOptions options commands { s with pending := some (o, some text) } words
        | _ => .ok (s, .stray text false)

/-!
# Commands
-/

structure CommandSpec where
  name : String
  options : List OptionSpec

def emptyState : State :=
  ⟨[], none⟩

def readCommand (c : CommandSpec) (words : List String) : Except Fault Given := do
  let (s, remainder) ← readOptions c.options [] emptyState words
  match remainder with
  | .nothing =>
    let s ← settle s
    if c.options.any fun o => o.required && !isGiven s.given o.name then
      throw .missingRequiredArgument
    return s.given
  | _ => throw .unknownArgument

def helpCommand : String := "help"

def readHelp (commands : List String) : List String → Fault
  | [] => .displayHelp
  | [word] => if commands.contains word then .displayHelp else .invalidSubcommand
  | _ => .invalidSubcommand

structure ProgramSpec where
  options : List OptionSpec
  commands : List CommandSpec

/-- A command with its options, and the options of the program. An option of the program that is
given again to the command counts there. -/
structure Reading where
  command : String
  program : Given
  given : Given

def finish (p : ProgramSpec) (s : State) (name : String) (words : List String) :
    Except Fault Reading := do
  match p.commands.find? fun c => c.name = name with
  | none => throw .invalidSubcommand
  | some c =>
    let given ← readCommand c words
    let s ← settle s
    return ⟨name, s.given, given⟩

def readProgram (p : ProgramSpec) (words : List String) : Except Fault Reading := do
  let commands := helpCommand :: p.commands.map CommandSpec.name
  let (s, remainder) ← readOptions p.options commands emptyState words
  match remainder with
  | .command name words =>
    if name = helpCommand then throw (readHelp commands words)
    else finish p s name words
  | .stray word behindDashes =>
    throw (if behindDashes && commands.contains word then .unknownArgument else .invalidSubcommand)
  | .nothing =>
    let s ← settle s
    throw (if s.given.isEmpty then .displayHelpOnMissing else .missingSubcommand)

end CommandLine
end Wiring
