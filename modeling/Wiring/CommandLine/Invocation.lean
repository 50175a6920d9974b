import Wiring.CommandLine.Parser

/-!
# Invocations

The commands of the program and their options, and the command lines that mean
them.
-/

namespace Wiring

inductive Command where
  | resolve (graph config : String) (overrides : List String) (expand : Bool)
  | check (graph : String) (overrides : List String)
  | components (graph : String)
  deriving Repr

def Command.graph : Command → String
  | resolve graph .. | check graph _ | components graph => graph

structure Invocation where
  verbose : Bool
  quiet : Bool
  json : Bool
  settings : Option String
  command : Command
  deriving Repr

namespace CommandLine

def helpOption : OptionSpec := ⟨"help", some 'h', .help, false⟩

def globalOptions : List OptionSpec :=
  [⟨"verbose", some 'v', .flag, false⟩,
   ⟨"quiet", some 'q', .flag, false⟩,
   ⟨"json-mode", none, .flag, false⟩,
   ⟨"settings", some 's', .path, false⟩,
   helpOption]

def graphOption : OptionSpec := ⟨"graph", some 'g', .path, true⟩

def configOption : OptionSpec := ⟨"config", some 'c', .text, true⟩

def varOption : OptionSpec := ⟨"var", none, .repeated, false⟩

def expandOption : OptionSpec := ⟨"expand", some 'e', .flag, false⟩

def program : ProgramSpec where
  options := ⟨"version", some 'V', .version, false⟩ :: globalOptions
  commands :=
    [⟨"resolve", [graphOption, configOption, varOption, expandOption] ++ globalOptions⟩,
     ⟨"check", [graphOption, varOption] ++ globalOptions⟩,
     ⟨"components", graphOption :: globalOptions⟩]

def commandOf (name : String) (given : Given) : Command :=
  let graph := (valuesOf given "graph").headD ""
  let overrides := valuesOf given "var"
  if name = "resolve" then
    .resolve graph ((valuesOf given "config").headD "") overrides (isGiven given "expand")
  else if name = "check" then .check graph overrides
  else .components graph

def parse (words : List String) : Except Fault Invocation := do
  let r ← readProgram program words
  let has (name : String) : Bool := isGiven r.program name || isGiven r.given name
  return {
    verbose := has "verbose"
    quiet := has "quiet"
    json := has "json-mode"
    settings := (valuesOf r.given "settings" ++ valuesOf r.program "settings").head?
    command := commandOf r.command r.given }

/-!
# Help
-/

def optionLine (o : OptionSpec) : String :=
  let short := match o.short with
    | some c => "-" ++ c.toString ++ ", "
    | none => "    "
  "  " ++ short ++ "--" ++ o.name ++ if o.takesValue then " <VALUE>" else ""

def commandLines (c : CommandSpec) : List String :=
  ("  " ++ c.name) :: c.options.map fun o => "    " ++ optionLine o

def helpText : String :=
  "\n".intercalate
    (["Usage: wiring [OPTIONS] <COMMAND>", "", "Commands:"] ++
      program.commands.flatMap commandLines ++
      ["", "Options:"] ++ program.options.map optionLine)

def versionText : String := "wiring 0.4.2"

end CommandLine
end Wiring
