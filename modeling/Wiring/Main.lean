import Wiring.CommandLine.Execution

/-!
# The program

Reads the files that a command line names, carries the command out, and prints
its answer.  A failure is printed as its report.
-/

namespace Wiring

def Invocation.paths (inv : Invocation) : List String :=
  inv.settings.toList ++ [inv.command.graph]

/-- A system error by its number, which may have been negated as a word of 32 bits. -/
def systemReason (code : UInt32) (reason : String) : String :=
  let code := if code.toNat < 2147483648 then code.toNat else 4294967296 - code.toNat
  let reason :=
    match code with
    | 2 => "No such file or directory"
    | 13 => "Permission denied"
    | 20 => "Not a directory"
    | 21 => "Is a directory"
    | 36 => "File name too long"
    | _ => reason
  s!"{reason} (os error {code})"

def FileFault.ofError : IO.Error → FileFault
  | .noFileOrDirectory _ code reason => .missing (systemReason code reason)
  | .inappropriateType (some _) code reason => .missing (systemReason code reason)
  | .invalidArgument (some _) code reason => .missing (systemReason code reason)
  | .inappropriateType none code reason => .unreadable (systemReason code reason)
  | .permissionDenied _ code reason => .unreadable (systemReason code reason)
  | error => .unreadable (toString error)

def readContents (path : String) : IO (Except FileFault String) := do
  try
    match String.fromUTF8? (← IO.FS.readBinFile path) with
    | some text => return .ok text
    | none => return .error (.unreadable "stream did not contain valid UTF-8")
  catch error => return .error (FileFault.ofError error)

def readFiles (paths : List String) : IO Files := do
  let contents ← paths.mapM fun path => return (path, ← readContents path)
  return fun path => (contents.lookup path).getD (.error (.missing (systemReason 2 "")))

def carryOut (inv : Invocation) : IO UInt32 := do
  match CommandLine.execute (← readFiles inv.paths) inv with
  | .ok output =>
    IO.println output.text
    return if output.success then 0 else 1
  | .error failure =>
    IO.eprintln failure.report.render
    return 1

end Wiring

def main (words : List String) : IO UInt32 := do
  match Wiring.CommandLine.parse words with
  | .ok inv => Wiring.carryOut inv
  | .error .displayHelp =>
    IO.println Wiring.CommandLine.helpText
    return 0
  | .error .displayVersion =>
    IO.println Wiring.CommandLine.versionText
    return 0
  | .error .displayHelpOnMissing =>
    IO.eprintln Wiring.CommandLine.helpText
    return 2
  | .error fault =>
    IO.eprintln s!"error: {fault.text}"
    IO.eprintln Wiring.CommandLine.helpText
    return 2
