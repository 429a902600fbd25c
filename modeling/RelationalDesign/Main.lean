import RelationalDesign.CommandLine.Response

/-!
# The program

Reads the arguments and the file, and does what the command answers.
-/

set_option autoImplicit false

namespace RelationalDesign.CommandLine

/-- Whether an error has a code. The code may stand there negated. -/
def hasCode (found wanted : UInt32) : Bool := found == wanted || found == -wanted

/-- The cause of a failed access to a file. -/
def causeOf (error : IO.Error) : FileError :=
  match error with
  | .noFileOrDirectory .. => .notFound
  | .inappropriateType _ code _ => if hasCode code 20 then .notDirectory else .isDirectory
  | .invalidArgument _ code _ =>
    if hasCode code 36 then .nameTooLong else .other (toString error)
  | _ => .other (toString error)

/-- The contents of a file as a text. -/
def readContents (path : String) : IO (Except FileError String) := do
  try
    let bytes ← IO.FS.readBinFile path
    match String.fromUTF8? bytes with
    | some text => return .ok text
    | none => return .error .notText
  catch error => return .error (causeOf error)

/-- Reports an error and gives the exit code for it. -/
def reportError (error : CommandError) : IO UInt32 := do
  IO.eprintln error.message
  return 1

/-- Runs the command that the arguments give, and gives the exit code. -/
def perform (arguments : List String) : IO UInt32 := do
  match Command.ofArguments? arguments with
  | none =>
    IO.eprintln "usage: normalize|sql|check FILE [OPTIONS]"
    return 2
  | some command =>
    match command.respond (← readContents command.input) with
    | .print text =>
      IO.print text
      return 0
    | .fail printed error =>
      IO.print printed
      reportError error
    | .write path text =>
      try
        IO.FS.writeFile path text
        return 0
      catch error => reportError (.writing path (causeOf error))

end RelationalDesign.CommandLine

/-- The program: performs the command that the arguments give. -/
def main (arguments : List String) : IO UInt32 := RelationalDesign.CommandLine.perform arguments
