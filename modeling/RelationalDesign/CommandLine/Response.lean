import RelationalDesign.CommandLine.Command
import RelationalDesign.CommandLine.Path
import RelationalDesign.Ddl.Compiler
import RelationalDesign.Exchange.Document
import RelationalDesign.Normalization.Scheme
import RelationalDesign.SchemeText.Reading
import RelationalDesign.SchemeText.Writing

/-!
# What a command answers

From the contents of its file, or the reason why it cannot be read, a command
has one response: a text to print, a text to write to a file, or a failure.
-/

set_option autoImplicit false

namespace RelationalDesign.CommandLine

/-- Why a file cannot be used. -/
inductive FileError where
  | notFound
  | isDirectory
  | notDirectory
  | nameTooLong
  /-- The bytes are not a text. -/
  | notText
  | other (description : String)
deriving DecidableEq

/-- The message of an error. -/
def FileError.message : FileError → String
  | notFound => "No such file or directory (os error 2)"
  | isDirectory => "Is a directory (os error 21)"
  | notDirectory => "Not a directory (os error 20)"
  | nameTooLong => "File name too long (os error 36)"
  | notText => "stream did not contain valid UTF-8"
  | other description => description

/-- Why a command fails. -/
inductive CommandError where
  | reading (path : String) (error : FileError)
  | writing (path : String) (error : FileError)
  | text (error : SchemeText.ReadError)
  | scheme (error : SchemeError)
  | violations (found : List Violation)
  | checkFailed
deriving DecidableEq

/-- Violations as lines of text, without a line break at the end. -/
def listViolations (found : List Violation) : String :=
  "\n".intercalate (found.map fun violation => "  " ++ violation.render)

/-- The message of an error. -/
def CommandError.message : CommandError → String
  | reading path error => "Failed to read " ++ path ++ ": " ++ error.message
  | writing path error => "Failed to write " ++ path ++ ": " ++ error.message
  | text error => "Parse error: " ++ error.message
  | scheme error => error.message
  | violations found => "First normal form violated:\n" ++ listViolations found
  | checkFailed => "Scheme check failed"

/-- What a command does in the end. -/
inductive Response where
  /-- Prints a text and succeeds. -/
  | print (text : String)
  /-- Writes a text to a file, and succeeds if that can be done. -/
  | write (path text : String)
  /-- Prints a text and fails. -/
  | fail (printed : String) (error : CommandError)
deriving DecidableEq

/-- Writes to a file if there is one, and prints otherwise. -/
def emit (output : Option String) (text : String) : Response :=
  match output with
  | some path => .write path text
  | none => .print text

/-- The format of a file, by its extension. -/
def formatOf (path : String) : Format := if hasJsonExtension path then .json else .text

/-- The scheme in a file. -/
def load (path : String) (contents : Except FileError String) : Except CommandError Scheme :=
  match contents with
  | .error error => .error (.reading path error)
  | .ok text =>
    match formatOf path with
    | .json => (Scheme.ofJson text).mapError .scheme
    | .text => (SchemeText.read text).mapError .text

/-- A scheme in a format. -/
def writeAs (format : Format) (scheme : Scheme) : String :=
  match format with
  | .json => scheme.toJson
  | .text => SchemeText.write scheme

/-- The lines that report what is wrong with a scheme. -/
def report (scheme : Scheme) : String :=
  (if scheme.violations = [] then ""
    else "first normal form:\n" ++ listViolations scheme.violations ++ "\n")
    ++ (match scheme.fault? with
      | none => ""
      | some error => "validation: " ++ error.message ++ "\n")

/-- The line for a scheme with which nothing is wrong. -/
def summary (scheme : Scheme) : String :=
  "ok: " ++ toString scheme.tables.length ++ " tables, " ++ toString scheme.relationships.length
    ++ " relationships\n"

/-- The response of a command to a scheme. -/
def Command.answer (scheme : Scheme) : Command → Response
  | normalize input form settings format output =>
    match scheme.normalize settings form with
    | .error found => .fail "" (.violations found)
    | .ok normalized => emit output (writeAs (format.getD (formatOf input)) normalized)
  | sql _ dialect output =>
    match Ddl.compile dialect scheme with
    | .error error => .fail "" (.scheme error)
    | .ok text => emit output (text ++ "\n")
  | check _ =>
    if scheme.violations = [] ∧ scheme.fault? = none then .print (summary scheme)
    else .fail (report scheme) .checkFailed

/-- The response of a command to the contents of its file. -/
def Command.respond (command : Command) (contents : Except FileError String) : Response :=
  match load command.input contents with
  | .error error => .fail "" error
  | .ok scheme => command.answer scheme

end RelationalDesign.CommandLine
