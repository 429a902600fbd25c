import RelationalDesign.CommandLine.Arguments
import RelationalDesign.Ddl.Dialect
import RelationalDesign.Normalization.NormalForm

/-!
# Commands

There are three commands: to normalize a scheme, to compile it to SQL and to
check it. Each reads one file. What a command does is fixed by its arguments
alone; arguments that do not make sense give no command.
-/

set_option autoImplicit false

namespace RelationalDesign.CommandLine

/-- The formats of a scheme in a file. -/
inductive Format where
  | json
  | text
deriving DecidableEq

/-- The format of a name. -/
def Format.ofName? (name : String) : Option Format :=
  [("json", Format.json), ("dsl", Format.text)].lookup name

/-- A command with its arguments. -/
inductive Command where
  | normalize (input : String) (form : NormalForm) (settings : Settings) (format : Option Format)
      (output : Option String)
  | sql (input : String) (dialect : Ddl.Dialect) (output : Option String)
  | check (input : String)
deriving DecidableEq

/-- The file that a command reads. -/
def Command.input : Command → String
  | normalize input _ _ _ _ => input
  | sql input _ _ => input
  | check input => input

/-- A path: any text that is not empty. -/
def readPath (text : String) : Option String := if text = "" then none else some text

/-- A normal form by its number in decimal digits, perhaps with a plus sign. -/
def readForm (text : String) : Option NormalForm :=
  let digits :=
    match text.toList with
    | '+' :: rest => rest
    | digits => digits
  if digits ≠ [] ∧ digits.all Char.isDigit = true then
    NormalForm.ofNumber? (digits.foldl (fun value c => 10 * value + (c.toNat - '0'.toNat)) 0)
  else none

/-- The only operand, which is a path. -/
def onlyPath? (arguments : List Argument) : Option String :=
  match operands arguments with
  | [path] => readPath path
  | _ => none

/-- The option for a file to write to. -/
def outputOption : KnownOption := ⟨"output", some 'o', true⟩

/-- The options of the command to normalize. -/
def normalizeOptions : List KnownOption :=
  [ ⟨"form", none, true⟩, ⟨"cover", none, true⟩, ⟨"drop-relationships", none, false⟩,
    ⟨"no-key-table", none, false⟩, ⟨"format", none, true⟩, outputOption ]

/-- The options of the command to compile. -/
def sqlOptions : List KnownOption := [⟨"dialect", none, true⟩, outputOption]

/-- The command to normalize with given arguments. -/
def normalizeOf? (arguments : List Argument) : Option Command := do
  let input ← onlyPath? arguments
  let form ← valueOf? "form" .third readForm arguments
  let cover ← valueOf? "cover" .minimal CoverMode.ofName? arguments
  let dropRelationships ← isGiven? "drop-relationships" arguments
  let noKeyTable ← isGiven? "no-key-table" arguments
  let format ← valueOf? "format" none (fun name => (Format.ofName? name).map some) arguments
  let output ← valueOf? "output" none (fun path => (readPath path).map some) arguments
  return .normalize input form ⟨cover, !noKeyTable, !dropRelationships⟩ format output

/-- The command to compile with given arguments. -/
def sqlOf? (arguments : List Argument) : Option Command := do
  let input ← onlyPath? arguments
  let dialect ← valueOf? "dialect" .generic Ddl.Dialect.ofName? arguments
  let output ← valueOf? "output" none (fun path => (readPath path).map some) arguments
  return .sql input dialect output

/-- The command that some arguments give, the first of which names it. -/
def Command.ofArguments? : List String → Option Command
  | "normalize" :: rest => (understand? normalizeOptions rest).bind normalizeOf?
  | "sql" :: rest => (understand? sqlOptions rest).bind sqlOf?
  | "check" :: rest => (understand? [] rest).bind fun arguments =>
    (onlyPath? arguments).map .check
  | _ => none

end RelationalDesign.CommandLine
