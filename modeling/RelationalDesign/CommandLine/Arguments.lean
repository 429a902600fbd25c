/-!
# Options on a command line

A command takes options and other arguments in any order. An option has a long
name behind two dashes and perhaps a letter behind one dash. Its value, if it
takes one, stands behind an equals sign, right behind the letter or in the next
argument, which may then not look like an option itself. Behind a lone `--`
nothing is an option.
-/

set_option autoImplicit false

namespace RelationalDesign.CommandLine

/-- An option that a command knows. -/
structure KnownOption where
  name : String
  letter : Option Char
  takesValue : Bool
deriving DecidableEq

/-- An argument as it has been understood. -/
inductive Argument where
  | option (name : String) (value : Option String)
  | operand (text : String)
deriving DecidableEq

/-- Whether an argument looks like an option. A lone dash does not. -/
def looksLikeOption (argument : List Char) : Bool :=
  match argument with
  | '-' :: _ :: _ => true
  | _ => false

/-- What an argument that looks like an option says: the option and the value
that is written with it. -/
def splitOption? (known : List KnownOption) (argument : List Char) :
    Option (KnownOption × Option String) :=
  match argument with
  | '-' :: '-' :: text => do
    let name := text.takeWhile fun c => c != '='
    let option ← known.find? fun option => decide (option.name = String.ofList name)
    match text.dropWhile fun c => c != '=' with
    | [] => return (option, none)
    | _ :: value => return (option, some (String.ofList value))
  | '-' :: letter :: text => do
    let option ← known.find? fun option => decide (option.letter = some letter)
    match text with
    | [] => return (option, none)
    | '=' :: value => return (option, some (String.ofList value))
    | value => return (option, some (String.ofList value))
  | _ => none

/-- Understands arguments one after the other, if all of them make sense. -/
def understand? (known : List KnownOption) : List String → Option (List Argument)
  | [] => some []
  | argument :: rest =>
    if argument = "--" then some (rest.map .operand)
    else if looksLikeOption argument.toList then
      match splitOption? known argument.toList with
      | none => none
      | some (option, some value) =>
        if option.takesValue then
          (understand? known rest).map (.option option.name (some value) :: ·)
        else none
      | some (option, none) =>
        if option.takesValue then
          match rest with
          | [] => none
          | value :: rest =>
            if looksLikeOption value.toList then none
            else (understand? known rest).map (.option option.name (some value) :: ·)
        else (understand? known rest).map (.option option.name none :: ·)
    else (understand? known rest).map (.operand argument :: ·)

/-- The occurrences of an option, each with its value. -/
def occurrences (name : String) (arguments : List Argument) : List (Option String) :=
  arguments.filterMap fun
    | .option other value => if other = name then some value else none
    | .operand _ => none

/-- The arguments that are no options. -/
def operands (arguments : List Argument) : List String :=
  arguments.filterMap fun
    | .option _ _ => none
    | .operand text => some text

/-- The value of an option that may be given once: read, or the usual one. -/
def valueOf? {α : Type} (name : String) (usual : α) (read : String → Option α)
    (arguments : List Argument) : Option α :=
  match occurrences name arguments with
  | [] => some usual
  | [some value] => read value
  | _ => none

/-- Whether an option without value is given, which it may be once. -/
def isGiven? (name : String) (arguments : List Argument) : Option Bool :=
  match occurrences name arguments with
  | [] => some false
  | [_] => some true
  | _ => none

end RelationalDesign.CommandLine
