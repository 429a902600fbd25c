import RelationalDesign.CommandLine.Response

/-!
# Commands in a directory

A directory that holds files and no other directories, and what a command does
in it: what it prints, how it fails, and the directory that it leaves.

A path is followed step by step, and the first step that cannot be taken is the
failure: a file has nothing in it, and a name has to be there and may not be too
long. To write a file only the steps before its name have to lead somewhere.
-/

set_option autoImplicit false

namespace RelationalDesign.CommandLine

/-- Files by name. -/
abbrev Directory := List (String × ByteArray)

/-- Where the steps of a path lead. -/
inductive Place where
  /-- The directory of the command. -/
  | here
  /-- A directory around it, in which nothing is found. -/
  | around
  /-- A file of the directory, with its contents. -/
  | file (contents : ByteArray)

/-- The most bytes that a name may have. -/
def nameLimit : Nat := 255

/-- The most bytes that a path may have. -/
def pathLimit : Nat := 4095

/-- Refuses a name that is too long. -/
def checkName (name : String) : Except FileError Unit :=
  if nameLimit < name.utf8ByteSize then .error .nameTooLong else .ok ()

/-- Refuses a path that is empty or too long. -/
def checkPath (path : String) : Except FileError Unit :=
  if path = "" then .error .notFound
  else if pathLimit < path.utf8ByteSize then .error .nameTooLong
  else .ok ()

/-- Refuses a path to be written that ends with a slash or with a name that is too long. -/
def checkTarget (path name : String) : Except FileError Unit :=
  if path.endsWith "/" then .error .isDirectory else checkName name

/-- Where a path begins. -/
def startOf (path : String) : Place := if path.startsWith "/" then .around else .here

namespace Directory

/-- Takes one step from a place. -/
def move (directory : Directory) : Place → PathStep → Except FileError Place
  | .file _, _ => .error .notDirectory
  | place, .stay => .ok place
  | _, .leave => .ok .around
  | .around, .enter name => do
    checkName name
    .error .notFound
  | .here, .enter name => do
    checkName name
    match directory.lookup name with
    | none => .error .notFound
    | some contents => .ok (.file contents)

/-- Reads a file as a text. -/
def read (directory : Directory) (path : String) : Except FileError String := do
  checkPath path
  match ← (pathSteps path).foldlM directory.move (startOf path) with
  | .here | .around => .error .isDirectory
  | .file contents =>
    if path.endsWith "/" then .error .notDirectory
    else
      match String.fromUTF8? contents with
      | none => .error .notText
      | some text => .ok text

/-- Puts a file in the place of the one of that name, or else at the end. -/
def put (name : String) (contents : ByteArray) : Directory → Directory
  | [] => [(name, contents)]
  | (other, old) :: rest =>
    if other = name then (name, contents) :: rest else (other, old) :: put name contents rest

/-- Writes a text to a file. What is written around the directory is not seen in it. -/
def write (directory : Directory) (path text : String) : Except FileError Directory := do
  checkPath path
  let place ← (pathSteps path).dropLast.foldlM directory.move (startOf path)
  match place, (pathSteps path).getLast? with
  | .file _, _ => .error .notDirectory
  | _, none | _, some .stay | _, some .leave => .error .isDirectory
  | .here, some (.enter name) => do
    checkTarget path name
    return put name text.toUTF8 directory
  | .around, some (.enter name) => do
    checkTarget path name
    return directory

end Directory

/-- What a command leaves behind. -/
structure Outcome where
  printed : String
  /-- Why it has failed, if it has. -/
  error : Option CommandError
  directory : Directory

/-- Runs a command in a directory. -/
def Command.runIn (directory : Directory) (command : Command) : Outcome :=
  match command.respond (directory.read command.input) with
  | .print text => ⟨text, none, directory⟩
  | .fail printed error => ⟨printed, some error, directory⟩
  | .write path text =>
    match directory.write path text with
    | .ok left => ⟨"", none, left⟩
    | .error error => ⟨"", some (.writing path error), directory⟩

end RelationalDesign.CommandLine
