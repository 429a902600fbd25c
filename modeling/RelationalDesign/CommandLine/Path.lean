/-!
# Paths

A path is a text of steps between slashes. A step is a name, a single dot, which
leads nowhere else, or a double dot, which leads out of the place. Between two
slashes with nothing between them there is no step. The name that a path ends
with has an extension behind its last dot, unless it begins with that dot.
-/

set_option autoImplicit false

namespace RelationalDesign.CommandLine

/-- One step of a path. -/
inductive PathStep where
  | stay
  | leave
  | enter (name : String)
deriving DecidableEq

/-- The step that a text between slashes stands for. -/
def PathStep.ofText (text : List Char) : PathStep :=
  if text = ['.'] then .stay
  else if text = ['.', '.'] then .leave
  else .enter (String.ofList text)

/-- The steps of a path. -/
def pathSteps (path : String) : List PathStep :=
  ((path.toList.splitOn '/').filter fun text => text != []).map PathStep.ofText

/-- The name that a path ends with, if it ends with one. -/
def fileName? (path : String) : Option String :=
  match ((pathSteps path).filter fun step => decide (step ≠ .stay)).getLast? with
  | some (.enter name) => some name
  | _ => none

/-- The extension of a file name, if it has one. -/
def extension? (name : String) : Option (List Char) :=
  let reversed := name.toList.reverse
  match reversed.dropWhile fun c => c != '.' with
  | _ :: _ :: _ => some (reversed.takeWhile fun c => c != '.').reverse
  | _ => none

/-- Whether a path has the extension `json`, in any case. -/
def hasJsonExtension (path : String) : Bool :=
  match (fileName? path).bind extension? with
  | none => false
  | some extension => extension.map Char.toLower == "json".toList

end RelationalDesign.CommandLine
