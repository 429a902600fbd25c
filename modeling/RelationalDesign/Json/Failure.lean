import RelationalDesign.Json.Node
import RelationalDesign.Number.Shortest
import RelationalDesign.Text.Basic

/-!
# Why a document cannot be used

Either a text is not JSON, or what it says has the wrong shape. A mismatch names
what was found and what was wanted; where the text breaks off, or where a number
or a text in it has no value, there is nothing to be found and the failure is
one of syntax.
-/

set_option autoImplicit false

namespace RelationalDesign.Json

/-- What is found in the place of something else. -/
inductive Found where
  | null
  | boolean (value : Bool)
  | integer (value : Int)
  | double (value : Float)
  | text (content : String)
  | list
  | record
deriving DecidableEq

/-- How messages name what is found. -/
def Found.describe : Found → String
  | null => "null"
  | boolean value => "boolean `" ++ (if value then "true" else "false") ++ "`"
  | integer value => "integer `" ++ toString value ++ "`"
  | double value => "floating point `" ++ Number.renderDouble value ++ "`"
  | text content => "string " ++ Quoted.quote content
  | list => "sequence"
  | record => "map"

/-- What is wanted in some place. -/
inductive Wanted where
  | integer
  | text
  | list
  /-- A record of the given name. -/
  | record (name : String)
deriving DecidableEq

/-- How messages name what is wanted. -/
def Wanted.describe : Wanted → String
  | integer => "i64"
  | text => "a string"
  | list => "a sequence"
  | record name => "struct " ++ name

/-- Why a document has the wrong shape. -/
inductive ShapeError where
  | missingField (name : String)
  | duplicateField (name : String)
  | mismatch (found : Found) (wanted : Wanted)
  /-- An integer without sign that does not fit into 64 bits with a sign. -/
  | outOfRange (value : Int)
  /-- A list in the place of a record with too few items. -/
  | tooShort (count : Nat) (name : String) (fields : Nat)
deriving DecidableEq

/-- The message of an error. -/
def ShapeError.message : ShapeError → String
  | missingField name => "missing field `" ++ name ++ "`"
  | duplicateField name => "duplicate field `" ++ name ++ "`"
  | mismatch found wanted =>
    "invalid type: " ++ found.describe ++ ", expected " ++ wanted.describe
  | outOfRange value =>
    "invalid value: " ++ (Found.integer value).describe ++ ", expected " ++ Wanted.integer.describe
  | tooShort count name fields =>
    "invalid length " ++ toString count ++ ", expected " ++ (Wanted.record name).describe
      ++ " with " ++ toString fields ++ " elements"

/-- Why a document cannot be used. -/
inductive Failure where
  /-- The text is not JSON. -/
  | malformed
  /-- The text is JSON up to a place where it has the wrong shape. -/
  | shape (error : ShapeError)
deriving DecidableEq

/-- The failure where a node is not what is wanted. -/
def mismatch (wanted : Wanted) : Node → Failure
  | .null => .shape (.mismatch .null wanted)
  | .boolean value => .shape (.mismatch (.boolean value) wanted)
  | .number literal =>
    match literal.value? with
    | none => .malformed
    | some (.integer value) => .shape (.mismatch (.integer value) wanted)
    | some (.double value) => .shape (.mismatch (.double value) wanted)
  | .text none => .malformed
  | .text (some content) => .shape (.mismatch (.text content) wanted)
  | .list _ _ => .shape (.mismatch .list wanted)
  | .record _ _ => .shape (.mismatch .record wanted)
  | .broken => .malformed

end RelationalDesign.Json
