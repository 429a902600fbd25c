/-!
# Writing JSON

A value is written either without any space or with each item and each field on
a line of its own, two spaces deeper than what holds it. Empty lists and records
are written on one line. In texts only quotes, backslashes and control
characters are escaped.
-/

set_option autoImplicit false

namespace RelationalDesign.Json

/-- The values that are written. -/
inductive Value where
  | integer (value : Int)
  | text (content : String)
  | list (items : List Value)
  | record (fields : List (String × Value))

/-- How values are laid out. -/
inductive Layout where
  /-- Without any space. -/
  | compact
  /-- Over several lines. -/
  | indented
deriving DecidableEq

namespace Layout

/-- What stands between two lines, the second of which has the given depth. -/
def lineBreak : Layout → Nat → String
  | compact, _ => ""
  | indented, depth => "\n" ++ String.ofList (List.replicate (2 * depth) ' ')

/-- What stands between a key and its value. -/
def colon : Layout → String
  | compact => ":"
  | indented => ": "

end Layout

/-- A hexadecimal digit. -/
def hexDigit (value : Nat) : Char := Nat.digitChar value

/-- How a character is written in a text. -/
def escape (c : Char) : List Char :=
  if c = '"' then ['\\', '"']
  else if c = '\\' then ['\\', '\\']
  else if c = '\x08' then ['\\', 'b']
  else if c = '\t' then ['\\', 't']
  else if c = '\n' then ['\\', 'n']
  else if c = '\x0c' then ['\\', 'f']
  else if c = '\r' then ['\\', 'r']
  else if c.toNat < 0x20 then
    ['\\', 'u', '0', '0', hexDigit (c.toNat / 16), hexDigit (c.toNat % 16)]
  else [c]

/-- A text between quotes. -/
def quote (content : String) : String :=
  "\"" ++ String.ofList (content.toList.flatMap escape) ++ "\""

mutual

/-- The text of a value at some depth. -/
def Value.render (layout : Layout) (depth : Nat) : Value → String
  | .integer value => toString value
  | .text content => quote content
  | .list [] => "[]"
  | .list (item :: items) =>
    "[" ++ layout.lineBreak (depth + 1) ++ item.render layout (depth + 1)
      ++ renderItems layout (depth + 1) items ++ layout.lineBreak depth ++ "]"
  | .record [] => "\x7b\x7d"
  | .record ((key, value) :: fields) =>
    "\x7b" ++ layout.lineBreak (depth + 1) ++ quote key ++ layout.colon
      ++ value.render layout (depth + 1) ++ renderFields layout (depth + 1) fields
      ++ layout.lineBreak depth ++ "\x7d"

/-- The texts of the later items of a list, each with a comma before it. -/
def renderItems (layout : Layout) (depth : Nat) : List Value → String
  | [] => ""
  | item :: items =>
    "," ++ layout.lineBreak depth ++ item.render layout depth ++ renderItems layout depth items

/-- The texts of the later fields of a record, each with a comma before it. -/
def renderFields (layout : Layout) (depth : Nat) : List (String × Value) → String
  | [] => ""
  | (key, value) :: fields =>
    "," ++ layout.lineBreak depth ++ quote key ++ layout.colon ++ value.render layout depth
      ++ renderFields layout depth fields

end

/-- The text of a whole document. -/
def Value.write (layout : Layout) (value : Value) : String := value.render layout 0

end RelationalDesign.Json
