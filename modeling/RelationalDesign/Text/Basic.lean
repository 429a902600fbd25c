import RelationalDesign.Text.Alphabetic
import RelationalDesign.Text.Numeric
import RelationalDesign.Text.Extender
import RelationalDesign.Text.Unprintable

/-!
# Characters and texts

The classes of characters follow the Unicode character properties. A class is a
list of ranges in increasing order, so that a look-up can stop at the first range
that begins after the character.

Keywords are ASCII words, and their case does not matter. Of all characters only
the capital letters A to Z and the Kelvin sign have an ASCII letter for their
lower case, so a text equals a keyword in lower case exactly when it does after
these have been replaced.

A message shows a text between double quotes, in such a way that every character
can be seen: quotes and backslashes are escaped, line breaks, tabs and NUL have
short names, and characters that cannot be shown by themselves are written by
their code point.
-/

set_option autoImplicit false

namespace RelationalDesign

/-! ## Classes of characters -/

namespace CharacterClass

/-- Whether a code point lies in one of the ranges, which are in increasing order. -/
def inRanges (code : Nat) : List (Nat × Nat) → Bool
  | [] => false
  | (first, last) :: later =>
    if code < first then false else if code ≤ last then true else inRanges code later

/-- Whether a character is alphabetic. -/
def isAlphabetic (c : Char) : Bool := inRanges c.toNat alphabeticRanges

/-- Whether a character is alphabetic or numeric. -/
def isAlphanumeric (c : Char) : Bool := isAlphabetic c || inRanges c.toNat numericRanges

/-- Ranges of the code points with the property `White_Space`, in order. -/
def blankRanges : List (Nat × Nat) :=
  [ (0x9, 0xD), (0x20, 0x20), (0x85, 0x85), (0xA0, 0xA0), (0x1680, 0x1680), (0x2000, 0x200A),
    (0x2028, 0x2029), (0x202F, 0x202F), (0x205F, 0x205F), (0x3000, 0x3000) ]

/-- Whether a character is white space. -/
def isBlank (c : Char) : Bool := inRanges c.toNat blankRanges

/-- Whether a character can be shown by itself: it has a shape, and it is no mark that
attaches to the character before it. -/
def isShown (c : Char) : Bool :=
  !inRanges c.toNat extenderRanges && !inRanges c.toNat unprintableRanges

end CharacterClass

/-! ## Keywords in any case -/

namespace Keyword

/-- The lower case of a character, as far as it is an ASCII letter. -/
def lower (c : Char) : Char := if c = '\u212a' then 'k' else c.toLower

/-- A text with all its characters in lower case, as far as keywords need it. -/
def fold (text : String) : String := String.ofList (text.toList.map lower)

/-- The entry of a table whose keyword is the given text, in any case. -/
def find? {α : Type} (entries : List (String × α)) (text : String) : Option α :=
  entries.lookup (fold text)

end Keyword

/-! ## Quoted text in messages -/

namespace Quoted

/-- A number in lower-case hexadecimal digits. -/
def hexadecimal (number : Nat) : String := String.ofList (Nat.toDigits 16 number)

/-- How one character is shown between quotes. -/
def shown (c : Char) : String :=
  if c = '"' then "\\\""
  else if c = '\\' then "\\\\"
  else if c = '\n' then "\\n"
  else if c = '\r' then "\\r"
  else if c = '\t' then "\\t"
  else if c = '\x00' then "\\0"
  else if CharacterClass.isShown c then c.toString
  else "\\u\x7b" ++ hexadecimal c.toNat ++ "\x7d"

/-- A text between double quotes, each of its characters shown. -/
def quote (text : String) : String :=
  "\"" ++ String.join (text.toList.map shown) ++ "\""

end Quoted

end RelationalDesign
