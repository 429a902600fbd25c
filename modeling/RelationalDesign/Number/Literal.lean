/-!
# Numbers as they are written

A numeral is a sign, whole digits, perhaps digits after a point and perhaps an
exponent. Its value is an integer where it is written as one that fits into 64
bits, with or without a sign; every other value is a double, and minus zero is
one too.

A double is read off the digits that fit into 64 bits and scaled by powers of
ten in the arithmetic of doubles. A numeral too large for that has no value.
-/

set_option autoImplicit false

namespace RelationalDesign.Number

/-- A numeral as it is written. -/
structure Literal where
  negative : Bool
  /-- The digits before the point. -/
  whole : List Char
  /-- The digits after the point; none if there is no point. -/
  fraction : List Char
  /-- The sign (negative or not) and the digits of the exponent, if there is one. -/
  exponent : Option (Bool × List Char)
deriving DecidableEq

/-- Reads the digits after a point, where there is one. -/
def readFraction : List Char → Option (List Char × List Char)
  | '.' :: rest =>
    match rest.takeWhile Char.isDigit with
    | [] => none
    | digits => some (digits, rest.dropWhile Char.isDigit)
  | rest => some ([], rest)

/-- Reads the digits of an exponent behind its sign. -/
def readExponentDigits (negative : Bool) (text : List Char) :
    Option (Option (Bool × List Char) × List Char) :=
  match text.takeWhile Char.isDigit with
  | [] => none
  | digits => some (some (negative, digits), text.dropWhile Char.isDigit)

/-- Reads an exponent, where there is one. -/
def readExponent : List Char → Option (Option (Bool × List Char) × List Char)
  | [] => some (none, [])
  | c :: rest =>
    if c = 'e' ∨ c = 'E' then
      match rest with
      | '+' :: rest => readExponentDigits false rest
      | '-' :: rest => readExponentDigits true rest
      | rest => readExponentDigits false rest
    else some (none, c :: rest)

/-- Reads a numeral without its sign. There is no zero before other digits. -/
def readUnsigned (negative : Bool) (text : List Char) : Option (Literal × List Char) :=
  match text.takeWhile Char.isDigit with
  | [] => none
  | '0' :: _ :: _ => none
  | whole => do
    let (fraction, rest) ← readFraction (text.dropWhile Char.isDigit)
    let (exponent, rest) ← readExponent rest
    return (⟨negative, whole, fraction, exponent⟩, rest)

/-- Reads a numeral off the front of a text. -/
def Literal.read? : List Char → Option (Literal × List Char)
  | '-' :: rest => readUnsigned true rest
  | text => readUnsigned false text

/-- Reading a fraction gives back a part of the text. -/
theorem length_readFraction_le {text digits rest : List Char}
    (read : readFraction text = some (digits, rest)) : rest.length ≤ text.length := by
  unfold readFraction at read
  split at read
  · split at read
    · cases read
    · cases read
      exact Nat.le_succ_of_le (List.dropWhile_suffix _).length_le
  · cases read
    exact Nat.le_refl _

/-- Reading the digits of an exponent gives back a part of the text. -/
theorem length_readExponentDigits_le {negative : Bool} {text rest : List Char}
    {exponent : Option (Bool × List Char)}
    (read : readExponentDigits negative text = some (exponent, rest)) :
    rest.length ≤ text.length := by
  unfold readExponentDigits at read
  split at read
  · cases read
  · cases read
    exact (List.dropWhile_suffix _).length_le

/-- Reading an exponent gives back a part of the text. -/
theorem length_readExponent_le {text rest : List Char} {exponent : Option (Bool × List Char)}
    (read : readExponent text = some (exponent, rest)) : rest.length ≤ text.length := by
  unfold readExponent at read
  split at read
  · cases read
    exact Nat.le_refl _
  · split at read
    · split at read
      all_goals
        have := length_readExponentDigits_le read
        simp only [List.length_cons]
        omega
    · cases read
      exact Nat.le_refl _

/-- A numeral without sign takes at least one character. -/
theorem length_readUnsigned_lt {negative : Bool} {text rest : List Char} {literal : Literal}
    (read : readUnsigned negative text = some (literal, rest)) : rest.length < text.length := by
  unfold readUnsigned at read
  split at read
  · cases read
  · cases read
  · next digits noDigits _ =>
    obtain ⟨⟨fraction, afterFraction⟩, readFraction, read⟩ := Option.bind_eq_some_iff.1 read
    obtain ⟨⟨exponent, afterExponent⟩, readExponent, equal⟩ := Option.bind_eq_some_iff.1 read
    cases equal
    have := length_readFraction_le readFraction
    have := length_readExponent_le readExponent
    have split := List.takeWhile_append_dropWhile (p := Char.isDigit) (l := text)
    have lengths := congrArg List.length split
    have := List.length_pos_iff.2 noDigits
    simp only [List.length_append] at lengths
    simp only at *
    omega

/-- A numeral takes at least one character. -/
theorem Literal.length_read?_lt {text rest : List Char} {literal : Literal}
    (read : Literal.read? text = some (literal, rest)) : rest.length < text.length := by
  unfold Literal.read? at read
  split at read
  · exact Nat.lt_succ_of_lt (length_readUnsigned_lt read)
  · exact length_readUnsigned_lt read

/-! ## Values -/

/-- The value of a numeral. -/
inductive Value where
  | integer (value : Int)
  | double (value : Float)
deriving DecidableEq

/-- The value of a decimal digit. -/
def digitValue (c : Char) : Nat := c.toNat - '0'.toNat

/-- The natural number that some digits denote. -/
def naturalOfDigits (digits : List Char) : Nat :=
  digits.foldl (fun value c => 10 * value + digitValue c) 0

/-- The first natural number that needs more than 64 bits. -/
def wordLimit : Nat := 0x10000000000000000

/-- The first natural number that needs more than 63 bits. -/
def signedLimit : Nat := 0x8000000000000000

/-- Appends digits to a number as long as it fits into 64 bits, and gives the
digits that are left. -/
def takeDigits (significand : Nat) : List Char → Nat × List Char
  | [] => (significand, [])
  | c :: rest =>
    let next := 10 * significand + digitValue c
    if next < wordLimit then takeDigits next rest else (significand, c :: rest)

/-- A power of ten, as a double, for an exponent of at most 308. -/
def powerOfTen (exponent : Nat) : Float := Float.ofScientific 1 false exponent

/-- Divides a double by a power of ten, in steps of at most 308 places. -/
def divideByPower (value : Float) (places : Nat) : Float :=
  if places ≤ 308 then value / powerOfTen places
  else if value == 0 then value
  else divideByPower (value / powerOfTen 308) (places - 308)
termination_by places

/-- Multiplies a double by a power of ten, if the result is finite. -/
def multiplyByPower? (value : Float) (places : Nat) : Option Float :=
  if places ≤ 308 then
    let product := value * powerOfTen places
    if product.isInf then none else some product
  else if value == 0 then some value
  else none

/-- Scales a significand by a power of ten, if the result is finite. -/
def scale? (significand : Nat) (exponent : Int) : Option Float :=
  if 0 ≤ exponent then multiplyByPower? (Float.ofNat significand) exponent.toNat
  else some (divideByPower (Float.ofNat significand) (-exponent).toNat)

namespace Literal

/-- The exponent that is written, or zero. -/
def writtenExponent (literal : Literal) : Int :=
  match literal.exponent with
  | none => 0
  | some (true, digits) => -(naturalOfDigits digits : Int)
  | some (false, digits) => naturalOfDigits digits

/-- The value of a numeral as a double, if it is not too large. -/
def double? (literal : Literal) : Option Float :=
  let (significand, dropped) := takeDigits 0 literal.whole
  let (significand, ignored) := takeDigits significand literal.fraction
  let places : Int := dropped.length - (literal.fraction.length - ignored.length : Nat)
  (scale? significand (places + literal.writtenExponent)).map fun value =>
    if literal.negative then -value else value

/-- The value of a numeral, if it is not too large. -/
def value? (literal : Literal) : Option Value :=
  let magnitude := naturalOfDigits literal.whole
  let isInteger := literal.fraction == [] && literal.exponent == none
  if isInteger && !literal.negative && decide (magnitude < wordLimit) then
    some (.integer magnitude)
  else if isInteger && literal.negative && decide (0 < magnitude ∧ magnitude ≤ signedLimit) then
    some (.integer (-magnitude))
  else literal.double?.map .double

end Literal

end RelationalDesign.Number
