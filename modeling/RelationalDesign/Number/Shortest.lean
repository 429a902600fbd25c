/-!
# The shortest decimal of a double

A double stands for every real number that rounds to it. Its shortest decimal
is the point of the coarsest decimal grid that lies among these numbers; of two
such points the nearer one is taken, and the even one if both are equally near.

The search is in exact arithmetic: the double and the ends of its interval are
whole multiples of a power of two.
-/

set_option autoImplicit false

namespace RelationalDesign.Number

/-- A positive double and the numbers that round to it, as multiples of a power of two. -/
structure Interval where
  low : Nat
  value : Nat
  high : Nat
  /-- The exponent of the power of two. -/
  exponent : Int
  /-- Whether the two ends round to the double as well. -/
  closed : Bool

/-- The interval of the double with given exponent and mantissa bits. The gap
below a power of two is half as wide as the gap above it. -/
def Interval.ofBits (exponentBits mantissaBits : Nat) : Interval :=
  if exponentBits = 0 then
    ⟨4 * mantissaBits - 2, 4 * mantissaBits, 4 * mantissaBits + 2, -1076, mantissaBits % 2 == 0⟩
  else
    let mantissa := mantissaBits + 0x10000000000000
    let below := if mantissaBits = 0 ∧ 1 < exponentBits then 1 else 2
    ⟨4 * mantissa - below, 4 * mantissa, 4 * mantissa + 2, exponentBits - 1077, mantissa % 2 == 0⟩

/-- The point of the grid with spacing `10 ^ place` that is taken for an interval,
if one of the two points around the double lies in it. -/
def Interval.point? (interval : Interval) (place : Int) : Option Nat :=
  let scale := Nat.pow 2 interval.exponent.toNat * Nat.pow 10 (-place).toNat
  let spacing := Nat.pow 2 (-interval.exponent).toNat * Nat.pow 10 place.toNat
  let value := interval.value * scale
  let inside (point : Nat) : Bool :=
    if interval.closed then
      interval.low * scale ≤ point * spacing && point * spacing ≤ interval.high * scale
    else interval.low * scale < point * spacing && point * spacing < interval.high * scale
  let below := value / spacing
  let above := below + 1
  match inside below, inside above with
  | false, false => none
  | true, false => some below
  | false, true => some above
  | true, true =>
    let down := value - below * spacing
    let up := above * spacing - value
    if down < up || (down == up && below % 2 == 0) then some below else some above

/-- The digits of the shortest decimal, as a number, and the place of the last one. -/
def Interval.shortest? (interval : Interval) : Option (Nat × Int) :=
  (List.range 640).findSome? fun (step : Nat) =>
    let place : Int := 309 - (step : Int)
    (interval.point? place).map fun point => (point, place)

/-- A point in the middle of some digits, after the given number of them. -/
def withPoint (digits : List Char) (count : Nat) : List Char :=
  digits.take count ++ '.' :: digits.drop count

/-- Digits with the decimal point at its place, counted from the first digit.
Numbers from `0.00001` up to sixteen digits before the point are written in full,
with a digit on both sides of the point; the others have one digit before the
point and a signed exponent. -/
def layOut (digits : List Char) (exponent : Int) : List Char :=
  if 0 ≤ exponent ∧ exponent ≤ 15 then
    let whole := exponent.toNat + 1
    if digits.length ≤ whole then
      digits ++ List.replicate (whole - digits.length) '0' ++ ['.', '0']
    else withPoint digits whole
  else if -5 ≤ exponent ∧ exponent < 0 then
    '0' :: '.' :: List.replicate ((-exponent).toNat - 1) '0' ++ digits
  else
    let mantissa := if digits.length ≤ 1 then digits else withPoint digits 1
    let sign := if exponent < 0 then '-' else '+'
    mantissa ++ 'e' :: sign :: Nat.toDigits 10 exponent.natAbs

/-- The text of a finite double: the shortest decimal that rounds to it. -/
def renderDouble (value : Float) : String :=
  let bits := value.toBits.toNat
  let sign := if 0x8000000000000000 ≤ bits then "-" else ""
  let interval := Interval.ofBits (bits / 0x10000000000000 % 0x800) (bits % 0x10000000000000)
  match interval.value, interval.shortest? with
  | 0, _ => sign ++ "0.0"
  | _, none => sign ++ "0.0"
  | _, some (point, place) =>
    let digits := Nat.toDigits 10 point
    sign ++ String.ofList (layOut digits (place + digits.length - 1))

end RelationalDesign.Number
