import RelationalDesign.Number.Literal

/-!
# Numerals and their texts

The grammar of numerals: a minus sign or none, whole digits without a zero before others,
digits after a point or no point, and an exponent or none (`NumeralText`). The text of a
numeral is read as that numeral, whatever follows that does not go on with it
(`read?_numeralText`).

An integer is written as a numeral of its digits (`numeralText_toString`), and its numeral has
it as its value, if it fits into 64 bits with a sign (`value?_ofInt`).
-/

set_option autoImplicit false

namespace RelationalDesign.Number

/-! ## The grammar -/

/-- Some decimal digits, at least one. -/
def IsDigits (digits : List Char) : Prop := digits ≠ [] ∧ ∀ c ∈ digits, c.isDigit = true

/-- Digits without a zero before others. -/
def IsWhole (digits : List Char) : Prop :=
  IsDigits digits ∧ (digits.head? = some '0' → digits = ['0'])

/-- The text of the digits behind a point; there is no point without digits. -/
inductive FractionText : List Char → List Char → Prop
  | absent : FractionText [] []
  | point {digits : List Char} (valid : IsDigits digits) : FractionText digits ('.' :: digits)

/-- The text of a sign before the digits of an exponent. -/
inductive SignText : Bool → List Char → Prop
  | absent : SignText false []
  | plus : SignText false ['+']
  | minus : SignText true ['-']

/-- The text of an exponent. -/
inductive ExponentText : Option (Bool × List Char) → List Char → Prop
  | absent : ExponentText none []
  | mark {mark : Char} {negative : Bool} {sign digits : List Char}
      (isMark : mark = 'e' ∨ mark = 'E') (signed : SignText negative sign)
      (valid : IsDigits digits) :
      ExponentText (some (negative, digits)) (mark :: (sign ++ digits))

/-- The text of a numeral. -/
inductive NumeralText : Literal → List Char → Prop
  | mk {negative : Bool} {whole fraction fractionText exponentText : List Char}
      {exponent : Option (Bool × List Char)} (isWhole : IsWhole whole)
      (fractional : FractionText fraction fractionText)
      (exponential : ExponentText exponent exponentText) :
      NumeralText ⟨negative, whole, fraction, exponent⟩
        ((if negative then ['-'] else []) ++ whole ++ fractionText ++ exponentText)

/-- No numeral goes on at the beginning of a text. -/
def EndsNumeral (text : List Char) : Prop :=
  ∀ c ∈ text.head?, c.isDigit = false ∧ c ≠ '.' ∧ c ≠ 'e' ∧ c ≠ 'E'

/-! ## Reading -/

section Reading

variable {digits rest : List Char}

/-- Digits are taken as far as they go. -/
theorem takeWhile_isDigit (valid : ∀ c ∈ digits, c.isDigit = true)
    (ends : ∀ c ∈ rest.head?, c.isDigit = false) :
    (digits ++ rest).takeWhile Char.isDigit = digits ∧
      (digits ++ rest).dropWhile Char.isDigit = rest := by
  have stop : rest.takeWhile Char.isDigit = [] ∧ rest.dropWhile Char.isDigit = rest := by
    cases rest with
    | nil => exact ⟨rfl, rfl⟩
    | cons c others =>
      have apart := ends c rfl
      exact ⟨List.takeWhile_cons_of_neg (by simp [apart]),
        List.dropWhile_cons_of_neg (by simp [apart])⟩
  rw [List.takeWhile_append_of_pos valid, List.dropWhile_append_of_pos valid, stop.1, stop.2,
    List.append_nil]
  exact ⟨rfl, rfl⟩

theorem readExponentDigits_append (valid : IsDigits digits)
    (ends : ∀ c ∈ rest.head?, c.isDigit = false) (negative : Bool) :
    readExponentDigits negative (digits ++ rest) = some (some (negative, digits), rest) := by
  obtain ⟨taken, left⟩ := takeWhile_isDigit valid.2 ends
  unfold readExponentDigits
  rw [taken, left]
  split
  · exact absurd rfl valid.1
  · rfl

theorem ne_of_isDigit {c other : Char} (digit : c.isDigit = true)
    (apart : other.isDigit = false) : c ≠ other := by
  rintro rfl
  exact Bool.false_ne_true (apart.symm.trans digit)

theorem readExponent_append {exponent : Option (Bool × List Char)} {text : List Char}
    (written : ExponentText exponent text) (ends : EndsNumeral rest) :
    readExponent (text ++ rest) = some (exponent, rest) := by
  have noDigit : ∀ c ∈ rest.head?, c.isDigit = false := fun c first => (ends c first).1
  cases written with
  | absent =>
    cases rest with
    | nil => rfl
    | cons c others =>
      obtain ⟨_, _, notSmall, notLarge⟩ := ends c rfl
      unfold readExponent
      exact if_neg (not_or.2 ⟨notSmall, notLarge⟩)
  | @mark mark negative sign digits isMark signed valid =>
    have readDigits := readExponentDigits_append valid noDigit negative
    unfold readExponent
    refine (if_pos isMark).trans ?_
    cases signed with
    | plus => exact readDigits
    | minus => exact readDigits
    | absent =>
      -- a digit is no sign
      cases digits with
      | nil => exact absurd rfl valid.1
      | cons digit others =>
        have isDigit := valid.2 digit List.mem_cons_self
        split
        · next same => exact absurd (List.cons.inj same).1 (ne_of_isDigit isDigit (by decide))
        · next same => exact absurd (List.cons.inj same).1 (ne_of_isDigit isDigit (by decide))
        · exact readDigits

theorem readFraction_append {fraction text : List Char} (written : FractionText fraction text)
    (ends : ∀ c ∈ rest.head?, c.isDigit = false ∧ c ≠ '.') :
    readFraction (text ++ rest) = some (fraction, rest) := by
  cases written with
  | absent =>
    rw [List.nil_append]
    unfold readFraction
    split
    · exact absurd rfl (ends '.' rfl).2
    · rfl
  | point valid =>
    obtain ⟨taken, left⟩ := takeWhile_isDigit valid.2 fun c first => (ends c first).1
    rw [List.cons_append, readFraction, taken, left]
    split
    · exact absurd rfl valid.1
    · rfl

/-- The text of an exponent begins with its mark. -/
theorem head?_exponentText {exponent : Option (Bool × List Char)} {text : List Char}
    (written : ExponentText exponent text) (ends : EndsNumeral rest) :
    ∀ c ∈ (text ++ rest).head?, c.isDigit = false ∧ c ≠ '.' := by
  cases written with
  | absent => exact fun c first => ⟨(ends c first).1, (ends c first).2.1⟩
  | mark isMark =>
    rintro c ⟨⟩
    rcases isMark with rfl | rfl <;> decide

/-- Behind whole digits comes a point, an exponent or the end. -/
theorem head?_fractionText {fraction text : List Char} (written : FractionText fraction text)
    (ends : ∀ c ∈ rest.head?, c.isDigit = false ∧ c ≠ '.') :
    ∀ c ∈ (text ++ rest).head?, c.isDigit = false := by
  cases written with
  | absent => exact fun c first => (ends c first).1
  | point =>
    rintro c ⟨⟩
    decide

/-- **The text of a numeral is read as the numeral.** -/
theorem read?_numeralText {literal : Literal} {text : List Char}
    (written : NumeralText literal text) (ends : EndsNumeral rest) :
    Literal.read? (text ++ rest) = some (literal, rest) := by
  obtain ⟨isWhole, fractional, exponential⟩ := written
  next negative whole fraction fractionText exponentText exponent =>
  obtain ⟨⟨nonempty, all⟩, noZero⟩ := isWhole
  have behindFraction := head?_exponentText exponential ends
  obtain ⟨taken, left⟩ :=
    takeWhile_isDigit all (head?_fractionText fractional behindFraction)
  have unsigned : readUnsigned negative
      (whole ++ (fractionText ++ (exponentText ++ rest))) =
        some (⟨negative, whole, fraction, exponent⟩, rest) := by
    unfold readUnsigned
    rw [taken, left, readFraction_append fractional behindFraction]
    split
    · exact absurd rfl nonempty
    · exact absurd (noZero rfl) (by simp)
    · show (readExponent (exponentText ++ rest) >>= _) = _
      rw [readExponent_append exponential ends]
      rfl
  simp only [List.append_assoc]
  cases negative with
  | true => exact unsigned
  | false =>
    show Literal.read? (whole ++ _) = _
    unfold Literal.read?
    split
    · next sign =>
      cases whole with
      | nil => exact absurd rfl nonempty
      | cons digit others =>
        exact absurd (List.cons.inj sign).1
          (ne_of_isDigit (all digit List.mem_cons_self) (by decide))
    · exact unsigned

end Reading

/-! ## Integers -/

/-- The numeral of an integer. -/
def Literal.ofInt (value : Int) : Literal :=
  ⟨decide (value < 0), Nat.toDigits 10 value.natAbs, [], none⟩

/-- Whether an integer fits into 64 bits with a sign. -/
def Fits (value : Int) : Prop := -(signedLimit : Int) ≤ value ∧ value < signedLimit

instance (value : Int) : Decidable (Fits value) := inferInstanceAs (Decidable (_ ∧ _))

theorem head?_toDigits_ne_zero {n : Nat} (positive : 0 < n) :
    (Nat.toDigits 10 n).head? ≠ some '0' := by
  induction n using Nat.strongRecOn with
  | ind n ih =>
    rw [Nat.toDigits_eq_if (by decide)]
    split
    · next small =>
      have digits : ∀ digit < 10, 0 < digit → [Nat.digitChar digit].head? ≠ some '0' := by decide
      exact digits n small positive
    · next large =>
      have first := List.head?_eq_some_head (Nat.toDigits_ne_nil : Nat.toDigits 10 (n / 10) ≠ [])
      rw [List.head?_append, first, Option.some_or, ← first]
      exact ih (n / 10) (by omega) (by omega)

theorem isWhole_toDigits (n : Nat) : IsWhole (Nat.toDigits 10 n) := by
  refine ⟨⟨Nat.toDigits_ne_nil, fun c => Nat.isDigit_of_mem_toDigits (by decide) (by decide)⟩, ?_⟩
  intro zero
  rcases Nat.eq_zero_or_pos n with rfl | positive
  · rfl
  · exact absurd zero (head?_toDigits_ne_zero positive)

theorem naturalOfDigits_toDigits (n : Nat) : naturalOfDigits (Nat.toDigits 10 n) = n :=
  Nat.ofDigitChars_ten_toDigits

/-- **The text of an integer** is one of its numeral. -/
theorem numeralText_toString (value : Int) :
    NumeralText (.ofInt value) (toString value).toList := by
  have text : (toString value).toList =
      (if decide (value < 0) then ['-'] else []) ++ Nat.toDigits 10 value.natAbs ++ [] ++ [] := by
    cases value with
    | ofNat n =>
      show (Nat.repr n).toList = _
      simp [Nat.repr]
    | negSucc n =>
      show ("-" ++ Nat.repr (n + 1)).toList = _
      simp [Nat.repr]
  rw [text]
  exact .mk (isWhole_toDigits _) .absent .absent

/-- **The numeral of an integer of 64 bits** has it as its value. -/
theorem value?_ofInt {value : Int} (fits : Fits value) :
    (Literal.ofInt value).value? = some (.integer value) := by
  obtain ⟨low, high⟩ := fits
  have noFraction : (([] : List Char) == []) = true := rfl
  have noExponent : ((none : Option (Bool × List Char)) == none) = true := rfl
  simp only [signedLimit] at low high
  simp only [Literal.value?, Literal.ofInt, naturalOfDigits_toDigits, noFraction, noExponent,
    wordLimit, signedLimit]
  by_cases negative : value < 0
  · have magnitude : 0 < value.natAbs ∧ value.natAbs ≤ 0x8000000000000000 := by omega
    have same : -(value.natAbs : Int) = value := by omega
    rw [if_neg (by simp [negative]), if_pos (by simp [negative, magnitude]), same]
  · have magnitude : value.natAbs < 0x10000000000000000 := by omega
    have same : (value.natAbs : Int) = value := by omega
    rw [if_pos (by simp [negative, magnitude]), same]

end RelationalDesign.Number
