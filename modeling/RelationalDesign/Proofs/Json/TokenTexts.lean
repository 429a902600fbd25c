import RelationalDesign.Json.Token
import RelationalDesign.Proofs.Number.Numerals

/-!
# The grammar of JSON tokens

Which characters a token of JSON can be written with (`TokenText`), and which texts spell
which tokens: the tokens in order, with any white space before, between and behind them
(`Spells`). A text between quotes is written unit by unit, as itself or by an escape, and the
units form characters if code units that are no characters come in pairs (`Forms`).

**A text that spells tokens is read as those tokens** (`tokens_of_spells`). A numeral could go
on with what follows it, so behind a number there has to be a comma, a closing bracket or the
end (`NumbersEnd`), as is the case in every document.
-/

set_option autoImplicit false

namespace RelationalDesign.Json

open Number (NumeralText EndsNumeral)

/-! ## Quoted texts -/

/-- A hexadecimal digit of a value, in either case. -/
def IsHexDigit (value : Nat) (c : Char) : Prop :=
  value < 16 ∧ (c = Nat.digitChar value ∨ c = (Nat.digitChar value).toUpper)

/-- The four hexadecimal digits of a code unit. -/
inductive HexText : Nat → List Char → Prop
  | mk {first second third fourth : Nat} {a b c d : Char} (isFirst : IsHexDigit first a)
      (isSecond : IsHexDigit second b) (isThird : IsHexDigit third c)
      (isFourth : IsHexDigit fourth d) :
      HexText (((first * 16 + second) * 16 + third) * 16 + fourth) [a, b, c, d]

/-- The letters of escapes, each with the character that it stands for. -/
def escapes : List (Char × Char) :=
  [('"', '"'), ('\\', '\\'), ('/', '/'), ('b', '\x08'), ('f', '\x0c'), ('n', '\n'), ('r', '\r'),
    ('t', '\t')]

/-- The text of one unit of a quoted text. -/
inductive UnitText : TextUnit → List Char → Prop
  | plain {c : Char} (notQuote : c ≠ '"') (notBackslash : c ≠ '\\') (noControl : 0x20 ≤ c.toNat) :
      UnitText (.char c) [c]
  | escape {letter c : Char} (isEscape : (letter, c) ∈ escapes) : UnitText (.char c) ['\\', letter]
  | code {value : Nat} {digits : List Char} (written : HexText value digits) :
      UnitText (.code value) ('\\' :: 'u' :: digits)

/-- The text of the units of a quoted text. -/
inductive UnitsText : List TextUnit → List Char → Prop
  | nil : UnitsText [] []
  | cons {unit : TextUnit} {units : List TextUnit} {text more : List Char}
      (first : UnitText unit text) (later : UnitsText units more) :
      UnitsText (unit :: units) (text ++ more)

/-- The units that form some characters. A character beyond the first plane takes two code
units, a leading and a trailing one. -/
inductive Forms : List TextUnit → List Char → Prop
  | nil : Forms [] []
  | char {c : Char} {units : List TextUnit} {content : List Char} (later : Forms units content) :
      Forms (.char c :: units) (c :: content)
  | code {c : Char} {units : List TextUnit} {content : List Char} (single : c.toNat < 0x10000)
      (later : Forms units content) : Forms (.code c.toNat :: units) (c :: content)
  | pair {c : Char} {leading trailing : Nat} {units : List TextUnit} {content : List Char}
      (isLeading : 0xD800 ≤ leading ∧ leading ≤ 0xDBFF)
      (isTrailing : 0xDC00 ≤ trailing ∧ trailing ≤ 0xDFFF)
      (value : c.toNat = 0x10000 + (leading - 0xD800) * 0x400 + (trailing - 0xDC00))
      (later : Forms units content) :
      Forms (.code leading :: .code trailing :: units) (c :: content)

/-! ## Tokens -/

/-- The text of a token. -/
inductive TokenText : Token → List Char → Prop
  | openRecord : TokenText .openRecord ['\x7b']
  | closeRecord : TokenText .closeRecord ['\x7d']
  | openList : TokenText .openList ['[']
  | closeList : TokenText .closeList [']']
  | colon : TokenText .colon [':']
  | comma : TokenText .comma [',']
  | null : TokenText .null "null".toList
  | true : TokenText (.boolean true) "true".toList
  | false : TokenText (.boolean false) "false".toList
  | number {literal : Number.Literal} {text : List Char} (written : NumeralText literal text) :
      TokenText (.number literal) text
  | text {units : List TextUnit} {text content : List Char} (written : UnitsText units text)
      (formed : Forms units content) :
      TokenText (.text (some (String.ofList content))) ('"' :: (text ++ ['"']))
  | formless {units : List TextUnit} {text : List Char} (written : UnitsText units text)
      (formless : ∀ content, ¬Forms units content) :
      TokenText (.text none) ('"' :: (text ++ ['"']))

/-- The texts that spell some tokens, with any white space before, between and behind them. -/
inductive Spells : List Char → List Token → Prop
  | nil {blanks : List Char} (blank : ∀ c ∈ blanks, isSpace c = true) : Spells blanks []
  | cons {blanks text rest : List Char} {token : Token} {tokens : List Token}
      (blank : ∀ c ∈ blanks, isSpace c = true) (written : TokenText token text)
      (later : Spells rest tokens) : Spells (blanks ++ (text ++ rest)) (token :: tokens)

/-- At the beginning of some tokens there is what can follow a value: a comma, a closing
bracket or the end. -/
def EndsValue (tokens : List Token) : Prop :=
  ∀ token ∈ tokens.head?, token = .comma ∨ token = .closeList ∨ token = .closeRecord

/-- Tokens in which every number is followed by what can follow a value. -/
def NumbersEnd : List Token → Prop
  | [] => True
  | token :: tokens => ((∃ literal, token = .number literal) → EndsValue tokens) ∧ NumbersEnd tokens

/-! ## Reading quoted texts -/

theorem hexValue?_of_isHexDigit {value : Nat} {c : Char} (digit : IsHexDigit value c) :
    hexValue? c = some value := by
  have each : ∀ value < 16, hexValue? (Nat.digitChar value) = some value ∧
      hexValue? (Nat.digitChar value).toUpper = some value := by decide
  obtain ⟨small, rfl | rfl⟩ := digit
  · exact (each value small).1
  · exact (each value small).2

theorem hexCode?_of_hexText {value : Nat} {a b c d : Char} (written : HexText value [a, b, c, d]) :
    hexCode? a b c d = some value := by
  cases written with
  | mk isFirst isSecond isThird isFourth =>
    unfold hexCode?
    rw [hexValue?_of_isHexDigit isFirst, hexValue?_of_isHexDigit isSecond,
      hexValue?_of_isHexDigit isThird, hexValue?_of_isHexDigit isFourth]
    rfl

theorem lt_of_hexText {value : Nat} {digits : List Char} (written : HexText value digits) :
    value < 0x10000 := by
  obtain ⟨isFirst, isSecond, isThird, isFourth⟩ := written
  have := isFirst.1
  have := isSecond.1
  have := isThird.1
  have := isFourth.1
  omega

theorem escaped?_of_mem_escapes :
    ∀ pair ∈ escapes, escaped? pair.1 = some pair.2 ∧ pair.1 ≠ 'u' := by
  decide

theorem readUnits_escape {letter c : Char} (isEscape : escaped? letter = some c)
    (notCode : letter ≠ 'u') (rest : List Char) :
    readUnits ('\\' :: letter :: rest) =
      (readUnits rest).map fun (units, rest) => (.char c :: units, rest) := by
  rw [readUnits]
  · rw [isEscape]
    cases readUnits rest <;> rfl
  · rintro _ _ _ _ _ rfl
    exact absurd rfl notCode

theorem readUnits_plain {c : Char} (notQuote : c ≠ '"') (notBackslash : c ≠ '\\')
    (noControl : 0x20 ≤ c.toNat) (rest : List Char) :
    readUnits (c :: rest) =
      (readUnits rest).map fun (units, rest) => (.char c :: units, rest) := by
  rw [readUnits, if_neg (Nat.not_lt.2 noControl)]
  · cases readUnits rest <;> rfl
  · exact notQuote
  · rintro _ _ _ _ _ rfl
    exact absurd rfl notBackslash
  · rintro _ _ rfl
    exact absurd rfl notBackslash

/-- The text of a unit is read as the unit. -/
theorem readUnits_unitText {unit : TextUnit} {text : List Char} (written : UnitText unit text)
    (rest : List Char) :
    readUnits (text ++ rest) = (readUnits rest).map fun (units, rest) => (unit :: units, rest) := by
  cases written with
  | plain notQuote notBackslash noControl =>
    exact readUnits_plain notQuote notBackslash noControl rest
  | escape isEscape =>
    obtain ⟨stands, notCode⟩ := escaped?_of_mem_escapes _ isEscape
    exact readUnits_escape stands notCode rest
  | @code value digits written =>
    obtain ⟨a, b, c, d, rfl⟩ : ∃ a b c d, digits = [a, b, c, d] := by
      cases written
      exact ⟨_, _, _, _, rfl⟩
    show readUnits ('\\' :: 'u' :: a :: b :: c :: d :: rest) = _
    rw [readUnits, hexCode?_of_hexText written]
    cases readUnits rest <;> rfl

/-- **A quoted text is read up to its closing quote.** -/
theorem readUnits_unitsText {units : List TextUnit} {text : List Char}
    (written : UnitsText units text) (rest : List Char) :
    readUnits (text ++ '"' :: rest) = some (units, rest) := by
  induction written with
  | nil => rfl
  | cons first _ ih =>
    rw [List.append_assoc, readUnits_unitText first, ih]
    rfl

/-! ## Characters of quoted texts -/

/-- Units whose numbers have 16 bits. -/
def Small (units : List TextUnit) : Prop := ∀ value, .code value ∈ units → value < 0x10000

theorem Small.of_cons {unit : TextUnit} {units : List TextUnit} (small : Small (unit :: units)) :
    Small units := fun value member => small value (List.mem_cons_of_mem _ member)

theorem Small.head {value : Nat} {units : List TextUnit} (small : Small (.code value :: units)) :
    value < 0x10000 := small value List.mem_cons_self

theorem small_of_unitsText {units : List TextUnit} {text : List Char}
    (written : UnitsText units text) : Small units := by
  induction written with
  | nil => exact fun _ member => absurd member List.not_mem_nil
  | cons first _ ih =>
    intro value member
    rcases List.mem_cons.1 member with rfl | later
    · cases first with
      | code written => exact lt_of_hexText written
    · exact ih value later

theorem isLeading_iff {value : Nat} : isLeading value = true ↔ 0xD800 ≤ value ∧ value ≤ 0xDBFF := by
  unfold isLeading
  rw [Bool.and_eq_true, decide_eq_true_iff, decide_eq_true_iff]

theorem isTrailing_iff {value : Nat} :
    isTrailing value = true ↔ 0xDC00 ≤ value ∧ value ≤ 0xDFFF := by
  unfold isTrailing
  rw [Bool.and_eq_true, decide_eq_true_iff, decide_eq_true_iff]

/-- A character is no half of a pair. -/
theorem single_of_char (c : Char) : ¬isLeading c.toNat = true ∧ ¬isTrailing c.toNat = true := by
  have valid : c.toNat < 0xD800 ∨ 0xDFFF < c.toNat ∧ c.toNat < 0x110000 := c.valid
  rw [isLeading_iff, isTrailing_iff]
  omega

theorem toNat_ofNat_of_isValidChar {value : Nat} (valid : value.isValidChar) :
    (Char.ofNat value).toNat = value := by
  have same : Char.ofNat value = Char.ofNatAux value valid := dif_pos valid
  rw [same]
  rfl

/-- What is no half of a pair is a character. -/
theorem toNat_ofNat_of_single {value : Nat} (small : value < 0x10000)
    (notLeading : ¬isLeading value = true) (notTrailing : ¬isTrailing value = true) :
    (Char.ofNat value).toNat = value := by
  rw [isLeading_iff] at notLeading
  rw [isTrailing_iff] at notTrailing
  refine toNat_ofNat_of_isValidChar ?_
  show value < 0xD800 ∨ 0xDFFF < value ∧ value < 0x110000
  omega

theorem charactersOf_single {value : Nat} (notLeading : ¬isLeading value = true)
    (notTrailing : ¬isTrailing value = true) (units : List TextUnit) :
    charactersOf (.code value :: units) = (charactersOf units).map (Char.ofNat value :: ·) := by
  rcases units with _ | ⟨c | code, rest⟩ <;> simp [charactersOf, notLeading, notTrailing]

theorem charactersOf_of_forms {units : List TextUnit} {content : List Char}
    (formed : Forms units content) : charactersOf units = some content := by
  induction formed with
  | nil => rfl
  | char _ ih => rw [charactersOf, ih]; rfl
  | @code c units content _ _ ih =>
    obtain ⟨notLeading, notTrailing⟩ := single_of_char c
    rw [charactersOf_single notLeading notTrailing, ih, Char.ofNat_toNat]
    rfl
  | pair leads trails value _ ih =>
    rw [charactersOf, if_pos (isLeading_iff.2 leads), if_pos (isTrailing_iff.2 trails), ih, ← value,
      Char.ofNat_toNat]
    rfl

/-- A code unit that is no half of a pair forms a character. -/
theorem Forms.ofSingle {value : Nat} {units : List TextUnit} {content : List Char}
    (small : value < 0x10000) (notLeading : ¬isLeading value = true)
    (notTrailing : ¬isTrailing value = true) (later : Forms units content) :
    Forms (.code value :: units) (Char.ofNat value :: content) := by
  have same := toNat_ofNat_of_single small notLeading notTrailing
  have formed : Forms (.code (Char.ofNat value).toNat :: units) (Char.ofNat value :: content) :=
    .code (by rwa [same]) later
  rwa [same] at formed

/-- A pair of code units forms a character. -/
theorem Forms.ofPair {leading trailing : Nat} {units : List TextUnit} {content : List Char}
    (leads : isLeading leading = true) (trails : isTrailing trailing = true)
    (later : Forms units content) :
    Forms (.code leading :: .code trailing :: units)
      (Char.ofNat (0x10000 + (leading - 0xD800) * 0x400 + (trailing - 0xDC00)) :: content) := by
  rw [isLeading_iff] at leads
  rw [isTrailing_iff] at trails
  refine .pair leads trails (toNat_ofNat_of_isValidChar ?_) later
  show _ < 0xD800 ∨ 0xDFFF < _ ∧ _ < 0x110000
  omega

/-- **The characters of units** are those that they form. -/
theorem forms_of_charactersOf {units : List TextUnit} {content : List Char}
    (small : Small units) (read : charactersOf units = some content) : Forms units content := by
  fun_induction charactersOf units generalizing content with
  | case1 => cases read; exact .nil
  | case2 c rest ih =>
    obtain ⟨later, formed, rfl⟩ := Option.map_eq_some_iff.1 read
    exact .char (ih (small.of_cons) formed)
  | case3 leading trailing rest leads trails ih =>
    obtain ⟨later, formed, rfl⟩ := Option.map_eq_some_iff.1 read
    exact .ofPair leads trails (ih small.of_cons.of_cons formed)
  | case4 => cases read
  | case5 => cases read
  | case6 leading trailing rest notLeading notTrailing ih =>
    obtain ⟨later, formed, rfl⟩ := Option.map_eq_some_iff.1 read
    exact .ofSingle (small.head) notLeading notTrailing (ih small.of_cons formed)
  | case7 => cases read
  | case8 value rest _ single ih =>
    rw [Bool.or_eq_true, not_or] at single
    obtain ⟨later, formed, rfl⟩ := Option.map_eq_some_iff.1 read
    exact .ofSingle small.head single.1 single.2 (ih small.of_cons formed)

/-! ## Reading tokens -/

/-- The text of a numeral begins with a digit or a minus sign. -/
theorem exists_cons_of_numeralText {literal : Number.Literal} {text : List Char}
    (written : NumeralText literal text) :
    ∃ c others, text = c :: others ∧ (c.isDigit = true ∨ c = '-') := by
  obtain ⟨⟨⟨nonempty, all⟩, -⟩, -, -⟩ := written
  next negative whole _ fractionText exponentText _ =>
  cases negative with
  | true => exact ⟨'-', whole ++ fractionText ++ exponentText, by simp, .inr rfl⟩
  | false =>
    cases whole with
    | nil => exact absurd rfl nonempty
    | cons digit others =>
      exact ⟨digit, others ++ fractionText ++ exponentText, by simp,
        .inl (all digit List.mem_cons_self)⟩

theorem token?_numeral {c : Char} (begins : c.isDigit = true ∨ c = '-') (rest : List Char) :
    token? (c :: rest) =
      (Number.Literal.read? (c :: rest)).map fun (literal, rest) => (.number literal, rest) := by
  unfold token?
  split
  case h_12 => rfl
  case h_1 => contradiction
  all_goals
    next same =>
    obtain ⟨rfl, _⟩ := List.cons.inj same
    exact absurd begins (by decide)

theorem token?_quoted {units : List TextUnit} {text : List Char} (written : UnitsText units text)
    (rest : List Char) :
    token? ('"' :: (text ++ ['"']) ++ rest) =
      some (.text ((charactersOf units).map String.ofList), rest) := by
  rw [List.cons_append, List.append_assoc, token?]
  show (readUnits (text ++ '"' :: rest)).map _ = _
  rw [readUnits_unitsText written]
  rfl

/-- **The text of a token is read as the token.** -/
theorem token?_tokenText {token : Token} {text rest : List Char} (written : TokenText token text)
    (ends : (∃ literal, token = .number literal) → EndsNumeral rest) :
    token? (text ++ rest) = some (token, rest) := by
  cases written with
  | number written =>
    obtain ⟨c, others, rfl, begins⟩ := exists_cons_of_numeralText written
    rw [List.cons_append, token?_numeral begins, ← List.cons_append,
      Number.read?_numeralText written (ends ⟨_, rfl⟩)]
    rfl
  | text written formed =>
    rw [token?_quoted written, charactersOf_of_forms formed]
    rfl
  | @formless units text written formless =>
    have noCharacters : charactersOf units = none :=
      Option.eq_none_iff_forall_ne_some.2 fun content read =>
        formless content (forms_of_charactersOf (small_of_unitsText written) read)
    rw [token?_quoted written, noCharacters]
    rfl
  | _ => rfl

/-- The text of a token begins with no white space. -/
theorem exists_cons_of_tokenText {token : Token} {text : List Char}
    (written : TokenText token text) : ∃ c others, text = c :: others ∧ isSpace c = false := by
  cases written with
  | number written =>
    obtain ⟨c, others, rfl, begins⟩ := exists_cons_of_numeralText written
    refine ⟨c, others, rfl, Bool.eq_false_iff.2 fun space => ?_⟩
    simp only [isSpace, Bool.or_eq_true, beq_iff_eq] at space
    rcases space with ((rfl | rfl) | rfl) | rfl <;> exact absurd begins (by decide)
  | _ => exact ⟨_, _, rfl, by decide⟩

/-! ## Texts that spell tokens -/

namespace Spells

variable {text later blanks : List Char} {tokens others : List Token}

/-- White space before a text does not matter. -/
theorem indent (spelled : Spells text tokens) (blank : ∀ c ∈ blanks, isSpace c = true) :
    Spells (blanks ++ text) tokens := by
  have both {more : List Char} (next : ∀ c ∈ more, isSpace c = true) :
      ∀ c ∈ blanks ++ more, isSpace c = true := fun c member =>
    (List.mem_append.1 member).elim (blank c) (next c)
  cases spelled with
  | nil next => exact .nil (both next)
  | cons next written later =>
    rw [← List.append_assoc]
    exact .cons (both next) written later

theorem append (spelled : Spells text tokens) (next : Spells later others) :
    Spells (text ++ later) (tokens ++ others) := by
  induction spelled with
  | nil blank => exact next.indent blank
  | cons blank written _ ih =>
    rw [List.append_assoc, List.append_assoc]
    exact .cons blank written ih

/-- A text that spells one token. -/
theorem single {token : Token} (written : TokenText token text) : Spells text [token] := by
  have spelled : Spells ([] ++ (text ++ [])) [token] :=
    .cons (by simp) written (.nil (by simp))
  simpa using spelled

/-- What can follow a value does not go on with a numeral. -/
theorem endsNumeral (spelled : Spells text tokens) (ends : EndsValue tokens) :
    EndsNumeral text := by
  have space : ∀ c, isSpace c = true → c.isDigit = false ∧ c ≠ '.' ∧ c ≠ 'e' ∧ c ≠ 'E' := by
    intro c space
    simp only [isSpace, Bool.or_eq_true, beq_iff_eq] at space
    rcases space with ((rfl | rfl) | rfl) | rfl <;> decide
  intro c first
  cases spelled with
  | nil blank => exact space c (blank c (List.mem_of_head? first))
  | @cons blanks _ _ token _ blank written _ =>
    cases blanks with
    | cons =>
      cases first
      exact space c (blank c List.mem_cons_self)
    | nil =>
      rcases ends token rfl with rfl | rfl | rfl <;> cases written <;> cases first <;> decide

end Spells

/-- **A text that spells tokens is read as those tokens.** -/
theorem tokens_of_spells {text : List Char} {list : List Token} (spelled : Spells text list)
    (numbersEnd : NumbersEnd list) : tokens text = list := by
  induction spelled with
  | @nil blanks blank =>
    unfold tokens
    split
    · rfl
    · next start =>
      rw [← List.append_nil blanks, List.dropWhile_append_of_pos blank] at start
      cases start
  | @cons blanks text rest token later blank written spelled ih =>
    obtain ⟨ends, numbersEnd⟩ := numbersEnd
    have first : token? (text ++ rest) = some (token, rest) :=
      token?_tokenText written fun number => spelled.endsNumeral (ends number)
    obtain ⟨c, others, rfl, noSpace⟩ := exists_cons_of_tokenText written
    have stop : List.dropWhile isSpace (blanks ++ (c :: others ++ rest)) = c :: (others ++ rest) := by
      rw [List.dropWhile_append_of_pos blank]
      exact List.dropWhile_cons_of_neg (by simp [noSpace])
    unfold tokens
    split
    · next start => exact absurd (start.symm.trans stop) (by simp)
    · next start =>
      obtain ⟨rfl, rfl⟩ := List.cons.inj (start.symm.trans stop)
      split
      · next fails => cases fails.symm.trans first
      · next taken =>
        cases taken.symm.trans first
        rw [ih numbersEnd]

end RelationalDesign.Json
