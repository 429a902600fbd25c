import RelationalDesign.SchemeText.Writing

/-!
# Texts that spell tokens

A text spells the tokens that it is read as (`Spells`). White space before a text spells
nothing, and a punctuation mark spells its token, whatever follows. A word spells its token
only if the text after it does not go on with a letter or a digit (`Breaks`); a quoted text
ends by itself.

**A written name spells one token with its text**: a bare word, unless the name is a keyword
or does not have the form of a word, and a quoted text otherwise (`Spells.name`). Words are
told apart from everything else by their first character, since no letter is white space
(`isBlank_eq_false`), and a quoted text is read back character by character
(`readQuoted_escape`).
-/

set_option autoImplicit false

namespace RelationalDesign

namespace CharacterClass

theorem exists_of_inRanges {code : Nat} {ranges : List (Nat × Nat)}
    (inside : inRanges code ranges = true) :
    ∃ range ∈ ranges, range.1 ≤ code ∧ code ≤ range.2 := by
  induction ranges with
  | nil => cases inside
  | cons range later ih =>
    unfold inRanges at inside
    split at inside
    · cases inside
    · next notBefore =>
      split at inside
      · next upTo => exact ⟨range, List.mem_cons_self, Nat.le_of_not_lt notBefore, upTo⟩
      · obtain ⟨other, member, bounds⟩ := ih inside
        exact ⟨other, List.mem_cons_of_mem range member, bounds⟩

/-- No code point of white space is alphabetic. There are few of them, so each is tried. -/
theorem notAlphabetic_of_mem_blankRanges :
    ∀ range ∈ blankRanges, ∀ code ∈ List.range' range.1 (range.2 + 1 - range.1),
      inRanges code alphabeticRanges = false := by
  decide +kernel

theorem isAlphabetic_eq_false_of_isBlank {c : Char} (blank : isBlank c = true) :
    isAlphabetic c = false := by
  obtain ⟨range, member, first, last⟩ := exists_of_inRanges blank
  refine notAlphabetic_of_mem_blankRanges range member c.toNat ?_
  rw [List.mem_range'_1]
  omega

end CharacterClass

namespace SchemeText

/-! ## Characters of words -/

section WordCharacters

variable {c : Char} (begins : beginsWord c = true)
include begins

/-- No word begins with white space. -/
theorem isBlank_eq_false : CharacterClass.isBlank c = false := by
  refine Bool.eq_false_iff.2 fun blank => ?_
  unfold beginsWord at begins
  rw [CharacterClass.isAlphabetic_eq_false_of_isBlank blank, Bool.false_or, beq_iff_eq] at begins
  rw [begins] at blank
  exact absurd blank (by decide)

/-- A character with which no word begins is another one. -/
theorem ne_of_beginsWord {other : Char} (apart : beginsWord other = false) : c ≠ other := by
  rintro rfl
  exact Bool.false_ne_true (apart.symm.trans begins)

theorem lexeme_of_beginsWord (rest : List Char) :
    lexeme c rest = ⟨.ok (.word (String.ofList (c :: rest.takeWhile continuesWord))),
      rest.dropWhile continuesWord⟩ := by
  unfold lexeme
  repeat rw [if_neg (ne_of_beginsWord begins (by decide))]
  exact if_pos begins

end WordCharacters

/-- Only a character that begins a word is read as one. -/
theorem beginsWord_of_lexeme {c : Char} {rest : List Char} {name : String}
    (read : (lexeme c rest).result = .ok (.word name)) : beginsWord c = true := by
  fun_cases lexeme c rest with
  | case10 => assumption
  | _ =>
    unfold lexeme at read
    simp [*] at read

/-- No word goes on at the beginning of a text. -/
def Breaks (text : List Char) : Prop := ∀ c ∈ text.head?, continuesWord c = false

theorem breaks_cons {c : Char} (apart : continuesWord c = false) (text : List Char) :
    Breaks (c :: text) := by
  rintro first ⟨⟩
  exact apart

theorem takeWhile_of_breaks {text : List Char} (breaks : Breaks text) :
    text.takeWhile continuesWord = [] ∧ text.dropWhile continuesWord = text := by
  cases text with
  | nil => exact ⟨rfl, rfl⟩
  | cons c rest =>
    have apart := breaks c rfl
    exact ⟨List.takeWhile_cons_of_neg (by simp [apart]),
      List.dropWhile_cons_of_neg (by simp [apart])⟩

/-! ## Spelling -/

/-- A text spells the tokens that it is read as. -/
def Spells (text : List Char) (tokens : List Token) : Prop := tokenize text = .ok tokens

theorem tokenize_of_none {text : List Char} (atEnd : next? text = none) :
    tokenize text = .ok [] := by
  rw [tokenize]
  split
  · rfl
  · next found => simp [atEnd] at found

/-- A text is read by its first token and the text after it. -/
theorem tokenize_of_some {text : List Char} {found : Lexeme} (first : next? text = some found) :
    tokenize text = found.result.bind fun token => (tokenize found.rest).map (token :: ·) := by
  rw [tokenize]
  split
  · next atEnd => simp [first] at atEnd
  · next other same =>
    rw [first] at same
    cases same
    cases found.result with
    | error error => rfl
    | ok token =>
      simp only [Except.bind]
      cases tokenize found.rest <;> rfl

theorem tokenize_congr {first second : List Char} (same : next? first = next? second) :
    tokenize first = tokenize second := by
  cases found : next? second with
  | none => rw [tokenize_of_none found, tokenize_of_none (same.trans found)]
  | some lexeme => rw [tokenize_of_some found, tokenize_of_some (same.trans found)]

namespace Spells

variable {text : List Char} {tokens : List Token}

theorem nil : Spells [] [] := tokenize_of_none rfl

/-- A token in front of a text is spelled in front of its tokens. -/
theorem cons {token : Token} {rest : List Char} (next : next? text = some ⟨.ok token, rest⟩)
    (later : Spells rest tokens) : Spells text (token :: tokens) := by
  unfold Spells at later ⊢
  rw [tokenize_of_some next]
  show (tokenize rest).map _ = _
  rw [later]
  rfl

theorem blank {c : Char} (blank : CharacterClass.isBlank c = true) (later : Spells text tokens) :
    Spells (c :: text) tokens := by
  unfold Spells at later ⊢
  rw [← later]
  apply tokenize_congr
  unfold next?
  rw [skipBlanks, if_pos blank]

/-! ## Words and names -/

/-- **A word spells its token**, if it does not go on. -/
theorem word {name : String} (form : isWord name = true) (breaks : Breaks text)
    (later : Spells text tokens) : Spells (name.toList ++ text) (.word name :: tokens) := by
  unfold isWord at form
  split at form
  · cases form
  next first rest spelled =>
  obtain ⟨begins, continues⟩ := Bool.and_eq_true_iff.1 form
  have others := List.all_eq_true.1 continues
  obtain ⟨stops, left⟩ := takeWhile_of_breaks breaks
  have found : lexeme first (rest ++ text) = ⟨.ok (.word name), text⟩ := by
    rw [lexeme_of_beginsWord begins, List.takeWhile_append_of_pos others,
      List.dropWhile_append_of_pos others, stops, left, List.append_nil, ← spelled,
      String.ofList_toList]
  refine cons ?_ later
  unfold next?
  rw [spelled, List.cons_append, skipBlanks,
    if_neg (Bool.eq_false_iff.1 (isBlank_eq_false begins)),
    if_neg (ne_of_beginsWord begins (by decide))]
  exact congrArg some found

end Spells

theorem readQuoted_cons {c : Char} (notQuote : c ≠ '"') (notBackslash : c ≠ '\\')
    (rest : List Char) :
    readQuoted (c :: rest) = (readQuoted rest).map fun (text, rest) => (c :: text, rest) := by
  rw [readQuoted]
  · exact notQuote
  · rintro rfl
    exact absurd rfl notBackslash
  · rintro _ _ rfl
    exact absurd rfl notBackslash

/-- An escaped character is read back as the character. -/
theorem readQuoted_escape_append (c : Char) (rest : List Char) :
    readQuoted (escape c ++ rest) =
      (readQuoted rest).map fun (text, rest) => (c :: text, rest) := by
  unfold escape
  split
  · next quote => rw [quote]; rfl
  split
  · next backslash => rw [backslash]; rfl
  split
  · next line => rw [line]; rfl
  split
  · next tab => rw [tab]; rfl
  split
  · next carriage => rw [carriage]; rfl
  · next notQuote notBackslash _ _ _ => exact readQuoted_cons notQuote notBackslash rest

/-- An escaped text is read back up to the closing quote. -/
theorem readQuoted_escape (text rest : List Char) :
    readQuoted (text.flatMap escape ++ '"' :: rest) = some (text, rest) := by
  induction text with
  | nil => rfl
  | cons c later ih => rw [List.flatMap_cons, List.append_assoc, readQuoted_escape_append, ih]; rfl

/-- The token of a written name. -/
def nameToken (name : String) : Token :=
  if isWord name && !keywords.contains name then .word name else .quoted name

namespace Spells

variable {text : List Char} {tokens : List Token}

theorem quote (name : String) (later : Spells text tokens) :
    Spells ((SchemeText.quote name).toList ++ text) (.quoted name :: tokens) := by
  have spelled : (SchemeText.quote name).toList ++ text =
      '"' :: (name.toList.flatMap escape ++ '"' :: text) := by
    unfold SchemeText.quote
    simp
  have found : lexeme '"' (name.toList.flatMap escape ++ '"' :: text) =
      ⟨.ok (.quoted name), text⟩ := by
    unfold lexeme
    rw [readQuoted_escape]
    simp
  rw [spelled]
  exact cons (congrArg some found) later

/-- **A written name spells its token**, if no word goes on after it. -/
theorem name (name : String) (breaks : Breaks text) (later : Spells text tokens) :
    Spells ((writeName name).toList ++ text) (nameToken name :: tokens) := by
  unfold writeName nameToken
  split
  · next bare => exact word (Bool.and_eq_true_iff.1 bare).1 breaks later
  · exact quote name later

end Spells

end SchemeText

end RelationalDesign
