import RelationalDesign.Text.Basic

/-!
# Tokens of the scheme text

A scheme is written as a text of words, quoted texts and punctuation. Between
tokens there may be white space and comments, which run from a number sign to
the end of the line.

`next?` reads one token, or an error, off the front of a text. It takes at least one
character (`exists_taken`), also for an error. `tokenize` reads a whole text and stops at
the first error, `lexemes` reads on after errors.
-/

set_option autoImplicit false

namespace RelationalDesign.SchemeText

/-- The tokens of the scheme text. -/
inductive Token where
  | word (text : String)
  | quoted (text : String)
  | openBrace
  | closeBrace
  | openParen
  | closeParen
  | comma
  | arrow
deriving DecidableEq

/-- How messages name a token, or the end of the text where there is none. -/
def describe : Option Token → String
  | some (.word text) => "Ident(" ++ Quoted.quote text ++ ")"
  | some (.quoted text) => "Str(" ++ Quoted.quote text ++ ")"
  | some .openBrace => "LBrace"
  | some .closeBrace => "RBrace"
  | some .openParen => "LParen"
  | some .closeParen => "RParen"
  | some .comma => "Comma"
  | some .arrow => "Arrow"
  | none => "Eof"

/-- Why no token can be read. -/
inductive TokenError where
  /-- No token begins with the character. -/
  | unexpectedCharacter (c : Char)
  /-- A quoted text has no closing quote. -/
  | unterminatedQuote
deriving DecidableEq

/-- The message of an error. -/
def TokenError.message : TokenError → String
  | unexpectedCharacter c => "Unexpected character: " ++ c.toString
  | unterminatedQuote => "Unterminated string"

/-! ## Characters -/

/-- Whether a word may begin with a character. -/
def beginsWord (c : Char) : Bool := CharacterClass.isAlphabetic c || c == '_'

/-- Whether a word may go on with a character. -/
def continuesWord (c : Char) : Bool := CharacterClass.isAlphanumeric c || c == '_'

/-- Leaves out white space and comments. The first argument says whether the
text begins inside a comment. -/
def skipBlanks : Bool → List Char → List Char
  | _, [] => []
  | true, c :: rest => skipBlanks (c != '\n') rest
  | false, c :: rest =>
    if CharacterClass.isBlank c then skipBlanks false rest
    else if c = '#' then skipBlanks true rest
    else c :: rest

/-- Skipping blanks leaves the end of the text. -/
theorem skipBlanks_suffix (inComment : Bool) (text : List Char) :
    skipBlanks inComment text <:+ text := by
  fun_induction skipBlanks inComment text with
  | case1 => exact List.suffix_rfl
  | case2 c rest ih => exact ih.trans (List.suffix_cons c rest)
  | case3 c rest blank ih => exact ih.trans (List.suffix_cons c rest)
  | case4 rest notBlank ih => exact ih.trans (List.suffix_cons '#' rest)
  | case5 => exact List.suffix_rfl

/-! ## Quoted texts -/

/-- The character that stands for itself or for a control character after a backslash. -/
def unescape (c : Char) : Char :=
  if c = 'n' then '\n' else if c = 't' then '\t' else if c = 'r' then '\r' else c

/-- Reads a quoted text up to its closing quote, and gives what follows it. -/
def readQuoted : List Char → Option (List Char × List Char)
  | [] => none
  | '"' :: rest => some ([], rest)
  | ['\\'] => none
  | '\\' :: c :: rest => (readQuoted rest).map fun (text, rest) => (unescape c :: text, rest)
  | c :: rest => (readQuoted rest).map fun (text, rest) => (c :: text, rest)

/-- A quoted text is followed by the end of the text. -/
theorem readQuoted_suffix {input text rest : List Char}
    (read : readQuoted input = some (text, rest)) : rest <:+ input := by
  fun_induction readQuoted input generalizing text with
  | case1 => cases read
  | case2 rest =>
    cases read
    exact List.suffix_cons '"' rest
  | case3 => cases read
  | case4 c tail ih =>
    obtain ⟨⟨text, rest⟩, inner, equal⟩ := Option.map_eq_some_iff.1 read
    cases equal
    exact (ih inner).trans ((List.suffix_cons c tail).trans (List.suffix_cons '\\' _))
  | case5 c tail _ _ _ ih =>
    obtain ⟨⟨text, rest⟩, inner, equal⟩ := Option.map_eq_some_iff.1 read
    cases equal
    exact (ih inner).trans (List.suffix_cons c tail)

/-! ## One token -/

/-- A token, or the error in its place, and the text that follows. -/
structure Lexeme where
  result : Except TokenError Token
  rest : List Char

/-- The token that begins with a character other than white space. After an
error the text goes on behind the characters that were read. -/
def lexeme (c : Char) (rest : List Char) : Lexeme :=
  if c = '\x7b' then ⟨.ok .openBrace, rest⟩
  else if c = '\x7d' then ⟨.ok .closeBrace, rest⟩
  else if c = '(' then ⟨.ok .openParen, rest⟩
  else if c = ')' then ⟨.ok .closeParen, rest⟩
  else if c = ',' then ⟨.ok .comma, rest⟩
  else if c = '-' then
    match rest with
    | '>' :: rest => ⟨.ok .arrow, rest⟩
    | rest => ⟨.error (.unexpectedCharacter c), rest⟩
  else if c = '"' then
    match readQuoted rest with
    | some (text, rest) => ⟨.ok (.quoted (String.ofList text)), rest⟩
    | none => ⟨.error .unterminatedQuote, []⟩
  else if beginsWord c then
    ⟨.ok (.word (String.ofList (c :: rest.takeWhile continuesWord))), rest.dropWhile continuesWord⟩
  else ⟨.error (.unexpectedCharacter c), rest⟩

/-- A token, or an error, is followed by the end of the text. -/
theorem lexeme_suffix (c : Char) (rest : List Char) : (lexeme c rest).rest <:+ rest := by
  unfold lexeme
  repeat' split
  all_goals try exact List.suffix_rfl
  · exact List.suffix_cons '>' _
  · next read => exact readQuoted_suffix read
  · exact List.nil_suffix
  · exact List.dropWhile_suffix continuesWord

/-- The first token of a text, or the error in its place; nothing if the text
holds only white space and comments. -/
def next? (text : List Char) : Option Lexeme :=
  match skipBlanks false text with
  | [] => none
  | c :: rest => some (lexeme c rest)

/-- A token, or an error, takes at least one character. -/
theorem exists_taken {text : List Char} {found : Lexeme} (next : next? text = some found) :
    ∃ taken, taken ≠ [] ∧ text = taken ++ found.rest := by
  unfold next? at next
  split at next
  · cases next
  · next c rest skipped =>
    cases next
    obtain ⟨blanks, whole⟩ := skipBlanks_suffix false text
    obtain ⟨read, behind⟩ := lexeme_suffix c rest
    refine ⟨blanks ++ c :: read, by simp, ?_⟩
    rw [List.append_assoc, List.cons_append, behind, ← skipped, whole]

theorem length_rest_lt {text : List Char} {found : Lexeme} (next : next? text = some found) :
    found.rest.length < text.length := by
  obtain ⟨taken, nonempty, whole⟩ := exists_taken next
  rw [whole, List.length_append]
  exact Nat.lt_add_of_pos_left (List.length_pos_iff.2 nonempty)

/-! ## A whole text -/

/-- The tokens of a text, or the first error. -/
def tokenize (text : List Char) : Except TokenError (List Token) :=
  match first : next? text with
  | none => .ok []
  | some found =>
    have := length_rest_lt first
    match found.result with
    | .error error => .error error
    | .ok token =>
      match tokenize found.rest with
      | .error error => .error error
      | .ok tokens => .ok (token :: tokens)
termination_by text.length
decreasing_by assumption

/-- The tokens and the errors of a text, in order. -/
def lexemes (text : List Char) : List (Except TokenError Token) :=
  match first : next? text with
  | none => []
  | some found =>
    have := length_rest_lt first
    found.result :: lexemes found.rest
termination_by text.length
decreasing_by assumption

end RelationalDesign.SchemeText
