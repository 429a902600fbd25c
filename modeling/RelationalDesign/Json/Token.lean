import RelationalDesign.Number.Literal

/-!
# Tokens of JSON text

A JSON text is read as a list of tokens. Where no token can be read the list
ends with a mark for that (`Token.malformed`), so that what stands before the
fault can still be used.

A text may contain escaped code units that do not form characters. It is a token
all the same, but without content.
-/

set_option autoImplicit false

namespace RelationalDesign.Json

/-- The tokens of JSON text. -/
inductive Token where
  | openRecord
  | closeRecord
  | openList
  | closeList
  | colon
  | comma
  | null
  | boolean (value : Bool)
  | number (literal : Number.Literal)
  /-- A text; without content if its code units do not form characters. -/
  | text (content : Option String)
  /-- No token can be read here. -/
  | malformed
deriving DecidableEq

/-! ## Texts -/

/-- A piece of a text: a character, or a code unit that is written by its number. -/
inductive TextUnit where
  | char (c : Char)
  | code (value : Nat)
deriving DecidableEq

/-- The value of a hexadecimal digit. -/
def hexValue? (c : Char) : Option Nat :=
  if c.isDigit then some (c.toNat - '0'.toNat)
  else if 'a' ≤ c ∧ c ≤ 'f' then some (c.toNat - 'a'.toNat + 10)
  else if 'A' ≤ c ∧ c ≤ 'F' then some (c.toNat - 'A'.toNat + 10)
  else none

/-- The number that four hexadecimal digits denote. -/
def hexCode? (first second third fourth : Char) : Option Nat := do
  let first ← hexValue? first
  let second ← hexValue? second
  let third ← hexValue? third
  let fourth ← hexValue? fourth
  return ((first * 16 + second) * 16 + third) * 16 + fourth

/-- The character that an escape with a single letter stands for. -/
def escaped? (c : Char) : Option Char :=
  if c = '"' ∨ c = '\\' ∨ c = '/' then some c
  else if c = 'b' then some '\x08'
  else if c = 'f' then some '\x0c'
  else if c = 'n' then some '\n'
  else if c = 'r' then some '\r'
  else if c = 't' then some '\t'
  else none

/-- Reads a text up to its closing quote, and gives what follows it. There are
no control characters in a text, except by their escapes. -/
def readUnits : List Char → Option (List TextUnit × List Char)
  | [] => none
  | '"' :: rest => some ([], rest)
  | '\\' :: 'u' :: first :: second :: third :: fourth :: rest => do
    let code ← hexCode? first second third fourth
    let (units, rest) ← readUnits rest
    return (.code code :: units, rest)
  | '\\' :: letter :: rest => do
    let c ← escaped? letter
    let (units, rest) ← readUnits rest
    return (.char c :: units, rest)
  | c :: rest =>
    if c.toNat < 0x20 then none
    else do
      let (units, rest) ← readUnits rest
      return (.char c :: units, rest)

/-- Whether a code unit is the first one of a pair. -/
def isLeading (code : Nat) : Bool := decide (0xD800 ≤ code) && decide (code ≤ 0xDBFF)

/-- Whether a code unit is the second one of a pair. -/
def isTrailing (code : Nat) : Bool := decide (0xDC00 ≤ code) && decide (code ≤ 0xDFFF)

/-- The characters that the pieces of a text form. Code units must come in pairs
where one alone is no character. -/
def charactersOf : List TextUnit → Option (List Char)
  | [] => some []
  | .char c :: rest => (charactersOf rest).map (c :: ·)
  | .code leading :: .code trailing :: rest =>
    if isLeading leading then
      if isTrailing trailing then
        (charactersOf rest).map
          (Char.ofNat (0x10000 + (leading - 0xD800) * 0x400 + (trailing - 0xDC00)) :: ·)
      else none
    else if isTrailing leading then none
    else (charactersOf (.code trailing :: rest)).map (Char.ofNat leading :: ·)
  | .code code :: rest =>
    if isLeading code || isTrailing code then none
    else (charactersOf rest).map (Char.ofNat code :: ·)

/-- A text takes at least its closing quote. -/
theorem length_readUnits_lt {input rest : List Char} {units : List TextUnit}
    (read : readUnits input = some (units, rest)) : rest.length < input.length := by
  fun_induction readUnits input generalizing units with
  | case1 => cases read
  | case2 rest =>
    cases read
    exact Nat.lt_succ_self _
  | case3 first second third fourth tail ih =>
    obtain ⟨code, _, read⟩ := Option.bind_eq_some_iff.1 read
    obtain ⟨⟨others, rest⟩, inner, equal⟩ := Option.bind_eq_some_iff.1 read
    cases equal
    have := ih inner
    simp only [List.length_cons]
    omega
  | case4 letter tail _ ih =>
    obtain ⟨c, _, read⟩ := Option.bind_eq_some_iff.1 read
    obtain ⟨⟨others, rest⟩, inner, equal⟩ := Option.bind_eq_some_iff.1 read
    cases equal
    have := ih inner
    simp only [List.length_cons]
    omega
  | case5 => cases read
  | case6 c tail _ _ _ _ ih =>
    obtain ⟨⟨others, rest⟩, inner, equal⟩ := Option.bind_eq_some_iff.1 read
    cases equal
    have := ih inner
    simp only [List.length_cons]
    omega

/-! ## Tokens -/

/-- Whether a character may stand between tokens. -/
def isSpace (c : Char) : Bool := c == ' ' || c == '\t' || c == '\n' || c == '\r'

/-- Reads the token that begins with a character other than a space, if there is one. -/
def token? : List Char → Option (Token × List Char)
  | [] => none
  | '\x7b' :: rest => some (.openRecord, rest)
  | '\x7d' :: rest => some (.closeRecord, rest)
  | '[' :: rest => some (.openList, rest)
  | ']' :: rest => some (.closeList, rest)
  | ':' :: rest => some (.colon, rest)
  | ',' :: rest => some (.comma, rest)
  | 'n' :: 'u' :: 'l' :: 'l' :: rest => some (.null, rest)
  | 't' :: 'r' :: 'u' :: 'e' :: rest => some (.boolean true, rest)
  | 'f' :: 'a' :: 'l' :: 's' :: 'e' :: rest => some (.boolean false, rest)
  | '"' :: rest =>
    (readUnits rest).map fun (units, rest) =>
      (.text ((charactersOf units).map String.ofList), rest)
  | text => (Number.Literal.read? text).map fun (literal, rest) => (.number literal, rest)

/-- A token takes at least one character. -/
theorem length_token?_lt {text rest : List Char} {token : Token}
    (read : token? text = some (token, rest)) : rest.length < text.length := by
  unfold token? at read
  split at read
  case h_1 => cases read
  case h_11 =>
    obtain ⟨⟨units, rest⟩, inner, equal⟩ := Option.map_eq_some_iff.1 read
    cases equal
    exact Nat.lt_succ_of_lt (length_readUnits_lt inner)
  case h_12 =>
    obtain ⟨⟨literal, rest⟩, inner, equal⟩ := Option.map_eq_some_iff.1 read
    cases equal
    exact Number.Literal.length_read?_lt inner
  all_goals
    cases read
    simp only [List.length_cons]
    omega

/-- The tokens of a text, with a mark at the end if it cannot be read to its end. -/
def tokens (text : List Char) : List Token :=
  match start : text.dropWhile isSpace with
  | [] => []
  | c :: rest =>
    match first : token? (c :: rest) with
    | none => [.malformed]
    | some (token, rest) =>
      have : rest.length < text.length := by
        have := length_token?_lt first
        have := (List.dropWhile_suffix (l := text) isSpace).length_le
        rw [start] at this
        omega
      token :: tokens rest
termination_by text.length
decreasing_by assumption

end RelationalDesign.Json
