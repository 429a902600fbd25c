import Mathlib.Logic.Function.Iterate
import RelationalDesign.Proofs.Failure.Chains
import RelationalDesign.Proofs.SchemeText.Spelling

/-!
# Reading token by token

A text can be read by calls for one token at a time, also after errors. A call answers with a
token, with an error or, at the end of the text, with nothing, and it leaves the text that it
has not taken.

Every call before the end takes at least one character (`exists_taken`). This holds for every
text that a call can begin with, so it does not matter where an error has stopped. The end is
therefore reached after at most as many calls as there are characters, and it stays reached:
the answers are the members of `lexemes`, in order, and then nothing
(`answer_eq_getElem?`). Reading the whole text at once gathers the same answers, up to the
first error (`tokenize_eq_mapM`). `calls_exact` puts this together.
-/

set_option autoImplicit false

namespace RelationalDesign.SchemeText

/-! ## Calls -/

/-- What a call answers, with nothing for the end of the text, and the text that it leaves. -/
def call (text : List Char) : Option (Except TokenError Token) × List Char :=
  match next? text with
  | none => (none, [])
  | some found => (some found.result, found.rest)

/-- The text that is left after some calls. -/
def leftAfter (text : List Char) (calls : Nat) : List Char :=
  (fun text => (call text).2)^[calls] text

/-- The answer of a call, where calls are numbered from zero. -/
def answer (text : List Char) (number : Nat) : Option (Except TokenError Token) :=
  (call (leftAfter text number)).1

variable {text : List Char}

theorem call_of_none (atEnd : next? text = none) : call text = (none, []) := by
  unfold call
  rw [atEnd]

theorem call_of_some {found : Lexeme} (first : next? text = some found) :
    call text = (some found.result, found.rest) := by
  unfold call
  rw [first]

theorem leftAfter_succ (text : List Char) (calls : Nat) :
    leftAfter text (calls + 1) = (call (leftAfter text calls)).2 :=
  Function.iterate_succ_apply' _ calls text

/-- Calls after the first one read what the first one leaves. -/
theorem answer_succ (text : List Char) (number : Nat) :
    answer text (number + 1) = answer (call text).2 number := by
  unfold answer leftAfter
  rw [Function.iterate_succ_apply]

/-- Nothing is ever read from an empty text. -/
theorem answer_nil (number : Nat) : answer [] number = none := by
  have empty : leftAfter [] number = [] := Function.iterate_fixed rfl number
  unfold answer
  rw [empty]
  rfl

/-- **A call that answers takes at least one character.** -/
theorem exists_taken_of_answer {number : Nat} (answers : answer text number ≠ none) :
    ∃ taken, taken ≠ [] ∧ leftAfter text number = taken ++ leftAfter text (number + 1) := by
  rw [leftAfter_succ]
  unfold answer at answers
  cases first : next? (leftAfter text number) with
  | none =>
    rw [call_of_none first] at answers
    exact absurd rfl answers
  | some found =>
    rw [call_of_some first]
    exact exists_taken first

/-! ## All answers -/

theorem lexemes_of_none (atEnd : next? text = none) : lexemes text = [] := by
  rw [lexemes]
  split
  · rfl
  · next found => simp [atEnd] at found

theorem lexemes_of_some {found : Lexeme} (first : next? text = some found) :
    lexemes text = found.result :: lexemes found.rest := by
  rw [lexemes]
  split
  · next atEnd => simp [first] at atEnd
  · next other same =>
    rw [first] at same
    cases same
    rfl

/-- **Calls answer with the lexemes of a text, one after the other**, and with nothing from
then on. -/
theorem answer_eq_getElem? (text : List Char) (number : Nat) :
    answer text number = (lexemes text)[number]? := by
  induction text using lexemes.induct generalizing number with
  | case1 text atEnd =>
    rw [lexemes_of_none atEnd, List.getElem?_nil]
    cases number with
    | zero => exact congrArg Prod.fst (call_of_none atEnd)
    | succ number => rw [answer_succ, call_of_none atEnd, answer_nil]
  | case2 text found first shorter ih =>
    rw [lexemes_of_some first]
    cases number with
    | zero => exact congrArg Prod.fst (call_of_some first)
    | succ number => rw [answer_succ, call_of_some first, ih, List.getElem?_cons_succ]

/-- Reading goes on behind an error, wherever it has stopped. -/
example :
    (List.range 5).map (answer "a -> b - \"c".toList) =
      [some (.ok (.word "a")), some (.ok .arrow), some (.ok (.word "b")),
        some (.error (.unexpectedCharacter '-')), some (.error .unterminatedQuote)] ∧
      answer "a -> b - \"c".toList 5 = none := by
  exact ⟨rfl, rfl⟩

theorem length_lexemes_le (text : List Char) : (lexemes text).length ≤ text.length := by
  induction text using lexemes.induct with
  | case1 text atEnd =>
    rw [lexemes_of_none atEnd]
    exact Nat.zero_le _
  | case2 text found first shorter ih =>
    rw [lexemes_of_some first, List.length_cons]
    exact Nat.succ_le_of_lt (Nat.lt_of_le_of_lt ih shorter)

/-- **A whole text is read by gathering the answers of calls.** -/
theorem tokenize_eq_mapM (text : List Char) : tokenize text = (lexemes text).mapM id := by
  induction text using lexemes.induct with
  | case1 text atEnd =>
    rw [tokenize_of_none atEnd, lexemes_of_none atEnd]
    rfl
  | case2 text found first shorter ih =>
    rw [tokenize_of_some first, lexemes_of_some first, List.mapM_cons, ← ih]
    cases found.result with
    | error error => rfl
    | ok token => cases tokenize found.rest <;> rfl

/-- A text can be read at once exactly if no call answers with an error. -/
theorem exists_tokenize_eq_ok_iff (text : List Char) :
    (∃ tokens, tokenize text = .ok tokens) ↔
      ∀ number error, answer text number ≠ some (.error error) := by
  rw [tokenize_eq_mapM, exists_mapM_eq_ok_iff]
  constructor
  · intro allTokens number error isError
    rw [answer_eq_getElem?] at isError
    obtain ⟨token, isToken⟩ := allTokens _ (List.mem_of_getElem? isError)
    cases isToken
  · intro noError member among
    obtain ⟨number, place⟩ := List.mem_iff_getElem?.1 among
    cases member with
    | error error =>
      exact absurd ((answer_eq_getElem? text number).trans place) (noError number error)
    | ok token => exact ⟨token, rfl⟩

/-- **Reading makes progress, and reading at once agrees with reading by calls.** For every
text there are at most as many answers as characters; each call that answers takes at least
one character, and from the end on there are no answers. A text can be read at once if no
call answers with an error, and then the answers are its tokens; otherwise it fails with the
first error. -/
theorem calls_exact (text : List Char) :
    (lexemes text).length ≤ text.length ∧
      (∀ number, answer text number = (lexemes text)[number]?) ∧
      (∀ number, answer text number ≠ none →
        ∃ taken, taken ≠ [] ∧ leftAfter text number = taken ++ leftAfter text (number + 1)) ∧
      ((∃ tokens, tokenize text = .ok tokens) ↔
        ∀ number error, answer text number ≠ some (.error error)) ∧
      (∀ tokens, tokenize text = .ok tokens ↔ lexemes text = tokens.map .ok) ∧
      ∀ error, tokenize text = .error error ↔
        ∃ (tokens : List Token) (later : List (Except TokenError Token)),
          lexemes text = tokens.map .ok ++ .error error :: later := by
  refine ⟨length_lexemes_le text, answer_eq_getElem? text, fun _ => exists_taken_of_answer,
    exists_tokenize_eq_ok_iff text, fun tokens => ?_, fun error => ?_⟩
  · rw [tokenize_eq_mapM, mapM_id_eq_ok_iff]
  · rw [tokenize_eq_mapM, mapM_id_eq_error_iff]

end RelationalDesign.SchemeText
