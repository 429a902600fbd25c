import RelationalDesign.Proofs.SchemeText.Spelling

/-!
# Lines of tokens

A text whose tokens can be read has the same tokens in front of any further line
(`tokenize_line`). A token is read again if more text is added behind it, unless it is a word
at the end that now goes on (`next?_append`); quoted texts and punctuation close themselves.
Where nothing is left but white space and comments, the end of the line closes the comment
that may still be open, and what comes next is read as if it stood alone (`next?_line`).
-/

set_option autoImplicit false

namespace RelationalDesign.SchemeText

/-! ## White space and comments -/

/-- Skipping stops where it stopped before more text was added. -/
theorem skipBlanks_append {inComment : Bool} {text : List Char} {c : Char} {rest : List Char}
    (stopped : skipBlanks inComment text = c :: rest) (more : List Char) :
    skipBlanks inComment (text ++ more) = c :: (rest ++ more) := by
  fun_induction skipBlanks inComment text with
  | case1 => cases stopped
  | case2 first later ih =>
    rw [List.cons_append, skipBlanks]
    exact ih stopped
  | case3 first later blank ih =>
    rw [List.cons_append, skipBlanks, if_pos blank]
    exact ih stopped
  | case4 later notBlank ih =>
    rw [List.cons_append, skipBlanks, if_neg notBlank, if_pos rfl]
    exact ih stopped
  | case5 first later notBlank notComment =>
    cases stopped
    rw [List.cons_append, skipBlanks, if_neg notBlank, if_neg notComment]

/-- A line of white space and comments is skipped with its end. -/
theorem skipBlanks_line {inComment : Bool} {line : List Char}
    (skipped : skipBlanks inComment line = []) (more : List Char) :
    skipBlanks inComment (line ++ '\n' :: more) = skipBlanks false more := by
  fun_induction skipBlanks inComment line with
  | case1 inComment =>
    -- Outside of a comment the end of the line is white space.
    cases inComment <;> rfl
  | case2 first later ih =>
    rw [List.cons_append, skipBlanks]
    exact ih skipped
  | case3 first later blank ih =>
    rw [List.cons_append, skipBlanks, if_pos blank]
    exact ih skipped
  | case4 later notBlank ih =>
    rw [List.cons_append, skipBlanks, if_neg notBlank, if_pos rfl]
    exact ih skipped
  | case5 => cases skipped

/-! ## One token -/

theorem readQuoted_append {input text rest : List Char}
    (read : readQuoted input = some (text, rest)) (more : List Char) :
    readQuoted (input ++ more) = some (text, rest ++ more) := by
  fun_induction readQuoted input generalizing text with
  | case1 => cases read
  | case2 later =>
    cases read
    rfl
  | case3 => cases read
  | case4 c later ih =>
    obtain ⟨⟨inner, _⟩, readInner, equal⟩ := Option.map_eq_some_iff.1 read
    cases equal
    show (readQuoted (later ++ more)).map _ = _
    rw [ih readInner]
    rfl
  | case5 c later notQuote notLast notEscape ih =>
    obtain ⟨⟨inner, _⟩, readInner, equal⟩ := Option.map_eq_some_iff.1 read
    cases equal
    have notBackslash : c ≠ '\\' := by
      intro backslash
      cases later with
      | nil => exact notLast backslash rfl
      | cons second others => exact notEscape second others backslash rfl
    rw [List.cons_append, readQuoted_cons notQuote notBackslash, ih readInner]
    rfl

/-- A word ends where it ended before more text was added, if it does not go on there. -/
theorem takeWhile_append_of_breaks {more : List Char} (breaks : Breaks more) (text : List Char) :
    (text ++ more).takeWhile continuesWord = text.takeWhile continuesWord ∧
      (text ++ more).dropWhile continuesWord = text.dropWhile continuesWord ++ more := by
  induction text with
  | nil => exact takeWhile_of_breaks breaks
  | cons c rest ih =>
    cases continues : continuesWord c <;> simp [continues, ih]

theorem lexeme_append {c : Char} {text rest : List Char} {token : Token}
    (found : lexeme c text = ⟨.ok token, rest⟩) {more : List Char} (breaks : Breaks more) :
    lexeme c (text ++ more) = ⟨.ok token, rest ++ more⟩ := by
  fun_cases lexeme c text with
  | case1 | case2 | case3 | case4 | case5 | case6 =>
    -- A punctuation mark.
    subst c
    cases found
    rfl
  | case8 =>
    -- A quoted text.
    rename_i quoted later read
    subst c
    unfold lexeme at found ⊢
    rw [read] at found
    cases found
    rw [readQuoted_append read]
    rfl
  | case10 =>
    -- A word.
    rename_i begins
    obtain ⟨taken, left⟩ := takeWhile_append_of_breaks breaks text
    rw [lexeme_of_beginsWord begins] at found ⊢
    cases found
    rw [taken, left]
  | case7 | case9 | case11 =>
    -- No token.
    unfold lexeme at found
    simp only [*, Char.reduceEq, Bool.false_eq_true, ↓reduceIte] at found
    cases found

/-- **A token is read again** if more text is added with which no word goes on. -/
theorem next?_append {text rest : List Char} {token : Token}
    (found : next? text = some ⟨.ok token, rest⟩) {more : List Char} (breaks : Breaks more) :
    next? (text ++ more) = some ⟨.ok token, rest ++ more⟩ := by
  unfold next? at found ⊢
  split at found
  · cases found
  · next c later stopped =>
    rw [skipBlanks_append stopped]
    exact congrArg some (lexeme_append (Option.some.inj found) breaks)

/-- A line without tokens is skipped with its end. -/
theorem next?_line {line : List Char} (atEnd : next? line = none) (more : List Char) :
    next? (line ++ '\n' :: more) = next? more := by
  unfold next? at atEnd ⊢
  split at atEnd
  · next skipped => rw [skipBlanks_line skipped]
  · cases atEnd

/-! ## Whole texts -/

/-- **Texts are read line by line**: behind a text that can be read, and the end of its last
line, any text gives its own tokens or its own error. -/
theorem tokenize_line {text : List Char} {tokens : List Token}
    (read : tokenize text = .ok tokens) (more : List Char) :
    tokenize (text ++ '\n' :: more) = (tokenize more).map (tokens ++ ·) := by
  have breaks : Breaks ('\n' :: more) := breaks_cons (by decide +kernel) more
  induction text using tokenize.induct generalizing tokens with
  | case1 text atEnd =>
    rw [tokenize_of_none atEnd] at read
    cases read
    rw [tokenize_congr (next?_line atEnd more)]
    cases tokenize more <;> rfl
  | case2 text found first shorter error failed =>
    rw [tokenize_of_some first, failed] at read
    cases read
  | case3 text found first shorter token isToken error failed ih =>
    rw [tokenize_of_some first, isToken] at read
    simp only [Except.bind, failed] at read
    cases read
  | case4 text found first shorter token isToken later readLater ih =>
    rw [tokenize_of_some first, isToken] at read
    simp only [Except.bind, readLater] at read
    cases read
    obtain ⟨result, rest⟩ := found
    cases isToken
    rw [tokenize_of_some (next?_append first breaks)]
    simp only [Except.bind, ih readLater]
    cases tokenize more <;> rfl

/-- A comment ends with its line, whatever it holds. -/
theorem tokenize_line_comment :
    tokenize "id #\"".toList = .ok [.word "id"] ∧
      tokenize ("id #\"".toList ++ '\n' :: "name".toList) = .ok [.word "id", .word "name"] := by
  have comment : Spells ("id".toList ++ [' ', '#', '"']) [.word "id"] :=
    .word (by decide +kernel) (breaks_cons (by decide +kernel) _)
      (.blank (by decide) (tokenize_of_none rfl))
  have name : Spells ("name".toList ++ []) [.word "name"] :=
    .word (by decide +kernel) (fun _ member => by cases member) .nil
  refine ⟨comment, (tokenize_line comment _).trans ?_⟩
  rw [List.append_nil] at name
  rw [show tokenize "name".toList = _ from name]
  rfl

end RelationalDesign.SchemeText
