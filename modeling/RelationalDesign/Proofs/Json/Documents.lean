import RelationalDesign.Json.Node
import RelationalDesign.Proofs.Json.TokenTexts

/-!
# Documents and their tokens

A well-formed document is a sequence of tokens (`Node.tokens`): brackets around the items of a
list and around the entries of a record, with commas between them. **A text that spells the
tokens of a well-formed document is read as that document** (`Node.read_of_spells`), whatever
white space stands between the tokens.

The machine that reads documents has a stack. A step lemma says what it does behind each token,
and from these it follows by induction on the document that the machine takes the tokens of a
document in the place of a value and comes out behind the value, with its stack unchanged
(`Node.run_tokens`).
-/

set_option autoImplicit false

namespace RelationalDesign.Json.Node

/-! ## The tokens of a document -/

mutual

/-- The tokens of a node, if it is well-formed. -/
def tokens : Node → List Token
  | null => [.null]
  | boolean value => [.boolean value]
  | number literal => [.number literal]
  | text content => [.text content]
  | list [] _ => [.openList, .closeList]
  | list (item :: items) _ => .openList :: (tokens item ++ moreItems items)
  | record [] _ => [.openRecord, .closeRecord]
  | record ((key, value) :: entries) _ =>
    .openRecord :: .text key :: .colon :: (tokens value ++ moreEntries entries)
  | broken => [.malformed]

/-- The tokens of the later items of a list, each with a comma before it, and of its end. -/
def moreItems : List Node → List Token
  | [] => [.closeList]
  | item :: items => .comma :: (tokens item ++ moreItems items)

/-- The tokens of the later entries of a record, each with a comma before it, and of its end. -/
def moreEntries : List (Option String × Node) → List Token
  | [] => [.closeRecord]
  | (key, value) :: entries =>
    .comma :: .text key :: .colon :: (tokens value ++ moreEntries entries)

end

/-! ## Numbers in documents -/

theorem endsValue_moreItems (items : List Node) (rest : List Token) :
    EndsValue (moreItems items ++ rest) := by
  rintro token first
  cases items <;> cases first
  · exact .inr (.inl rfl)
  · exact .inl rfl

theorem endsValue_moreEntries (entries : List (Option String × Node)) (rest : List Token) :
    EndsValue (moreEntries entries ++ rest) := by
  rintro token first
  cases entries <;> cases first
  · exact .inr (.inr rfl)
  · exact .inl rfl

theorem numbersEnd_cons {token : Token} {rest : List Token}
    (noNumber : ∀ literal, token ≠ .number literal) (later : NumbersEnd rest) :
    NumbersEnd (token :: rest) :=
  ⟨fun ⟨literal, isNumber⟩ => absurd isNumber (noNumber literal), later⟩

mutual

/-- In a document every number is followed by what can follow a value. -/
theorem numbersEnd_tokens (node : Node) {rest : List Token} (ends : EndsValue rest)
    (later : NumbersEnd rest) : NumbersEnd (node.tokens ++ rest) := by
  match node with
  | number literal => exact ⟨fun _ => ends, later⟩
  | null | boolean _ | text _ | broken => exact numbersEnd_cons (by simp) later
  | list [] _ | record [] _ =>
    exact numbersEnd_cons (by simp) (numbersEnd_cons (by simp) later)
  | list (item :: items) _ =>
    show NumbersEnd (.openList :: (item.tokens ++ moreItems items ++ rest))
    rw [List.append_assoc]
    exact numbersEnd_cons (by simp)
      (numbersEnd_tokens item (endsValue_moreItems items rest) (numbersEnd_moreItems items later))
  | record ((key, value) :: entries) _ =>
    show NumbersEnd (.openRecord :: .text key :: .colon ::
      (value.tokens ++ moreEntries entries ++ rest))
    rw [List.append_assoc]
    exact numbersEnd_cons (by simp) (numbersEnd_cons (by simp) (numbersEnd_cons (by simp)
      (numbersEnd_tokens value (endsValue_moreEntries entries rest)
        (numbersEnd_moreEntries entries later))))

theorem numbersEnd_moreItems (items : List Node) {rest : List Token} (later : NumbersEnd rest) :
    NumbersEnd (moreItems items ++ rest) := by
  match items with
  | [] => exact numbersEnd_cons (by simp) later
  | item :: items =>
    show NumbersEnd (.comma :: (item.tokens ++ moreItems items ++ rest))
    rw [List.append_assoc]
    exact numbersEnd_cons (by simp)
      (numbersEnd_tokens item (endsValue_moreItems items rest) (numbersEnd_moreItems items later))

theorem numbersEnd_moreEntries (entries : List (Option String × Node)) {rest : List Token}
    (later : NumbersEnd rest) : NumbersEnd (moreEntries entries ++ rest) := by
  match entries with
  | [] => exact numbersEnd_cons (by simp) later
  | (key, value) :: entries =>
    show NumbersEnd (.comma :: .text key :: .colon :: (value.tokens ++ moreEntries entries ++ rest))
    rw [List.append_assoc]
    exact numbersEnd_cons (by simp) (numbersEnd_cons (by simp) (numbersEnd_cons (by simp)
      (numbersEnd_tokens value (endsValue_moreEntries entries rest)
        (numbersEnd_moreEntries entries later))))

end

/-! ## Reading -/

variable {frames next : List Frame} {state following : State} {token : Token} {rest : List Token}

/-- A token that the text can go on with is taken. -/
theorem run_cons (taken : step frames state token = some (next, following)) :
    run frames state (token :: rest) = run next following rest := by
  rw [run, taken]

/-- The first item of a list is read as any other. -/
theorem run_firstItem {node : Node} (valid : node.wellFormed = true) (frames : List Frame)
    (rest : List Token) :
    run frames .firstItem (node.tokens ++ rest) =
      run (.list [] :: frames) .value (node.tokens ++ rest) := by
  match node with
  | null | boolean _ | number _ | text _ => exact (run_cons rfl).trans (run_cons rfl).symm
  | list [] _ | list (_ :: _) _ | record [] _ | record ((_, _) :: _) _ =>
    exact (run_cons rfl).trans (run_cons rfl).symm
  | broken => cases valid

/-- Behind a key comes its value. -/
theorem run_firstKey (key : Option String) (frames : List Frame) (rest : List Token) :
    run frames .firstKey (.text key :: .colon :: rest) =
      run (.record [] key :: frames) .value rest :=
  (run_cons rfl).trans (run_cons rfl)

theorem run_key (key : Option String) (read : List (Option String × Node)) (frames : List Frame)
    (rest : List Token) :
    run frames (.key read) (.text key :: .colon :: rest) =
      run (.record read key :: frames) .value rest :=
  (run_cons rfl).trans (run_cons rfl)

mutual

/-- **The tokens of a value are taken**, and the machine comes out behind the value. -/
theorem run_tokens (node : Node) (valid : node.wellFormed = true) (frames : List Frame)
    (rest : List Token) :
    run frames .value (node.tokens ++ rest) = run frames (.after node) rest := by
  match node with
  | null | boolean _ | number _ | text _ => exact run_cons rfl
  | list [] closed =>
    obtain rfl : closed = true := by simpa [wellFormed, allWellFormed] using valid
    exact (run_cons rfl).trans (run_cons rfl)
  | list (item :: items) closed =>
    obtain ⟨⟨first, later⟩, rfl⟩ :
        (item.wellFormed = true ∧ allWellFormed items = true) ∧ closed = true := by
      simpa [wellFormed, allWellFormed] using valid
    calc run frames .value (.openList :: (item.tokens ++ moreItems items ++ rest))
      _ = run frames .firstItem (item.tokens ++ (moreItems items ++ rest)) := by
        rw [run_cons rfl, List.append_assoc]
      _ = run (.list [] :: frames) (.after item) (moreItems items ++ rest) := by
        rw [run_firstItem first, run_tokens item first]
      _ = run frames (.after (list (item :: items) true)) rest :=
        run_moreItems items later [] item frames rest
  | record [] closed =>
    obtain rfl : closed = true := by simpa [wellFormed, entriesWellFormed] using valid
    exact (run_cons rfl).trans (run_cons rfl)
  | record ((key, value) :: entries) closed =>
    obtain ⟨⟨first, later⟩, rfl⟩ :
        (value.wellFormed = true ∧ entriesWellFormed entries = true) ∧ closed = true := by
      simpa [wellFormed, entriesWellFormed] using valid
    calc run frames .value
          (.openRecord :: .text key :: .colon :: (value.tokens ++ moreEntries entries ++ rest))
      _ = run (.record [] key :: frames) .value (value.tokens ++ (moreEntries entries ++ rest)) := by
        rw [run_cons rfl, run_firstKey, List.append_assoc]
      _ = run (.record [] key :: frames) (.after value) (moreEntries entries ++ rest) :=
        run_tokens value first _ _
      _ = run frames (.after (record ((key, value) :: entries) true)) rest :=
        run_moreEntries entries later [] key value frames rest
  | broken => cases valid

/-- Behind an item the later items are taken, up to the end of the list. -/
theorem run_moreItems (items : List Node) (valid : allWellFormed items = true) (read : List Node)
    (node : Node) (frames : List Frame) (rest : List Token) :
    run (.list read :: frames) (.after node) (moreItems items ++ rest) =
      run frames (.after (list ((node :: read).reverse ++ items) true)) rest := by
  match items with
  | [] => rw [List.append_nil]; exact run_cons rfl
  | item :: items =>
    obtain ⟨first, later⟩ : item.wellFormed = true ∧ allWellFormed items = true := by
      simpa [allWellFormed] using valid
    calc run (.list read :: frames) (.after node)
          (.comma :: (item.tokens ++ moreItems items ++ rest))
      _ = run (.list (node :: read) :: frames) .value
          (item.tokens ++ (moreItems items ++ rest)) := by
        rw [run_cons rfl, List.append_assoc]
      _ = run (.list (node :: read) :: frames) (.after item) (moreItems items ++ rest) :=
        run_tokens item first _ _
      _ = run frames (.after (list ((item :: node :: read).reverse ++ items) true)) rest :=
        run_moreItems items later _ _ _ _
      _ = run frames (.after (list ((node :: read).reverse ++ item :: items) true)) rest := by
        rw [List.reverse_cons (a := item), List.append_assoc]
        rfl

/-- Behind an entry the later entries are taken, up to the end of the record. -/
theorem run_moreEntries (entries : List (Option String × Node))
    (valid : entriesWellFormed entries = true) (read : List (Option String × Node))
    (name : Option String) (node : Node) (frames : List Frame) (rest : List Token) :
    run (.record read name :: frames) (.after node) (moreEntries entries ++ rest) =
      run frames (.after (record (((name, node) :: read).reverse ++ entries) true)) rest := by
  match entries with
  | [] => rw [List.append_nil]; exact run_cons rfl
  | (key, value) :: entries =>
    obtain ⟨first, later⟩ : value.wellFormed = true ∧ entriesWellFormed entries = true := by
      simpa [entriesWellFormed] using valid
    calc run (.record read name :: frames) (.after node)
          (.comma :: .text key :: .colon :: (value.tokens ++ moreEntries entries ++ rest))
      _ = run (.record ((name, node) :: read) key :: frames) .value
          (value.tokens ++ (moreEntries entries ++ rest)) := by
        rw [run_cons rfl, run_key, List.append_assoc]
      _ = run (.record ((name, node) :: read) key :: frames) (.after value)
          (moreEntries entries ++ rest) :=
        run_tokens value first _ _
      _ = run frames
          (.after (record (((key, value) :: (name, node) :: read).reverse ++ entries) true)) rest :=
        run_moreEntries entries later _ _ _ _ _
      _ = run frames
          (.after (record (((name, node) :: read).reverse ++ (key, value) :: entries) true))
          rest := by
        rw [List.reverse_cons (a := (key, value)), List.append_assoc]
        rfl

end

/-- **A text that spells the tokens of a well-formed document is read as the document.** -/
theorem read_of_spells {text : List Char} {node : Node} (valid : node.wellFormed = true)
    (spelled : Spells text node.tokens) : Node.read text = (node, true) := by
  have ends : EndsValue [] := fun _ first => by cases first
  have numbersEnd : NumbersEnd (node.tokens ++ []) := numbersEnd_tokens node ends trivial
  rw [← List.append_nil node.tokens] at spelled
  unfold Node.read
  rw [tokens_of_spells spelled numbersEnd, run_tokens node valid]
  rfl

end RelationalDesign.Json.Node
