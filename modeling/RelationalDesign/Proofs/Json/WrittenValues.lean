import RelationalDesign.Json.Value
import RelationalDesign.Proofs.Json.Documents

/-!
# Written values

What is written for a value, in either layout, spells the tokens of one document
(`Value.spells_write`): the values are nodes (`Value.node`), and the layouts only differ in the
white space between the tokens. So the document is read back (`Value.read_written`), whatever
characters there are in its texts: each of them is written as itself, by the letter of an escape
or by its number (`exists_unitText_escape`).
-/

set_option autoImplicit false

namespace RelationalDesign.Json

/-! ## Texts -/

theorem hexDigit_isHexDigit {value : Nat} (small : value < 16) :
    IsHexDigit value (hexDigit value) :=
  ⟨small, .inl rfl⟩

/-- The number of a control character, with four digits. -/
theorem hexText_control {value : Nat} (small : value < 0x20) :
    HexText value ['0', '0', hexDigit (value / 16), hexDigit (value % 16)] := by
  have zero : IsHexDigit 0 '0' := ⟨by decide, .inl rfl⟩
  have third : IsHexDigit (value / 16) (hexDigit (value / 16)) := hexDigit_isHexDigit (by omega)
  have fourth : IsHexDigit (value % 16) (hexDigit (value % 16)) := hexDigit_isHexDigit (by omega)
  have digits := HexText.mk zero zero third fourth
  have same : ((0 * 16 + 0) * 16 + value / 16) * 16 + value % 16 = value := by omega
  rwa [same] at digits

/-- What is written for a character is a unit that forms the character. -/
theorem exists_unitText_escape (c : Char) :
    ∃ unit, UnitText unit (escape c) ∧
      ∀ {units content}, Forms units content → Forms (unit :: units) (c :: content) := by
  have letter {name : Char} (isEscape : (name, c) ∈ escapes) :
      ∃ unit, UnitText unit ['\\', name] ∧
        ∀ {units content}, Forms units content → Forms (unit :: units) (c :: content) :=
    ⟨.char c, .escape isEscape, .char⟩
  unfold escape
  -- the letters of escapes come first, then the other control characters
  iterate 7
    split
    · next same => exact letter (by subst same; decide)
  split
  · next control =>
    exact ⟨.code c.toNat, .code (hexText_control control), .code (by omega)⟩
  · next notQuote notBackslash _ _ _ _ _ noControl =>
    exact ⟨.char c, .plain notQuote notBackslash (Nat.not_lt.1 noControl), .char⟩

/-- What is written for characters are units that form them. -/
theorem exists_unitsText_escape (content : List Char) :
    ∃ units, UnitsText units (content.flatMap escape) ∧ Forms units content := by
  induction content with
  | nil => exact ⟨[], .nil, .nil⟩
  | cons c content ih =>
    obtain ⟨unit, written, forms⟩ := exists_unitText_escape c
    obtain ⟨units, later, formed⟩ := ih
    exact ⟨unit :: units, .cons written later, forms formed⟩

/-- **A text between quotes** is a token with that text. -/
theorem tokenText_quote (content : String) :
    TokenText (.text (some content)) (quote content).toList := by
  obtain ⟨units, written, formed⟩ := exists_unitsText_escape content.toList
  have token := TokenText.text written formed
  rw [String.ofList_toList] at token
  simpa [quote] using token

/-! ## Layouts -/

namespace Layout

theorem isSpace_lineBreak (layout : Layout) (depth : Nat) :
    ∀ c ∈ (layout.lineBreak depth).toList, isSpace c = true := by
  cases layout with
  | compact => simp [lineBreak]
  | indented =>
    intro c member
    simp only [lineBreak, String.toList_append, String.toList_ofList, List.mem_append,
      List.mem_replicate] at member
    rcases member with newline | ⟨-, rfl⟩
    · obtain rfl : c = '\n' := by simpa using newline
      decide
    · decide

/-- Between a key and its value there is a colon. -/
theorem spells_colon (layout : Layout) : Spells layout.colon.toList [.colon] := by
  cases layout with
  | compact => exact .single .colon
  | indented =>
    have blank : Spells [' '] [] := .nil (by simp [isSpace])
    exact (Spells.single .colon).append blank

end Layout

/-! ## Values as documents -/

mutual

/-- The document that a value is. -/
def Value.node : Value → Node
  | .integer value => .number (.ofInt value)
  | .text content => .text (some content)
  | .list items => .list (nodes items) true
  | .record fields => .record (entries fields) true

/-- The documents of the items of a list. -/
def nodes : List Value → List Node
  | [] => []
  | item :: items => item.node :: nodes items

/-- The entries with the documents of the fields of a record. -/
def entries : List (String × Value) → List (Option String × Node)
  | [] => []
  | (key, value) :: fields => (some key, value.node) :: entries fields

end

mutual

theorem wellFormed_node (value : Value) : value.node.wellFormed = true := by
  match value with
  | .integer _ | .text _ => rfl
  | .list items => simpa [Value.node, Node.wellFormed] using allWellFormed_nodes items
  | .record fields => simpa [Value.node, Node.wellFormed] using entriesWellFormed_entries fields

theorem allWellFormed_nodes (items : List Value) : Node.allWellFormed (nodes items) = true := by
  match items with
  | [] => rfl
  | item :: items =>
    simpa [nodes, Node.allWellFormed] using ⟨wellFormed_node item, allWellFormed_nodes items⟩

theorem entriesWellFormed_entries (fields : List (String × Value)) :
    Node.entriesWellFormed (entries fields) = true := by
  match fields with
  | [] => rfl
  | (_, value) :: fields =>
    simpa [entries, Node.entriesWellFormed] using
      ⟨wellFormed_node value, entriesWellFormed_entries fields⟩

end

/-! ## What is written -/

/-- A field as it is written: its key, a colon and its value. -/
theorem spells_field (layout : Layout) (key : String) {text rest : List Char} {tokens others : List Token}
    (value : Spells text tokens) (later : Spells rest others) :
    Spells ((quote key).toList ++ (layout.colon.toList ++ (text ++ rest)))
      (.text (some key) :: .colon :: (tokens ++ others)) :=
  (Spells.single (tokenText_quote key)).append (layout.spells_colon.append (value.append later))

mutual

/-- **A written value spells its document**, in either layout. -/
theorem spells_render (layout : Layout) (depth : Nat) (value : Value) :
    Spells (value.render layout depth).toList value.node.tokens := by
  match value with
  | .integer value => exact .single (.number (Number.numeralText_toString value))
  | .text content => exact .single (tokenText_quote content)
  | .list [] =>
    simpa [Value.render, Value.node, nodes, entries, Node.tokens] using (Spells.single .openList).append (.single .closeList)
  | .record [] =>
    simpa [Value.render, Value.node, nodes, entries, Node.tokens] using (Spells.single .openRecord).append (.single .closeRecord)
  | .list (item :: items) =>
    have ending : Spells ((layout.lineBreak depth).toList ++ [']']) [.closeList] :=
      (Spells.single .closeList).indent (layout.isSpace_lineBreak depth)
    have later := spells_renderItems layout (depth + 1) items ending
    have first := ((spells_render layout (depth + 1) item).append later).indent
      (layout.isSpace_lineBreak (depth + 1))
    simpa [Value.render, Value.node, nodes, entries, Node.tokens] using (Spells.single .openList).append first
  | .record ((key, value) :: fields) =>
    have ending : Spells ((layout.lineBreak depth).toList ++ ['\x7d']) [.closeRecord] :=
      (Spells.single .closeRecord).indent (layout.isSpace_lineBreak depth)
    have later := spells_renderFields layout (depth + 1) fields ending
    have first := (spells_field layout key
      (spells_render layout (depth + 1) value) later).indent
      (layout.isSpace_lineBreak (depth + 1))
    simpa [Value.render, Value.node, nodes, entries, Node.tokens] using (Spells.single .openRecord).append first

theorem spells_renderItems (layout : Layout) (depth : Nat) (items : List Value) {text : List Char}
    (ending : Spells text [.closeList]) :
    Spells ((renderItems layout depth items).toList ++ text) (Node.moreItems (nodes items)) := by
  match items with
  | [] => simpa [renderItems, nodes, Node.moreItems] using ending
  | item :: items =>
    have later := spells_renderItems layout depth items ending
    have first := ((spells_render layout depth item).append later).indent
      (layout.isSpace_lineBreak depth)
    simpa [renderItems, nodes, Node.moreItems] using (Spells.single .comma).append first

theorem spells_renderFields (layout : Layout) (depth : Nat) (fields : List (String × Value))
    {text : List Char} (ending : Spells text [.closeRecord]) :
    Spells ((renderFields layout depth fields).toList ++ text)
      (Node.moreEntries (entries fields)) := by
  match fields with
  | [] => simpa [renderFields, entries, Node.moreEntries] using ending
  | (key, value) :: fields =>
    have later := spells_renderFields layout depth fields ending
    have first := (spells_field layout key
      (spells_render layout depth value) later).indent (layout.isSpace_lineBreak depth)
    simpa [renderFields, entries, Node.moreEntries] using (Spells.single .comma).append first

end

mutual

/-- Without any space the depth of a value does not matter. -/
theorem render_compact (depth other : Nat) (value : Value) :
    value.render .compact depth = value.render .compact other := by
  match value with
  | .integer _ | .text _ | .list [] | .record [] => rfl
  | .list (item :: items) =>
    simp only [Value.render, Layout.lineBreak]
    rw [render_compact (depth + 1) (other + 1) item,
      renderItems_compact (depth + 1) (other + 1) items]
  | .record ((key, value) :: fields) =>
    simp only [Value.render, Layout.lineBreak]
    rw [render_compact (depth + 1) (other + 1) value,
      renderFields_compact (depth + 1) (other + 1) fields]

theorem renderItems_compact (depth other : Nat) (items : List Value) :
    renderItems .compact depth items = renderItems .compact other items := by
  match items with
  | [] => rfl
  | item :: items =>
    simp only [renderItems, Layout.lineBreak]
    rw [render_compact depth other item, renderItems_compact depth other items]

theorem renderFields_compact (depth other : Nat) (fields : List (String × Value)) :
    renderFields .compact depth fields = renderFields .compact other fields := by
  match fields with
  | [] => rfl
  | (key, value) :: fields =>
    simp only [renderFields, Layout.lineBreak]
    rw [render_compact depth other value, renderFields_compact depth other fields]

end

/-- A written document spells its tokens. -/
theorem Value.spells_write (layout : Layout) (value : Value) :
    Spells (value.write layout).toList value.node.tokens :=
  spells_render layout 0 value

/-- **What is written is read back.** -/
theorem Value.read_written (layout : Layout) (value : Value) :
    Node.read (value.write layout).toList = (value.node, true) :=
  Node.read_of_spells (wellFormed_node value) (value.spells_write layout)

end RelationalDesign.Json
