import RelationalDesign.Proofs.SchemeText.Spelling
import RelationalDesign.SchemeText.Reading

/-!
# The tokens of a written scheme

What a scheme is written as spells one token for each name, keyword and punctuation mark, in
the order of the notation (`spells_write`). This holds of every scheme, also of one with
empty lists of names, for which no name is written.

A written scheme is a list of items (`itemsOf`): its tables, and a block of relationships if
it has any. Every line and every item ends with a line break, so it spells its tokens
whatever follows (`SpellsAhead`).
-/

set_option autoImplicit false

namespace RelationalDesign.SchemeText

/-- The items that a scheme is written as. -/
def itemsOf (scheme : Scheme) : List Item :=
  scheme.tables.map Item.table ++
    if scheme.relationships = [] then [] else [Item.relationships scheme.relationships]

theorem schemeOf_append (first second : List Item) :
    schemeOf (first ++ second) =
      ⟨(schemeOf first).tables ++ (schemeOf second).tables,
        (schemeOf first).relationships ++ (schemeOf second).relationships⟩ := by
  unfold schemeOf
  rw [List.filterMap_append, List.flatMap_append]

theorem schemeOf_map_table (tables : List Table) : schemeOf (tables.map .table) = ⟨tables, []⟩ := by
  unfold schemeOf
  rw [List.filterMap_map, List.flatMap_map, Scheme.mk.injEq]
  exact ⟨List.filterMap_some, List.flatMap_eq_nil_iff.2 fun _ _ => rfl⟩

theorem schemeOf_itemsOf (scheme : Scheme) : schemeOf (itemsOf scheme) = scheme := by
  obtain ⟨tables, relationships⟩ := scheme
  unfold itemsOf
  rw [schemeOf_append, schemeOf_map_table]
  cases relationships with
  | nil => simp [schemeOf]
  | cons relationship rest => simp [schemeOf]

/-! ## Tokens -/

/-- The tokens of some names, with commas between them. -/
def nameTokens : List String → List Token
  | [] => []
  | name :: names => nameToken name :: names.flatMap fun other => [.comma, nameToken other]

/-- The tokens of the modifiers behind a type. -/
def modifierTokens (constraints : Constraints) : List Token :=
  (if constraints.primaryKey then [.word "pk"] else [])
    ++ (if constraints.notNullable then [.word "not", .word "null"] else [])
    ++ (if constraints.foreignKey then [.word "fk"] else [])

def attributeTokens (attr : Attribute) : List Token :=
  nameToken attr.name :: .word attr.type.keyword :: modifierTokens attr.constraints

def dependencyTokens (clause : DependencyClause) : List Token :=
  .word "dep" :: (nameTokens clause.determinants ++ .arrow :: nameTokens clause.dependants)

def tableTokens (table : Table) : List Token :=
  .word "table" :: nameToken table.name :: .openBrace ::
    (table.attributes.flatMap attributeTokens ++
      (table.dependencies.flatMap dependencyTokens ++ [.closeBrace]))

def endpointTokens (endpoint : Endpoint) : List Token :=
  nameToken endpoint.table :: .openParen :: (nameTokens endpoint.attributes ++ [.closeParen])

def relationshipTokens (relationship : Relationship) : List Token :=
  endpointTokens relationship.source ++ .arrow :: endpointTokens relationship.target

def itemTokens : Item → List Token
  | .table table => tableTokens table
  | .relationships relationships =>
    .word "rel" :: .openBrace :: (relationships.flatMap relationshipTokens ++ [.closeBrace])

/-- The tokens of a written scheme. -/
def schemeTokens (scheme : Scheme) : List Token := (itemsOf scheme).flatMap itemTokens

/-! ## Names and marks -/

namespace Spells

variable {text : List Char} {tokens : List Token}

theorem space (later : Spells text tokens) : Spells (' ' :: text) tokens := blank (by decide) later

theorem newline (later : Spells text tokens) : Spells ('\n' :: text) tokens :=
  blank (by decide) later

theorem comma (later : Spells text tokens) : Spells (',' :: text) (.comma :: tokens) :=
  cons rfl later

theorem arrow (later : Spells text tokens) : Spells ('-' :: '>' :: text) (.arrow :: tokens) :=
  cons rfl later

/-- **Written names spell their tokens**, if no word goes on after them. -/
theorem names (list : List String) (breaks : Breaks text) (later : Spells text tokens) :
    Spells ((writeNames list).toList ++ text) (nameTokens list ++ tokens) := by
  cases list with
  | nil => exact later
  | cons first others =>
    unfold writeNames
    induction others generalizing first with
    | nil => exact name first breaks later
    | cons second rest ih =>
      rw [List.map_cons, List.map_cons, String.intercalate_cons_cons, String.toList_append,
        String.toList_append, List.append_assoc, List.append_assoc]
      exact name first (breaks_cons (by decide) _) (comma (space (ih second)))

end Spells

/-! ## Lines -/

theorem isWord_keyword (type : AttributeType) : isWord type.keyword = true := by
  cases type <;> decide +kernel

theorem isWord_of_mem_keywords : ∀ keyword ∈ keywords, isWord keyword = true := by
  decide +kernel

/-- A text spells tokens behind a word and before a break. -/
def SpellsBehind (text : String) (tokens : List Token) : Prop :=
  ∀ (after : List Char) (later : List Token), Breaks after → Spells after later →
    Breaks (text.toList ++ after) ∧ Spells (text.toList ++ after) (tokens ++ later)

namespace SpellsBehind

theorem empty : SpellsBehind "" [] := fun _ _ breaks later => ⟨breaks, later⟩

theorem word {name : String} (form : isWord name = true) :
    SpellsBehind (" " ++ name) [.word name] := by
  intro after later breaks spells
  rw [String.toList_append, List.append_assoc]
  exact ⟨breaks_cons (by decide) _, (Spells.word form breaks spells).space⟩

theorem append {first second : String} {firstTokens secondTokens : List Token}
    (front : SpellsBehind first firstTokens) (back : SpellsBehind second secondTokens) :
    SpellsBehind (first ++ second) (firstTokens ++ secondTokens) := by
  intro after later breaks spells
  obtain ⟨stillBreaks, stillSpells⟩ := back after later breaks spells
  rw [String.toList_append, List.append_assoc, List.append_assoc]
  exact front _ _ stillBreaks stillSpells

theorem optional {text : String} {tokens : List Token} (spells : SpellsBehind text tokens)
    (present : Bool) :
    SpellsBehind (if present then text else "") (if present then tokens else []) := by
  cases present with
  | false => exact empty
  | true => exact spells

theorem modifiers (constraints : Constraints) :
    SpellsBehind (writeModifiers constraints) (modifierTokens constraints) := by
  have primaryKey := word (isWord_of_mem_keywords "pk" (by simp [keywords]))
  have notNull := append (word (isWord_of_mem_keywords "not" (by simp [keywords])))
    (word (isWord_of_mem_keywords "null" (by simp [keywords])))
  have foreignKey := word (isWord_of_mem_keywords "fk" (by simp [keywords]))
  exact append (append (optional primaryKey _) (optional notNull _)) (optional foreignKey _)

end SpellsBehind

/-- A text spells tokens whatever follows it. -/
def SpellsAhead (text : String) (tokens : List Token) : Prop :=
  ∀ (after : List Char) (later : List Token), Spells after later →
    Spells (text.toList ++ after) (tokens ++ later)

namespace SpellsAhead

theorem attributeLine (attr : Attribute) :
    SpellsAhead (writeAttribute attr) (attributeTokens attr) := by
  intro after later spells
  obtain ⟨breaks, modifiers⟩ := SpellsBehind.modifiers attr.constraints ('\n' :: after) later
    (breaks_cons (by decide) after) spells.newline
  have keyword := Spells.word (isWord_keyword attr.type) breaks modifiers
  have line := Spells.name attr.name (breaks_cons (by decide) _) keyword.space
  unfold writeAttribute
  simp only [String.toList_append, List.append_assoc]
  exact line.space.space.space.space

theorem dependencyLine (clause : DependencyClause) :
    SpellsAhead (writeDependency clause) (dependencyTokens clause) := by
  intro after later spells
  have dependants := Spells.names clause.dependants (breaks_cons (by decide) after) spells.newline
  have determinants := Spells.names clause.determinants (breaks_cons (by decide) _)
    dependants.space.arrow.space
  have line := Spells.word (isWord_of_mem_keywords "dep" (by simp [keywords]))
    (breaks_cons (by decide) _) determinants.space
  unfold writeDependency dependencyTokens
  simp only [String.toList_append, List.append_assoc, List.cons_append]
  exact line.space.space.space.space

/-- Lines that spell their tokens, one after the other. -/
theorem join {α : Type} {write : α → String} {tokens : α → List Token}
    (line : ∀ content, SpellsAhead (write content) (tokens content)) (contents : List α) :
    SpellsAhead (String.join (contents.map write)) (contents.flatMap tokens) := by
  intro after later spells
  rw [String.toList_join]
  induction contents with
  | nil => exact spells
  | cons content rest ih =>
    rw [List.map_cons, List.flatMap_cons, List.flatMap_cons, List.append_assoc, List.append_assoc]
    exact line content _ _ ih

/-- Blocks that spell their tokens, with empty lines between them. -/
theorem intercalate {α : Type} {write : α → String} {tokens : α → List Token}
    (block : ∀ content, SpellsAhead (write content) (tokens content)) (contents : List α) :
    SpellsAhead ("\n".intercalate (contents.map write)) (contents.flatMap tokens) := by
  intro after later spells
  cases contents with
  | nil => exact spells
  | cons first others =>
    induction others generalizing first with
    | nil =>
      rw [List.flatMap_cons, List.flatMap_nil, List.append_nil]
      exact block first after later spells
    | cons second rest ih =>
      rw [List.map_cons, List.map_cons, String.intercalate_cons_cons, String.toList_append,
        String.toList_append, List.append_assoc, List.append_assoc, List.flatMap_cons,
        List.append_assoc]
      exact block first _ _ (ih second).newline

theorem table (content : Table) : SpellsAhead (writeTable content) (tableTokens content) := by
  intro after later spells
  have close : Spells ('\x7d' :: '\n' :: after) (.closeBrace :: later) :=
    .cons rfl spells.newline
  have dependencies := join dependencyLine content.dependencies _ _ close
  have attributes := join attributeLine content.attributes _ _ dependencies
  have openBrace : Spells ('\x7b' :: '\n' :: _) (.openBrace :: _) := .cons rfl attributes.newline
  have name := Spells.name content.name (breaks_cons (by decide) _) openBrace.space
  have block := Spells.word (isWord_of_mem_keywords "table" (by simp [keywords]))
    (breaks_cons (by decide) _) name.space
  unfold writeTable tableTokens
  simp only [String.toList_append, List.append_assoc, List.cons_append]
  exact block

/-- An endpoint spells its tokens, whatever follows its closing parenthesis. -/
theorem endpoint (content : Endpoint) :
    SpellsAhead (writeEndpoint content) (endpointTokens content) := by
  intro after later spells
  have close : Spells (')' :: after) (.closeParen :: later) := .cons rfl spells
  have names := Spells.names content.attributes (breaks_cons (by decide) after) close
  have openParen : Spells ('(' :: _) (.openParen :: _) := .cons rfl names
  have name := Spells.name content.table (breaks_cons (by decide) _) openParen
  unfold writeEndpoint endpointTokens
  simp only [String.toList_append, List.append_assoc, List.cons_append]
  exact name

theorem relationshipLine (relationship : Relationship) :
    SpellsAhead (writeRelationship relationship) (relationshipTokens relationship) := by
  intro after later spells
  have target := endpoint relationship.target _ _ spells.newline
  have source := endpoint relationship.source _ _ target.space.arrow.space
  unfold writeRelationship relationshipTokens
  simp only [String.toList_append, List.append_assoc, List.cons_append]
  exact source.space.space.space.space

theorem relationships (contents : List Relationship) :
    SpellsAhead (writeRelationships contents) (itemTokens (.relationships contents)) := by
  intro after later spells
  have close : Spells ('\x7d' :: '\n' :: after) (.closeBrace :: later) :=
    .cons rfl spells.newline
  have lines := join relationshipLine contents _ _ close
  have openBrace : Spells ('\x7b' :: '\n' :: _) (.openBrace :: _) := .cons rfl lines.newline
  have block := Spells.word (isWord_of_mem_keywords "rel" (by simp [keywords]))
    (breaks_cons (by decide) _) openBrace.space
  unfold writeRelationships itemTokens
  simp only [String.toList_append, List.append_assoc, List.cons_append]
  exact block

end SpellsAhead

/-! ## Schemes -/

/-- An item as it is written. -/
def writeItem : Item → String
  | .table table => writeTable table
  | .relationships relationships => writeRelationships relationships

theorem write_eq (scheme : Scheme) :
    write scheme = "\n".intercalate ((itemsOf scheme).map writeItem) := by
  unfold write itemsOf
  rw [List.map_append, List.map_map]
  split <;> rfl

/-- **A written scheme spells the tokens of its items.** -/
theorem spells_write (scheme : Scheme) : Spells (write scheme).toList (schemeTokens scheme) := by
  have item (content : Item) : SpellsAhead (writeItem content) (itemTokens content) := by
    cases content with
    | table table => exact SpellsAhead.table table
    | relationships relationships => exact SpellsAhead.relationships relationships
  have whole := SpellsAhead.intercalate item (itemsOf scheme) [] [] Spells.nil
  rw [List.append_nil, List.append_nil] at whole
  rw [write_eq]
  exact whole

end RelationalDesign.SchemeText
