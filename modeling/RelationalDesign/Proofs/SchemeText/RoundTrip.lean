import RelationalDesign.Proofs.SchemeText.Readers
import RelationalDesign.Proofs.SchemeText.WrittenTokens

/-!
# Reading what has been written

What a complete scheme is written as reads as the scheme, and what any other scheme is
written as does not read as anything (`read_write`). So a scheme that has been read is read
again from what it is written as.

**Looking ahead.** An empty list of names is written as nothing. At the end of a dependency
the word `dep` of the next one can then be taken for a name. But the names behind it are
followed by a comma or an arrow, where an attribute would have its type, so the text is
refused all the same (`readEntry_ne_ok`).
-/

set_option autoImplicit false

namespace RelationalDesign.SchemeText

/-! ## Names -/

theorem nameToken_cases (name : String) :
    nameToken name = .word name ∧ name ∉ keywords ∨ nameToken name = .quoted name := by
  unfold nameToken
  split
  · next bare =>
    left
    simpa using (Bool.and_eq_true_iff.1 bare).2
  · exact Or.inr rfl

/-- A written name is not taken for a keyword. -/
theorem nameToken_ne_word {keyword : String} (isKeyword : keyword ∈ keywords) (name : String) :
    nameToken name ≠ .word keyword := by
  rcases nameToken_cases name with ⟨bare, other⟩ | quoted
  · rw [bare]
    rintro ⟨⟩
    exact other isKeyword
  · rw [quoted]
    exact Token.noConfusion

theorem nameToken_ne_closeBrace (name : String) : nameToken name ≠ .closeBrace := by
  rcases nameToken_cases name with ⟨bare, _⟩ | quoted
  · rw [bare]
    exact Token.noConfusion
  · rw [quoted]
    exact Token.noConfusion

theorem readName_nameToken (name : String) (rest : List Token) :
    readName (nameToken name :: rest) = .ok (name, rest) := by
  rw [readName_eq_ok_iff]
  rcases nameToken_cases name with ⟨bare, _⟩ | quoted
  · exact Or.inl (congrArg (· :: rest) bare)
  · exact Or.inr (congrArg (· :: rest) quoted)

theorem readMoreNames_nameTokens (names : List String) {rest : List Token}
    (noComma : NoComma rest) :
    readMoreNames ((names.flatMap fun name => [.comma, nameToken name]) ++ rest) =
      .ok (names, rest) := by
  induction names with
  | nil => exact readMoreNames_of_noComma noComma
  | cons name later ih =>
    rw [List.flatMap_cons, List.append_assoc, List.cons_append, List.cons_append, List.nil_append]
    rcases nameToken_cases name with ⟨bare, _⟩ | quoted
    · rw [bare, readMoreNames, ih]
      rfl
    · rw [quoted, readMoreNames, ih]
      rfl

/-- **Names are read back** if there are some. -/
theorem readNames_nameTokens {names : List String} (nonempty : names ≠ []) {rest : List Token}
    (noComma : NoComma rest) : readNames (nameTokens names ++ rest) = .ok (names, rest) := by
  cases names with
  | nil => exact absurd rfl nonempty
  | cons name later =>
    refine bind_eq_ok.2 ⟨(name, _), readName_nameToken name _, ?_⟩
    exact bind_eq_ok.2 ⟨(later, rest), readMoreNames_nameTokens later noComma, rfl⟩

/-- Where a mark stands, there are no names. -/
theorem readNames_ne_ok {token : Token} (noWord : ∀ name, token ≠ .word name)
    (noQuoted : ∀ name, token ≠ .quoted name) (rest : List Token)
    (result : List String × List Token) : readNames (token :: rest) ≠ .ok result := by
  intro read
  obtain ⟨_, name, after, first⟩ := exists_readName_of_readNames read
  rcases readName_eq_ok_iff.1 first with word | quoted
  · exact noWord name (List.cons.inj word).1
  · exact noQuoted name (List.cons.inj quoted).1

/-! ## Attributes -/

theorem noModifier_nameToken (name : String) (rest : List Token) :
    NoModifier (nameToken name :: rest) := by
  refine noModifier_cons (fun modifier member => nameToken_ne_word ?_ name) rest
  revert modifier
  decide

/-- Modifiers are read back. There are eight ways to have them. -/
theorem readModifiers_modifierTokens (constraints : Constraints) {rest : List Token}
    (noModifier : NoModifier rest) :
    readModifiers ∅ (modifierTokens constraints ++ rest) = .ok (constraints, rest) := by
  obtain ⟨notNullable, primaryKey, foreignKey⟩ := constraints
  cases notNullable <;> cases primaryKey <;> cases foreignKey <;>
    simp only [modifierTokens, readModifiers, readModifiers_of_noModifier noModifier,
      Bool.false_eq_true, if_true, if_false, List.cons_append, List.nil_append] <;> rfl

theorem readAttribute_attributeTokens (attr : Attribute) {rest : List Token}
    (noModifier : NoModifier rest) :
    readAttribute (attributeTokens attr ++ rest) = .ok (attr, rest) := by
  refine bind_eq_ok.2 ⟨(attr.name, _), readName_nameToken attr.name _, ?_⟩
  refine bind_eq_ok.2 ⟨(attr.type.keyword, _), readWord_eq_ok_iff.2 rfl, ?_⟩
  dsimp only
  rw [AttributeType.ofKeyword?_keyword]
  exact bind_eq_ok.2
    ⟨(attr.constraints, rest), readModifiers_modifierTokens attr.constraints noModifier, rfl⟩

theorem readEntry_attributeTokens (attr : Attribute) {rest : List Token}
    (noModifier : NoModifier rest) :
    readEntry (attributeTokens attr ++ rest) = .ok (.attribute attr, rest) := by
  have notDep : nameToken attr.name ≠ .word "dep" := nameToken_ne_word (by decide) attr.name
  refine (readEntry_of_ne notDep _).trans ?_
  exact bind_eq_ok.2 ⟨(attr, rest), readAttribute_attributeTokens attr noModifier, rfl⟩

/-- **Attributes are read back** in front of other entries. -/
theorem readEntries_attributeTokens_iff (attributes : List Attribute) {tokens : List Token}
    (noModifier : NoModifier tokens) {result : List Entry × List Token} :
    readEntries (attributes.flatMap attributeTokens ++ tokens) = .ok result ↔
      ∃ entries after, readEntries tokens = .ok (entries, after) ∧
        result = (attributes.map Entry.attribute ++ entries, after) := by
  induction attributes generalizing result with
  | nil =>
    constructor
    · exact fun read => ⟨result.1, result.2, read, rfl⟩
    · rintro ⟨entries, after, read, rfl⟩
      exact read
  | cons attr later ih =>
    have follows : NoModifier (later.flatMap attributeTokens ++ tokens) := by
      cases later with
      | nil => exact noModifier
      | cons next rest => exact noModifier_nameToken next.name _
    have first := readEntry_attributeTokens attr follows
    rw [List.flatMap_cons, List.append_assoc]
    refine (readEntries_eq_ok_iff (nameToken_ne_closeBrace attr.name)).trans ?_
    constructor
    · rintro ⟨entry, rest, read, entries, after, others, rfl⟩
      cases first.symm.trans read
      obtain ⟨behind, last, readBehind, equal⟩ := ih.1 others
      cases equal
      exact ⟨behind, after, readBehind, rfl⟩
    · rintro ⟨entries, after, read, rfl⟩
      exact ⟨_, _, first, _, after, ih.2 ⟨entries, after, read, rfl⟩, rfl⟩

/-! ## Dependencies -/

theorem noComma_nameToken (name : String) (rest : List Token) :
    NoComma (nameToken name :: rest) := by
  rcases nameToken_cases name with ⟨bare, _⟩ | quoted
  · rw [bare]
    exact noComma_cons Token.noConfusion rest
  · rw [quoted]
    exact noComma_cons Token.noConfusion rest

theorem readNames_word (name : String) {rest : List Token} (noComma : NoComma rest) :
    readNames (.word name :: rest) = .ok ([name], rest) :=
  bind_eq_ok.2 ⟨(name, rest), rfl,
    bind_eq_ok.2 ⟨([], rest), readMoreNames_of_noComma noComma, rfl⟩⟩

theorem dependencyTokens_append (clause : DependencyClause) (rest : List Token) :
    dependencyTokens clause ++ rest =
      .word "dep" :: (nameTokens clause.determinants ++
        .arrow :: (nameTokens clause.dependants ++ rest)) := by
  simp only [dependencyTokens, List.cons_append, List.append_assoc]

theorem readEntry_dependencyTokens {clause : DependencyClause} (complete : clause.Complete)
    {rest : List Token} (noComma : NoComma rest) :
    readEntry (dependencyTokens clause ++ rest) = .ok (.dependency clause, rest) := by
  have determinants := readNames_nameTokens complete.1
    (noComma_arrow (nameTokens clause.dependants ++ rest))
  have dependants := readNames_nameTokens complete.2 noComma
  rw [dependencyTokens_append]
  refine bind_eq_ok.2 ⟨(clause, rest), bind_eq_ok.2 ⟨_, determinants, ?_⟩, rfl⟩
  exact bind_eq_ok.2 ⟨((), _), readToken_eq_ok_iff.2 rfl, bind_eq_ok.2 ⟨_, dependants, rfl⟩⟩

/-- Names with an arrow behind them are no entry: where an attribute would have its type
there is a comma or the arrow. -/
theorem readEntry_ne_ok (names : List String) (rest : List Token) (result : Entry × List Token) :
    readEntry (nameTokens names ++ .arrow :: rest) ≠ .ok result := by
  intro read
  cases names with
  | nil =>
    have asAttribute := (readEntry_of_ne Token.noConfusion rest).symm.trans read
    obtain ⟨_, readAttribute, _⟩ := bind_eq_ok.1 asAttribute
    obtain ⟨⟨name, after⟩, readName, _⟩ := bind_eq_ok.1 readAttribute
    rcases readName_eq_ok_iff.1 readName with word | quoted
    · cases word
    · cases quoted
  | cons name others =>
    have notDep : nameToken name ≠ .word "dep" := nameToken_ne_word (by decide) name
    have asAttribute := (readEntry_of_ne notDep _).symm.trans read
    obtain ⟨_, readAttribute, _⟩ := bind_eq_ok.1 asAttribute
    obtain ⟨⟨_, after⟩, readFirst, readType⟩ := bind_eq_ok.1 readAttribute
    cases (readName_nameToken name _).symm.trans readFirst
    obtain ⟨⟨type, _⟩, readWord, _⟩ := bind_eq_ok.1 readType
    have isWord := readWord_eq_ok_iff.1 readWord
    cases others with
    | nil => cases isWord
    | cons next rest => cases isWord

theorem readEntries_ne_ok (names : List String) (rest : List Token)
    (result : List Entry × List Token) :
    readEntries (nameTokens names ++ .arrow :: rest) ≠ .ok result := by
  intro read
  cases names with
  | nil =>
    obtain ⟨entry, after, first, _⟩ := (readEntries_eq_ok_iff Token.noConfusion).1 read
    exact readEntry_ne_ok [] rest (entry, after) first
  | cons name others =>
    obtain ⟨entry, after, first, _⟩ :=
      (readEntries_eq_ok_iff (nameToken_ne_closeBrace name)).1 read
    exact readEntry_ne_ok (name :: others) rest (entry, after) first

/-- **A dependency without names on some side is not read**, whatever dependencies follow. -/
theorem readEntries_dependencyTokens_ne_ok {clause : DependencyClause}
    (incomplete : ¬clause.Complete) (later : List DependencyClause) (rest : List Token)
    (result : List Entry × List Token) :
    readEntries (dependencyTokens clause ++
      (later.flatMap dependencyTokens ++ .closeBrace :: rest)) ≠ .ok result := by
  intro read
  rw [dependencyTokens_append] at read
  obtain ⟨entry, after, first, entries, last, others, _⟩ :=
    (readEntries_eq_ok_iff Token.noConfusion).1 read
  obtain ⟨_, readClause, same⟩ := bind_eq_ok.1 first
  cases same
  obtain ⟨⟨determinants, _⟩, readFirst, readBehind⟩ := bind_eq_ok.1 readClause
  by_cases noDeterminants : clause.determinants = []
  · rw [noDeterminants] at readFirst
    exact readNames_ne_ok (fun _ => Token.noConfusion) (fun _ => Token.noConfusion) _ _ readFirst
  have noDependants : clause.dependants = [] :=
    Decidable.byContradiction fun dependants => incomplete ⟨noDeterminants, dependants⟩
  cases (readNames_nameTokens noDeterminants (noComma_arrow _)).symm.trans readFirst
  obtain ⟨⟨_, _⟩, readArrow, readBehind⟩ := bind_eq_ok.1 readBehind
  cases readToken_eq_ok_iff.1 readArrow
  obtain ⟨⟨_, _⟩, readSecond, same⟩ := bind_eq_ok.1 readBehind
  cases same
  rw [noDependants] at readSecond
  cases later with
  | nil =>
    exact readNames_ne_ok (fun _ => Token.noConfusion) (fun _ => Token.noConfusion) rest _
      readSecond
  | cons next later =>
    -- the word `dep` of the next dependency is read as the name that is missing
    rw [List.flatMap_cons, List.append_assoc, dependencyTokens_append] at readSecond
    have noComma (tokens : List Token) :
        NoComma (nameTokens next.determinants ++ .arrow :: tokens) := by
      cases next.determinants with
      | nil => exact noComma_arrow tokens
      | cons name _ => exact noComma_nameToken name _
    cases (readNames_word "dep" (noComma _)).symm.trans readSecond
    exact readEntries_ne_ok _ _ _ others

/-- **Dependencies are read back** up to the end of a table if none of them is without names
on some side, and only then. -/
theorem readEntries_dependencies_iff (clauses : List DependencyClause) (rest : List Token)
    (result : List Entry × List Token) :
    readEntries (clauses.flatMap dependencyTokens ++ .closeBrace :: rest) = .ok result ↔
      (∀ clause ∈ clauses, clause.Complete) ∧ result = (clauses.map Entry.dependency, rest) := by
  induction clauses generalizing result with
  | nil =>
    rw [List.flatMap_nil, List.nil_append, readEntries, Except.ok.injEq]
    simp [eq_comm]
  | cons clause later ih =>
    rw [List.flatMap_cons, List.append_assoc, List.forall_mem_cons]
    by_cases complete : clause.Complete
    · have noComma : NoComma (later.flatMap dependencyTokens ++ .closeBrace :: rest) := by
        cases later with
        | nil => exact noComma_cons Token.noConfusion rest
        | cons next _ => exact noComma_cons Token.noConfusion _
      have first := readEntry_dependencyTokens complete noComma
      refine (readEntries_eq_ok_iff Token.noConfusion).trans ?_
      constructor
      · rintro ⟨entry, after, read, entries, last, others, rfl⟩
        cases first.symm.trans read
        obtain ⟨allComplete, same⟩ := (ih _).1 others
        cases same
        exact ⟨⟨complete, allComplete⟩, rfl⟩
      · rintro ⟨⟨_, allComplete⟩, rfl⟩
        exact ⟨_, _, first, _, rest, (ih _).2 ⟨allComplete, rfl⟩, rfl⟩
    · constructor
      · exact fun read => absurd read
          (readEntries_dependencyTokens_ne_ok complete later rest result)
      · exact fun both => absurd both.1.1 complete

/-! ## Tables -/

theorem attributesOf_entries (attributes : List Attribute) (clauses : List DependencyClause) :
    attributesOf (attributes.map Entry.attribute ++ clauses.map Entry.dependency) = attributes := by
  have own : attributes.filterMap some ++ clauses.filterMap (fun _ => none) = attributes := by simp
  rw [attributesOf, List.filterMap_append, List.filterMap_map, List.filterMap_map]
  exact own

theorem dependenciesOf_entries (attributes : List Attribute) (clauses : List DependencyClause) :
    dependenciesOf (attributes.map Entry.attribute ++ clauses.map Entry.dependency) = clauses := by
  have own : attributes.filterMap (fun _ => none) ++ clauses.filterMap some = clauses := by simp
  rw [dependenciesOf, List.filterMap_append, List.filterMap_map, List.filterMap_map]
  exact own

theorem readEntries_iff (attributes : List Attribute) (clauses : List DependencyClause)
    (rest : List Token) (result : List Entry × List Token) :
    readEntries (attributes.flatMap attributeTokens ++
        (clauses.flatMap dependencyTokens ++ .closeBrace :: rest)) = .ok result ↔
      (∀ clause ∈ clauses, clause.Complete) ∧
        result = (attributes.map Entry.attribute ++ clauses.map Entry.dependency, rest) := by
  have noModifier : NoModifier (clauses.flatMap dependencyTokens ++ .closeBrace :: rest) := by
    cases clauses with
    | nil => exact noModifier_cons (fun _ _ => Token.noConfusion) rest
    | cons clause _ => exact noModifier_cons (by decide) _
  rw [readEntries_attributeTokens_iff attributes noModifier]
  simp only [readEntries_dependencies_iff]
  constructor
  · rintro ⟨entries, after, ⟨complete, same⟩, rfl⟩
    cases same
    exact ⟨complete, rfl⟩
  · rintro ⟨complete, rfl⟩
    exact ⟨_, _, ⟨complete, rfl⟩, rfl⟩

theorem readItem_table_iff (table : Table) (rest : List Token) (result : Item × List Token) :
    readItem (tableTokens table ++ rest) = .ok result ↔
      (Item.table table).Complete ∧ result = (.table table, rest) := by
  have entries := readEntries_iff table.attributes table.dependencies rest
  unfold tableTokens
  simp only [List.cons_append, List.append_assoc, List.nil_append]
  constructor
  · intro read
    obtain ⟨⟨found, _⟩, readTable, same⟩ := bind_eq_ok.1 read
    cases same
    obtain ⟨⟨_, _⟩, readName, read⟩ := bind_eq_ok.1 readTable
    cases (readName_nameToken table.name _).symm.trans readName
    obtain ⟨⟨_, _⟩, readOpen, read⟩ := bind_eq_ok.1 read
    cases readToken_eq_ok_iff.1 readOpen
    obtain ⟨⟨_, _⟩, readAll, same⟩ := bind_eq_ok.1 read
    cases same
    obtain ⟨complete, same⟩ := (entries _).1 readAll
    cases same
    refine ⟨complete, ?_⟩
    rw [attributesOf_entries, dependenciesOf_entries]
  · rintro ⟨complete, rfl⟩
    refine bind_eq_ok.2 ⟨(table, rest), bind_eq_ok.2 ⟨_, readName_nameToken table.name _, ?_⟩, rfl⟩
    refine bind_eq_ok.2 ⟨((), _), readToken_eq_ok_iff.2 rfl, ?_⟩
    refine bind_eq_ok.2 ⟨_, (entries _).2 ⟨complete, rfl⟩, ?_⟩
    dsimp only
    rw [attributesOf_entries, dependenciesOf_entries]
    rfl

/-! ## Relationships -/

theorem readEndpoint_iff (endpoint : Endpoint) (rest : List Token)
    (result : Endpoint × List Token) :
    readEndpoint (endpointTokens endpoint ++ rest) = .ok result ↔
      endpoint.attributes ≠ [] ∧ result = (endpoint, rest) := by
  have noComma : NoComma (.closeParen :: rest) := noComma_cons Token.noConfusion rest
  unfold endpointTokens
  simp only [List.cons_append, List.append_assoc, List.nil_append]
  constructor
  · intro read
    obtain ⟨⟨_, _⟩, readName, read⟩ := bind_eq_ok.1 read
    cases (readName_nameToken endpoint.table _).symm.trans readName
    obtain ⟨⟨_, _⟩, readOpen, read⟩ := bind_eq_ok.1 read
    cases readToken_eq_ok_iff.1 readOpen
    obtain ⟨⟨_, _⟩, readAttributes, read⟩ := bind_eq_ok.1 read
    by_cases bare : endpoint.attributes = []
    · rw [bare] at readAttributes
      exact absurd readAttributes
        (readNames_ne_ok (fun _ => Token.noConfusion) (fun _ => Token.noConfusion) rest _)
    · cases (readNames_nameTokens bare noComma).symm.trans readAttributes
      obtain ⟨⟨_, _⟩, readClose, same⟩ := bind_eq_ok.1 read
      cases readToken_eq_ok_iff.1 readClose
      cases same
      exact ⟨bare, rfl⟩
  · rintro ⟨nonempty, rfl⟩
    refine bind_eq_ok.2 ⟨_, readName_nameToken endpoint.table _, ?_⟩
    refine bind_eq_ok.2 ⟨((), _), readToken_eq_ok_iff.2 rfl, ?_⟩
    refine bind_eq_ok.2 ⟨_, readNames_nameTokens nonempty noComma, ?_⟩
    exact bind_eq_ok.2 ⟨((), rest), readToken_eq_ok_iff.2 rfl, rfl⟩

theorem readRelationship_iff (relationship : Relationship) (rest : List Token)
    (result : Relationship × List Token) :
    readRelationship (relationshipTokens relationship ++ rest) = .ok result ↔
      relationship.Complete ∧ result = (relationship, rest) := by
  unfold relationshipTokens
  rw [List.append_assoc, List.cons_append]
  constructor
  · intro read
    obtain ⟨⟨_, _⟩, readSource, read⟩ := bind_eq_ok.1 read
    obtain ⟨source, same⟩ := (readEndpoint_iff _ _ _).1 readSource
    cases same
    obtain ⟨⟨_, _⟩, readArrow, read⟩ := bind_eq_ok.1 read
    cases readToken_eq_ok_iff.1 readArrow
    obtain ⟨⟨_, _⟩, readTarget, same⟩ := bind_eq_ok.1 read
    cases same
    obtain ⟨target, same⟩ := (readEndpoint_iff _ _ _).1 readTarget
    cases same
    exact ⟨⟨source, target⟩, rfl⟩
  · rintro ⟨⟨source, target⟩, rfl⟩
    refine bind_eq_ok.2 ⟨_, (readEndpoint_iff _ _ _).2 ⟨source, rfl⟩, ?_⟩
    refine bind_eq_ok.2 ⟨((), _), readToken_eq_ok_iff.2 rfl, ?_⟩
    exact bind_eq_ok.2 ⟨_, (readEndpoint_iff _ _ _).2 ⟨target, rfl⟩, rfl⟩

theorem readRelationships_iff (relationships : List Relationship) (rest : List Token)
    (result : List Relationship × List Token) :
    readRelationships (relationships.flatMap relationshipTokens ++ .closeBrace :: rest) =
        .ok result ↔
      (∀ relationship ∈ relationships, relationship.Complete) ∧
        result = (relationships, rest) := by
  induction relationships generalizing result with
  | nil =>
    rw [List.flatMap_nil, List.nil_append, readRelationships, Except.ok.injEq]
    simp [eq_comm]
  | cons relationship later ih =>
    have notClose := nameToken_ne_closeBrace relationship.source.table
    rw [List.flatMap_cons, List.append_assoc, List.forall_mem_cons]
    refine (readRelationships_eq_ok_iff notClose).trans ?_
    constructor
    · rintro ⟨found, after, read, relationships, last, others, rfl⟩
      obtain ⟨complete, same⟩ := (readRelationship_iff _ _ _).1 read
      cases same
      obtain ⟨allComplete, same⟩ := (ih _).1 others
      cases same
      exact ⟨⟨complete, allComplete⟩, rfl⟩
    · rintro ⟨⟨complete, allComplete⟩, rfl⟩
      exact ⟨_, _, (readRelationship_iff _ _ _).2 ⟨complete, rfl⟩, _, rest,
        (ih _).2 ⟨allComplete, rfl⟩, rfl⟩

/-! ## Schemes -/

theorem readItem_iff (item : Item) (rest : List Token) (result : Item × List Token) :
    readItem (itemTokens item ++ rest) = .ok result ↔ item.Complete ∧ result = (item, rest) := by
  cases item with
  | table table => exact readItem_table_iff table rest result
  | relationships relationships =>
    have block := readRelationships_iff relationships rest
    unfold itemTokens
    simp only [List.cons_append, List.append_assoc, List.nil_append]
    constructor
    · intro read
      obtain ⟨⟨_, _⟩, readOpen, read⟩ := bind_eq_ok.1 read
      cases readToken_eq_ok_iff.1 readOpen
      obtain ⟨⟨_, _⟩, readBlock, same⟩ := bind_eq_ok.1 read
      cases same
      obtain ⟨complete, same⟩ := (block _).1 readBlock
      cases same
      exact ⟨complete, rfl⟩
    · rintro ⟨complete, rfl⟩
      refine bind_eq_ok.2 ⟨((), _), readToken_eq_ok_iff.2 rfl, ?_⟩
      exact bind_eq_ok.2 ⟨_, (block _).2 ⟨complete, rfl⟩, rfl⟩

/-- **The items of a written scheme are read back** if they are complete, and only then. -/
theorem readItems_iff (items result : List Item) :
    readItems (items.flatMap itemTokens) = .ok result ↔
      (∀ item ∈ items, item.Complete) ∧ result = items := by
  induction items generalizing result with
  | nil =>
    rw [List.flatMap_nil, readItems, Except.ok.injEq]
    simp [eq_comm]
  | cons item later ih =>
    obtain ⟨token, tail, shape⟩ : ∃ token tail, itemTokens item = token :: tail := by
      cases item <;> exact ⟨_, _, rfl⟩
    have first := readItem_iff item (later.flatMap itemTokens)
    rw [List.flatMap_cons, List.forall_mem_cons]
    rw [shape, List.cons_append] at first ⊢
    refine readItems_eq_ok_iff.trans ?_
    constructor
    · rintro ⟨found, after, read, items, others, rfl⟩
      obtain ⟨complete, same⟩ := (first _).1 read
      cases same
      obtain ⟨allComplete, same⟩ := (ih _).1 others
      cases same
      exact ⟨⟨complete, allComplete⟩, rfl⟩
    · rintro ⟨⟨complete, allComplete⟩, rfl⟩
      exact ⟨_, _, (first _).2 ⟨complete, rfl⟩, _, (ih _).2 ⟨allComplete, rfl⟩, rfl⟩

/-- The items that a scheme is written as are complete if the scheme is. -/
theorem complete_itemsOf_iff (scheme : Scheme) :
    (∀ item ∈ itemsOf scheme, item.Complete) ↔ scheme.Complete := by
  constructor
  · intro complete
    have whole := complete_schemeOf complete
    rwa [schemeOf_itemsOf] at whole
  · rintro ⟨tables, relationships⟩ item member
    rcases List.mem_append.1 member with ofTable | ofRelationships
    · obtain ⟨table, inTables, rfl⟩ := List.mem_map.1 ofTable
      exact tables table inTables
    · split at ofRelationships
      · exact absurd ofRelationships List.not_mem_nil
      · rw [List.mem_singleton.1 ofRelationships]
        exact relationships

/-- **A written scheme reads as itself if it is complete, and as nothing if it is not.** So the
schemes that some text states are those that are read again from what they are written as. -/
theorem read_write (scheme : Scheme) :
    (∀ result, read (write scheme) = .ok result ↔ scheme.Complete ∧ result = scheme) ∧
      ((∃ text, read text = .ok scheme) ↔ read (write scheme) = .ok scheme) := by
  have readsBack (result : Scheme) : read (write scheme) = .ok result ↔
      scheme.Complete ∧ result = scheme := by
    have spells : tokenize (write scheme).toList = .ok (schemeTokens scheme) := spells_write scheme
    unfold read readText readTokens
    rw [spells, ← complete_itemsOf_iff scheme]
    refine bind_eq_ok.trans ?_
    constructor
    · rintro ⟨items, readAll, same⟩
      obtain ⟨complete, rfl⟩ := (readItems_iff _ _).1 readAll
      cases same
      exact ⟨complete, schemeOf_itemsOf scheme⟩
    · rintro ⟨complete, rfl⟩
      refine ⟨_, (readItems_iff _ _).2 ⟨complete, rfl⟩, ?_⟩
      rw [schemeOf_itemsOf]
      rfl
  refine ⟨readsBack, ?_, fun stated => ⟨write scheme, stated⟩⟩
  rintro ⟨text, stated⟩
  exact (readsBack scheme).2 ⟨complete_of_readText stated, rfl⟩

end RelationalDesign.SchemeText
