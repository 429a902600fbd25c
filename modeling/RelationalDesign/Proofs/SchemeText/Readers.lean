import RelationalDesign.SchemeText.Reading

/-!
# What the readers accept

Each reader takes what it wants from the front of the tokens. Names go on with a comma and
attributes with a modifier, and without one they end (`readMoreNames_of_noComma`,
`readModifiers_of_noModifier`). A reader of a sequence reads its first member and then the
others from what that leaves (`readEntries_eq_ok_iff`, `readRelationships_eq_ok_iff`,
`readItems_eq_ok_iff`).

A list of names has at least one name. So no dependency and no end of a relationship that
has been read is without names (`complete_of_readText`).
-/

set_option autoImplicit false

namespace RelationalDesign

/-- A dependency with names on both sides. -/
def DependencyClause.Complete (clause : DependencyClause) : Prop :=
  clause.determinants ≠ [] ∧ clause.dependants ≠ []

/-- A relationship with names at both ends. -/
def Relationship.Complete (relationship : Relationship) : Prop :=
  relationship.source.attributes ≠ [] ∧ relationship.target.attributes ≠ []

/-- A scheme in which no dependency and no end of a relationship is without names. -/
def Scheme.Complete (scheme : Scheme) : Prop :=
  (∀ table ∈ scheme.tables, ∀ clause ∈ table.dependencies, clause.Complete) ∧
    ∀ relationship ∈ scheme.relationships, relationship.Complete

namespace SchemeText

/-! ## Single tokens -/

section Readers

variable {tokens rest : List Token} {name : String}

theorem readName_eq_ok_iff :
    readName tokens = .ok (name, rest) ↔
      tokens = .word name :: rest ∨ tokens = .quoted name :: rest := by
  unfold readName
  split <;> simp_all

theorem readWord_eq_ok_iff : readWord tokens = .ok (name, rest) ↔ tokens = .word name :: rest := by
  unfold readWord
  split <;> simp_all

theorem readToken_eq_ok_iff {token : Token} {found : Unit} :
    readToken token tokens = .ok (found, rest) ↔ tokens = token :: rest := by
  unfold readToken
  split
  · simp
  · split <;> simp_all

end Readers

/-! ## Where names and modifiers end -/

/-- The tokens do not go on with a comma. -/
def NoComma (tokens : List Token) : Prop := tokens.head? ≠ some .comma

theorem noComma_cons {token : Token} (other : token ≠ .comma) (rest : List Token) :
    NoComma (token :: rest) :=
  fun same => other (Option.some.inj same)

theorem noComma_arrow (rest : List Token) : NoComma (.arrow :: rest) :=
  noComma_cons Token.noConfusion rest

theorem readMoreNames_of_noComma {rest : List Token} (noComma : NoComma rest) :
    readMoreNames rest = .ok ([], rest) := by
  unfold NoComma at noComma
  unfold readMoreNames
  split <;> simp_all

/-- The tokens do not go on with a modifier. -/
def NoModifier (tokens : List Token) : Prop :=
  ∀ modifier ∈ ["pk", "not", "fk"], tokens.head? ≠ some (.word modifier)

theorem noModifier_cons {token : Token}
    (other : ∀ modifier ∈ ["pk", "not", "fk"], token ≠ .word modifier) (rest : List Token) :
    NoModifier (token :: rest) :=
  fun modifier member same => other modifier member (Option.some.inj same)

theorem readModifiers_of_noModifier {rest : List Token} (noModifier : NoModifier rest)
    (constraints : Constraints) : readModifiers constraints rest = .ok (constraints, rest) := by
  unfold NoModifier at noModifier
  unfold readModifiers
  split <;> simp_all

/-- What does not begin with the word `dep` is read as an attribute. -/
theorem readEntry_of_ne {token : Token} (other : token ≠ .word "dep") (tail : List Token) :
    readEntry (token :: tail) = (readAttribute (token :: tail) >>= fun (attr, rest) =>
      return (.attribute attr, rest)) := by
  unfold readEntry
  split
  · next same =>
    exact absurd (List.cons.inj same).1 other
  · rfl

/-! ## Sequences -/

section Sequences

variable {token : Token} {tail : List Token}

theorem readEntries_eq_ok_iff {result : List Entry × List Token} (notClose : token ≠ .closeBrace) :
    readEntries (token :: tail) = .ok result ↔
      ∃ entry rest, readEntry (token :: tail) = .ok (entry, rest) ∧
        ∃ entries after, readEntries rest = .ok (entries, after) ∧
          result = (entry :: entries, after) := by
  rw [readEntries]
  · split
    · next failed => simp [failed]
    · next entry rest first =>
      simp only [first, bind_eq_ok, pure, Except.pure, Except.ok.injEq, Prod.mk.injEq, Prod.exists]
      grind
  · exact notClose

theorem readRelationships_eq_ok_iff {result : List Relationship × List Token}
    (notClose : token ≠ .closeBrace) :
    readRelationships (token :: tail) = .ok result ↔
      ∃ relationship rest, readRelationship (token :: tail) = .ok (relationship, rest) ∧
        ∃ relationships after, readRelationships rest = .ok (relationships, after) ∧
          result = (relationship :: relationships, after) := by
  rw [readRelationships]
  · split
    · next failed => simp [failed]
    · next relationship rest first =>
      simp only [first, bind_eq_ok, pure, Except.pure, Except.ok.injEq, Prod.mk.injEq, Prod.exists]
      grind
  · exact notClose

theorem readItems_eq_ok_iff {result : List Item} :
    readItems (token :: tail) = .ok result ↔
      ∃ item rest, readItem (token :: tail) = .ok (item, rest) ∧
        ∃ items, readItems rest = .ok items ∧ result = item :: items := by
  rw [readItems]
  split
  · next failed => simp [failed]
  · next item rest first =>
    simp only [first, bind_eq_ok, pure, Except.pure, Except.ok.injEq, Prod.mk.injEq]
    grind

end Sequences

/-! ## Names on all sides -/

section Complete

variable {tokens rest : List Token}

/-- A list of names begins with a name. -/
theorem exists_readName_of_readNames {names : List String}
    (read : readNames tokens = .ok (names, rest)) :
    names ≠ [] ∧ ∃ name after, readName tokens = .ok (name, after) := by
  obtain ⟨⟨name, after⟩, first, read⟩ := bind_eq_ok.1 read
  obtain ⟨⟨others, _⟩, _, equal⟩ := bind_eq_ok.1 read
  cases equal
  exact ⟨List.cons_ne_nil name others, name, after, first⟩

theorem complete_of_readDependency {clause : DependencyClause}
    (read : readDependency tokens = .ok (clause, rest)) : clause.Complete := by
  obtain ⟨⟨determinants, _⟩, readFirst, read⟩ := bind_eq_ok.1 read
  obtain ⟨⟨_, _⟩, _, read⟩ := bind_eq_ok.1 read
  obtain ⟨⟨dependants, _⟩, readSecond, equal⟩ := bind_eq_ok.1 read
  cases equal
  exact ⟨(exists_readName_of_readNames readFirst).1, (exists_readName_of_readNames readSecond).1⟩

theorem complete_of_readEntry {clause : DependencyClause}
    (read : readEntry tokens = .ok (.dependency clause, rest)) : clause.Complete := by
  unfold readEntry at read
  split at read
  · obtain ⟨⟨other, _⟩, readClause, equal⟩ := bind_eq_ok.1 read
    cases equal
    exact complete_of_readDependency readClause
  · obtain ⟨⟨attr, _⟩, _, equal⟩ := bind_eq_ok.1 read
    cases equal

theorem complete_of_readEntries {entries : List Entry}
    (read : readEntries tokens = .ok (entries, rest)) :
    ∀ clause ∈ dependenciesOf entries, clause.Complete := by
  suffices each : ∀ clause, Entry.dependency clause ∈ entries → clause.Complete by
    intro clause member
    obtain ⟨entry, inEntries, same⟩ := List.mem_filterMap.1 member
    split at same
    · cases same
    · cases same
      exact each clause inEntries
  fun_induction readEntries tokens generalizing entries with
  | case1 => cases read
  | case2 =>
    cases read
    exact fun _ member => absurd member List.not_mem_nil
  | case3 => simp_all
  | case4 token tail _ entry afterEntry first shorter ih =>
    obtain ⟨⟨others, _⟩, readOthers, equal⟩ := bind_eq_ok.1 read
    cases equal
    intro clause member
    rcases List.mem_cons.1 member with rfl | later
    · exact complete_of_readEntry first
    · exact ih readOthers clause later

theorem complete_of_readTable {table : Table} (read : readTable tokens = .ok (table, rest)) :
    ∀ clause ∈ table.dependencies, clause.Complete := by
  obtain ⟨⟨name, _⟩, _, read⟩ := bind_eq_ok.1 read
  obtain ⟨⟨_, _⟩, _, read⟩ := bind_eq_ok.1 read
  obtain ⟨⟨entries, _⟩, readAll, equal⟩ := bind_eq_ok.1 read
  cases equal
  exact complete_of_readEntries readAll

theorem attributes_ne_nil_of_readEndpoint {endpoint : Endpoint}
    (read : readEndpoint tokens = .ok (endpoint, rest)) : endpoint.attributes ≠ [] := by
  obtain ⟨⟨table, _⟩, _, read⟩ := bind_eq_ok.1 read
  obtain ⟨⟨_, _⟩, _, read⟩ := bind_eq_ok.1 read
  obtain ⟨⟨attributes, _⟩, names, read⟩ := bind_eq_ok.1 read
  obtain ⟨⟨_, _⟩, _, equal⟩ := bind_eq_ok.1 read
  cases equal
  exact (exists_readName_of_readNames names).1

theorem complete_of_readRelationship {relationship : Relationship}
    (read : readRelationship tokens = .ok (relationship, rest)) : relationship.Complete := by
  obtain ⟨⟨source, _⟩, readSource, read⟩ := bind_eq_ok.1 read
  obtain ⟨⟨_, _⟩, _, read⟩ := bind_eq_ok.1 read
  obtain ⟨⟨target, _⟩, readTarget, equal⟩ := bind_eq_ok.1 read
  cases equal
  exact ⟨attributes_ne_nil_of_readEndpoint readSource, attributes_ne_nil_of_readEndpoint readTarget⟩

theorem complete_of_readRelationships {relationships : List Relationship}
    (read : readRelationships tokens = .ok (relationships, rest)) :
    ∀ relationship ∈ relationships, relationship.Complete := by
  fun_induction readRelationships tokens generalizing relationships with
  | case1 => cases read
  | case2 =>
    cases read
    exact fun _ member => absurd member List.not_mem_nil
  | case3 => simp_all
  | case4 token tail _ relationship afterFirst first shorter ih =>
    obtain ⟨⟨others, _⟩, readOthers, equal⟩ := bind_eq_ok.1 read
    cases equal
    exact List.forall_mem_cons.2 ⟨complete_of_readRelationship first, ih readOthers⟩

/-- An item in which no dependency and no end of a relationship is without names. -/
def Item.Complete : Item → Prop
  | .table content => ∀ clause ∈ content.dependencies, clause.Complete
  | .relationships block => ∀ relationship ∈ block, relationship.Complete

theorem complete_of_readItem {item : Item} (read : readItem tokens = .ok (item, rest)) :
    item.Complete := by
  unfold readItem at read
  split at read
  · obtain ⟨⟨table, _⟩, readTable, equal⟩ := bind_eq_ok.1 read
    cases equal
    exact complete_of_readTable readTable
  · obtain ⟨⟨_, _⟩, _, read⟩ := bind_eq_ok.1 read
    obtain ⟨⟨relationships, _⟩, readBlock, equal⟩ := bind_eq_ok.1 read
    cases equal
    exact complete_of_readRelationships readBlock
  · cases read

theorem complete_of_readItems {items : List Item} (read : readItems tokens = .ok items) :
    ∀ item ∈ items, item.Complete := by
  fun_induction readItems tokens generalizing items with
  | case1 =>
    cases read
    exact fun _ member => absurd member List.not_mem_nil
  | case2 => simp_all
  | case3 token tail item afterFirst first shorter ih =>
    obtain ⟨others, readOthers, equal⟩ := bind_eq_ok.1 read
    cases equal
    exact List.forall_mem_cons.2 ⟨complete_of_readItem first, ih readOthers⟩

end Complete

/-- A scheme is complete if the items that make it up are. -/
theorem complete_schemeOf {items : List Item} (complete : ∀ item ∈ items, item.Complete) :
    (schemeOf items).Complete := by
  constructor
  · intro table member
    obtain ⟨item, inItems, same⟩ := List.mem_filterMap.1 member
    cases item with
    | table other =>
      cases same
      exact complete (.table table) inItems
    | relationships _ => cases same
  · intro relationship member
    obtain ⟨item, inItems, inItem⟩ := List.mem_flatMap.1 member
    cases item with
    | table _ => exact absurd inItem List.not_mem_nil
    | relationships relationships => exact complete (.relationships relationships) inItems _ inItem

/-- **A scheme that has been read has names on all sides.** -/
theorem complete_of_readText {text : List Char} {scheme : Scheme}
    (read : readText text = .ok scheme) : scheme.Complete := by
  unfold readText at read
  split at read
  · cases read
  · obtain ⟨items, readAll, equal⟩ := bind_eq_ok.1 read
    cases equal
    exact complete_schemeOf (complete_of_readItems readAll)

end SchemeText

end RelationalDesign
