import RelationalDesign.Ddl.Compiler
import RelationalDesign.Proofs.Failure.Chains
import RelationalDesign.Proofs.Scheme.Validation

/-!
# Which schemes compile

A scheme compiles in a dialect if and only if it is well-formed and every name of a
table or an attribute can stand in a statement (`exists_compile_iff`). The dialect does
not matter: every known type has a column type in each.

Validation has gone before, so the names of relationships are names of tables and
attributes, and the name of a constraint is put together from such names
(`isIdentifier_constraintName`).
-/

set_option autoImplicit false

namespace RelationalDesign.Ddl

/-! ## Names -/

theorem isIdentifier_iff {text : String} :
    isIdentifier text = true ↔ text ≠ "" ∧ '\x00' ∉ text.toList := by
  simp [isIdentifier]

theorem exists_ofText_iff {text : String} :
    (∃ name, Identifier.ofText text = .ok name) ↔ isIdentifier text = true := by
  unfold Identifier.ofText
  split
  · next valid => simp [valid]
  · next invalid => simp [invalid]

theorem exists_mapM_ofText_iff {texts : List String} :
    (∃ names, texts.mapM Identifier.ofText = .ok names) ↔
      ∀ text ∈ texts, isIdentifier text = true := by
  rw [exists_mapM_eq_ok_iff]
  exact forall₂_congr fun text _ => exists_ofText_iff

/-- What is between two members of a list or in one of them. -/
theorem mem_of_mem_intercalate {α : Type} {between : List α} {lists : List (List α)} {x : α}
    (member : x ∈ between.intercalate lists) : x ∈ between ∨ ∃ list ∈ lists, x ∈ list := by
  induction lists with
  | nil => simp at member
  | cons list rest ih =>
    cases rest with
    | nil => exact Or.inr ⟨list, List.mem_cons_self, by simpa using member⟩
    | cons next rest =>
      rw [List.intercalate_cons_cons, List.mem_append, List.mem_append] at member
      rcases member with (first | separator) | later
      · exact Or.inr ⟨list, List.mem_cons_self, first⟩
      · exact Or.inl separator
      · refine (ih later).imp id ?_
        rintro ⟨other, inRest, isMember⟩
        exact ⟨other, List.mem_cons_of_mem list inRest, isMember⟩

/-- Names without NUL, with underscores between them, have no NUL. -/
theorem nul_notMem_intercalate {names : List String}
    (valid : ∀ name ∈ names, isIdentifier name = true) :
    '\x00' ∉ ("_".intercalate names).toList := by
  intro member
  rw [String.toList_intercalate] at member
  rcases mem_of_mem_intercalate member with separator | ⟨_, inNames, isMember⟩
  · exact absurd separator (by decide)
  · obtain ⟨name, isName, rfl⟩ := List.mem_map.1 inNames
    exact (isIdentifier_iff.1 (valid name isName)).2 isMember

/-- An end of a relationship whose names can stand in a statement. -/
def Valid (endpoint : Endpoint) : Prop :=
  isIdentifier endpoint.table = true ∧ ∀ name ∈ endpoint.attributes, isIdentifier name = true

/-- **The name of a constraint between valid ends can stand in a statement.** -/
theorem isIdentifier_constraintName {relationship : Relationship}
    (source : Valid relationship.source) (target : Valid relationship.target) :
    isIdentifier (constraintName relationship) = true := by
  have sourceTable := (isIdentifier_iff.1 source.1).2
  have targetTable := (isIdentifier_iff.1 target.1).2
  have sourceNames := nul_notMem_intercalate source.2
  have targetNames := nul_notMem_intercalate target.2
  refine isIdentifier_iff.2 ⟨?_, ?_⟩
  · intro empty
    have noText := congrArg String.toList empty
    simp [constraintName] at noText
  · unfold constraintName
    simp [-String.toList_intercalate, sourceTable, targetTable, sourceNames, targetNames]

/-! ## Statements -/

/-- A table whose name and whose attributes' names can stand in a statement. -/
def Named (table : Table) : Prop :=
  isIdentifier table.name = true ∧ ∀ name ∈ table.attributeNames, isIdentifier name = true

instance (table : Table) : Decidable (Named table) :=
  inferInstanceAs (Decidable (_ ∧ ∀ name ∈ table.attributeNames, isIdentifier name = true))

theorem Named.of_declaration {table other : Table} (named : Named table)
    (same : table.declaration = other.declaration) : Named other := by
  unfold Named at named ⊢
  rwa [← Table.name_eq_of_declaration same, ← Table.attributeNames_eq_of_declaration same]

theorem columnType?_eq_none_iff (dialect : Dialect) {type : AttributeType} :
    dialect.columnType? type = none ↔ type = .unknown := by
  cases type <;> cases dialect <;> simp [Dialect.columnType?]

theorem exists_columnOf_iff {dialect : Dialect} {table : String} {alone : Bool} {attr : Attribute} :
    (∃ column, columnOf dialect table alone attr = .ok column) ↔
      attr.type ≠ .unknown ∧ isIdentifier attr.name = true := by
  unfold columnOf
  rw [ne_eq, ← columnType?_eq_none_iff dialect]
  cases dialect.columnType? attr.type with
  | none => simp
  | some type =>
    rw [exists_bind_eq_ok_iff, ← exists_ofText_iff]
    simp only [exists_pure_eq_ok, and_true, reduceCtorEq, not_false_eq_true, true_and]

theorem exists_createTable_iff {dialect : Dialect} {table : Table} :
    (∃ statement, createTable dialect table = .ok statement) ↔
      (∀ attr ∈ table.attributes, attr.type ≠ .unknown) ∧ Named table := by
  -- the names of the key are names of attributes, and have been tried before
  have key (composite : Bool) (valid : ∀ name ∈ table.attributeNames, isIdentifier name = true) :
      ∀ name ∈ if composite then table.primaryKey else [], isIdentifier name = true := by
    intro name member
    split at member
    · exact valid name (table.primaryKey_subset member)
    · exact absurd member List.not_mem_nil
  unfold createTable Named
  simp only [exists_bind_eq_ok_iff, exists_pure_eq_ok, and_true, exists_and_right,
    exists_mapM_eq_ok_iff, exists_columnOf_iff, exists_ofText_iff]
  constructor
  · rintro ⟨columns, _, name⟩
    refine ⟨fun attr member => (columns attr member).1, name, ?_⟩
    exact List.forall_mem_map.2 fun attr member => (columns attr member).2
  · rintro ⟨known, name, valid⟩
    refine ⟨fun attr member => ⟨known attr member, ?_⟩, key _ valid, name⟩
    exact valid attr.name (List.mem_map_of_mem member)

theorem exists_addForeignKey {relationship : Relationship} (source : Valid relationship.source)
    (target : Valid relationship.target) :
    ∃ statement, addForeignKey relationship = .ok statement := by
  have name := isIdentifier_constraintName source target
  unfold addForeignKey
  simp only [exists_bind_eq_ok_iff, exists_pure_eq_ok, and_true, exists_and_right,
    exists_mapM_ofText_iff, exists_ofText_iff]
  exact ⟨source.1, name, source.2, target.1, target.2⟩

/-! ## Schemes -/

variable {dialect : Dialect} {scheme : Scheme}

/-- An end that is held by tables with valid names is valid. -/
theorem valid_of_holds (named : ∀ table ∈ scheme.tables, Named table) {endpoint : Endpoint}
    (held : endpoint.HeldBy scheme.tables) : Valid endpoint := by
  obtain ⟨_, table, member, same, contained⟩ := held
  obtain ⟨name, names⟩ := named table member
  exact ⟨same ▸ name, fun attr inEnd => names attr (contained inEnd)⟩

theorem exists_statements_iff (dialect : Dialect) (formed : scheme.WellFormed) :
    (∃ list, statements dialect scheme = .ok list) ↔ ∀ table ∈ scheme.tables, Named table := by
  unfold statements
  simp only [exists_bind_eq_ok_iff, exists_pure_eq_ok, and_true, exists_and_right,
    exists_mapM_eq_ok_iff, exists_createTable_iff]
  constructor
  · rintro ⟨tables, _⟩ table member
    exact (tables table member).2
  · intro named
    refine ⟨fun table member => ⟨(formed.tables table member).known, named table member⟩, ?_⟩
    intro relationship isKey
    have member := (List.mem_filter.1 isKey).1
    exact exists_addForeignKey (valid_of_holds named (formed.sources relationship member))
      (valid_of_holds named (formed.targets relationship member))

/-- **A scheme compiles if and only if it is well-formed and its names can stand in
statements**, in every dialect. -/
theorem exists_compile_iff :
    (∃ text, compile dialect scheme = .ok text) ↔
      scheme.WellFormed ∧ ∀ table ∈ scheme.tables, Named table := by
  unfold compile Compiler.accept
  rw [← Scheme.validate_eq_ok_iff]
  cases validated : scheme.validate with
  | error error => simp [bind, Except.bind]
  | ok =>
    have formed := Scheme.validate_eq_ok_iff.1 validated
    rw [and_iff_right rfl, ← exists_statements_iff dialect formed]
    show (∃ text, (statements dialect scheme >>= fun list => _) = Except.ok text) ↔ _
    rw [exists_bind_eq_ok_iff]
    simp only [exists_pure_eq_ok, and_true]

end RelationalDesign.Ddl
