import RelationalDesign.Proofs.Ddl.WrittenNames

/-!
# The texts of statements

What a table and a relationship are written as in SQL, said for every table and every
relationship, whether or not their names can stand in a statement. A table that is compiled
has this text (`render_createTable`), and so has a relationship (`render_addForeignKey`).
The `lines` of a scheme are the texts of its statements.

Where a scheme is not compiled, a name is to blame. It is found by going over the names in
the order in which they are tried, the attributes of a table before the table itself
(`failure?_createTable`). A well-formed scheme has no other fault, and its relationships add
none (`failure?_statements`).
-/

set_option autoImplicit false

namespace RelationalDesign.Ddl

/-! ## Texts -/

/-- A name between quote characters, with each quote character in it written twice. -/
def quoted (dialect : Dialect) (name : String) : String :=
  String.ofList (dialect.quoteCharacter ::
    (Identifier.double dialect.quoteCharacter name.toList ++ [dialect.quoteCharacter]))

/-- Names between quote characters, with commas between them. -/
def quotedList (dialect : Dialect) (names : List String) : String :=
  ", ".intercalate (names.map (quoted dialect))

/-- The column of an attribute: its name, its type, whether it needs a value, and whether it
is the primary key alone. -/
def columnText (dialect : Dialect) (alone : Bool) (attr : Attribute) : String :=
  quoted dialect attr.name ++ " " ++ (dialect.columnType? attr.type).getD ""
    ++ (if attr.isNotNullable then " NOT NULL" else "")
    ++ (if attr.isPrimaryKey && alone then " PRIMARY KEY" else "")

/-- The statement for a table: its columns, and its key if that has several attributes. -/
def createTableText (dialect : Dialect) (table : Table) : String :=
  let composite := decide (1 < table.primaryKey.length)
  let key :=
    if composite then ["PRIMARY KEY (" ++ quotedList dialect table.primaryKey ++ ")"] else []
  "CREATE TABLE " ++ quoted dialect table.name ++ " ("
    ++ ", ".intercalate (table.attributes.map (columnText dialect !composite) ++ key) ++ ");"

/-- The statement for a relationship. -/
def addForeignKeyText (dialect : Dialect) (relationship : Relationship) : String :=
  "ALTER TABLE " ++ quoted dialect relationship.source.table
    ++ " ADD CONSTRAINT " ++ quoted dialect (constraintName relationship)
    ++ " FOREIGN KEY (" ++ quotedList dialect relationship.source.attributes
    ++ ") REFERENCES " ++ quoted dialect relationship.target.table
    ++ " (" ++ quotedList dialect relationship.target.attributes ++ ");"

/-- A relationship with equally many attributes at both ends. -/
def Balanced (relationship : Relationship) : Prop :=
  relationship.source.attributes.length = relationship.target.attributes.length

instance (relationship : Relationship) : Decidable (Balanced relationship) :=
  inferInstanceAs (Decidable (_ = _))

/-- The lines for a scheme: one for each table, then one for each balanced relationship. -/
def lines (dialect : Dialect) (scheme : Scheme) : List String :=
  scheme.tables.map (createTableText dialect)
    ++ (scheme.relationships.filter Balanced).map (addForeignKeyText dialect)

/-! ## Rendered fragments -/

/-- The text of a list of fragments. -/
def fragmentsText (dialect : Dialect) (fragments : List Fragment) : String :=
  String.ofList (renderFragments dialect fragments)

section Fragments

variable {dialect : Dialect} {fragments : List Fragment}

@[simp] theorem fragmentsText_nil : fragmentsText dialect [] = "" := rfl

@[simp] theorem fragmentsText_fixed (text : String) :
    fragmentsText dialect (.fixed text :: fragments) = text ++ fragmentsText dialect fragments := by
  simp [fragmentsText, renderFragments, Fragment.render]

@[simp] theorem fragmentsText_name (name : Identifier) :
    fragmentsText dialect (.name name :: fragments) =
      quoted dialect name.text ++ fragmentsText dialect fragments := by
  simp only [fragmentsText, renderFragments, List.flatMap_cons, String.ofList_append]
  rfl

@[simp] theorem fragmentsText_append (others : List Fragment) :
    fragmentsText dialect (fragments ++ others) =
      fragmentsText dialect fragments ++ fragmentsText dialect others := by
  simp only [fragmentsText, renderFragments, List.flatMap_append, String.ofList_append]

theorem fragmentsText_commaSeparated (lists : List (List Fragment)) :
    fragmentsText dialect (commaSeparated lists) =
      ", ".intercalate (lists.map (fragmentsText dialect)) := by
  rw [← String.toList_inj, fragmentsText, commaSeparated, renderFragments_intercalate,
    String.toList_ofList, String.toList_intercalate, List.map_map]
  congr 1
  exact List.map_congr_left fun list _ => (String.toList_ofList).symm

theorem fragmentsText_nameList (names : List Identifier) :
    fragmentsText dialect (nameList names) = quotedList dialect (names.map Identifier.text) := by
  rw [nameList, fragmentsText_commaSeparated, quotedList, List.map_map, List.map_map]
  simp only [Function.comp_def, fragmentsText_name, fragmentsText_nil, String.append_empty]

end Fragments

/-! ## Compiled statements -/

section Statements

variable {dialect : Dialect}

theorem fragmentsText_column {table : String} {alone : Bool} {attr : Attribute} {column : Column}
    (made : columnOf dialect table alone attr = .ok column) :
    fragmentsText dialect column.fragments = columnText dialect alone attr := by
  obtain ⟨name, format⟩ := columnOf_eq_ok made
  obtain ⟨type, constraints⟩ := Prod.mk.inj format
  obtain ⟨notNull, primaryKey⟩ := Prod.mk.inj constraints
  simp only [Column.fragments, columnText, fragmentsText_name, fragmentsText_fixed,
    fragmentsText_nil, name, type, notNull, primaryKey, String.append_empty, String.append_assoc]
  rfl

theorem render_createTable {table : Table} {statement : Statement}
    (made : createTable dialect table = .ok statement) :
    statement.render dialect = createTableText dialect table := by
  obtain ⟨columns, columnsMade, made⟩ := bind_eq_ok_iff.1 made
  obtain ⟨key, keyMade, made⟩ := bind_eq_ok_iff.1 made
  obtain ⟨name, named, same⟩ := bind_eq_ok_iff.1 made
  cases same
  have columnTexts := map_of_mapM_eq_ok (fun _ _ made => fragmentsText_column made) columnsMade
  have keyNames := map_text_of_mapM_eq_ok keyMade
  have clause : (keyClause key).map (fragmentsText dialect) =
      if decide (1 < table.primaryKey.length) then
        ["PRIMARY KEY (" ++ quotedList dialect table.primaryKey ++ ")"] else [] := by
    split at keyNames
    · next composite =>
      have nonempty : key ≠ [] := by
        rintro rfl
        rw [← keyNames] at composite
        simp at composite
      simp [keyClause, nonempty, composite, fragmentsText_nameList, keyNames, String.append_assoc]
    · next single => simp [keyClause, List.map_eq_nil_iff.1 keyNames, single]
  show fragmentsText dialect _ = _
  unfold createTableText
  rw [fragments_createTable, ← ofText_eq_ok named]
  simp only [fragmentsText_append, fragmentsText_fixed, fragmentsText_name, fragmentsText_nil,
    fragmentsText_commaSeparated, clauses, List.map_append, List.map_map, Function.comp_def,
    columnTexts, clause, String.append_assoc, String.append_empty]

theorem render_addForeignKey {relationship : Relationship} {statement : Statement}
    (made : addForeignKey relationship = .ok statement) :
    statement.render dialect = addForeignKeyText dialect relationship := by
  obtain ⟨table, tableNamed, made⟩ := bind_eq_ok_iff.1 made
  obtain ⟨name, named, made⟩ := bind_eq_ok_iff.1 made
  obtain ⟨columns, columnsNamed, made⟩ := bind_eq_ok_iff.1 made
  obtain ⟨target, targetNamed, made⟩ := bind_eq_ok_iff.1 made
  obtain ⟨targetColumns, targetColumnsNamed, same⟩ := bind_eq_ok_iff.1 made
  cases same
  show fragmentsText dialect (Statement.addForeignKey _ _ _ _ _).fragments = _
  unfold addForeignKeyText
  rw [← ofText_eq_ok tableNamed, ← ofText_eq_ok named, ← ofText_eq_ok targetNamed,
    ← map_text_of_mapM_eq_ok columnsNamed, ← map_text_of_mapM_eq_ok targetColumnsNamed]
  simp only [Statement.fragments, fragmentsText_append, fragmentsText_fixed, fragmentsText_name,
    fragmentsText_nil, fragmentsText_nameList, String.append_assoc, String.append_empty]

end Statements

/-! ## Faulty names -/

/-- The first name that is empty or contains NUL. -/
def faultyName? (names : List String) : Option String :=
  names.find? fun name => decide (name = "" ∨ '\x00' ∈ name.toList)

/-- The names of a scheme: table by table those of the attributes, and then that of the
table. -/
def checkedNames (scheme : Scheme) : List String :=
  scheme.tables.flatMap fun table => table.attributeNames ++ [table.name]

theorem isFaulty_eq_not_isIdentifier (name : String) :
    decide (name = "" ∨ '\x00' ∈ name.toList) = !isIdentifier name := by
  have valid : isIdentifier name = true ↔ name ≠ "" ∧ '\x00' ∉ name.toList := isIdentifier_iff
  grind

theorem faultyName?_eq_none_iff {names : List String} :
    faultyName? names = none ↔ ∀ name ∈ names, isIdentifier name = true := by
  simp only [faultyName?, List.find?_eq_none, isFaulty_eq_not_isIdentifier, Bool.not_eq_true,
    Bool.not_eq_false']

theorem faultyName?_append (names others : List String) :
    faultyName? (names ++ others) = (faultyName? names).or (faultyName? others) :=
  List.find?_append

/-- Names that are tried one by one fail at the first faulty one. -/
theorem findSome?_failure?_ofText (names : List String) :
    (names.findSome? fun name => failure? (Identifier.ofText name)) =
      (faultyName? names).map SchemeError.invalidIdentifier := by
  induction names with
  | nil => rfl
  | cons name rest ih =>
    have here : failure? (Identifier.ofText name) =
        if isIdentifier name then none else some (.invalidIdentifier name) := by
      unfold Identifier.ofText
      split <;> rfl
    rw [List.findSome?_cons, ih, here, faultyName?, faultyName?, List.find?_cons,
      isFaulty_eq_not_isIdentifier]
    cases isIdentifier name <;> rfl

theorem failure?_mapM_ofText (names : List String) :
    failure? (names.mapM Identifier.ofText) =
      (faultyName? names).map SchemeError.invalidIdentifier := by
  rw [failure?_mapM, findSome?_failure?_ofText]

theorem failure?_columnOf {dialect : Dialect} {table : String} {alone : Bool} {attr : Attribute}
    (known : attr.type ≠ .unknown) :
    failure? (columnOf dialect table alone attr) = failure? (Identifier.ofText attr.name) := by
  unfold columnOf
  split
  · next unknown => exact absurd ((columnType?_eq_none_iff dialect).1 unknown) known
  · exact failure?_bind_pure

/-- **A table with known types fails at its first faulty name**, its own name last. The names
of its key are tried again, but they have passed by then. -/
theorem failure?_createTable {dialect : Dialect} {table : Table}
    (known : ∀ attr ∈ table.attributes, attr.type ≠ .unknown) :
    failure? (createTable dialect table) =
      (faultyName? (table.attributeNames ++ [table.name])).map SchemeError.invalidIdentifier := by
  have columns (alone : Bool) : failure? (table.attributes.mapM (columnOf dialect table.name alone)) =
      (faultyName? table.attributeNames).map SchemeError.invalidIdentifier := by
    rw [failure?_mapM, ← findSome?_failure?_ofText, Table.attributeNames, List.findSome?_map]
    exact findSome?_congr fun attr member => failure?_columnOf (known attr member)
  have own : failure? (Identifier.ofText table.name) =
      (faultyName? [table.name]).map SchemeError.invalidIdentifier := by
    rw [← findSome?_failure?_ofText]
    simp
  have keyNames : (if decide (1 < table.primaryKey.length) then table.primaryKey else []) ⊆
      table.attributeNames := by
    split
    · exact table.primaryKey_subset
    · exact List.nil_subset _
  have chain : failure? (createTable dialect table) = Option.or _ (Option.or _ _) :=
    failure?_bind fun _ => failure?_bind fun _ => failure?_bind_pure
  rw [chain, columns, failure?_mapM_ofText, own, faultyName?_append]
  cases attributes : faultyName? table.attributeNames with
  | some name => rfl
  | none =>
    have valid := faultyName?_eq_none_iff.1 attributes
    rw [faultyName?_eq_none_iff.2 fun name member => valid name (keyNames member)]
    rfl

theorem named_iff_faultyName? {scheme : Scheme} :
    (∀ table ∈ scheme.tables, Named table) ↔ faultyName? (checkedNames scheme) = none := by
  rw [faultyName?_eq_none_iff]
  simp only [checkedNames, List.mem_flatMap, List.mem_append, List.mem_singleton, Named]
  grind

/-- **A well-formed scheme fails at its first faulty name.** -/
theorem failure?_statements {scheme : Scheme} (dialect : Dialect) (formed : scheme.WellFormed) :
    failure? (statements dialect scheme) =
      (faultyName? (checkedNames scheme)).map SchemeError.invalidIdentifier := by
  have tables : failure? (scheme.tables.mapM (createTable dialect)) =
      (faultyName? (checkedNames scheme)).map SchemeError.invalidIdentifier := by
    rw [failure?_mapM, faultyName?, checkedNames, List.find?_flatMap, List.map_findSome?]
    exact findSome?_congr fun table member =>
      failure?_createTable (formed.tables table member).known
  cases faulty : faultyName? (checkedNames scheme) with
  | some name =>
    rw [faulty] at tables
    exact failure?_bind_of_some tables
  | none =>
    exact failure?_eq_none_iff.2
      ((exists_statements_iff dialect formed).2 (named_iff_faultyName?.2 faulty))

end RelationalDesign.Ddl
