import RelationalDesign.Proofs.Ddl.Compilation
import RelationalDesign.Proofs.Ddl.QuotedRegions

/-!
# Names in compiled texts

Whatever the names of a scheme hold, the quoted regions of the compiled text are its names
in a fixed order, and what stands outside them depends on the dialect and the shape of the
scheme only (`scan_compile`). So no name is read as a part of a statement.

A statement without its names is a `Form`. The form of a statement determines the outline
of its text (`outline_statement`), and the form of what a table or a relationship is
compiled to is computed from types, constraints and numbers alone (`createTable_eq_ok`,
`addForeignKey_eq_ok`).
-/

set_option autoImplicit false

namespace RelationalDesign.Ddl

/-- What two lists show alike they show alike to whatever it determines. -/
theorem map_eq_map_of_determined {α β γ : Type} {look : α → β} {seen : α → γ}
    (determined : ∀ first second, look first = look second → seen first = seen second)
    {members others : List α} (same : members.map look = others.map look) :
    members.map seen = others.map seen := by
  induction members generalizing others with
  | nil =>
    rw [List.map_nil] at same
    rw [List.map_eq_nil_iff.1 same.symm]
  | cons first rest ih =>
    cases others with
    | nil => cases same
    | cons second others =>
      obtain ⟨head, tail⟩ := List.cons.inj same
      rw [List.map_cons, List.map_cons, determined first second head, ih tail]

theorem ofText_eq_ok {text : String} {name : Identifier}
    (accepted : Identifier.ofText text = .ok name) : name.text = text := by
  unfold Identifier.ofText at accepted
  split at accepted <;> cases accepted
  rfl

/-! ## Statements -/

/-- What a column shows besides its name: its type and its constraints. -/
def Column.format (column : Column) : String × Bool × Bool :=
  (column.type, column.notNull, column.primaryKey)

/-- A statement without its names. -/
inductive Form where
  /-- Creates a table with columns of some formats and a key of some length. -/
  | createTable (columns : List (String × Bool × Bool)) (key : Nat)
  /-- Adds a foreign key from some number of columns to some number of columns. -/
  | addForeignKey (columns targetColumns : Nat)
deriving DecidableEq

namespace Statement

/-- The form of a statement. -/
def form : Statement → Form
  | createTable _ columns key => .createTable (columns.map Column.format) key.length
  | addForeignKey _ _ columns _ targetColumns => .addForeignKey columns.length targetColumns.length

/-- The names in a statement, in order. -/
def names : Statement → List String
  | createTable table columns key =>
    table.text :: (columns.map (fun column => column.name.text) ++ key.map Identifier.text)
  | addForeignKey table name columns target targetColumns =>
    table.text :: name.text ::
      (columns.map Identifier.text ++ target.text :: targetColumns.map Identifier.text)

end Statement

/-- The clause for a key, if the key is not empty. -/
def keyClause (key : List Identifier) : List (List Fragment) :=
  if key = [] then [] else [.fixed "PRIMARY KEY (" :: (nameList key ++ [.fixed ")"])]

/-- What stands in the parentheses of a statement that creates a table. -/
def clauses (columns : List Column) (key : List Identifier) : List (List Fragment) :=
  columns.map Column.fragments ++ keyClause key

theorem fragments_createTable (table : Identifier) (columns : List Column)
    (key : List Identifier) :
    (Statement.createTable table columns key).fragments =
      [.fixed "CREATE TABLE ", .name table, .fixed " ("] ++ commaSeparated (clauses columns key)
        ++ [.fixed ");"] :=
  rfl

theorem regions_clauses (columns : List Column) (key : List Identifier) :
    regions (pieces (commaSeparated (clauses columns key))) =
      columns.map (fun column => column.name.text) ++ key.map Identifier.text := by
  have column : (columns.map Column.fragments).flatMap (fun list => regions (pieces list)) =
      columns.map fun column => column.name.text := by
    rw [List.flatMap_map, List.map_eq_flatMap]
    simp [Column.fragments]
  have clause : (keyClause key).flatMap (fun list => regions (pieces list)) =
      key.map Identifier.text := by
    unfold keyClause
    split
    · next keyless => simp [keyless]
    · simp [regions_nameList]
  rw [commaSeparated, regions_intercalate, clauses, List.flatMap_append, column, clause]

theorem regions_statement (statement : Statement) :
    regions (pieces statement.fragments) = statement.names := by
  cases statement with
  | createTable table columns key =>
    simp [fragments_createTable, Statement.names, regions_clauses]
  | addForeignKey table name columns target targetColumns =>
    simp [Statement.fragments, Statement.names, regions_nameList]

theorem outline_column {first second : Column} (same : first.format = second.format) :
    outline (pieces first.fragments) = outline (pieces second.fragments) := by
  obtain ⟨type, constraints⟩ := Prod.mk.inj same
  obtain ⟨notNull, primaryKey⟩ := Prod.mk.inj constraints
  simp only [Column.fragments, outline_name, outline_fixed, type, notNull, primaryKey]

theorem outline_keyClause {key other : List Identifier} (same : key.length = other.length) :
    (keyClause key).map (fun list => outline (pieces list)) =
      (keyClause other).map fun list => outline (pieces list) := by
  have sameEmpty : key = [] ↔ other = [] := by
    rw [← List.length_eq_zero_iff, same, List.length_eq_zero_iff]
  simp only [keyClause, sameEmpty]
  split
  · rfl
  · simp [outline_nameList same]

/-- **The form of a statement determines the outline of its text.** -/
theorem outline_statement {first second : Statement} (same : first.form = second.form) :
    outline (pieces first.fragments) = outline (pieces second.fragments) := by
  cases first with
  | createTable table columns key =>
    cases second with
    | addForeignKey => cases same
    | createTable otherTable otherColumns otherKey =>
      obtain ⟨formats, lengths⟩ := Form.createTable.inj same
      have columnOutlines := map_eq_map_of_determined (fun _ _ => outline_column) formats
      simp only [fragments_createTable, commaSeparated, clauses, outline_append,
        outline_intercalate, outline_name, outline_fixed, List.map_append, List.map_map,
        Function.comp_def, columnOutlines, outline_keyClause lengths]
  | addForeignKey table name columns target targetColumns =>
    cases second with
    | createTable => cases same
    | addForeignKey =>
      obtain ⟨lengths, targetLengths⟩ := Form.addForeignKey.inj same
      simp [Statement.fragments, outline_nameList lengths, outline_nameList targetLengths]

/-! ## Compiled tables and relationships -/

theorem quoteCharacter_notMem_columnType (dialect : Dialect) (type : AttributeType) :
    dialect.quoteCharacter ∉ ((dialect.columnType? type).getD "").toList := by
  cases type <;> cases dialect <;> decide

/-- The form of the statement for a table, by the types and constraints of its attributes. -/
def Form.ofTable (dialect : Dialect) (attributes : List (AttributeType × Constraints)) : Form :=
  let keyLength := attributes.countP fun attr => attr.2.primaryKey
  .createTable
    (attributes.map fun attr => ((dialect.columnType? attr.1).getD "", attr.2.notNullable,
      attr.2.primaryKey && !decide (1 < keyLength)))
    (if 1 < keyLength then keyLength else 0)

/-- The names that are written for a table: its own, those of its columns, and those of its
key if that has several attributes. -/
def tableNames (table : Table) : List String :=
  table.name ::
    (table.attributeNames ++ if 1 < table.primaryKey.length then table.primaryKey else [])

/-- The names that are written for a relationship. -/
def relationshipNames (relationship : Relationship) : List String :=
  relationship.source.table :: constraintName relationship :: (relationship.source.attributes ++
    relationship.target.table :: relationship.target.attributes)

/-- What of a table shows outside the names: the types and constraints of its attributes. -/
def tableShape (table : Table) : List (AttributeType × Constraints) :=
  table.attributes.map fun attr => (attr.type, attr.constraints)

theorem length_primaryKey (table : Table) :
    table.primaryKey.length = (tableShape table).countP fun attr => attr.2.primaryKey := by
  rw [Table.primaryKey, List.length_map, ← List.countP_eq_length_filter, tableShape,
    List.countP_map]
  rfl

theorem columnOf_eq_ok {dialect : Dialect} {table : String} {alone : Bool} {attr : Attribute}
    {column : Column} (made : columnOf dialect table alone attr = .ok column) :
    column.name.text = attr.name ∧
      column.format = ((dialect.columnType? attr.type).getD "", attr.constraints.notNullable,
        attr.constraints.primaryKey && alone) := by
  unfold columnOf at made
  split at made
  · cases made
  · next type known =>
    obtain ⟨name, named, same⟩ := bind_eq_ok_iff.1 made
    cases same
    refine ⟨ofText_eq_ok named, ?_⟩
    rw [known]
    rfl

theorem map_text_of_mapM_eq_ok {texts : List String} {names : List Identifier}
    (accepted : texts.mapM Identifier.ofText = .ok names) : names.map Identifier.text = texts := by
  have shown (text : String) (name : Identifier) (made : Identifier.ofText text = .ok name) :
      name.text = id text :=
    ofText_eq_ok made
  rw [map_of_mapM_eq_ok shown accepted, List.map_id]

/-- **What a table is compiled to** has its names and the form of its shape. -/
theorem createTable_eq_ok {dialect : Dialect} {table : Table} {statement : Statement}
    (made : createTable dialect table = .ok statement) :
    statement.names = tableNames table ∧
      statement.form = Form.ofTable dialect (tableShape table) := by
  obtain ⟨columns, columnsMade, made⟩ := bind_eq_ok_iff.1 made
  obtain ⟨key, keyMade, made⟩ := bind_eq_ok_iff.1 made
  obtain ⟨name, named, same⟩ := bind_eq_ok_iff.1 made
  cases same
  have columnNames := map_of_mapM_eq_ok (fun _ _ made => (columnOf_eq_ok made).1) columnsMade
  have formats := map_of_mapM_eq_ok (fun _ _ made => (columnOf_eq_ok made).2) columnsMade
  have keyNames := map_text_of_mapM_eq_ok keyMade
  have keyLength := congrArg List.length keyNames
  simp only [decide_eq_true_eq] at keyNames keyLength
  constructor
  · rw [Statement.names, tableNames, ofText_eq_ok named, columnNames, keyNames,
      Table.attributeNames]
  · rw [Statement.form, Form.ofTable, formats, ← length_primaryKey, tableShape, List.map_map,
      ← List.length_map Identifier.text, keyLength]
    congr 1
    split <;> rfl

/-- **What a relationship is compiled to** has its names, and its form is how many attributes
there are at its ends. -/
theorem addForeignKey_eq_ok {relationship : Relationship} {statement : Statement}
    (made : addForeignKey relationship = .ok statement) :
    statement.names = relationshipNames relationship ∧
      statement.form = .addForeignKey relationship.source.attributes.length
        relationship.target.attributes.length := by
  obtain ⟨table, tableNamed, made⟩ := bind_eq_ok_iff.1 made
  obtain ⟨name, named, made⟩ := bind_eq_ok_iff.1 made
  obtain ⟨columns, columnsNamed, made⟩ := bind_eq_ok_iff.1 made
  obtain ⟨target, targetNamed, made⟩ := bind_eq_ok_iff.1 made
  obtain ⟨targetColumns, targetColumnsNamed, same⟩ := bind_eq_ok_iff.1 made
  cases same
  have columnNames := map_text_of_mapM_eq_ok columnsNamed
  have targetColumnNames := map_text_of_mapM_eq_ok targetColumnsNamed
  constructor
  · rw [Statement.names, relationshipNames, ofText_eq_ok tableNamed, ofText_eq_ok named,
      ofText_eq_ok targetNamed, columnNames, targetColumnNames]
  · rw [Statement.form, ← columnNames, ← targetColumnNames, List.length_map, List.length_map]

/-! ## Legible statements -/

section Legible

variable {dialect : Dialect}

theorem legible_nameList (names : List Identifier) :
    Legible dialect.quoteCharacter (nameList names) := by
  refine Legible.intercalate (by cases dialect <;> decide) ?_
  exact List.forall_mem_map.2 fun name _ => .name name

theorem legible_column {column : Column}
    (noQuote : dialect.quoteCharacter ∉ column.type.toList) :
    Legible dialect.quoteCharacter column.fragments := by
  refine .nameFixed column.name ⟨fun empty => ?_, ?_⟩ .nil
  · have noText := congrArg String.toList empty
    simp at noText
  · have constraints : dialect.quoteCharacter ∉ " NOT NULL PRIMARY KEY".toList := by
      cases dialect <;> decide
    cases column.notNull <;> cases column.primaryKey <;> simp_all

theorem legible_keyClause (key : List Identifier) :
    ∀ list ∈ keyClause key, Legible dialect.quoteCharacter list := by
  unfold keyClause
  split
  · exact fun _ member => absurd member List.not_mem_nil
  · refine List.forall_mem_singleton.2 (.fixed (by cases dialect <;> decide) ?_)
    exact .join (legible_nameList key) (by cases dialect <;> decide) .nil

/-- **A statement is legible** if the types of its columns hold no quote characters. -/
theorem legible_statement {statement : Statement}
    (noQuote : ∀ table columns key, statement = .createTable table columns key →
      ∀ column ∈ columns, dialect.quoteCharacter ∉ column.type.toList) :
    Legible dialect.quoteCharacter statement.fragments := by
  cases statement with
  | createTable table columns key =>
    have column : ∀ list ∈ columns.map Column.fragments, Legible dialect.quoteCharacter list :=
      List.forall_mem_map.2 fun column member => legible_column (noQuote _ _ _ rfl column member)
    have inside : Legible dialect.quoteCharacter (commaSeparated (clauses columns key)) :=
      .intercalate (by cases dialect <;> decide)
        (List.forall_mem_append.2 ⟨column, legible_keyClause key⟩)
    rw [fragments_createTable, List.append_assoc]
    refine .fixed (by cases dialect <;> decide) ?_
    refine .nameFixed table (by cases dialect <;> decide) ?_
    exact .join inside (by cases dialect <;> decide) .nil
  | addForeignKey table name columns target targetColumns =>
    simp only [Statement.fragments, List.append_assoc, List.cons_append, List.nil_append]
    refine .fixed (by cases dialect <;> decide) ?_
    refine .nameFixed table (by cases dialect <;> decide) ?_
    refine .nameFixed name (by cases dialect <;> decide) ?_
    refine .join (legible_nameList columns) (by cases dialect <;> decide) ?_
    refine .nameFixed target (by cases dialect <;> decide) ?_
    exact .join (legible_nameList targetColumns) (by cases dialect <;> decide) .nil

/-- What a table is compiled to is legible: no type of a column holds a quote character. -/
theorem legible_createTable {table : Table} {statement : Statement}
    (made : createTable dialect table = .ok statement) :
    Legible dialect.quoteCharacter statement.fragments := by
  refine legible_statement fun _ columns key same column member => ?_
  have form := (createTable_eq_ok made).2
  rw [same] at form
  obtain ⟨formats, _⟩ := Form.createTable.inj form
  have format : column.format ∈ columns.map Column.format := List.mem_map_of_mem member
  rw [formats] at format
  obtain ⟨attr, _, sameFormat⟩ := List.mem_map.1 format
  rw [← (Prod.mk.inj sameFormat).1]
  exact quoteCharacter_notMem_columnType dialect attr.1

theorem legible_addForeignKey {relationship : Relationship} {statement : Statement}
    (made : addForeignKey relationship = .ok statement) :
    Legible dialect.quoteCharacter statement.fragments := by
  refine legible_statement fun _ _ _ same => ?_
  have form := (addForeignKey_eq_ok made).2
  rw [same] at form
  cases form

end Legible

/-! ## Schemes -/

/-- What of a scheme shows outside the names. -/
structure Shape where
  /-- For each table the types and constraints of its attributes. -/
  tables : List (List (AttributeType × Constraints))
  /-- For each relationship how many attributes there are at its source and at its target. -/
  relationships : List (Nat × Nat)
deriving DecidableEq

def shape (scheme : Scheme) : Shape where
  tables := scheme.tables.map tableShape
  relationships := scheme.relationships.map fun relationship =>
    (relationship.source.attributes.length, relationship.target.attributes.length)

/-- The names that are written for a scheme: those of its tables, and those of each
relationship that has equally many attributes at both ends. -/
def writtenNames (scheme : Scheme) : List String :=
  scheme.tables.flatMap tableNames ++
    (scheme.relationships.filter fun relationship =>
      relationship.source.attributes.length == relationship.target.attributes.length).flatMap
        relationshipNames

/-- The forms of the statements for a scheme. -/
def Shape.forms (dialect : Dialect) (shape : Shape) : List Form :=
  shape.tables.map (Form.ofTable dialect) ++
    (shape.relationships.filter fun lengths => lengths.1 == lengths.2).map fun lengths =>
      .addForeignKey lengths.1 lengths.2

section Schemes

variable {dialect : Dialect} {scheme : Scheme} {list : List Statement}

/-- In a well-formed scheme the numbers of attributes decide what is a foreign key. -/
theorem filter_isForeignKey (formed : scheme.WellFormed) :
    scheme.relationships.filter (isForeignKey scheme) =
      scheme.relationships.filter fun relationship =>
        relationship.source.attributes.length == relationship.target.attributes.length := by
  refine List.filter_congr fun relationship member => ?_
  obtain ⟨nonempty, source⟩ := formed.sources relationship member
  obtain ⟨_, target⟩ := formed.targets relationship member
  have resolved := (Scheme.resolves_iff formed.distinct).2 source
  have targetResolved := (Scheme.resolves_iff formed.distinct).2 target
  simp [isForeignKey, nonempty, resolved, targetResolved]

theorem statements_eq_ok (formed : scheme.WellFormed)
    (made : statements dialect scheme = .ok list) :
    list.flatMap Statement.names = writtenNames scheme ∧
      list.map Statement.form = (shape scheme).forms dialect ∧
      ∀ statement ∈ list, Legible dialect.quoteCharacter statement.fragments := by
  obtain ⟨tables, tablesMade, made⟩ := bind_eq_ok_iff.1 made
  obtain ⟨foreignKeys, foreignKeysMade, same⟩ := bind_eq_ok_iff.1 made
  cases same
  rw [filter_isForeignKey formed] at foreignKeysMade
  refine ⟨?_, ?_, List.forall_mem_append.2 ⟨fun statement member => ?_, fun statement member => ?_⟩⟩
  · have ofTables := map_of_mapM_eq_ok (fun _ _ made => (createTable_eq_ok made).1) tablesMade
    have ofRelationships :=
      map_of_mapM_eq_ok (fun _ _ made => (addForeignKey_eq_ok made).1) foreignKeysMade
    rw [List.flatMap_append, List.flatMap_def, List.flatMap_def, ofTables, ofRelationships,
      ← List.flatMap_def, ← List.flatMap_def, writtenNames]
  · have ofTables := map_of_mapM_eq_ok (fun _ _ made => (createTable_eq_ok made).2) tablesMade
    have ofRelationships :=
      map_of_mapM_eq_ok (fun _ _ made => (addForeignKey_eq_ok made).2) foreignKeysMade
    rw [List.map_append, ofTables, ofRelationships, Shape.forms, shape, List.map_map,
      List.filter_map, List.map_map]
    rfl
  · obtain ⟨table, _, made⟩ := exists_of_mapM_eq_ok tablesMade statement member
    exact legible_createTable made
  · obtain ⟨relationship, _, made⟩ := exists_of_mapM_eq_ok foreignKeysMade statement member
    exact legible_addForeignKey made

/-- The fragments of some statements, each on a line. -/
def script (list : List Statement) : List Fragment :=
  [Fragment.fixed "\n"].intercalate (list.map Statement.fragments)

theorem exists_lines_of_compile {text : String} (compiled : compile dialect scheme = .ok text) :
    scheme.WellFormed ∧ ∃ list, statements dialect scheme = .ok list ∧
      text = "\n".intercalate (list.map (Statement.render dialect)) := by
  refine ⟨(exists_compile_iff.1 ⟨text, compiled⟩).1, ?_⟩
  obtain ⟨compiler, accepted, built⟩ := bind_eq_ok_iff.1 compiled
  obtain ⟨_, _, same⟩ := bind_eq_ok_iff.1 accepted
  cases same
  obtain ⟨list, made, same⟩ := bind_eq_ok_iff.1 built
  cases same
  exact ⟨list, made, rfl⟩

theorem exists_statements_of_compile {text : String}
    (compiled : compile dialect scheme = .ok text) :
    scheme.WellFormed ∧ ∃ list, statements dialect scheme = .ok list ∧
      text.toList = renderFragments dialect (script list) := by
  obtain ⟨formed, list, made, rfl⟩ := exists_lines_of_compile compiled
  refine ⟨formed, list, made, ?_⟩
  rw [script, renderFragments_intercalate, String.toList_intercalate, List.map_map, List.map_map]
  simp only [Function.comp_def, Statement.render, String.toList_ofList]

theorem outline_script {others : List Statement}
    (same : list.map Statement.form = others.map Statement.form) :
    outline (pieces (script list)) = outline (pieces (script others)) := by
  have outlines := map_eq_map_of_determined (fun _ _ => outline_statement) same
  rw [script, script, outline_intercalate, outline_intercalate, List.map_map, List.map_map]
  exact congrArg _ outlines

theorem scan_script (legible : ∀ statement ∈ list,
      Legible dialect.quoteCharacter statement.fragments) :
    scan dialect.quoteCharacter .outside (renderFragments dialect (script list)) =
      some (pieces (script list)) := by
  refine scan_renderFragments (.intercalate (by cases dialect <;> decide) ?_)
  exact List.forall_mem_map.2 legible

end Schemes

/-- **No name is read as a part of a statement.** The quoted regions of a compiled text are
the names of the scheme, and all schemes of one shape have the same text outside them. -/
theorem scan_compile {dialect : Dialect} {scheme : Scheme} {text : String}
    (compiled : compile dialect scheme = .ok text) :
    ∃ found, scan dialect.quoteCharacter .outside text.toList = some found ∧
      regions found = writtenNames scheme ∧
      ∀ other otherText, compile dialect other = .ok otherText → shape other = shape scheme →
        ∃ otherFound, scan dialect.quoteCharacter .outside otherText.toList = some otherFound ∧
          outline otherFound = outline found := by
  obtain ⟨formed, list, made, rendered⟩ := exists_statements_of_compile compiled
  obtain ⟨names, forms, legible⟩ := statements_eq_ok formed made
  rw [rendered]
  refine ⟨_, scan_script legible, ?_, fun other otherText otherCompiled sameShape => ?_⟩
  · rw [script, regions_intercalate, List.flatMap_map, ← names]
    simp only [regions_statement]
  · obtain ⟨otherFormed, others, othersMade, otherRendered⟩ :=
      exists_statements_of_compile otherCompiled
    obtain ⟨_, otherForms, otherLegible⟩ := statements_eq_ok otherFormed othersMade
    rw [otherRendered]
    exact ⟨_, scan_script otherLegible, outline_script (by rw [otherForms, forms, sameShape])⟩

/-- Singles and artists, with quote characters in the names of both, and with what would end
a statement in one of them. -/
def singles : Scheme where
  tables :=
    [⟨"7\" singles",
        [⟨"artist", .text, ⟨true, true, true⟩⟩, ⟨"side \"A\"", .text, ⟨true, true, false⟩⟩], []⟩,
      ⟨"artists\"); --", [⟨"name", .text, ⟨true, true, false⟩⟩], []⟩]
  relationships := [⟨⟨"7\" singles", ["artist"]⟩, ⟨"artists\"); --", ["name"]⟩⟩]

/-- The regions of the text for the singles are their names. -/
theorem scan_compile_singles :
    ∃ text, compile .generic singles = .ok text ∧
      ∃ found, scan '"' .outside text.toList = some found ∧
        regions found =
          ["7\" singles", "artist", "side \"A\"", "artist", "side \"A\"",
            "artists\"); --", "name",
            "7\" singles", "fk_7\" singles_artist_to_artists\"); --_name", "artist",
            "artists\"); --", "name"] := by
  have valid : singles.validate = .ok () := by rfl
  obtain ⟨text, compiled⟩ : ∃ text, compile .generic singles = .ok text :=
    exists_compile_iff.2 ⟨Scheme.validate_eq_ok_iff.1 valid, by decide⟩
  obtain ⟨found, scanned, names, _⟩ := scan_compile compiled
  exact ⟨text, compiled, found, scanned, names.trans (by decide +kernel)⟩

end RelationalDesign.Ddl
