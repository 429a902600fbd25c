import RelationalDesign.Proofs.Ddl.StatementTexts

/-!
# Names of foreign keys

The name of a foreign key is put together with underscores: its table, its columns, `to`, the
table that it refers to and the columns there. What was a name and what was put together can
no longer be told from it; all that the name shows is the sequence of its words, which are
separated by underscores. Two foreign keys of one table have the same name if and only if
their words are the same (`constraintName_eq_iff`).

So different foreign keys can have the same name (`sameName_parcels`). They have different
names where the columns have no underscores in their names, and the middle of the words can be
found: no column is called `to`, or no table that is referred to has an underscore in its name
(`foreignKeyNames_compile`).
-/

set_option autoImplicit false

namespace RelationalDesign.Ddl

/-! ## Words -/

/-- The words of a text: what stands between its underscores. -/
def words (text : String) : List (List Char) := text.toList.splitOn '_'

/-- The words of a text determine it. -/
theorem words_inj {first second : String} : words first = words second ↔ first = second := by
  refine ⟨fun same => ?_, congrArg words⟩
  have joined := congrArg (['_'].intercalate ·) same
  simp only [words, List.intercalate_splitOn] at joined
  exact String.toList_inj.1 joined

/-- A text without underscores is one word. -/
theorem words_of_notMem {text : String} (single : '_' ∉ text.toList) :
    words text = [text.toList] :=
  List.splitOn_eq_singleton single

theorem words_append_underscore (front back : String) :
    words (front ++ "_" ++ back) = words front ++ words back := by
  have chars : (front ++ "_" ++ back).toList = front.toList ++ '_' :: back.toList := by simp
  unfold words
  rw [chars]
  simp only [List.splitOn_eq_splitOnP]
  exact List.splitOnP_append_cons _ _ (beq_self_eq_true '_')

theorem words_intercalate {names : List String} (nonempty : names ≠ []) :
    words ("_".intercalate names) = names.flatMap words := by
  induction names with
  | nil => exact absurd rfl nonempty
  | cons name others ih =>
    cases others with
    | nil => simp
    | cons next rest =>
      have joined : "_".intercalate (name :: next :: rest) =
          name ++ "_" ++ "_".intercalate (next :: rest) := by
        rw [← String.toList_inj]
        simp
      rw [joined, words_append_underscore, ih (List.cons_ne_nil next rest),
        ← List.flatMap_cons]

/-- Names without underscores are a word each. -/
theorem flatMap_words_of_notMem {names : List String}
    (single : ∀ name ∈ names, '_' ∉ name.toList) :
    names.flatMap words = names.map String.toList := by
  rw [List.map_eq_flatMap, List.flatMap_def, List.flatMap_def]
  exact congrArg List.flatten
    (List.map_congr_left fun name member => words_of_notMem (single name member))

/-! ## Words of foreign keys -/

/-- A foreign key as a statement adds it. -/
structure AddedKey where
  table : String
  name : String
  columns : List String
  target : String
  targetColumns : List String
deriving DecidableEq

/-- The foreign key that a statement adds, if it adds one. -/
def Statement.added? : Statement → Option AddedKey
  | createTable _ _ _ => none
  | addForeignKey table name columns target targetColumns =>
    some ⟨table.text, name.text, columns.map Identifier.text, target.text,
      targetColumns.map Identifier.text⟩

namespace AddedKey

/-- The foreign key of a relationship. -/
def ofRelationship (relationship : Relationship) : AddedKey where
  table := relationship.source.table
  name := constraintName relationship
  columns := relationship.source.attributes
  target := relationship.target.table
  targetColumns := relationship.target.attributes

/-- The words of a foreign key after those of its table: its columns, `to`, the table that it
refers to and the columns there. -/
def words (key : AddedKey) : List (List Char) :=
  key.columns.flatMap Ddl.words ++
    "to".toList :: (Ddl.words key.target ++ key.targetColumns.flatMap Ddl.words)

end AddedKey

theorem words_constraintName {relationship : Relationship}
    (sources : relationship.source.attributes ≠ []) (targets : relationship.target.attributes ≠ []) :
    words (constraintName relationship) =
      "fk".toList :: words relationship.source.table ++
        (AddedKey.ofRelationship relationship).words := by
  have parts : constraintName relationship = "fk" ++ "_" ++ relationship.source.table ++ "_"
      ++ "_".intercalate relationship.source.attributes ++ "_" ++ "to" ++ "_"
      ++ relationship.target.table ++ "_" ++ "_".intercalate relationship.target.attributes := by
    rw [← String.toList_inj]
    simp [constraintName]
  rw [parts]
  simp only [words_append_underscore, words_intercalate sources, words_intercalate targets,
    AddedKey.words, AddedKey.ofRelationship]
  simp [words_of_notMem]

/-- **Foreign keys of one table have the same name if and only if they have the same words.** -/
theorem constraintName_eq_iff {first second : Relationship}
    (sameTable : first.source.table = second.source.table)
    (sources : first.source.attributes ≠ []) (targets : first.target.attributes ≠ [])
    (otherSources : second.source.attributes ≠ []) (otherTargets : second.target.attributes ≠ []) :
    constraintName first = constraintName second ↔
      (AddedKey.ofRelationship first).words = (AddedKey.ofRelationship second).words := by
  rw [← words_inj, words_constraintName sources targets,
    words_constraintName otherSources otherTargets, sameTable, List.append_cancel_left_eq]

/-! ## Names that tell foreign keys apart -/

/-- What stands before the first occurrence of something is determined, and so is what stands
behind it. -/
theorem append_cons_inj_of_notMem_front {α : Type} {x : α} {first second after later : List α}
    (same : first ++ x :: after = second ++ x :: later) (notFirst : x ∉ first)
    (notSecond : x ∉ second) : first = second ∧ after = later := by
  rcases List.append_eq_append_iff.1 same with ⟨between, rfl, tail⟩ | ⟨between, rfl, tail⟩
  · cases between with
    | nil => simpa using tail
    | cons y rest =>
      obtain ⟨rfl, rfl⟩ := List.cons.inj tail
      exact absurd (List.mem_append_right first List.mem_cons_self) notSecond
  · cases between with
    | nil => simpa [eq_comm] using tail
    | cons y rest =>
      obtain ⟨rfl, rfl⟩ := List.cons.inj tail
      exact absurd (List.mem_append_right second List.mem_cons_self) notFirst

namespace AddedKey

/-- A foreign key whose columns at both ends have no underscores in their names. -/
structure Plain (key : AddedKey) : Prop where
  columns : ∀ name ∈ key.columns, '_' ∉ name.toList
  targetColumns : ∀ name ∈ key.targetColumns, '_' ∉ name.toList

instance (key : AddedKey) : Decidable key.Plain :=
  decidable_of_iff ((∀ name ∈ key.columns, '_' ∉ name.toList) ∧
      ∀ name ∈ key.targetColumns, '_' ∉ name.toList)
    ⟨fun ⟨columns, targetColumns⟩ => ⟨columns, targetColumns⟩,
      fun plain => ⟨plain.columns, plain.targetColumns⟩⟩

theorem Plain.words_eq {key : AddedKey} (plain : key.Plain) :
    key.words = key.columns.map String.toList ++
      "to".toList :: (Ddl.words key.target ++ key.targetColumns.map String.toList) := by
  rw [words, flatMap_words_of_notMem plain.columns, flatMap_words_of_notMem plain.targetColumns]

/-- **The words of a plain foreign key determine its columns and what they refer to**, if no
column is called `to` or no table that is referred to has an underscore in its name. -/
theorem eq_of_words_eq {first second : AddedKey}
    (balanced : first.columns.length = first.targetColumns.length)
    (otherBalanced : second.columns.length = second.targetColumns.length)
    (plain : first.Plain) (otherPlain : second.Plain)
    (found : "to" ∉ first.columns ∧ "to" ∉ second.columns ∨
      '_' ∉ first.target.toList ∧ '_' ∉ second.target.toList)
    (same : first.words = second.words) :
    first.columns = second.columns ∧ first.target = second.target ∧
      first.targetColumns = second.targetColumns := by
  have inj {names more : List String} (equal : names.map String.toList = more.map String.toList) :
      names = more :=
    (List.map_inj_right fun _ _ => String.toList_inj.1).1 equal
  rw [plain.words_eq, otherPlain.words_eq] at same
  -- either way the mark between the columns and the table is at the same place in both
  obtain ⟨front, back⟩ : first.columns.map String.toList = second.columns.map String.toList ∧
      Ddl.words first.target ++ first.targetColumns.map String.toList =
        Ddl.words second.target ++ second.targetColumns.map String.toList := by
    rcases found with ⟨notHere, notThere⟩ | ⟨single, otherSingle⟩
    · have notMark {names : List String} (absent : "to" ∉ names) :
          "to".toList ∉ names.map String.toList := by
        intro member
        obtain ⟨name, isName, equal⟩ := List.mem_map.1 member
        exact absent (String.toList_inj.1 equal ▸ isName)
      exact append_cons_inj_of_notMem_front same (notMark notHere) (notMark notThere)
    · have lengths := congrArg List.length same
      rw [words_of_notMem single, words_of_notMem otherSingle] at same lengths ⊢
      simp only [List.length_append, List.length_cons, List.length_map, List.length_nil,
        ← balanced, ← otherBalanced] at lengths
      have sameLength : (first.columns.map String.toList).length =
          (second.columns.map String.toList).length := by
        simp only [List.length_map]
        omega
      obtain ⟨front, back⟩ := List.append_inj same sameLength
      exact ⟨front, (List.cons.inj back).2⟩
  have sameColumns := inj front
  have sameLength : (first.targetColumns.map String.toList).length =
      (second.targetColumns.map String.toList).length := by
    rw [List.length_map, List.length_map, ← balanced, ← otherBalanced, sameColumns]
  obtain ⟨targets, ends⟩ := List.append_inj' back sameLength
  exact ⟨sameColumns, words_inj.1 targets, inj ends⟩

end AddedKey

/-! ## Foreign keys of a scheme -/

theorem added?_of_addForeignKey {relationship : Relationship} {statement : Statement}
    (made : addForeignKey relationship = .ok statement) :
    statement.added? = some (AddedKey.ofRelationship relationship) := by
  obtain ⟨table, tableNamed, made⟩ := bind_eq_ok_iff.1 made
  obtain ⟨name, named, made⟩ := bind_eq_ok_iff.1 made
  obtain ⟨columns, columnsNamed, made⟩ := bind_eq_ok_iff.1 made
  obtain ⟨target, targetNamed, made⟩ := bind_eq_ok_iff.1 made
  obtain ⟨targetColumns, targetColumnsNamed, same⟩ := bind_eq_ok_iff.1 made
  cases same
  rw [Statement.added?, AddedKey.ofRelationship, ofText_eq_ok tableNamed, ofText_eq_ok named,
    ofText_eq_ok targetNamed, map_text_of_mapM_eq_ok columnsNamed,
    map_text_of_mapM_eq_ok targetColumnsNamed]

theorem added?_of_createTable {dialect : Dialect} {table : Table} {statement : Statement}
    (made : createTable dialect table = .ok statement) : statement.added? = none := by
  obtain ⟨columns, _, made⟩ := bind_eq_ok_iff.1 made
  obtain ⟨key, _, made⟩ := bind_eq_ok_iff.1 made
  obtain ⟨name, _, same⟩ := bind_eq_ok_iff.1 made
  cases same
  rfl

/-- The foreign keys of a scheme are those of its balanced relationships, in order. -/
theorem filterMap_added?_statements {dialect : Dialect} {scheme : Scheme} {list : List Statement}
    (formed : scheme.WellFormed) (made : statements dialect scheme = .ok list) :
    list.filterMap Statement.added? =
      (scheme.relationships.filter Balanced).map AddedKey.ofRelationship := by
  obtain ⟨tables, tablesMade, made⟩ := bind_eq_ok_iff.1 made
  obtain ⟨foreignKeys, foreignKeysMade, same⟩ := bind_eq_ok_iff.1 made
  cases same
  rw [filter_isForeignKey formed] at foreignKeysMade
  have ofTables : tables.filterMap Statement.added? = [] := by
    refine List.filterMap_eq_nil_iff.2 fun statement member => ?_
    obtain ⟨table, _, made⟩ := exists_of_mapM_eq_ok tablesMade statement member
    exact added?_of_createTable made
  have ofRelationships := map_of_mapM_eq_ok (fun _ _ made => added?_of_addForeignKey made)
    foreignKeysMade
  have asMap : foreignKeys.filterMap Statement.added? =
      (foreignKeys.map Statement.added?).filterMap id := by
    rw [List.filterMap_map]
    rfl
  rw [List.filterMap_append, ofTables, List.nil_append, asMap, ofRelationships,
    List.filterMap_map, ← List.filterMap_eq_map]
  rfl

/-- **When foreign keys have the same name.** Two foreign keys that are added to one table have
the same name if and only if they have the same words. They have different names if both are
plain, and no column is called `to` or no table that is referred to has an underscore in its
name. -/
theorem foreignKeyNames_compile {dialect : Dialect} {scheme : Scheme} {text : String}
    (compiled : compile dialect scheme = .ok text) (distinct : scheme.relationships.Nodup) :
    ∃ list, statements dialect scheme = .ok list ∧
      text = "\n".intercalate (list.map (Statement.render dialect)) ∧
      (list.filterMap Statement.added?).Pairwise fun first second =>
        first.table = second.table →
          (first.name = second.name ↔ first.words = second.words) ∧
          (first.Plain → second.Plain →
            ("to" ∉ first.columns ∧ "to" ∉ second.columns ∨
              '_' ∉ first.target.toList ∧ '_' ∉ second.target.toList) →
            first.name ≠ second.name) := by
  obtain ⟨formed, list, made, rendered⟩ := exists_lines_of_compile compiled
  refine ⟨list, made, rendered, ?_⟩
  rw [filterMap_added?_statements formed made, List.pairwise_map]
  refine List.Pairwise.imp_of_mem ?_ (distinct.filter _)
  intro first second isFirst isSecond different sameTable
  have held {relationship : Relationship}
      (member : relationship ∈ scheme.relationships.filter Balanced) :
      relationship.source.attributes ≠ [] ∧ relationship.target.attributes ≠ [] := by
    have inScheme := (List.mem_filter.1 member).1
    exact ⟨(formed.sources relationship inScheme).1, (formed.targets relationship inScheme).1⟩
  have balanced {relationship : Relationship}
      (member : relationship ∈ scheme.relationships.filter Balanced) :
      relationship.source.attributes.length = relationship.target.attributes.length :=
    of_decide_eq_true (List.mem_filter.1 member).2
  have names := constraintName_eq_iff sameTable (held isFirst).1 (held isFirst).2 (held isSecond).1
    (held isSecond).2
  refine ⟨names, fun plain otherPlain found sameName => different ?_⟩
  obtain ⟨sources, targetTables, targets⟩ :=
    AddedKey.eq_of_words_eq (balanced isFirst) (balanced isSecond) plain otherPlain found
      (names.1 sameName)
  obtain ⟨⟨table, columns⟩, target, targetColumns⟩ := first
  obtain ⟨⟨otherTable, otherColumns⟩, otherTarget, otherTargetColumns⟩ := second
  simp only [AddedKey.ofRelationship] at sameTable sources targetTables targets
  rw [sameTable, sources, targetTables, targets]

/-- Tickets for a guest on a seat. There are underscores in the name of a table, but no
attribute has one. -/
def tickets : Scheme where
  tables :=
    [⟨"tickets",
        [⟨"ticket", .integer, ⟨true, true, false⟩⟩, ⟨"seat", .text, ⟨true, false, true⟩⟩,
          ⟨"guest", .text, ⟨false, false, true⟩⟩], []⟩,
      ⟨"hall_seats", [⟨"seat", .text, ⟨true, true, false⟩⟩], []⟩,
      ⟨"guests", [⟨"guest", .text, ⟨true, true, false⟩⟩], []⟩]
  relationships :=
    [⟨⟨"tickets", ["seat"]⟩, ⟨"hall_seats", ["seat"]⟩⟩,
      ⟨⟨"tickets", ["guest"]⟩, ⟨"guests", ["guest"]⟩⟩]

/-- The foreign keys of the tickets have different names. -/
theorem foreignKeyNames_tickets :
    tickets.relationships.Nodup ∧ ∃ text, compile .generic tickets = .ok text ∧
      ∃ list, statements .generic tickets = .ok list ∧
        (list.filterMap Statement.added?).length = 2 ∧
        (list.filterMap Statement.added?).Pairwise fun first second =>
          first.table = second.table ∧ first.name ≠ second.name := by
  have valid : tickets.validate = .ok () := by rfl
  have formed := Scheme.validate_eq_ok_iff.1 valid
  have distinct : tickets.relationships.Nodup := by decide
  obtain ⟨text, compiled⟩ : ∃ text, compile .generic tickets = .ok text :=
    exists_compile_iff.2 ⟨formed, by decide⟩
  obtain ⟨list, made, _, names⟩ := foreignKeyNames_compile compiled distinct
  refine ⟨distinct, text, compiled, list, made, ?_⟩
  rw [filterMap_added?_statements formed made] at names ⊢
  refine ⟨by decide, names.imp_of_mem fun {first second} isFirst isSecond named => ?_⟩
  have plain : ∀ key ∈ (tickets.relationships.filter Balanced).map AddedKey.ofRelationship,
      key.table = "tickets" ∧ key.Plain ∧ "to" ∉ key.columns := by decide
  obtain ⟨table, isPlain, noTo⟩ := plain first isFirst
  obtain ⟨otherTable, otherPlain, otherNoTo⟩ := plain second isSecond
  have sameTable := table.trans otherTable.symm
  exact ⟨sameTable, (named sameTable).2 isPlain otherPlain (Or.inl ⟨noTo, otherNoTo⟩)⟩

/-- Parcels in a depot, which is known by its code in a region and by its code alone. -/
def parcels : Scheme where
  tables :=
    [⟨"parcels",
        [⟨"parcel", .integer, ⟨true, true, false⟩⟩, ⟨"depot", .text, ⟨true, false, true⟩⟩], []⟩,
      ⟨"region", [⟨"depot_code", .text, ⟨true, true, false⟩⟩], []⟩,
      ⟨"region_depot", [⟨"code", .text, ⟨true, true, false⟩⟩], []⟩]
  relationships :=
    [⟨⟨"parcels", ["depot"]⟩, ⟨"region", ["depot_code"]⟩⟩,
      ⟨⟨"parcels", ["depot"]⟩, ⟨"region_depot", ["code"]⟩⟩]

/-- **Different foreign keys of a table can have the same name**: those of the parcels are both
called `fk_parcels_depot_to_region_depot_code`. -/
theorem sameName_parcels :
    parcels.relationships.Nodup ∧ ∃ text, compile .generic parcels = .ok text ∧
      ∃ list, statements .generic parcels = .ok list ∧
        text = "\n".intercalate (list.map (Statement.render .generic)) ∧
        ¬(list.filterMap Statement.added?).Pairwise fun first second =>
          first.table = second.table → first.name ≠ second.name := by
  have valid : parcels.validate = .ok () := by rfl
  have formed := Scheme.validate_eq_ok_iff.1 valid
  obtain ⟨text, compiled⟩ : ∃ text, compile .generic parcels = .ok text :=
    exists_compile_iff.2 ⟨formed, by decide⟩
  obtain ⟨_, list, made, rendered⟩ := exists_lines_of_compile compiled
  refine ⟨by decide, text, compiled, list, made, rendered, ?_⟩
  rw [filterMap_added?_statements formed made]
  decide

end RelationalDesign.Ddl
