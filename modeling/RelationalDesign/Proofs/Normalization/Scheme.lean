import RelationalDesign.Normalization.Scheme
import RelationalDesign.Proofs.Normalization.Parts

/-!
# The tables of a normal form

Up to the marks on attributes that refer to something, the tables of a normal form
are the parts of the tables of the scheme, one table after the other, and the parts
are made of the rows of the designs (`map_look_decompose`). So what does not depend
on such marks can be read off the rows: the names of the tables and their columns, and
what their keys are (`map_keyDependency_tables`).
-/

set_option autoImplicit false

namespace RelationalDesign

/-- The parts of a table before any reference is marked. -/
def Table.unmarkedParts (settings : Settings) (form : NormalForm) (table : Table) : List Table :=
  (table.design settings form table.stated).rows.mapIdx table.part

section Looks

variable {γ : Type} {look : Table → γ}
  (blind : ∀ (part : Table) (names : List String), look (part.markForeignKeys names) = look part)
include blind

theorem map_look_markCarried (carried : List Carried) (tables : List Parts) :
    (markCarried carried tables).map look = (tables.flatMap Parts.parts).map look := by
  unfold markCarried
  rw [List.map_flatten, List.map_flatMap, List.flatMap_def]
  congr 1
  apply List.ext_getElem
  · simp only [List.length_map, List.length_mapIdx]
  · intro table _ _
    simp only [List.getElem_map, List.getElem_mapIdx]
    exact map_mapIdx_of_blind (fun part content =>
      look_foldl_markForeignKeys blind (fun other => other.relationship.source.attributes)
        (carried.filter fun other => other.table == table && other.part == part) content) _

/-- **Up to marks, the tables of a normal form are the parts of its tables.** -/
theorem map_look_parts (settings : Settings) (form : NormalForm) (scheme : Scheme) :
    (scheme.decompose settings form).tables.map look =
      scheme.tables.flatMap fun table => (table.decompose settings form).parts.map look := by
  refine (map_look_markCarried blind _ _).trans ?_
  rw [List.flatMap_map, List.map_flatMap]

/-- **Up to marks, the tables of a normal form are made of the rows of the designs.** -/
theorem map_look_decompose (settings : Settings) (form : NormalForm) (scheme : Scheme) :
    (scheme.decompose settings form).tables.map look =
      (scheme.tables.flatMap (Table.unmarkedParts settings form)).map look := by
  rw [map_look_parts blind, List.map_flatMap]
  congr 1
  funext table
  exact map_look_markLinks blind _ _

/-- Each part of a table looks like the part for a row of its design. -/
theorem exists_row_of_mem_parts {settings : Settings} {form : NormalForm} {table part : Table}
    (member : part ∈ (table.decompose settings form).parts) :
    ∃ position row, (table.design settings form table.stated).rows[position]? = some row ∧
      look (table.part position row) = look part := by
  have listed : look part ∈ (table.unmarkedParts settings form).map look :=
    map_look_markLinks blind _ _ ▸ List.mem_map_of_mem member
  obtain ⟨unmarked, inParts, same⟩ := List.mem_map.1 listed
  obtain ⟨position, inRange, rfl⟩ := List.mem_mapIdx.1 inParts
  exact ⟨position, _, List.getElem?_eq_getElem inRange, same⟩

/-- Each table of a normal form looks like the part for a row of a design. -/
theorem exists_row_of_mem_decompose {settings : Settings} {form : NormalForm} {scheme : Scheme}
    {part : Table} (member : part ∈ (scheme.decompose settings form).tables) :
    ∃ table ∈ scheme.tables, ∃ position row,
      (table.design settings form table.stated).rows[position]? = some row ∧
        look (table.part position row) = look part := by
  have listed : look part ∈ (scheme.decompose settings form).tables.map look :=
    List.mem_map_of_mem member
  rw [map_look_parts blind] at listed
  obtain ⟨table, inScheme, ofTable⟩ := List.mem_flatMap.1 listed
  obtain ⟨marked, inParts, same⟩ := List.mem_map.1 ofTable
  exact ⟨table, inScheme, same ▸ exists_row_of_mem_parts blind inParts⟩

/-- Each part of a table is a table of the normal form, up to marks. -/
theorem exists_of_mem_parts {settings : Settings} {form : NormalForm} {scheme : Scheme}
    {table part : Table} (inScheme : table ∈ scheme.tables)
    (member : part ∈ (table.decompose settings form).parts) :
    ∃ marked ∈ (scheme.decompose settings form).tables, look marked = look part := by
  have listed : look part ∈ (scheme.decompose settings form).tables.map look := by
    rw [map_look_parts blind]
    exact List.mem_flatMap.2 ⟨table, inScheme, List.mem_map_of_mem member⟩
  obtain ⟨marked, inNormal, same⟩ := List.mem_map.1 listed
  exact ⟨marked, inNormal, same⟩

/-- The part for each row is a part of its table, up to marks. -/
theorem exists_of_mem_unmarkedParts {settings : Settings} {form : NormalForm} {table part : Table}
    (member : part ∈ table.unmarkedParts settings form) :
    ∃ marked ∈ (table.decompose settings form).parts, look marked = look part := by
  have listed : look part ∈ (table.decompose settings form).parts.map look := by
    show _ ∈ (Table.markLinks _ _).map look
    rw [map_look_markLinks blind]
    exact List.mem_map_of_mem member
  obtain ⟨marked, inParts, same⟩ := List.mem_map.1 listed
  exact ⟨marked, inParts, same⟩

end Looks

/-- The keys and headings of the tables of a normal form are those of the rows. -/
theorem map_keyDependency_tables {scheme : Scheme} (accepted : scheme.violations = [])
    (settings : Settings) (form : NormalForm) :
    (scheme.decompose settings form).tables.map Table.keyDependency =
      scheme.tables.flatMap fun table => (table.design settings form table.stated).rows.map
        fun row => ⟨row.determinants, row.attributes⟩ := by
  rw [map_look_parts Table.keyDependency_markForeignKeys, List.flatMap_def, List.flatMap_def]
  congr 1
  refine List.map_congr_left fun table member => ?_
  exact Table.map_keyDependency_design (List.flatMap_eq_nil_iff.1 accepted table member) settings form

end RelationalDesign
