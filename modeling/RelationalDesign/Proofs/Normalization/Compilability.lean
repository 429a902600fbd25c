import RelationalDesign.Proofs.Ddl.Compilation
import RelationalDesign.Proofs.Normalization.Relationships
import RelationalDesign.Proofs.Normalization.Renormalization

/-!
# Normal forms compile

The normal form of a well-formed scheme is well-formed (`WellFormed.decompose`).

**Names.** The name of a part ends in its number, which holds digits only. So the last
letter t cuts it in one way, and tables with different names have parts with different
names (`Table.partName_inj`, `nodup_map_name_decompose`).

**Attributes.** No dependant of a row is among its determinants, so a part lists no
attribute twice (`Table.nodup_attributeNames_part`), and it takes types from its table
(`Table.WellFormed.part`).

**Names in statements.** Parts add only letters and digits to the names of a scheme, so
they compile in every dialect in which the scheme compiles (`compile_normalize`).
-/

set_option autoImplicit false

namespace RelationalDesign

/-! ## The names of parts -/

/-- A list is cut in one way at the last place of a member. -/
theorem append_cons_inj_of_notMem {α : Type} {x : α} {first second after later : List α}
    (same : first ++ x :: after = second ++ x :: later) (notAfter : x ∉ after)
    (notLater : x ∉ later) : first = second ∧ after = later := by
  rcases List.append_eq_append_iff.1 same with ⟨between, rfl, tail⟩ | ⟨between, rfl, tail⟩
  · cases between with
    | nil => simpa using tail
    | cons y rest =>
      obtain ⟨rfl, rfl⟩ := List.cons.inj tail
      exact absurd (List.mem_append_right rest List.mem_cons_self) notAfter
  · cases between with
    | nil => simpa [eq_comm] using tail
    | cons y rest =>
      obtain ⟨rfl, rfl⟩ := List.cons.inj tail
      exact absurd (List.mem_append_right rest List.mem_cons_self) notLater

theorem notMem_toDigits {c : Char} (other : c.isDigit = false) (n : Nat) :
    c ∉ Nat.toDigits 10 n := by
  intro member
  have digit := Nat.isDigit_of_mem_toDigits (by decide) (by decide) member
  exact Bool.false_ne_true (other.symm.trans digit)

namespace Table

theorem toList_partName (table : Table) (position : Nat) :
    (table.partName position).toList =
      (table.name.toList ++ ['P', 'a', 'r']) ++ 't' :: Nat.toDigits 10 (position + 1) := by
  unfold partName
  rw [Nat.toString_eq_repr, String.toList_append, String.toList_append, Nat.toList_repr]
  simp

/-- **The name of a part tells the table and the position.** -/
theorem partName_inj {first second : Table} {i j : Nat}
    (same : first.partName i = second.partName j) : first.name = second.name ∧ i = j := by
  have noLetter : ∀ n, 't' ∉ Nat.toDigits 10 n := notMem_toDigits (by decide)
  have texts := congrArg String.toList same
  rw [toList_partName, toList_partName] at texts
  obtain ⟨names, digits⟩ := append_cons_inj_of_notMem texts (noLetter _) (noLetter _)
  refine ⟨String.toList_inj.1 (List.append_cancel_right names), ?_⟩
  apply Nat.succ.inj
  calc i + 1
      = Nat.ofDigitChars 10 (Nat.toDigits 10 (i + 1)) 0 := Nat.ofDigitChars_ten_toDigits.symm
    _ = Nat.ofDigitChars 10 (Nat.toDigits 10 (j + 1)) 0 := by rw [digits]
    _ = j + 1 := Nat.ofDigitChars_ten_toDigits

end Table

section Normal

variable {settings : Settings} {form : NormalForm} {scheme : Scheme}

/-- **Tables with different names have parts with different names.** -/
theorem nodup_map_name_decompose (distinct : (scheme.tables.map Table.name).Nodup) :
    ((scheme.decompose settings form).tables.map Table.name).Nodup := by
  have blind (part : Table) (names : List String) :
      (part.markForeignKeys names).name = part.name := rfl
  rw [map_look_decompose blind, List.map_flatMap]
  refine List.pairwise_flatMap.2 ⟨fun table _ => ?_, ?_⟩
  · refine List.pairwise_iff_getElem.2 fun i j _ _ before same => ?_
    simp only [Table.unmarkedParts, List.getElem_map, List.getElem_mapIdx] at same
    exact Nat.ne_of_lt before (Table.partName_inj same).2
  · refine (List.pairwise_map.1 distinct).imp fun different first inFirst second inSecond same => ?_
    obtain ⟨_, isFirst, rfl⟩ := List.mem_map.1 inFirst
    obtain ⟨_, isSecond, rfl⟩ := List.mem_map.1 inSecond
    obtain ⟨_, _, rfl⟩ := List.mem_mapIdx.1 isFirst
    obtain ⟨_, _, rfl⟩ := List.mem_mapIdx.1 isSecond
    exact different (Table.partName_inj same).1

/-! ## The attributes of parts -/

namespace Table

variable {table : Table} {row : Dependency}

theorem map_name_select (names : AttributeSet) (primaryKey : Bool) :
    (table.select names primaryKey).map Attribute.name = table.ordered names := by
  unfold select ordered attributeNames
  rw [List.map_map, List.filter_map]
  rfl

/-- An attribute of a part is one of the table, key constraints aside. -/
theorem mem_attributes_part {position : Nat} {attr : Attribute}
    (member : attr ∈ (table.part position row).attributes) :
    ∃ origin ∈ table.attributes, attr.name = origin.name ∧ attr.type = origin.type ∧
      attr.isNotNullable = origin.isNotNullable := by
  rcases List.mem_append.1 member with selected | selected <;>
  · obtain ⟨origin, inTable, rfl⟩ := List.mem_map.1 selected
    exact ⟨origin, (List.mem_filter.1 inTable).1, rfl, rfl, rfl⟩

/-- A part lists no attribute twice, if the sides of its row are disjoint. -/
theorem nodup_attributeNames_part (distinct : table.attributeNames.Nodup)
    (disjoint : row.SidesDisjoint) (position : Nat) :
    (table.part position row).attributeNames.Nodup := by
  unfold attributeNames Table.part
  rw [List.map_append, map_name_select, map_name_select]
  refine List.nodup_append.2 ⟨distinct.filter _, distinct.filter _, ?_⟩
  rintro name determinant _ dependant rfl
  exact disjoint name (of_decide_eq_true (List.mem_filter.1 dependant).2)
    (of_decide_eq_true (List.mem_filter.1 determinant).2)

/-- **A part of a well-formed table is well-formed**, if the sides of its row are disjoint. -/
theorem WellFormed.part (formed : table.WellFormed) (disjoint : row.SidesDisjoint)
    (position : Nat) : (table.part position row).WellFormed := by
  refine ⟨nodup_attributeNames_part formed.distinct disjoint position, fun attr member => ?_⟩
  obtain ⟨origin, inTable, _, sameType, _⟩ := mem_attributes_part member
  exact sameType ▸ formed.known origin inTable

theorem allDisjoint_design (table : Table) (settings : Settings) (form : NormalForm)
    (given : List Dependency) : AllDisjoint (table.design settings form given).rows := by
  have decomposed := (allDisjoint_cover settings.cover given).decompose form
  exact design_induction decomposed (decomposed.keepKey table.key table.heading)

end Table

/-- **The normal form of a well-formed scheme is well-formed.** -/
theorem Scheme.WellFormed.decompose (formed : scheme.WellFormed) :
    (scheme.decompose settings form).WellFormed := by
  have held {relationship : Relationship}
      (member : relationship ∈ (scheme.decompose settings form).relationships) :=
    heldBy_of_mem_decompose (fun origin inScheme => (formed.sources origin inScheme).1)
      (fun origin inScheme => (formed.targets origin inScheme).1) member
  refine ⟨nodup_map_name_decompose formed.distinct, fun part member => ?_,
    fun _ member => (held member).1, fun _ member => (held member).2⟩
  obtain ⟨table, inScheme, position, row, found, same⟩ :=
    exists_row_of_mem_decompose Table.declaration_markForeignKeys member
  have disjoint := table.allDisjoint_design settings form table.stated row (List.mem_of_getElem? found)
  exact ((formed.tables table inScheme).part disjoint position).of_declaration same

/-! ## Compiling parts -/

/-- The name of a part can stand in a statement if the name of its table can. -/
theorem isIdentifier_partName {table : Table} (valid : Ddl.isIdentifier table.name = true)
    (position : Nat) : Ddl.isIdentifier (table.partName position) = true := by
  have noNul : ∀ n, '\x00' ∉ Nat.toDigits 10 n := notMem_toDigits (by decide)
  refine Ddl.isIdentifier_iff.2 ⟨fun empty => ?_, ?_⟩
  · have noText := congrArg String.toList empty
    simp [Table.toList_partName] at noText
  · rw [Table.toList_partName]
    simp [(Ddl.isIdentifier_iff.1 valid).2, noNul]

theorem named_decompose (named : ∀ table ∈ scheme.tables, Ddl.Named table) :
    ∀ part ∈ (scheme.decompose settings form).tables, Ddl.Named part := by
  intro part member
  obtain ⟨table, inScheme, position, row, _, same⟩ :=
    exists_row_of_mem_decompose Table.declaration_markForeignKeys member
  obtain ⟨validName, validNames⟩ := named table inScheme
  refine Ddl.Named.of_declaration ⟨isIdentifier_partName validName position, ?_⟩ same
  refine List.forall_mem_map.2 fun attr isAttribute => ?_
  obtain ⟨origin, inTable, sameName, _⟩ := Table.mem_attributes_part isAttribute
  exact sameName ▸ validNames origin.name (List.mem_map_of_mem inTable)

end Normal

/-- **Normalizing keeps a scheme compilable.** The normal form of a valid scheme is valid,
and it compiles in every dialect in which the scheme does. -/
theorem compile_normalize {scheme normal : Scheme} {settings : Settings} {form : NormalForm}
    (valid : scheme.validate = .ok ()) (normalized : scheme.normalize settings form = .ok normal) :
    normal.validate = .ok () ∧ normal.WellFormed ∧
      ∀ dialect, (∃ text, Ddl.compile dialect scheme = .ok text) →
        ∃ text, Ddl.compile dialect normal = .ok text := by
  obtain ⟨_, rfl⟩ := Scheme.normalize_eq_ok_iff.1 normalized
  have formed : (scheme.decompose settings form).WellFormed :=
    (Scheme.validate_eq_ok_iff.1 valid).decompose
  refine ⟨Scheme.validate_eq_ok_iff.2 formed, formed, fun dialect compiles => ?_⟩
  obtain ⟨_, named⟩ := Ddl.exists_compile_iff.1 compiles
  exact Ddl.exists_compile_iff.2 ⟨formed, named_decompose named⟩

/-- Rentals of cars, where the make of a car fixes the maker and the station of a rental
fixes the town. -/
def rentals : Scheme where
  tables :=
    [⟨"cars", [⟨"plate", .text, ⟨true, true, false⟩⟩, ⟨"make", .text, ∅⟩, ⟨"maker", .text, ∅⟩],
      [⟨["plate"], ["make"]⟩, ⟨["make"], ["maker"]⟩]⟩,
      ⟨"rentals", [⟨"plate", .text, ⟨true, true, true⟩⟩, ⟨"day", .integer, ⟨true, true, false⟩⟩,
        ⟨"station", .text, ∅⟩, ⟨"town", .text, ∅⟩],
      [⟨["plate", "day"], ["station"]⟩, ⟨["station"], ["town"]⟩]⟩]
  relationships := [⟨⟨"rentals", ["plate"]⟩, ⟨"cars", ["plate"]⟩⟩]

/-- The normal form of the rentals compiles. -/
theorem compile_normalize_rentals :
    rentals.validate = .ok () ∧ ∃ normal, rentals.normalize .usual .third = .ok normal ∧
      normal.validate = .ok () ∧ ∃ text, Ddl.compile .mySql normal = .ok text := by
  have valid : rentals.validate = .ok () := by rfl
  have normalized : rentals.normalize .usual .third = .ok (rentals.decompose .usual .third) :=
    Scheme.normalize_eq_ok_iff.2 ⟨by decide, rfl⟩
  obtain ⟨stillValid, _, compiles⟩ := compile_normalize valid normalized
  have source : ∃ text, Ddl.compile .mySql rentals = .ok text :=
    Ddl.exists_compile_iff.2 ⟨Scheme.validate_eq_ok_iff.1 valid, by decide⟩
  exact ⟨valid, _, normalized, stillValid, compiles .mySql source⟩

end RelationalDesign
