import RelationalDesign.Proofs.Decomposition.Targets
import RelationalDesign.Proofs.Normalization.Compilability

/-!
# The relationships between the parts of a table

There is one relationship from a part to another for each part whose primary key it
holds, unless the key is empty or its own, and there are no others
(`Table.relationships_decompose`). This holds of every table that declares no attribute
twice and whose dependencies name only declared attributes, in every form and under all
settings.

**None twice.** References from one row lead to different rows, and the name of a part
tells its position (`nodup_relationships`).

**None too many.** A reference becomes a relationship only where both parts have the key.
It leads to another row, and that has another key.

**None too few.** Where a part has the key of another one its row holds the determinants,
and linking keys leaves out no such row.
-/

set_option autoImplicit false

namespace RelationalDesign

namespace Table

variable {table : Table} {settings : Settings} {form : NormalForm}

/-! ## Links -/

/-- Two links from one part lead to different parts. -/
theorem pairwise_links (table : Table) (parts : List Table) {determinants : List AttributeSet}
    {references : References} (aimed : ∀ position fromRow, references[position]? = some fromRow →
      AimedFrom determinants position fromRow) :
    (table.links parts references).Pairwise fun first second =>
      first.source = second.source → first.target ≠ second.target := by
  refine List.pairwise_flatMap.2 ⟨fun ⟨fromRow, source⟩ place => ?_, ?_⟩
  · have distinct := (aimed source fromRow (List.mem_zipIdx_iff_getElem?.1 place)).distinct
    refine List.pairwise_filterMap.2 ((List.pairwise_map.1 distinct).imp ?_)
    intro first second different firstLink isFirst secondLink isSecond _
    obtain ⟨rfl, _⟩ := link?_eq_some_iff.1 isFirst
    obtain ⟨rfl, _⟩ := link?_eq_some_iff.1 isSecond
    exact different
  · refine (pairwise_zipIdx references).imp ?_
    rintro ⟨first, i⟩ ⟨second, j⟩ different firstLink inFirst secondLink inSecond same
    obtain ⟨_, _, isFirst⟩ := List.mem_filterMap.1 inFirst
    obtain ⟨_, _, isSecond⟩ := List.mem_filterMap.1 inSecond
    obtain ⟨rfl, _⟩ := link?_eq_some_iff.1 isFirst
    obtain ⟨rfl, _⟩ := link?_eq_some_iff.1 isSecond
    exact absurd same different

/-- **No relationship between the parts of a table occurs twice.** -/
theorem nodup_relationships (table : Table) (settings : Settings) (form : NormalForm) :
    (table.decompose settings form).relationships.Nodup := by
  have links := table.pairwise_links (table.unmarkedParts settings form)
    (table.aimed_design settings form table.stated)
  refine List.pairwise_map.2 (links.imp fun {first second} different same => ?_)
  obtain ⟨sources, targets⟩ := Relationship.mk.inj same
  have sameSource := (partName_inj (Endpoint.mk.inj sources).1).2
  exact different sameSource (partName_inj (Endpoint.mk.inj targets).1).2

/-! ## Parts in their place -/

/-- The attributes of a set that are declared, each once, are as many as the set has. -/
theorem length_ordered (distinct : table.attributeNames.Nodup) {names : AttributeSet}
    (declared : names ⊆ table.heading) : (table.ordered names).length = names.size := by
  refine List.Perm.length_eq ((List.perm_ext_iff_of_nodup (distinct.filter _)
    (AttributeSet.nodup_of_increasing names.increasing)).2 fun name => ?_)
  rw [List.mem_filter, decide_eq_true_eq, AttributeSet.mem_toList]
  exact and_iff_right_of_imp fun member => AttributeSet.mem_ofList.1 (declared name member)

theorem nodup_map_name_parts (table : Table) (settings : Settings) (form : NormalForm) :
    ((table.decompose settings form).parts.map name).Nodup := by
  have blind (part : Table) (names : List String) :
      (part.markForeignKeys names).name = part.name := rfl
  have names : (table.decompose settings form).parts.map name =
      (table.unmarkedParts settings form).map name :=
    map_look_markLinks blind _ _
  rw [names]
  refine List.pairwise_iff_getElem.2 fun i j _ _ before same => ?_
  simp only [unmarkedParts, List.getElem_map, List.getElem_mapIdx] at same
  exact Nat.ne_of_lt before (partName_inj same).2

/-- What a part shows that has been made of a row. -/
structure MadeOf (table : Table) (position : Nat) (row : Dependency) (part : Table) : Prop where
  named : part.name = table.partName position
  keyed : part.key = row.determinants
  holds : part.heading = row.attributes

theorem madeOf_iff {position : Nat} {row : Dependency} {part : Table} :
    table.MadeOf position row part ↔ (part.name, part.keyDependency) =
      (table.partName position, ⟨row.determinants, row.attributes⟩) := by
  rw [Prod.mk.injEq, keyDependency, Dependency.mk.injEq]
  exact ⟨fun made => ⟨made.named, made.keyed, made.holds⟩, fun same => ⟨same.1, same.2.1, same.2.2⟩⟩

section Declared

variable (declared : ∀ name, Mentions table.stated name → name ∈ table.heading)
include declared

/-- The rows of a design mention declared attributes if the dependencies do. -/
theorem attributes_subset_heading {row : Dependency}
    (member : row ∈ (table.design settings form table.stated).rows) :
    row.attributes ⊆ table.heading := by
  have decomposed (name : String)
      (mentioned : Mentions (form.decompose (settings.cover.cover table.stated)).rows name) :
      name ∈ table.heading :=
    declared name (mentions_decompose mentioned)
  refine fun name named => design_induction
    (motive := fun rows => Mentions rows name → name ∈ table.heading) (decomposed name) ?_
    ⟨row, member, named⟩
  by_cases keyless : table.key = ∅
  · unfold Decomposition.keepKey
    rw [if_pos keyless]
    exact decomposed name
  · exact mentions_keepKey keyless decomposed table.key_subset_heading

/-- **The parts of a table are named by their positions and keyed by their rows.** -/
theorem map_name_keyDependency_parts (settings : Settings) (form : NormalForm) :
    (table.decompose settings form).parts.map (fun part => (part.name, part.keyDependency)) =
      (table.design settings form table.stated).rows.mapIdx fun position row =>
        (table.partName position, ⟨row.determinants, row.attributes⟩) := by
  have blind (part : Table) (names : List String) :
      ((part.markForeignKeys names).name, (part.markForeignKeys names).keyDependency) =
        (part.name, part.keyDependency) :=
    congrArg (Prod.mk part.name) (keyDependency_markForeignKeys part names)
  refine (map_look_markLinks blind _ _).trans ?_
  apply List.ext_getElem
  · simp only [List.length_map, List.length_mapIdx]
    rfl
  · intro position _ inRange
    simp only [List.getElem_map, List.getElem_mapIdx]
    refine congrArg (Prod.mk (table.partName position)) (keyDependency_part position ?_)
    exact attributes_subset_heading declared (List.getElem_mem _)

theorem exists_row_of_part {position : Nat} {part : Table}
    (found : (table.decompose settings form).parts[position]? = some part) :
    ∃ row, (table.design settings form table.stated).rows[position]? = some row ∧
      table.MadeOf position row part := by
  have same := congrArg (fun list => list[position]?)
    (map_name_keyDependency_parts declared settings form)
  simp only [List.getElem?_map, found, List.getElem?_mapIdx, Option.map_some] at same
  obtain ⟨row, isRow, equal⟩ := Option.map_eq_some_iff.1 same.symm
  exact ⟨row, isRow, madeOf_iff.2 equal.symm⟩

theorem exists_part_of_row {position : Nat} {row : Dependency}
    (found : (table.design settings form table.stated).rows[position]? = some row) :
    ∃ part, (table.decompose settings form).parts[position]? = some part ∧
      table.MadeOf position row part := by
  have same := congrArg (fun list => list[position]?)
    (map_name_keyDependency_parts declared settings form)
  simp only [List.getElem?_map, found, List.getElem?_mapIdx, Option.map_some] at same
  obtain ⟨part, isPart, equal⟩ := Option.map_eq_some_iff.1 same
  exact ⟨part, isPart, madeOf_iff.2 equal⟩

/-- The part for a row, before any reference is marked, has the attributes of the row. -/
theorem mem_attributeNames_part_iff {position : Nat} {row : Dependency} {name : String}
    (member : row ∈ (table.design settings form table.stated).rows) :
    name ∈ (table.part position row).attributeNames ↔ name ∈ row.attributes := by
  have heading := congrArg Dependency.dependants
    (keyDependency_part position (attributes_subset_heading declared member))
  rw [← AttributeSet.mem_ofList]
  exact iff_of_eq (congrArg (name ∈ ·) heading)

/-! ## Rows that hold the determinants of others -/

/-- The relationship from a part to another that has a key. -/
def relationshipTo (table : Table) (source target : Nat) (key : AttributeSet) : Relationship :=
  table.relationshipOf ⟨source, target, table.ordered key⟩

/-- **Relationships lead only to other rows whose determinants are held.** -/
theorem exists_rows_of_relationship {relationship : Relationship}
    (member : relationship ∈ (table.decompose settings form).relationships) :
    ∃ source target row other, (table.design settings form table.stated).rows[source]? = some row ∧
      (table.design settings form table.stated).rows[target]? = some other ∧
      other.determinants ≠ ∅ ∧ other.determinants ≠ row.determinants ∧
      other.determinants ⊆ row.attributes ∧
      relationship = table.relationshipTo source target other.determinants := by
  obtain ⟨link, isLink, rfl⟩ := List.mem_map.1 member
  obtain ⟨source, fromRow, place, reference, inRow, linked⟩ := mem_links_iff.1 isLink
  obtain ⟨rfl, _, ⟨referring, foundReferring, inReferring⟩, _⟩ := link?_eq_some_iff.1 linked
  have aimed := table.aimed_design settings form table.stated source fromRow place
  have nonempty := (table.linked_design settings form table.stated fromRow
    (List.mem_of_getElem? place) reference inRow).2
  rw [List.getElem?_mapIdx] at foundReferring
  obtain ⟨row, found, rfl⟩ := Option.map_eq_some_iff.1 foundReferring
  have target := aimed.keyed reference inRow
  rw [List.getElem?_map] at target
  obtain ⟨other, foundOther, isKey⟩ := Option.map_eq_some_iff.1 target
  refine ⟨source, reference.target, row, other, found, foundOther, isKey ▸ nonempty, ?_, ?_,
    isKey ▸ rfl⟩
  · intro same
    have distinct := table.distinct_design settings form table.stated
    exact aimed.away reference inRow (position_eq_of_nodup_map distinct foundOther found same)
  · intro name determinant
    have isDeclared := attributes_subset_heading declared (List.mem_of_getElem? foundOther) name
      (other.determinants_subset_attributes name determinant)
    refine (mem_attributeNames_part_iff declared (List.mem_of_getElem? found)).1
      (inReferring (List.mem_filter.2 ⟨AttributeSet.mem_ofList.1 isDeclared, ?_⟩))
    exact decide_eq_true (isKey ▸ determinant)

/-- **Where a row holds the determinants of another, there is a relationship.** -/
theorem relationshipTo_mem (distinct : table.attributeNames.Nodup) {source target : Nat}
    {row other : Dependency}
    (found : (table.design settings form table.stated).rows[source]? = some row)
    (foundOther : (table.design settings form table.stated).rows[target]? = some other)
    (nonempty : other.determinants ≠ ∅) (different : other.determinants ≠ row.determinants)
    (holds : other.determinants ⊆ row.attributes) :
    table.relationshipTo source target other.determinants ∈
      (table.decompose settings form).relationships := by
  obtain ⟨fromRow, place, reference, inRow, rfl⟩ :=
    exists_reference_design found foundOther nonempty different holds
  have keyed := (table.aimed_design settings form table.stated source fromRow place).keyed
    reference inRow
  rw [List.getElem?_map, foundOther, Option.map_some, Option.some.injEq] at keyed
  have isDeclared : other.determinants ⊆ table.heading :=
    AttributeSet.subset_trans holds
      (attributes_subset_heading declared (List.mem_of_getElem? found))
  have listed {position : Nat} {content : Dependency}
      (isRow : (table.design settings form table.stated).rows[position]? = some content)
      (contained : other.determinants ⊆ content.attributes) :
      ∃ part, (table.unmarkedParts settings form)[position]? = some part ∧
        table.ordered other.determinants ⊆ part.attributeNames := by
    refine ⟨table.part position content, ?_, fun name member => ?_⟩
    · rw [unmarkedParts, List.getElem?_mapIdx, isRow, Option.map_some]
    · refine (mem_attributeNames_part_iff declared (List.mem_of_getElem? isRow)).2 ?_
      exact contained name (of_decide_eq_true (List.mem_filter.1 member).2)
  refine List.mem_map_of_mem (mem_links_iff.2 ⟨source, fromRow, place, reference, inRow, ?_⟩)
  refine link?_eq_some_iff.2 ⟨by rw [keyed], ?_, listed found holds, listed foundOther ?_⟩
  · rw [← keyed]
    exact length_ordered distinct isDeclared
  · exact other.determinants_subset_attributes

end Declared

/-- **There is one relationship from a part to another for each part whose primary key it
holds**, unless the key is empty or its own, and there are no others. Both sides list the key
as the table declares it. -/
theorem relationships_decompose {table : Table} (distinct : table.attributeNames.Nodup)
    (declared : ∀ clause ∈ table.dependencies, ∀ name ∈ clause.determinants ++ clause.dependants,
      name ∈ table.attributeNames) (settings : Settings) (form : NormalForm) :
    ((table.decompose settings form).parts.map name).Nodup ∧
      (table.decompose settings form).relationships.Nodup ∧
      ∀ relationship, relationship ∈ (table.decompose settings form).relationships ↔
        ∃ referring ∈ (table.decompose settings form).parts,
          ∃ referred ∈ (table.decompose settings form).parts, referred ≠ referring ∧
            referred.key ≠ ∅ ∧ referred.key ≠ referring.key ∧ referred.key ⊆ referring.heading ∧
            relationship = ⟨⟨referring.name, table.ordered referred.key⟩,
              ⟨referred.name, table.ordered referred.key⟩⟩ := by
  have stated (name : String) (mentioned : Mentions table.stated name) : name ∈ table.heading := by
    obtain ⟨clause, inTable, named⟩ := List.mem_flatMap.1 (mentions_stated_iff.1 mentioned)
    refine AttributeSet.mem_ofList.2 (declared clause inTable name (List.mem_append.2 ?_))
    exact (List.mem_append.1 named).symm
  refine ⟨nodup_map_name_parts table settings form, nodup_relationships table settings form,
    fun relationship => ⟨fun member => ?_, ?_⟩⟩
  · obtain ⟨source, target, row, other, found, foundOther, nonempty, different, holds, equal⟩ :=
      exists_rows_of_relationship stated member
    obtain ⟨referring, isReferring, madeReferring⟩ := exists_part_of_row stated found
    obtain ⟨referred, isReferred, madeReferred⟩ := exists_part_of_row stated foundOther
    rw [← madeReferred.keyed] at nonempty different holds equal
    rw [← madeReferring.keyed] at different
    rw [← madeReferring.holds] at holds
    refine ⟨referring, List.mem_of_getElem? isReferring, referred, List.mem_of_getElem? isReferred,
      fun same => different (same ▸ rfl), nonempty, different, holds, equal.trans ?_⟩
    rw [madeReferring.named, madeReferred.named]
    rfl
  · rintro ⟨referring, inParts, referred, alsoInParts, _, nonempty, different, holds, rfl⟩
    obtain ⟨source, isReferring⟩ := List.mem_iff_getElem?.1 inParts
    obtain ⟨target, isReferred⟩ := List.mem_iff_getElem?.1 alsoInParts
    obtain ⟨row, found, madeReferring⟩ := exists_row_of_part stated isReferring
    obtain ⟨other, foundOther, madeReferred⟩ := exists_row_of_part stated isReferred
    rw [madeReferred.keyed] at nonempty different holds ⊢
    rw [madeReferring.keyed] at different
    rw [madeReferring.holds] at holds
    rw [madeReferring.named, madeReferred.named]
    exact relationshipTo_mem stated distinct found foundOther nonempty different holds

/-- Loans of copies of books, day by day. -/
def loans : Table where
  name := "loans"
  attributes :=
    [⟨"copy", .integer, ⟨true, true, false⟩⟩, ⟨"day", .integer, ⟨true, true, false⟩⟩,
      ⟨"reader", .integer, ∅⟩, ⟨"title", .text, ∅⟩]
  dependencies := [⟨["copy", "day"], ["reader"]⟩, ⟨["copy"], ["title"]⟩]

/-- The loans refer to the copies, and that is all. -/
theorem relationships_loans :
    loans.attributeNames.Nodup ∧
      (∀ clause ∈ loans.dependencies, ∀ name ∈ clause.determinants ++ clause.dependants,
        name ∈ loans.attributeNames) ∧
      (loans.decompose .usual .second).relationships =
        [⟨⟨"loansPart1", ["copy"]⟩, ⟨"loansPart2", ["copy"]⟩⟩] ∧
      ∃ referring ∈ (loans.decompose .usual .second).parts,
        ∃ referred ∈ (loans.decompose .usual .second).parts,
          referring.name = "loansPart1" ∧ referred.name = "loansPart2" ∧
            loans.ordered referred.key = ["copy"] := by
  have distinct : loans.attributeNames.Nodup := by decide
  have declared : ∀ clause ∈ loans.dependencies,
      ∀ name ∈ clause.determinants ++ clause.dependants, name ∈ loans.attributeNames := by decide
  have single : (loans.decompose .usual .second).relationships =
      [⟨⟨"loansPart1", ["copy"]⟩, ⟨"loansPart2", ["copy"]⟩⟩] := by decide +kernel
  obtain ⟨_, _, exactly⟩ := relationships_decompose distinct declared .usual .second
  obtain ⟨referring, isPart, referred, alsoPart, _, _, _, _, equal⟩ :=
    (exactly ⟨⟨"loansPart1", ["copy"]⟩, ⟨"loansPart2", ["copy"]⟩⟩).1
      (single ▸ List.mem_singleton.2 rfl)
  obtain ⟨source, target⟩ := Relationship.mk.inj equal
  obtain ⟨sourceName, _⟩ := Endpoint.mk.inj source
  obtain ⟨targetName, targetKey⟩ := Endpoint.mk.inj target
  exact ⟨distinct, declared, single, referring, isPart, referred, alsoPart, sourceName.symm,
    targetName.symm, targetKey.symm⟩

end Table

end RelationalDesign
