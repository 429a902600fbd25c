import RelationalDesign.Proofs.Normalization.PartRelationships

/-!
# Marks and relationships

In a normal form the marks of attributes that refer to something say the same as the
relationships (`foreignKeys_normalize`): an attribute is marked if and only if some
relationship that starts at its table names it (`isForeignKey_iff`), and no relationship
occurs twice (`nodup_relationships_decompose`).

A part starts without marks, whatever was marked in its table. Then attributes are marked
in two rounds, for links and for relationships that have been led on. Where names are
different a mark goes to the one attribute of its name (`markForeignKeys_eq`), so the
rounds can be put together (`exists_unmarked_of_mem_decompose`). Every round goes by the
position of a part, and relationships go by its name; the name tells the position.
-/

set_option autoImplicit false

namespace RelationalDesign

/-! ## Marks by name -/

/-- An attribute, marked if it is among some names. -/
def Attribute.markedIn (names : List String) (attr : Attribute) : Attribute :=
  if attr.name ∈ names then attr.asForeignKey else attr

namespace Attribute

variable {names : List String} {attr : Attribute}

theorem name_markedIn : (attr.markedIn names).name = attr.name := by
  unfold markedIn
  split <;> rfl

theorem isForeignKey_markedIn :
    (attr.markedIn names).isForeignKey = true ↔ attr.name ∈ names ∨ attr.isForeignKey = true := by
  unfold markedIn
  split
  · next member => exact iff_of_true rfl (Or.inl member)
  · next other => exact (or_iff_right other).symm

theorem markedIn_markedIn_singleton (name : String) :
    ((attr.markedIn [name]).markedIn names) = attr.markedIn (name :: names) := by
  unfold markedIn
  by_cases first : attr.name = name
  · by_cases later : attr.name ∈ names <;> simp [first, asForeignKey, Constraints.add]
  · simp [first]

end Attribute

namespace Table

theorem markFirst_eq_map {name : String} {attributes : List Attribute}
    (distinct : (attributes.map Attribute.name).Nodup) :
    markFirst name attributes = attributes.map (Attribute.markedIn [name]) := by
  induction attributes with
  | nil => rfl
  | cons attr rest ih =>
    rw [List.map_cons, List.nodup_cons] at distinct
    rw [markFirst, List.map_cons, Attribute.markedIn, ih distinct.2]
    by_cases isFirst : attr.name = name
    · have others : rest.map (Attribute.markedIn [name]) = rest.map id := by
        refine List.map_congr_left fun other later => if_neg fun again => distinct.1 ?_
        rw [isFirst, ← List.mem_singleton.1 again]
        exact List.mem_map_of_mem later
      rw [if_pos isFirst, if_pos (List.mem_singleton.2 isFirst), others, List.map_id]
    · rw [if_neg isFirst, if_neg (mt List.mem_singleton.1 isFirst)]

variable {table : Table}

/-- **Where names are different, a mark goes to the one attribute of its name.** -/
theorem markForeignKeys_eq (distinct : table.attributeNames.Nodup) (names : List String) :
    table.markForeignKeys names =
      { table with attributes := table.attributes.map (Attribute.markedIn names) } := by
  suffices marked : ∀ attributes : List Attribute, (attributes.map Attribute.name).Nodup →
      names.foldl (fun attributes name => markFirst name attributes) attributes =
        attributes.map (Attribute.markedIn names) by
    rw [markForeignKeys, marked table.attributes distinct]
  intro attributes distinct
  induction names generalizing attributes with
  | nil => exact (List.map_id attributes).symm
  | cons name rest ih =>
    have sameNames : (attributes.map (Attribute.markedIn [name])).map Attribute.name =
        attributes.map Attribute.name := by
      rw [List.map_map]
      exact List.map_congr_left fun _ _ => Attribute.name_markedIn
    rw [List.foldl_cons, markFirst_eq_map distinct, ih _ (sameNames ▸ distinct), List.map_map]
    exact List.map_congr_left fun _ _ => Attribute.markedIn_markedIn_singleton name

theorem markForeignKeys_append (table : Table) (first second : List String) :
    table.markForeignKeys (first ++ second) =
      (table.markForeignKeys first).markForeignKeys second := by
  unfold markForeignKeys
  rw [List.foldl_append]

/-- Marks that are set one after the other can be set at once. -/
theorem foldl_markForeignKeys {α : Type} (names : α → List String) (items : List α)
    (table : Table) :
    items.foldl (fun table item => table.markForeignKeys (names item)) table =
      table.markForeignKeys (items.flatMap names) := by
  induction items generalizing table with
  | nil => rfl
  | cons item rest ih => rw [List.foldl_cons, ih, List.flatMap_cons, markForeignKeys_append]

theorem getElem?_markLinks_eq_some {links : List Link} {parts : List Table} {position : Nat}
    {part : Table} (found : (markLinks links parts)[position]? = some part) :
    ∃ unmarked, parts[position]? = some unmarked ∧ part = unmarked.markForeignKeys
      ((links.filter fun link => link.source == position).flatMap Link.attributes) := by
  unfold markLinks at found
  rw [List.getElem?_mapIdx] at found
  obtain ⟨unmarked, isPart, rfl⟩ := Option.map_eq_some_iff.1 found
  exact ⟨unmarked, isPart, foldl_markForeignKeys Link.attributes _ unmarked⟩

end Table

theorem exists_of_mem_markCarried {carried : List Carried} {tables : List Parts} {part : Table}
    (member : part ∈ markCarried carried tables) :
    ∃ (table : Nat) (parts : Parts) (position : Nat) (unmarked : Table),
      tables[table]? = some parts ∧ parts.parts[position]? = some unmarked ∧
        part = unmarked.markForeignKeys
          ((carried.filter fun other => other.table == table && other.part == position).flatMap
            fun other => other.relationship.source.attributes) := by
  unfold markCarried at member
  obtain ⟨_, inTables, inParts⟩ := List.mem_flatten.1 member
  obtain ⟨table, inRange, rfl⟩ := List.mem_mapIdx.1 inTables
  obtain ⟨position, alsoInRange, rfl⟩ := List.mem_mapIdx.1 inParts
  exact ⟨table, _, position, _, List.getElem?_eq_getElem inRange,
    List.getElem?_eq_getElem alsoInRange, Table.foldl_markForeignKeys _ _ _⟩

/-! ## Marks in a normal form -/

/-- The relationships of a scheme that are led on to the parts of its tables. -/
def Scheme.carriedOn (settings : Settings) (form : NormalForm) (scheme : Scheme) : List Carried :=
  if settings.carryRelationships then
    scheme.relationships.foldl
      (addCarried (scheme.tables.map (Table.decompose settings form))
        ((scheme.tables.map (Table.decompose settings form)).flatMap Parts.relationships)) []
  else []

/-- The attributes of a part that are marked for links. -/
def Table.linkedNames (settings : Settings) (form : NormalForm) (table : Table)
    (position : Nat) : List String :=
  ((table.links (table.unmarkedParts settings form)
    (table.design settings form table.stated).references).filter fun link =>
      link.source == position).flatMap Link.attributes

/-- The attributes of a part that are marked for relationships that have been led on. -/
def carriedNames (carried : List Carried) (table position : Nat) : List String :=
  (carried.filter fun other => other.table == table && other.part == position).flatMap
    fun other => other.relationship.source.attributes

section Normal

variable {settings : Settings} {form : NormalForm} {scheme : Scheme}

theorem relationships_scheme_decompose :
    (scheme.decompose settings form).relationships =
      (scheme.tables.flatMap fun table => (table.decompose settings form).relationships) ++
        (scheme.carriedOn settings form).map Carried.relationship := by
  rw [← List.flatMap_map]
  rfl

/-- **Each table of a normal form is the part for a row with all its marks set at once.** -/
theorem exists_unmarked_of_mem_decompose {part : Table}
    (member : part ∈ (scheme.decompose settings form).tables) :
    ∃ (index : Nat) (table : Table) (position : Nat) (row : Dependency),
      scheme.tables[index]? = some table ∧
      (table.design settings form table.stated).rows[position]? = some row ∧
      part = (table.part position row).markForeignKeys
        (table.linkedNames settings form position ++
          carriedNames (scheme.carriedOn settings form) index position) := by
  obtain ⟨index, parts, position, linked, isTable, isLinked, rfl⟩ :=
    exists_of_mem_markCarried member
  rw [List.getElem?_map] at isTable
  obtain ⟨table, inScheme, rfl⟩ := Option.map_eq_some_iff.1 isTable
  obtain ⟨unmarked, isPart, rfl⟩ := Table.getElem?_markLinks_eq_some isLinked
  rw [List.getElem?_mapIdx] at isPart
  obtain ⟨row, isRow, rfl⟩ := Option.map_eq_some_iff.1 isPart
  refine ⟨index, table, position, row, inScheme, isRow, ?_⟩
  rw [Table.markForeignKeys_append]
  rfl

theorem name_of_getElem?_parts {table part : Table} {position : Nat}
    (found : (table.decompose settings form).parts[position]? = some part) :
    part.name = table.partName position := by
  obtain ⟨unmarked, isPart, rfl⟩ := Table.getElem?_markLinks_eq_some found
  rw [List.getElem?_mapIdx] at isPart
  obtain ⟨_, _, rfl⟩ := Option.map_eq_some_iff.1 isPart
  rfl

/-- What has been led on starts at the part that it is noted for. -/
theorem exists_of_mem_carriedOn {carried : Carried}
    (member : carried ∈ scheme.carriedOn settings form) :
    ∃ table, scheme.tables[carried.table]? = some table ∧
      carried.relationship.source.table = table.partName carried.part := by
  unfold Scheme.carriedOn at member
  split at member
  · obtain ⟨_, _, found⟩ := (exists_of_mem_foldl_addCarried member).resolve_left List.not_mem_nil
    simp only [carry?, Option.bind_eq_bind, Option.bind_eq_some_iff, Option.pure_def,
      Option.some.injEq] at found
    obtain ⟨index, _, sources, isTable, _, _, position, _, source, isPart, _, _, rfl⟩ := found
    rw [List.getElem?_map] at isTable
    obtain ⟨table, inScheme, rfl⟩ := Option.map_eq_some_iff.1 isTable
    exact ⟨table, inScheme, name_of_getElem?_parts isPart⟩
  · exact absurd member List.not_mem_nil

theorem mem_linkedNames_iff {table : Table} {position : Nat} {name : String} :
    name ∈ table.linkedNames settings form position ↔
      ∃ relationship ∈ (table.decompose settings form).relationships,
        relationship.source.table = table.partName position ∧
          name ∈ relationship.source.attributes := by
  constructor
  · intro member
    obtain ⟨link, isLink, named⟩ := List.mem_flatMap.1 member
    obtain ⟨inLinks, isSource⟩ := List.mem_filter.1 isLink
    exact ⟨_, List.mem_map_of_mem inLinks, beq_iff_eq.1 isSource ▸ rfl, named⟩
  · rintro ⟨_, member, isSource, named⟩
    obtain ⟨link, inLinks, rfl⟩ := List.mem_map.1 member
    have samePosition := (Table.partName_inj isSource).2
    exact List.mem_flatMap.2 ⟨link, List.mem_filter.2 ⟨inLinks, beq_iff_eq.2 samePosition⟩, named⟩

theorem mem_carriedNames_iff {carried : List Carried} {table position : Nat} {name : String} :
    name ∈ carriedNames carried table position ↔
      ∃ other ∈ carried, other.table = table ∧ other.part = position ∧
        name ∈ other.relationship.source.attributes := by
  simp only [carriedNames, List.mem_flatMap, List.mem_filter, Bool.and_eq_true, beq_iff_eq,
    and_assoc]

/-- The marks of a part are set by the relationships that start at it. -/
theorem mem_marks_iff (distinct : (scheme.tables.map Table.name).Nodup) {index position : Nat}
    {table : Table} (inScheme : scheme.tables[index]? = some table) {name : String} :
    name ∈ table.linkedNames settings form position ++
        carriedNames (scheme.carriedOn settings form) index position ↔
      ∃ relationship ∈ (scheme.decompose settings form).relationships,
        relationship.source.table = table.partName position ∧
          name ∈ relationship.source.attributes := by
  rw [relationships_scheme_decompose, List.mem_append, mem_linkedNames_iff, mem_carriedNames_iff]
  constructor
  · rintro (⟨relationship, inner, starts, named⟩ | ⟨carried, isCarried, rfl, rfl, named⟩)
    · exact ⟨relationship, List.mem_append_left _ (List.mem_flatMap.2
        ⟨table, List.mem_of_getElem? inScheme, inner⟩), starts, named⟩
    · obtain ⟨other, found, starts⟩ := exists_of_mem_carriedOn isCarried
      rw [inScheme, Option.some.injEq] at found
      exact ⟨carried.relationship, List.mem_append_right _ (List.mem_map_of_mem isCarried),
        found ▸ starts, named⟩
  · rintro ⟨relationship, member, starts, named⟩
    rcases List.mem_append.1 member with inner | led
    · obtain ⟨other, inTables, ofOther⟩ := List.mem_flatMap.1 inner
      obtain ⟨link, _, rfl⟩ := List.mem_map.1 ofOther
      obtain ⟨j, found⟩ := List.mem_iff_getElem?.1 inTables
      have sameName : other.name = table.name := (Table.partName_inj starts).1
      rw [position_eq_of_nodup_map distinct found inScheme sameName, inScheme] at found
      exact Or.inl ⟨_, Option.some.inj found ▸ ofOther, starts, named⟩
    · obtain ⟨carried, isCarried, rfl⟩ := List.mem_map.1 led
      obtain ⟨other, found, isSource⟩ := exists_of_mem_carriedOn isCarried
      obtain ⟨sameName, samePosition⟩ := Table.partName_inj (isSource.symm.trans starts)
      exact Or.inr ⟨carried, isCarried, position_eq_of_nodup_map distinct found inScheme sameName,
        samePosition, named⟩

/-- A part starts without marks. -/
theorem not_isForeignKey_of_mem_part {table : Table} {position : Nat} {row : Dependency}
    {attr : Attribute} (member : attr ∈ (table.part position row).attributes) :
    ¬attr.isForeignKey = true := by
  rcases List.mem_append.1 member with selected | selected <;>
  · obtain ⟨_, _, rfl⟩ := List.mem_map.1 selected
    exact Bool.false_ne_true

/-- **An attribute of a normal form is marked if and only if a relationship that starts at
its table names it.** -/
theorem isForeignKey_iff (formed : scheme.WellFormed) {part : Table}
    (member : part ∈ (scheme.decompose settings form).tables) {attr : Attribute}
    (inPart : attr ∈ part.attributes) :
    attr.isForeignKey = true ↔ ∃ relationship ∈ (scheme.decompose settings form).relationships,
      relationship.source.table = part.name ∧ attr.name ∈ relationship.source.attributes := by
  obtain ⟨index, table, position, row, inScheme, isRow, rfl⟩ :=
    exists_unmarked_of_mem_decompose member
  have disjoint := table.allDisjoint_design settings form table.stated row
    (List.mem_of_getElem? isRow)
  have unmarked := (formed.tables table (List.mem_of_getElem? inScheme)).part disjoint position
  rw [Table.markForeignKeys_eq unmarked.distinct] at inPart
  obtain ⟨origin, inUnmarked, rfl⟩ := List.mem_map.1 inPart
  rw [Attribute.isForeignKey_markedIn, Attribute.name_markedIn,
    or_iff_left (not_isForeignKey_of_mem_part inUnmarked)]
  exact mem_marks_iff formed.distinct inScheme

/-! ## No relationship twice -/

/-- Leading relationships on adds nothing twice. -/
theorem nodup_foldl_addCarried {tables : List Parts} {present : List Relationship}
    (relationships : List Relationship) {before : List Carried}
    (distinct : (present ++ before.map Carried.relationship).Nodup) :
    (present ++ (relationships.foldl (addCarried tables present) before).map
      Carried.relationship).Nodup := by
  induction relationships generalizing before with
  | nil => exact distinct
  | cons relationship rest ih =>
    refine ih ?_
    rcases addCarried_cases tables present before relationship with same | ⟨found, _, fresh, added⟩
    · rw [same]
      exact distinct
    · rw [added, List.map_append, ← List.append_assoc]
      refine List.nodup_append.2 ⟨distinct, List.pairwise_singleton _ _, ?_⟩
      rintro _ old _ new rfl
      exact fresh (List.mem_singleton.1 new ▸ old)

/-- **No relationship of a normal form occurs twice.** -/
theorem nodup_relationships_decompose (distinct : (scheme.tables.map Table.name).Nodup) :
    (scheme.decompose settings form).relationships.Nodup := by
  have inner : (scheme.tables.flatMap fun table =>
      (table.decompose settings form).relationships).Nodup := by
    refine List.pairwise_flatMap.2 ⟨fun table _ => table.nodup_relationships settings form, ?_⟩
    refine (List.pairwise_map.1 distinct).imp fun different first inFirst second inSecond same => ?_
    obtain ⟨_, _, rfl⟩ := List.mem_map.1 inFirst
    obtain ⟨_, _, rfl⟩ := List.mem_map.1 inSecond
    have sources := (Endpoint.mk.inj (Relationship.mk.inj same).1).1
    exact different (Table.partName_inj sources).1
  rw [relationships_scheme_decompose]
  unfold Scheme.carriedOn
  split
  · rw [← List.flatMap_map] at inner ⊢
    exact nodup_foldl_addCarried _ (by rwa [List.map_nil, List.append_nil])
  · rwa [List.map_nil, List.append_nil]

end Normal

/-- **Marks and relationships of a normal form agree.** An attribute is marked as a foreign key
if and only if some relationship that starts at its table names it there, and no relationship
occurs twice. -/
theorem foreignKeys_normalize {scheme : Scheme} (accepted : scheme.violations = [])
    (valid : scheme.validate = .ok ()) (settings : Settings) (form : NormalForm) :
    ∃ normal, scheme.normalize settings form = .ok normal ∧
      (∀ part ∈ normal.tables, ∀ attr ∈ part.attributes,
        attr.isForeignKey = true ↔ ∃ relationship ∈ normal.relationships,
          relationship.source.table = part.name ∧ attr.name ∈ relationship.source.attributes) ∧
      normal.relationships.Nodup := by
  have formed := Scheme.validate_eq_ok_iff.1 valid
  refine ⟨_, Scheme.normalize_eq_ok_iff.2 ⟨accepted, rfl⟩, ?_, ?_⟩
  · exact fun part member attr inPart => isForeignKey_iff formed member inPart
  · exact nodup_relationships_decompose formed.distinct

/-- Bookings of rooms. The guest is marked although nothing refers from it, one relationship is
stated twice, and another one fits no part. -/
def bookings : Scheme where
  tables :=
    [⟨"rooms", [⟨"room", .integer, ⟨true, true, false⟩⟩, ⟨"floor", .integer, ∅⟩],
      [⟨["room"], ["floor"]⟩]⟩,
      ⟨"bookings", [⟨"room", .integer, ⟨true, true, false⟩⟩,
        ⟨"night", .integer, ⟨true, true, false⟩⟩, ⟨"guest", .text, ⟨false, false, true⟩⟩,
        ⟨"beds", .integer, ∅⟩],
      [⟨["room", "night"], ["guest"]⟩, ⟨["room"], ["beds"]⟩]⟩]
  relationships :=
    [⟨⟨"bookings", ["room"]⟩, ⟨"rooms", ["room"]⟩⟩, ⟨⟨"bookings", ["room"]⟩, ⟨"rooms", ["room"]⟩⟩,
      ⟨⟨"bookings", ["guest", "beds"]⟩, ⟨"rooms", ["room", "floor"]⟩⟩]

/-- The normal form of the bookings has one relationship between their parts and one that has
been led on, and no guest is marked. -/
theorem foreignKeys_bookings :
    bookings.violations = [] ∧ bookings.validate = .ok () ∧
      ∃ normal, bookings.normalize .usual .second = .ok normal ∧
        normal.relationships =
          [⟨⟨"bookingsPart1", ["room"]⟩, ⟨"bookingsPart2", ["room"]⟩⟩,
            ⟨⟨"bookingsPart1", ["room"]⟩, ⟨"roomsPart1", ["room"]⟩⟩] ∧
        ∀ part ∈ normal.tables, ∀ attr ∈ part.attributes,
          attr.name = "guest" → attr.isForeignKey = false := by
  have accepted : bookings.violations = [] := by decide
  obtain ⟨normal, normalized, marked, _⟩ := foreignKeys_normalize accepted rfl .usual .second
  obtain ⟨_, rfl⟩ := Scheme.normalize_eq_ok_iff.1 normalized
  have relationships : (bookings.decompose .usual .second).relationships =
      [⟨⟨"bookingsPart1", ["room"]⟩, ⟨"bookingsPart2", ["room"]⟩⟩,
        ⟨⟨"bookingsPart1", ["room"]⟩, ⟨"roomsPart1", ["room"]⟩⟩] := by decide +kernel
  have unnamed : ∀ relationship ∈ (bookings.decompose .usual .second).relationships,
      "guest" ∉ relationship.source.attributes := by
    rw [relationships]
    decide
  refine ⟨accepted, rfl, _, normalized, relationships, fun part member attr inPart isGuest => ?_⟩
  refine Bool.eq_false_iff.2 fun isMarked => ?_
  obtain ⟨relationship, stated, _, named⟩ := (marked part member attr inPart).1 isMarked
  exact unnamed relationship stated (isGuest ▸ named)

end RelationalDesign
