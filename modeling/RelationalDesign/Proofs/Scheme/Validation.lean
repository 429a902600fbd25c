import RelationalDesign.Scheme.Validation

/-!
# Well-formed schemes

A table is well-formed if its attributes have different names and known types, and a
scheme is well-formed if its tables are, have different names, and hold both ends of
every relationship. Validation accepts exactly the well-formed schemes
(`validate_eq_ok_iff`).

An end is looked up in the first table of its name. Where names are different that is
the only one (`table?_of_mem`), so it does not matter which one is meant
(`resolves_iff`). All of this depends on tables only through the names and the types
that they declare (`WellFormed.of_declaration`, `HeldBy.of_declarations`).
-/

set_option autoImplicit false

namespace RelationalDesign

namespace Table

/-- A table whose attributes have different names and known types. -/
structure WellFormed (table : Table) : Prop where
  distinct : table.attributeNames.Nodup
  known : ∀ attr ∈ table.attributes, attr.type ≠ .unknown

/-- What a table declares, constraints aside: its name, and the names and the types of
its attributes. -/
def declaration (table : Table) : String × List (String × AttributeType) :=
  (table.name, table.attributes.map fun attr => (attr.name, attr.type))

theorem name_eq_of_declaration {table other : Table} (same : table.declaration = other.declaration) :
    table.name = other.name :=
  congrArg Prod.fst same

theorem attributeNames_eq_of_declaration {table other : Table}
    (same : table.declaration = other.declaration) : table.attributeNames = other.attributeNames := by
  have names := congrArg (fun declared => declared.2.map Prod.fst) same
  simp only [declaration, List.map_map] at names
  exact names

theorem WellFormed.of_declaration {table other : Table} (formed : table.WellFormed)
    (same : table.declaration = other.declaration) : other.WellFormed := by
  refine ⟨attributeNames_eq_of_declaration same ▸ formed.distinct, fun attr member => ?_⟩
  have declared : (attr.name, attr.type) ∈ other.declaration.2 :=
    List.mem_map_of_mem member
  rw [← same] at declared
  obtain ⟨attrOfTable, inTable, equal⟩ := List.mem_map.1 declared
  obtain ⟨_, sameType⟩ := Prod.mk.inj equal
  exact sameType ▸ formed.known attrOfTable inTable

theorem primaryKey_subset (table : Table) : table.primaryKey ⊆ table.attributeNames := by
  intro name member
  obtain ⟨attr, isKey, rfl⟩ := List.mem_map.1 member
  exact List.mem_map_of_mem (List.mem_filter.1 isKey).1

theorem hasAttribute_iff_mem {table : Table} {name : String} :
    table.hasAttribute name = true ↔ name ∈ table.attributeNames := by
  unfold hasAttribute attribute? attributeNames
  rw [List.find?_isSome, List.mem_map]
  simp only [decide_eq_true_eq]

theorem hasAttributes_iff {table : Table} {names : List String} :
    table.hasAttributes names = true ↔ names ⊆ table.attributeNames := by
  unfold hasAttributes
  rw [List.all_eq_true]
  exact forall₂_congr fun name _ => hasAttribute_iff_mem

end Table

/-- Tables hold an end of a relationship if it names attributes of a table of its name,
and some of them. -/
def Endpoint.HeldBy (tables : List Table) (endpoint : Endpoint) : Prop :=
  endpoint.attributes ≠ [] ∧
    ∃ table ∈ tables, table.name = endpoint.table ∧ endpoint.attributes ⊆ table.attributeNames

/-- What some tables hold, all tables with the same declarations hold. -/
theorem Endpoint.HeldBy.of_declarations {tables others : List Table} {endpoint : Endpoint}
    (held : endpoint.HeldBy tables)
    (declared : ∀ table ∈ tables, ∃ other ∈ others, table.declaration = other.declaration) :
    endpoint.HeldBy others := by
  obtain ⟨nonempty, table, member, named, contained⟩ := held
  obtain ⟨other, inOthers, same⟩ := declared table member
  refine ⟨nonempty, other, inOthers, ?_, ?_⟩
  · rw [← named, Table.name_eq_of_declaration same]
  · rw [← Table.attributeNames_eq_of_declaration same]
    exact contained

/-- A scheme of well-formed tables with different names that hold the relationships. -/
structure Scheme.WellFormed (scheme : Scheme) : Prop where
  distinct : (scheme.tables.map Table.name).Nodup
  tables : ∀ table ∈ scheme.tables, table.WellFormed
  sources : ∀ relationship ∈ scheme.relationships, relationship.source.HeldBy scheme.tables
  targets : ∀ relationship ∈ scheme.relationships, relationship.target.HeldBy scheme.tables

/-! ## Repeated names -/

theorem repeated?_eq_none_iff {seen names : List String} :
    repeated? seen names = none ↔ names.Nodup ∧ ∀ name ∈ names, name ∉ seen := by
  induction names generalizing seen with
  | nil => simp [repeated?]
  | cons name rest ih =>
    simp only [repeated?]
    split
    · next repeated => simp [repeated]
    · next fresh =>
      rw [ih, List.nodup_cons, List.forall_mem_cons]
      simp only [List.mem_cons, not_or, forall_and]
      grind

theorem repeated?_nil_eq_none_iff {names : List String} :
    repeated? [] names = none ↔ names.Nodup :=
  repeated?_eq_none_iff.trans (and_iff_left fun _ _ => List.not_mem_nil)

/-- The attributes of a table have no fault if their types are known and their names are
different from each other and from those seen. -/
theorem attributeFault?_eq_none_iff {table : String} {seen : List String}
    {attributes : List Attribute} :
    attributeFault? table seen attributes = none ↔
      (∀ attr ∈ attributes, attr.type ≠ .unknown) ∧
        repeated? seen (attributes.map Attribute.name) = none := by
  induction attributes generalizing seen with
  | nil => simp [attributeFault?, repeated?]
  | cons attr rest ih =>
    rw [attributeFault?, List.map_cons, repeated?, List.forall_mem_cons]
    split
    · next unknown => simp [unknown]
    · next known =>
      split
      · next repeated => simp
      · rw [ih]
        simp only [ne_eq, known, not_false_eq_true, true_and]

theorem Table.fault?_eq_none_iff {table : Table} : table.fault? = none ↔ table.WellFormed := by
  unfold Table.fault?
  rw [attributeFault?_eq_none_iff, repeated?_nil_eq_none_iff]
  constructor
  · rintro ⟨known, distinct⟩
    exact ⟨distinct, known⟩
  · rintro ⟨distinct, known⟩
    exact ⟨known, distinct⟩

/-! ## Endpoints -/

/-- Where all members look different, each one is found by its look. -/
theorem find?_eq_some_of_nodup_map {α β : Type} [DecidableEq β] {look : α → β} {members : List α}
    (distinct : (members.map look).Nodup) {member : α} (isMember : member ∈ members) :
    members.find? (fun other => decide (look other = look member)) = some member := by
  obtain ⟨before, after, place⟩ := List.append_of_mem isMember
  rw [place, List.map_append, List.map_cons] at distinct
  refine List.find?_eq_some_iff_append.2 ⟨decide_eq_true rfl, before, after, place, ?_⟩
  intro other earlier
  have different := (List.nodup_append.1 distinct).2.2 (look other) (List.mem_map_of_mem earlier)
    (look member) List.mem_cons_self
  simpa using different

namespace Scheme

/-- The fault of a relationship is that of its source, or else that of its target. -/
def relationshipFault? (scheme : Scheme) (relationship : Relationship) : Option SchemeError :=
  (scheme.endpointFault? relationship.source).or (scheme.endpointFault? relationship.target)

variable {scheme : Scheme} (distinct : (scheme.tables.map Table.name).Nodup)
include distinct

/-- Among tables with different names, each one is found by its name. -/
theorem table?_of_mem {table : Table} (member : table ∈ scheme.tables) :
    scheme.table? table.name = some table :=
  find?_eq_some_of_nodup_map distinct member

theorem resolves_iff {endpoint : Endpoint} :
    scheme.resolves endpoint = true ↔
      ∃ table ∈ scheme.tables, table.name = endpoint.table ∧
        endpoint.attributes ⊆ table.attributeNames := by
  unfold resolves
  rw [Option.any_eq_true]
  constructor
  · rintro ⟨table, found, has⟩
    unfold table? at found
    have named := List.find?_some found
    exact ⟨table, List.mem_of_find?_eq_some found, of_decide_eq_true named,
      Table.hasAttributes_iff.1 has⟩
  · rintro ⟨table, member, named, has⟩
    exact ⟨table, named ▸ table?_of_mem distinct member, Table.hasAttributes_iff.2 has⟩

theorem endpointFault?_eq_none_iff {endpoint : Endpoint} :
    scheme.endpointFault? endpoint = none ↔ endpoint.HeldBy scheme.tables := by
  unfold endpointFault? Endpoint.HeldBy
  rw [← resolves_iff distinct]
  split
  · next held => exact iff_of_true rfl held
  · next missing => exact iff_of_false (Option.some_ne_none _) missing

theorem relationshipFault?_eq_none_iff {relationship : Relationship} :
    scheme.relationshipFault? relationship = none ↔
      relationship.source.HeldBy scheme.tables ∧ relationship.target.HeldBy scheme.tables := by
  rw [relationshipFault?, Option.or_eq_none_iff, endpointFault?_eq_none_iff distinct,
    endpointFault?_eq_none_iff distinct]

end Scheme

/-! ## Validation -/

/-- Validation goes over the names of tables, then the tables, then the relationships. -/
theorem Scheme.fault?_eq_or (scheme : Scheme) :
    scheme.fault? = ((repeated? [] (scheme.tables.map Table.name)).map SchemeError.duplicateTable).or
      ((scheme.tables.findSome? Table.fault?).or
        (scheme.relationships.findSome? scheme.relationshipFault?)) := by
  simp only [fault?, Option.orElse_eq_orElse, Option.orElse_eq_or]
  rfl

theorem Scheme.fault?_eq_none_iff {scheme : Scheme} : scheme.fault? = none ↔ scheme.WellFormed := by
  rw [Scheme.fault?_eq_or]
  simp only [Option.or_eq_none_iff, Option.map_eq_none_iff, List.findSome?_eq_none_iff,
    repeated?_nil_eq_none_iff, Table.fault?_eq_none_iff]
  constructor
  · rintro ⟨distinct, tables, faultless⟩
    have held : ∀ relationship ∈ scheme.relationships,
        relationship.source.HeldBy scheme.tables ∧ relationship.target.HeldBy scheme.tables :=
      fun relationship member =>
        (relationshipFault?_eq_none_iff distinct).1 (faultless relationship member)
    exact ⟨distinct, tables, fun relationship member => (held relationship member).1,
      fun relationship member => (held relationship member).2⟩
  · rintro ⟨distinct, tables, sources, targets⟩
    refine ⟨distinct, tables, fun relationship member => ?_⟩
    exact (relationshipFault?_eq_none_iff distinct).2
      ⟨sources relationship member, targets relationship member⟩

/-- **Validation accepts exactly the well-formed schemes.** -/
theorem Scheme.validate_eq_ok_iff {scheme : Scheme} :
    scheme.validate = .ok () ↔ scheme.WellFormed := by
  rw [← Scheme.fault?_eq_none_iff]
  unfold Scheme.validate
  cases scheme.fault? <;> simp

end RelationalDesign
