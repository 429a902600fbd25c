import RelationalDesign.Proofs.Scheme.Validation

/-!
# The first fault of a scheme

A scheme that is not well-formed may have many faults, and validation names one of them.
Table names come first, then the tables one by one, then the relationships one by one;
within a table an attribute is blamed for its type before its name, and of a relationship
the source is blamed before the target. A fault is the first one if everything before it
in this order is without fault (`FirstFault`), and this is the fault that validation names
(`validate_exact`).

Names are compared with those seen before. Both lists in which names must differ are
scanned in the same way (`firstFault?`), so that what a scan finds is read off once: a
place in the list, no fault before it, and a fault of its member in view of the names
before it (`firstFault?_eq_some_iff`).
-/

set_option autoImplicit false

namespace RelationalDesign

/-! ## Scans -/

section Scan

variable {α ε : Type} {name : α → String} {check : List String → α → Option ε}

/-- The first fault that a check finds when it goes through a list, where each member is
checked in view of the names of those before it. -/
def firstFault? (name : α → String) (check : List String → α → Option ε) (seen : List String) :
    List α → Option ε
  | [] => none
  | member :: rest => (check seen member).or (firstFault? name check (name member :: seen) rest)

theorem firstFault?_eq_some_iff {seen : List String} {members : List α} {fault : ε} :
    firstFault? name check seen members = some fault ↔
      ∃ before member after, members = before ++ member :: after ∧
        firstFault? name check seen before = none ∧
        check ((before.map name).reverse ++ seen) member = some fault := by
  induction members generalizing seen with
  | nil => simp [firstFault?]
  | cons first rest ih =>
    rw [firstFault?, Option.or_eq_some_iff, ih]
    constructor
    · rintro (found | ⟨passed, before, member, after, rfl, clear, found⟩)
      · exact ⟨[], first, rest, rfl, rfl, found⟩
      · refine ⟨first :: before, member, after, rfl, ?_, ?_⟩
        · rw [firstFault?, passed, clear, Option.or_none]
        · rw [List.map_cons, List.reverse_cons, List.append_assoc]
          exact found
    · rintro ⟨_ | ⟨other, before⟩, member, after, place, clear, found⟩
      · obtain ⟨rfl, rfl⟩ := List.cons.inj place
        exact .inl found
      · obtain ⟨rfl, rfl⟩ := List.cons.inj place
        rw [firstFault?, Option.or_eq_none_iff] at clear
        rw [List.map_cons, List.reverse_cons, List.append_assoc] at found
        exact .inr ⟨clear.1, before, member, after, rfl, clear.2, found⟩

end Scan

/-- Repeated names are found by a scan. -/
theorem repeated?_eq_firstFault? {seen names : List String} :
    repeated? seen names =
      firstFault? id (fun seen name => if name ∈ seen then some name else none) seen names := by
  induction names generalizing seen with
  | nil => rfl
  | cons name rest ih =>
    rw [repeated?, firstFault?, ih]
    split <;> rfl

theorem repeated?_eq_some_iff {names : List String} {name : String} :
    repeated? [] names = some name ↔
      ∃ before after, names = before ++ name :: after ∧ before.Nodup ∧ name ∈ before := by
  simp only [repeated?_eq_firstFault?, firstFault?_eq_some_iff]
  simp only [← repeated?_eq_firstFault?, repeated?_nil_eq_none_iff]
  constructor
  · rintro ⟨before, member, after, rfl, distinct, found⟩
    obtain ⟨repeated, rfl⟩ := Option.ite_some_none_eq_some.1 found
    exact ⟨before, after, rfl, distinct, by simpa using repeated⟩
  · rintro ⟨before, after, rfl, distinct, repeated⟩
    exact ⟨before, name, after, rfl, distinct, if_pos (by simpa using repeated)⟩

/-! ## Tables -/

/-- What is wrong with an attribute, given the names of the attributes before it. -/
def checkAttribute? (table : String) (seen : List String) (attr : Attribute) : Option SchemeError :=
  if attr.type = .unknown then some (.unknownType table attr.name)
  else if attr.name ∈ seen then some (.duplicateAttribute table attr.name)
  else none

/-- Faulty attributes are found by a scan. -/
theorem attributeFault?_eq_firstFault? {table : String} {seen : List String}
    {attributes : List Attribute} :
    attributeFault? table seen attributes =
      firstFault? Attribute.name (checkAttribute? table) seen attributes := by
  induction attributes generalizing seen with
  | nil => rfl
  | cons attr rest ih =>
    rw [attributeFault?, firstFault?, checkAttribute?, ih]
    split
    · rfl
    · split <;> rfl

namespace Table

/-- The first fault of a table, where the attributes before the faulty one would make a
well-formed table. -/
inductive FirstFault (table : Table) : SchemeError → Prop where
  | unknownType {before after : List Attribute} {attr : Attribute}
      (place : table.attributes = before ++ attr :: after)
      (earlier : WellFormed { table with attributes := before })
      (unknown : attr.type = .unknown) :
      FirstFault table (.unknownType table.name attr.name)
  | repeatedName {before after : List Attribute} {attr : Attribute}
      (place : table.attributes = before ++ attr :: after)
      (earlier : WellFormed { table with attributes := before })
      (known : attr.type ≠ .unknown) (repeated : attr.name ∈ before.map Attribute.name) :
      FirstFault table (.duplicateAttribute table.name attr.name)

theorem fault?_eq_some_iff {table : Table} {error : SchemeError} :
    table.fault? = some error ↔ table.FirstFault error := by
  have clear (before : List Attribute) :
      firstFault? Attribute.name (checkAttribute? table.name) [] before = none ↔
        WellFormed { table with attributes := before } := by
    rw [← attributeFault?_eq_firstFault?, ← fault?_eq_none_iff]
    rfl
  unfold fault?
  rw [attributeFault?_eq_firstFault?, firstFault?_eq_some_iff]
  simp only [clear, List.append_nil]
  constructor
  · rintro ⟨before, attr, after, place, earlier, found⟩
    unfold checkAttribute? at found
    split at found
    · next unknown =>
      obtain rfl := Option.some.inj found
      exact .unknownType place earlier unknown
    · next known =>
      obtain ⟨repeated, rfl⟩ := Option.ite_some_none_eq_some.1 found
      exact .repeatedName place earlier known (List.mem_reverse.1 repeated)
  · rintro (⟨place, earlier, unknown⟩ | ⟨place, earlier, known, repeated⟩)
    · exact ⟨_, _, _, place, earlier, if_pos unknown⟩
    · refine ⟨_, _, _, place, earlier, ?_⟩
      rw [checkAttribute?, if_neg known, if_pos (List.mem_reverse.2 repeated)]

end Table

/-! ## Relationships -/

/-- The first fault of a relationship between some tables. -/
inductive Relationship.FirstFault (tables : List Table) (relationship : Relationship) :
    SchemeError → Prop where
  | source (missing : ¬relationship.source.HeldBy tables) :
      FirstFault tables relationship (.unresolvedEndpoint relationship.source.render)
  | target (held : relationship.source.HeldBy tables)
      (missing : ¬relationship.target.HeldBy tables) :
      FirstFault tables relationship (.unresolvedEndpoint relationship.target.render)

namespace Scheme

theorem endpointFault?_eq_some_iff {scheme : Scheme}
    (distinct : (scheme.tables.map Table.name).Nodup) {endpoint : Endpoint} {error : SchemeError} :
    scheme.endpointFault? endpoint = some error ↔
      ¬endpoint.HeldBy scheme.tables ∧ error = .unresolvedEndpoint endpoint.render := by
  rw [← endpointFault?_eq_none_iff distinct]
  unfold endpointFault?
  split <;> simp [eq_comm]

theorem relationshipFault?_eq_some_iff {scheme : Scheme}
    (distinct : (scheme.tables.map Table.name).Nodup) {relationship : Relationship}
    {error : SchemeError} :
    scheme.relationshipFault? relationship = some error ↔
      relationship.FirstFault scheme.tables error := by
  rw [relationshipFault?, Option.or_eq_some_iff, endpointFault?_eq_some_iff distinct,
    endpointFault?_eq_some_iff distinct, endpointFault?_eq_none_iff distinct]
  constructor
  · rintro (⟨missing, rfl⟩ | ⟨held, missing, rfl⟩)
    · exact .source missing
    · exact .target held missing
  · rintro (⟨missing⟩ | ⟨held, missing⟩)
    · exact .inl ⟨missing, rfl⟩
    · exact .inr ⟨held, missing, rfl⟩

/-! ## Schemes -/

/-- The first fault of a scheme. -/
inductive FirstFault (scheme : Scheme) : SchemeError → Prop where
  | repeatedTable {before after : List String} {name : String}
      (place : scheme.tables.map Table.name = before ++ name :: after)
      (earlier : before.Nodup) (repeated : name ∈ before) :
      FirstFault scheme (.duplicateTable name)
  | table {before after : List Table} {table : Table} {error : SchemeError}
      (distinct : (scheme.tables.map Table.name).Nodup)
      (place : scheme.tables = before ++ table :: after)
      (earlier : ∀ other ∈ before, other.WellFormed) (fault : table.FirstFault error) :
      FirstFault scheme error
  | relationship {before after : List Relationship} {relationship : Relationship}
      {error : SchemeError}
      (distinct : (scheme.tables.map Table.name).Nodup)
      (tables : ∀ table ∈ scheme.tables, table.WellFormed)
      (place : scheme.relationships = before ++ relationship :: after)
      (earlier : ∀ other ∈ before,
        other.source.HeldBy scheme.tables ∧ other.target.HeldBy scheme.tables)
      (fault : relationship.FirstFault scheme.tables error) :
      FirstFault scheme error

theorem fault?_eq_some_iff {scheme : Scheme} {error : SchemeError} :
    scheme.fault? = some error ↔ scheme.FirstFault error := by
  rw [fault?_eq_or]
  simp only [Option.or_eq_some_iff, Option.map_eq_some_iff, Option.map_eq_none_iff,
    repeated?_nil_eq_none_iff, repeated?_eq_some_iff, List.findSome?_eq_some_iff,
    List.findSome?_eq_none_iff, Table.fault?_eq_none_iff, Table.fault?_eq_some_iff]
  constructor
  · rintro (⟨name, ⟨before, after, place, earlier, repeated⟩, rfl⟩ | ⟨distinct, found | found⟩)
    · exact .repeatedTable place earlier repeated
    · obtain ⟨before, table, after, place, fault, earlier⟩ := found
      exact .table distinct place earlier fault
    · obtain ⟨tables, before, relationship, after, place, fault, earlier⟩ := found
      refine .relationship distinct tables place (fun other member => ?_)
        ((relationshipFault?_eq_some_iff distinct).1 fault)
      exact (relationshipFault?_eq_none_iff distinct).1 (earlier other member)
  · rintro (⟨place, earlier, repeated⟩ | ⟨distinct, place, earlier, fault⟩ |
      ⟨distinct, tables, place, earlier, fault⟩)
    · exact .inl ⟨_, ⟨_, _, place, earlier, repeated⟩, rfl⟩
    · exact .inr ⟨distinct, .inl ⟨_, _, _, place, fault, earlier⟩⟩
    · refine .inr ⟨distinct, .inr ⟨tables, _, _, _, place, ?_, fun other member => ?_⟩⟩
      · exact (relationshipFault?_eq_some_iff distinct).2 fault
      · exact (relationshipFault?_eq_none_iff distinct).2 (earlier other member)

/-- **Validation accepts exactly the well-formed schemes, and of any other scheme it names
the first fault.** -/
theorem validate_exact (scheme : Scheme) :
    (scheme.validate = .ok () ↔ scheme.WellFormed) ∧
      ∀ error, scheme.validate = .error error ↔ scheme.FirstFault error := by
  refine ⟨validate_eq_ok_iff, fun error => ?_⟩
  rw [← fault?_eq_some_iff]
  unfold validate
  cases scheme.fault? <;> simp

end Scheme

end RelationalDesign
