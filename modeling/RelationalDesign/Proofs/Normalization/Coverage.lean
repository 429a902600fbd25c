import RelationalDesign.Proofs.Decomposition.Targets
import RelationalDesign.Proofs.Normalization.Compilability
import RelationalDesign.Proofs.Normalization.KeptKey
import RelationalDesign.Proofs.Normalization.PartKeys

/-!
# The parts cover their table

With the key kept, the parts of a table have its attributes between them and no others,
each as it was declared, and some part holds the whole primary key
(`coveredBy_decompose`).

**Nothing is lost.** An absorbed row takes its determinants with it, so decomposing may
leave attributes that no row mentions any more. Keeping the key places them along with the
attributes that no dependency names: the rows of a design mention exactly the attributes that
the table declares (`mentions_design_iff`).

**Nothing is changed.** A part takes the attributes of its row from the table and replaces
only their key constraints (`exists_declared_of_mem_part`). The sides of a row are disjoint, so
none is taken twice, and the keys of the parts are the determinants of different rows.
-/

set_option autoImplicit false

namespace RelationalDesign

/-- What shows of an attribute, key constraints aside. -/
def Attribute.face (attr : Attribute) : String × AttributeType × Bool :=
  (attr.name, attr.type, attr.isNotNullable)

namespace Table

/-- What shows of the attributes of a table. -/
def faces (table : Table) : List (String × AttributeType × Bool) :=
  table.attributes.map Attribute.face

/-- Parts have the attributes of a table between them, as the table declares them: names,
types and whether there must be a value. -/
structure CoveredBy (table : Table) (parts : List Table) : Prop where
  attributes : ∀ name, name ∈ table.attributeNames ↔ ∃ part ∈ parts, name ∈ part.attributeNames
  primaryKey : ∃ part ∈ parts, table.primaryKey ⊆ part.attributeNames
  /-- No part lists an attribute twice. -/
  once : ∀ part ∈ parts, part.attributeNames.Nodup
  declared : ∀ part ∈ parts, ∀ attr ∈ part.attributes, ∃ origin,
    table.attribute? attr.name = some origin ∧ attr.type = origin.type ∧
      attr.isNotNullable = origin.isNotNullable
  /-- Different parts have different sets of attributes as their primary keys. -/
  keys : (parts.map key).Nodup

variable {table : Table} {settings : Settings} {form : NormalForm}

/-- Among attributes with different names, each one is found by its name. -/
theorem attribute?_of_mem (distinct : table.attributeNames.Nodup) {attr : Attribute}
    (member : attr ∈ table.attributes) : table.attribute? attr.name = some attr :=
  find?_eq_some_of_nodup_map distinct member

/-! ## The attributes of one part -/

theorem nodup_attributeNames_of_mem_parts (distinct : table.attributeNames.Nodup) {part : Table}
    (member : part ∈ (table.decompose settings form).parts) : part.attributeNames.Nodup := by
  have blind (table : Table) (names : List String) :
      (table.markForeignKeys names).attributeNames = table.attributeNames :=
    map_markForeignKeys (fun _ => rfl) table names
  obtain ⟨position, row, found, same⟩ := exists_row_of_mem_parts blind member
  have disjoint := table.allDisjoint_design settings form table.stated row
    (List.mem_of_getElem? found)
  exact same ▸ nodup_attributeNames_part distinct disjoint position

/-- **An attribute of a part is as the table declares it**, key constraints aside. -/
theorem exists_declared_of_mem_part {part : Table}
    (member : part ∈ (table.decompose settings form).parts) {attr : Attribute}
    (inPart : attr ∈ part.attributes) :
    ∃ origin ∈ table.attributes, attr.face = origin.face := by
  have blind (table : Table) (names : List String) :
      (table.markForeignKeys names).faces = table.faces :=
    map_markForeignKeys (fun _ => rfl) table names
  obtain ⟨position, row, _, same⟩ := exists_row_of_mem_parts blind member
  have listed : attr.face ∈ (table.part position row).faces := by
    rw [same]
    exact List.mem_map_of_mem inPart
  obtain ⟨unmarked, inUnmarked, sameFace⟩ := List.mem_map.1 listed
  obtain ⟨origin, inTable, name, type, notNullable⟩ := mem_attributes_part inUnmarked
  refine ⟨origin, inTable, sameFace.symm.trans ?_⟩
  rw [Attribute.face, name, type, notNullable, Attribute.face]

/-! ## The attributes of all parts -/

section Accepted

variable (accepted : table.violations = []) (keeps : settings.preserveKey = true)
include accepted keeps

/-- **With the key kept, the rows of a design mention exactly the declared attributes.** -/
theorem mentions_design_iff {name : String} :
    Mentions (table.design settings form table.stated).rows name ↔ name ∈ table.heading := by
  refine ⟨mem_heading_of_mentions_design accepted, fun declared => ?_⟩
  rw [rows_design keeps]
  exact mentions_of_mem_declared (key_ne_empty accepted) declared

theorem mem_attributeNames_iff_exists_part {name : String} :
    name ∈ table.attributeNames ↔
      ∃ part ∈ (table.decompose settings form).parts, name ∈ part.attributeNames := by
  have headings : (table.decompose settings form).parts.map heading =
      (table.design settings form table.stated).rows.map Dependency.attributes := by
    rw [map_heading_decompose accepted keeps, rows_design keeps]
  have mentioned : Mentions (table.design settings form table.stated).rows name ↔
      ∃ part ∈ (table.decompose settings form).parts, name ∈ part.heading := by
    constructor
    · rintro ⟨row, member, named⟩
      obtain ⟨part, inParts, same⟩ := List.mem_map.1 (headings ▸ List.mem_map_of_mem member)
      exact ⟨part, inParts, same ▸ named⟩
    · rintro ⟨part, inParts, named⟩
      obtain ⟨row, member, same⟩ := List.mem_map.1 (headings ▸ List.mem_map_of_mem inParts)
      exact ⟨row, member, same ▸ named⟩
  simp only [← AttributeSet.mem_ofList]
  exact (mentions_design_iff accepted keeps).symm.trans mentioned

end Accepted

theorem nodup_map_key_parts (accepted : table.violations = []) :
    ((table.decompose settings form).parts.map key).Nodup := by
  have keys : (table.decompose settings form).parts.map key =
      ((table.decompose settings form).parts.map keyDependency).map Dependency.determinants := by
    rw [List.map_map]
    rfl
  rw [keys, map_keyDependency_design accepted, List.map_map]
  exact table.distinct_design settings form table.stated

/-- **The parts of a table cover it and copy it**, if it declares no attribute twice, is in
first normal form and its key is kept. -/
theorem coveredBy_decompose (distinct : table.attributeNames.Nodup)
    (accepted : table.violations = []) (keeps : settings.preserveKey = true) (form : NormalForm) :
    table.CoveredBy (table.decompose settings form).parts where
  attributes _ := mem_attributeNames_iff_exists_part accepted keeps
  primaryKey := by
    obtain ⟨part, inParts, holds⟩ := exists_part_holds_key accepted keeps form
    refine ⟨part, inParts, fun name inKey => ?_⟩
    exact AttributeSet.mem_ofList.1 (holds name (AttributeSet.mem_ofList.2 inKey))
  once _ member := nodup_attributeNames_of_mem_parts distinct member
  declared part member attr inPart := by
    obtain ⟨origin, inTable, same⟩ := exists_declared_of_mem_part member inPart
    obtain ⟨name, rest⟩ := Prod.mk.inj same
    obtain ⟨type, notNullable⟩ := Prod.mk.inj rest
    exact ⟨origin, name ▸ attribute?_of_mem distinct inTable, type, notNullable⟩
  keys := nodup_map_key_parts accepted

/-- The product of a shipment absorbs the row of region and supplier, and the region goes to
the part of the shipment, which no dependency names. -/
theorem coveredBy_shipments :
    let table := shipments [⟨["product"], ["supplier"]⟩, ⟨["region", "supplier"], ["fee"]⟩]
    table.attributeNames.Nodup ∧ table.violations = [] ∧ Settings.usual.preserveKey = true ∧
      (table.decompose .usual .second).parts.map attributeNames =
        [["product", "supplier", "fee"], ["shipment", "region"]] ∧
      table.CoveredBy (table.decompose .usual .second).parts := by
  intro table
  have distinct : table.attributeNames.Nodup := by decide
  have accepted : table.violations = [] := by decide
  have listed : (table.decompose .usual .second).parts.map attributeNames =
      [["product", "supplier", "fee"], ["shipment", "region"]] := by decide +kernel
  exact ⟨distinct, accepted, rfl, listed, coveredBy_decompose distinct accepted rfl .second⟩

end Table

end RelationalDesign
