import RelationalDesign.Proofs.Decomposition.References
import RelationalDesign.Proofs.Normalization.Scheme

/-!
# The relationships of a normal form

A relationship of a normal form stands for a reference between two parts of one table,
or it has been led on from a relationship of the scheme. A reference becomes a link only
where both parts have its attributes (`link?_eq_some_iff`), and a relationship is led on
only to parts that have its attributes (`carry?_eq_some`). References have keys that are
not empty, so both ends of every relationship are held by the tables of the normal form
(`heldBy_of_mem_decompose`).
-/

set_option autoImplicit false

namespace RelationalDesign

namespace Table

theorem declaration_markForeignKeys (part : Table) (names : List String) :
    (part.markForeignKeys names).declaration = part.declaration :=
  congrArg (Prod.mk part.name) (map_markForeignKeys (fun _ => rfl) part names)

/-! ## Links -/

/-- The attributes of a set as a table declares them. -/
def ordered (table : Table) (names : AttributeSet) : List String :=
  table.attributeNames.filter fun name => decide (name ∈ names)

variable {table : Table} {parts : List Table} {link : Link}

/-- **A reference becomes a link if the table declares each of its attributes once and
both parts have them.** -/
theorem link?_eq_some_iff {source : Nat} {reference : Reference} :
    table.link? parts source reference = some link ↔
      link = ⟨source, reference.target, table.ordered reference.key⟩ ∧
        link.attributes.length = reference.key.size ∧
        (∃ referring, parts[source]? = some referring ∧
          link.attributes ⊆ referring.attributeNames) ∧
        ∃ referred, parts[reference.target]? = some referred ∧
          link.attributes ⊆ referred.attributeNames := by
  unfold link?
  dsimp only
  cases parts[source]? with
  | none => simp
  | some referring =>
    cases parts[reference.target]? with
    | none => simp
    | some referred =>
      dsimp only
      rw [Option.ite_none_right_eq_some, hasAttributes_iff, hasAttributes_iff]
      simp only [Option.some.injEq, exists_eq_left']
      constructor
      · rintro ⟨⟨once, inReferring, inReferred⟩, rfl⟩
        exact ⟨rfl, once, inReferring, inReferred⟩
      · rintro ⟨rfl, once, inReferring, inReferred⟩
        exact ⟨⟨once, inReferring, inReferred⟩, rfl⟩

theorem mem_links_iff {references : References} :
    link ∈ table.links parts references ↔
      ∃ source fromRow, references[source]? = some fromRow ∧
        ∃ reference ∈ fromRow, table.link? parts source reference = some link := by
  unfold links
  rw [List.mem_flatMap]
  simp only [Prod.exists, List.mem_zipIdx_iff_getElem?, List.mem_filterMap]
  exact exists_comm

/-- **Both ends of a link are held by the parts**, if the references fit. -/
theorem heldBy_of_mem_links {determinants : List AttributeSet} {references : References}
    (fit : references.Fit determinants)
    (named : ∀ position part, parts[position]? = some part → part.name = table.partName position)
    (member : link ∈ table.links parts references) :
    (table.relationshipOf link).source.HeldBy parts ∧
      (table.relationshipOf link).target.HeldBy parts := by
  obtain ⟨source, fromRow, place, reference, inRow, linked⟩ := mem_links_iff.1 member
  obtain ⟨rfl, once, ⟨referring, foundReferring, inReferring⟩, referred, foundReferred, inReferred⟩ :=
    link?_eq_some_iff.1 linked
  have nonempty : table.ordered reference.key ≠ [] := by
    intro empty
    rw [empty, List.length_nil] at once
    obtain ⟨_, keyed⟩ := fit fromRow (List.mem_of_getElem? place) reference inRow
    exact keyed (AttributeSet.size_eq_zero_iff.1 once.symm)
  refine ⟨⟨nonempty, referring, ?_, ?_, inReferring⟩, nonempty, referred, ?_, ?_, inReferred⟩
  · exact List.mem_of_getElem? foundReferring
  · exact named source referring foundReferring
  · exact List.mem_of_getElem? foundReferred
  · exact named reference.target referred foundReferred

/-- **The relationships between the parts of a table are held by its parts.** -/
theorem heldBy_of_mem_relationships {settings : Settings} {form : NormalForm}
    {relationship : Relationship}
    (member : relationship ∈ (table.decompose settings form).relationships) :
    relationship.source.HeldBy (table.unmarkedParts settings form) ∧
      relationship.target.HeldBy (table.unmarkedParts settings form) := by
  obtain ⟨link, isLink, rfl⟩ := List.mem_map.1 member
  refine heldBy_of_mem_links (table.linked_design settings form table.stated) ?_ isLink
  intro position part found
  rw [unmarkedParts, List.getElem?_mapIdx] at found
  obtain ⟨row, _, rfl⟩ := Option.map_eq_some_iff.1 found
  rfl

end Table

/-! ## Relationships led on -/

/-- The part that is referred to has the attributes that are asked for. -/
theorem Parts.of_referred? {parts : Parts} {names : List String} {part : Table}
    (found : parts.referred? names = some part) :
    part ∈ parts.parts ∧ names ⊆ part.attributeNames := by
  unfold referred? at found
  simp only [Option.orElse_eq_orElse, Option.orElse_eq_or, Option.or_eq_some_iff] at found
  rcases found with keyed | ⟨_, holding⟩
  · have isKey := List.find?_some keyed
    refine ⟨List.mem_of_find?_eq_some keyed, List.Subset.trans ?_ part.primaryKey_subset⟩
    exact (List.isPerm_iff.1 isKey).symm.subset
  · have has := List.find?_some holding
    exact ⟨List.mem_of_find?_eq_some holding, Table.hasAttributes_iff.1 has⟩

variable {tables : List Parts} {carried : Carried}

/-- **A relationship is led on to parts that have its attributes.** -/
theorem carry?_eq_some {relationship : Relationship}
    (found : carry? tables relationship = some carried) :
    ∃ sources ∈ tables, ∃ source ∈ sources.parts, ∃ targets ∈ tables, ∃ target ∈ targets.parts,
      relationship.source.attributes ⊆ source.attributeNames ∧
        relationship.target.attributes ⊆ target.attributeNames ∧
        carried.relationship = ⟨⟨source.name, relationship.source.attributes⟩,
          ⟨target.name, relationship.target.attributes⟩⟩ := by
  simp only [carry?, Option.bind_eq_bind, Option.bind_eq_some_iff, Option.pure_def,
    Option.some.injEq] at found
  obtain ⟨table, _, sources, inTables, targets, foundTargets, part, foundPart, source, inParts,
    target, referred, rfl⟩ := found
  obtain ⟨inRange, has, _⟩ := List.findIdx?_eq_some_iff_getElem.1 foundPart
  obtain ⟨isTarget, hasTarget⟩ := Parts.of_referred? referred
  rw [List.getElem?_eq_getElem inRange, Option.some.injEq] at inParts
  rw [inParts] at has
  refine ⟨sources, List.mem_of_getElem? inTables, source, inParts ▸ List.getElem_mem inRange,
    targets, List.mem_of_find?_eq_some foundTargets, target, isTarget,
    Table.hasAttributes_iff.1 has, hasTarget, rfl⟩

/-- Leading a relationship on adds nothing or what it is led on to, if that is new. -/
theorem addCarried_cases (tables : List Parts) (present : List Relationship)
    (before : List Carried) (relationship : Relationship) :
    addCarried tables present before relationship = before ∨
      ∃ found, carry? tables relationship = some found ∧
        found.relationship ∉ present ++ before.map Carried.relationship ∧
        addCarried tables present before relationship = before ++ [found] := by
  unfold addCarried
  cases carry? tables relationship with
  | none => exact Or.inl rfl
  | some found =>
    dsimp only
    split
    · exact Or.inl rfl
    · next fresh => exact Or.inr ⟨found, rfl, fresh, rfl⟩

/-- What has been led on comes from one of the relationships. -/
theorem exists_of_mem_foldl_addCarried {present : List Relationship}
    {relationships : List Relationship} {before : List Carried}
    (member : carried ∈ relationships.foldl (addCarried tables present) before) :
    carried ∈ before ∨
      ∃ relationship ∈ relationships, carry? tables relationship = some carried := by
  induction relationships generalizing before with
  | nil => exact Or.inl member
  | cons relationship rest ih =>
    rcases ih member with added | ⟨later, inRest, found⟩
    · rcases addCarried_cases tables present before relationship with same | ⟨found, led, _, equal⟩
      · exact Or.inl (same ▸ added)
      · rw [equal] at added
        rcases List.mem_append.1 added with old | new
        · exact Or.inl old
        · rw [List.mem_singleton.1 new]
          exact Or.inr ⟨relationship, List.mem_cons_self, led⟩
    · exact Or.inr ⟨later, List.mem_cons_of_mem relationship inRest, found⟩

/-! ## The normal form -/

section Normal

variable {settings : Settings} {form : NormalForm} {scheme : Scheme}

/-- A part of a table is a table of the normal form, with the same declarations. -/
theorem exists_declared {table part : Table} (inScheme : table ∈ scheme.tables)
    (isPart : part ∈ (table.decompose settings form).parts) :
    ∃ marked ∈ (scheme.decompose settings form).tables, part.declaration = marked.declaration := by
  obtain ⟨marked, inNormal, same⟩ :=
    exists_of_mem_parts Table.declaration_markForeignKeys inScheme isPart
  exact ⟨marked, inNormal, same.symm⟩

theorem heldBy_of_mem_inner {table : Table} (inScheme : table ∈ scheme.tables)
    {relationship : Relationship}
    (member : relationship ∈ (table.decompose settings form).relationships) :
    relationship.source.HeldBy (scheme.decompose settings form).tables ∧
      relationship.target.HeldBy (scheme.decompose settings form).tables := by
  obtain ⟨source, target⟩ := Table.heldBy_of_mem_relationships member
  have declared (part : Table) (unmarked : part ∈ table.unmarkedParts settings form) :
      ∃ marked ∈ (scheme.decompose settings form).tables,
        part.declaration = marked.declaration := by
    obtain ⟨other, isPart, same⟩ :=
      exists_of_mem_unmarkedParts Table.declaration_markForeignKeys unmarked
    exact same ▸ exists_declared inScheme isPart
  exact ⟨source.of_declarations declared, target.of_declarations declared⟩

theorem heldBy_of_carry? {relationship : Relationship}
    (found : carry? (scheme.tables.map (Table.decompose settings form)) relationship = some carried)
    (source : relationship.source.attributes ≠ []) (target : relationship.target.attributes ≠ []) :
    carried.relationship.source.HeldBy (scheme.decompose settings form).tables ∧
      carried.relationship.target.HeldBy (scheme.decompose settings form).tables := by
  obtain ⟨_, inTables, sourcePart, isSource, _, alsoInTables, targetPart, isTarget, inSource,
    inTarget, equal⟩ := carry?_eq_some found
  obtain ⟨sourceTable, fromScheme, rfl⟩ := List.mem_map.1 inTables
  obtain ⟨targetTable, alsoFromScheme, rfl⟩ := List.mem_map.1 alsoInTables
  have sourceHeld : Endpoint.HeldBy [sourcePart] carried.relationship.source :=
    equal ▸ ⟨source, sourcePart, List.mem_cons_self, rfl, inSource⟩
  have targetHeld : Endpoint.HeldBy [targetPart] carried.relationship.target :=
    equal ▸ ⟨target, targetPart, List.mem_cons_self, rfl, inTarget⟩
  refine ⟨sourceHeld.of_declarations ?_, targetHeld.of_declarations ?_⟩
  · exact List.forall_mem_singleton.2 (exists_declared fromScheme isSource)
  · exact List.forall_mem_singleton.2 (exists_declared alsoFromScheme isTarget)

/-- **Both ends of every relationship of a normal form are held by its tables**, if no end
of a relationship of the scheme is empty. -/
theorem heldBy_of_mem_decompose
    (sources : ∀ relationship ∈ scheme.relationships, relationship.source.attributes ≠ [])
    (targets : ∀ relationship ∈ scheme.relationships, relationship.target.attributes ≠ [])
    {relationship : Relationship}
    (member : relationship ∈ (scheme.decompose settings form).relationships) :
    relationship.source.HeldBy (scheme.decompose settings form).tables ∧
      relationship.target.HeldBy (scheme.decompose settings form).tables := by
  rcases List.mem_append.1 member with inner | led
  · obtain ⟨parts, inTables, isInner⟩ := List.mem_flatMap.1 inner
    obtain ⟨table, inScheme, rfl⟩ := List.mem_map.1 inTables
    exact heldBy_of_mem_inner inScheme isInner
  · obtain ⟨carried, isCarried, rfl⟩ := List.mem_map.1 led
    split at isCarried
    · obtain ⟨origin, inScheme, found⟩ :=
        (exists_of_mem_foldl_addCarried isCarried).resolve_left List.not_mem_nil
      exact heldBy_of_carry? found (sources origin inScheme) (targets origin inScheme)
    · exact absurd isCarried List.not_mem_nil

end Normal

end RelationalDesign
