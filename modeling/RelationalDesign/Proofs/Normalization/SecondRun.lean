import RelationalDesign.Proofs.Normalization.ForeignKeys

/-!
# Normalizing twice

What has been normalized is only renamed when it is normalized again
(`Scheme.normalize_normalize`).

**What the first run leaves.** A settled scheme is well-formed, and its tables state no
dependencies, have keys and list them first. An attribute is marked if and only if a
relationship that starts at its table names it, and no relationship occurs twice
(`Scheme.Settled`). Every normal form without constant attributes is settled
(`settled_decompose`).

**What the second run does.** A table without dependencies has one part, with all its
attributes in their order but without marks (`Table.decompose_bare`, `Table.part_bare`). So
each relationship fits one part at each end and is led on there, and the relationships set
the marks that were there before (`Scheme.Settled.decompose`).
-/

set_option autoImplicit false

namespace RelationalDesign

/-! ## Other names -/

def Endpoint.rename (change : String → String) (endpoint : Endpoint) : Endpoint :=
  { endpoint with table := change endpoint.table }

def Relationship.rename (change : String → String) (relationship : Relationship) : Relationship :=
  ⟨relationship.source.rename change, relationship.target.rename change⟩

def Table.rename (change : String → String) (table : Table) : Table :=
  { table with name := change table.name }

/-- The same scheme with other names for its tables. -/
def Scheme.rename (change : String → String) (scheme : Scheme) : Scheme where
  tables := scheme.tables.map (Table.rename change)
  relationships := scheme.relationships.map (Relationship.rename change)

/-- The name of the only part of a table. -/
def onlyPartName (name : String) : String := name ++ "Part1"

theorem onlyPartName_inj {first second : String} (same : onlyPartName first = onlyPartName second) :
    first = second := by
  have texts := congrArg String.toList same
  unfold onlyPartName at texts
  rw [String.toList_append, String.toList_append] at texts
  exact String.toList_inj.1 (List.append_cancel_right texts)

theorem Relationship.rename_inj {change : String → String}
    (injective : ∀ {first second}, change first = change second → first = second)
    {first second : Relationship} (same : first.rename change = second.rename change) :
    first = second := by
  obtain ⟨⟨firstSource, _⟩, firstTarget, _⟩ := first
  obtain ⟨⟨secondSource, _⟩, secondTarget, _⟩ := second
  simp only [rename, Endpoint.rename, mk.injEq, Endpoint.mk.injEq] at same
  obtain ⟨⟨sources, rfl⟩, targets, rfl⟩ := same
  rw [injective sources, injective targets]

/-! ## Settled schemes -/

/-- Which attributes of a table belong to its primary key. -/
def Table.keyMarks (table : Table) : List Bool := table.attributes.map Attribute.isPrimaryKey

/-- A table that lists the attributes of its primary key first. -/
def Table.KeysFirst (table : Table) : Prop :=
  table.keyMarks.Pairwise fun first second => second = true → first = true

/-- A well-formed scheme as a normal form is one. -/
structure Scheme.Settled (scheme : Scheme) : Prop where
  formed : scheme.WellFormed
  bare : ∀ table ∈ scheme.tables, table.dependencies = []
  keyed : ∀ table ∈ scheme.tables, table.key ≠ ∅
  keysFirst : ∀ table ∈ scheme.tables, table.KeysFirst
  marked : ∀ table ∈ scheme.tables, ∀ attr ∈ table.attributes,
    attr.isForeignKey = true ↔ ∃ relationship ∈ scheme.relationships,
      relationship.source.table = table.name ∧ attr.name ∈ relationship.source.attributes
  once : scheme.relationships.Nodup

theorem Table.keysFirst_part (table : Table) (position : Nat) (row : Dependency) :
    (table.part position row).KeysFirst := by
  have selected {names : AttributeSet} {primaryKey isKey : Bool}
      (member : isKey ∈ (table.select names primaryKey).map Attribute.isPrimaryKey) :
      isKey = primaryKey := by
    obtain ⟨_, isSelected, rfl⟩ := List.mem_map.1 member
    obtain ⟨_, _, rfl⟩ := List.mem_map.1 isSelected
    rfl
  unfold KeysFirst keyMarks part
  rw [List.map_append]
  refine List.pairwise_append.2 ⟨?_, ?_, fun first isKey _ _ _ => selected isKey⟩
  · exact List.pairwise_of_forall_mem_list fun first isKey _ _ _ => selected isKey
  · refine List.pairwise_of_forall_mem_list fun _ _ second noKey isKey => ?_
    exact absurd ((selected noKey).symm.trans isKey) Bool.false_ne_true

theorem settled_decompose {scheme : Scheme} {settings : Settings} {form : NormalForm}
    (accepted : scheme.violations = []) (formed : scheme.WellFormed)
    (keyed : ∀ table ∈ scheme.tables, ∀ clause ∈ table.dependencies, clause.determinants ≠ []) :
    (scheme.decompose settings form).Settled where
  formed := formed.decompose
  bare := fun _ => dependencies_eq_nil
  keyed := by
    have again : (scheme.decompose settings form).violations = [] :=
      (violations_decompose_iff accepted).2 fun table member clause stated empty =>
        absurd empty (keyed table member clause stated)
    exact fun table member => Table.key_ne_empty (List.flatMap_eq_nil_iff.1 again table member)
  keysFirst := by
    intro part member
    have blind (part : Table) (names : List String) :
        (part.markForeignKeys names).keyMarks = part.keyMarks :=
      map_markForeignKeys (fun _ => rfl) part names
    obtain ⟨table, _, position, row, _, same⟩ := exists_row_of_mem_decompose blind member
    have first := table.keysFirst_part position row
    unfold Table.KeysFirst at first ⊢
    rwa [same] at first
  marked := fun _ member _ => isForeignKey_iff formed member
  once := nodup_relationships_decompose formed.distinct

/-! ## Tables without dependencies -/

/-- Keys that come first are followed by the other attributes. -/
theorem filter_append_filter_of_pairwise {α : Type} {holds : α → Bool} {members : List α}
    (first : (members.map holds).Pairwise fun first second => second = true → first = true) :
    members.filter holds ++ members.filter (fun member => !holds member) = members := by
  induction members with
  | nil => rfl
  | cons member rest ih =>
    obtain ⟨before, later⟩ := List.pairwise_cons.1 first
    cases isFirst : holds member with
    | true => simpa [List.filter_cons, isFirst] using ih later
    | false =>
      have noneHolds : rest.filter holds = [] := by
        refine List.filter_eq_nil_iff.2 fun other inRest isHeld => ?_
        have earlier := before (holds other) (List.mem_map_of_mem inRest) isHeld
        exact Bool.false_ne_true (isFirst.symm.trans earlier)
      have whole := ih later
      rw [noneHolds, List.nil_append] at whole
      simp [isFirst, noneHolds, whole]

namespace Table

variable {table : Table}

/-- The row that is left for a table that states no dependencies. -/
def wholeRow (table : Table) : Dependency :=
  Dependency.gain ⟨table.key, ∅⟩ (unmentioned table.heading [])

/-- A table with its attributes as before, but none of them marked, under the name of its
only part. -/
def unmarked (table : Table) : Table :=
  ⟨onlyPartName table.name, table.attributes.map fun attr => attr.withKey attr.isPrimaryKey, []⟩

/-- **A table that states no dependencies has one part and no relationships.** -/
theorem decompose_bare (bare : table.dependencies = []) (keyed : table.key ≠ ∅)
    (mode : CoverMode) (carry : Bool) (form : NormalForm) :
    table.decompose ⟨mode, true, carry⟩ form =
      ⟨table.name, [table.part 0 table.wholeRow], []⟩ := by
  have decomposed : form.decompose (mode.cover []) = ⟨[], []⟩ := by
    cases form <;> cases mode <;> rfl
  have kept : Decomposition.keepKey table.key table.heading ⟨[], []⟩ =
      ⟨[table.wholeRow], [[]]⟩ := by
    rw [Decomposition.keepKey, if_neg keyed]
    rfl
  have design : table.design ⟨mode, true, carry⟩ form [] = ⟨[table.wholeRow], [[]]⟩ := by
    show (Decomposition.keepKey table.key table.heading
      (form.decompose (mode.cover []))).linkKeys = _
    rw [decomposed, kept]
    rfl
  show table.decomposeBy _ _ (table.dependencies.map _) = _
  rw [bare, List.map_nil, decomposeBy, design]
  rfl

/-- An attribute is in the key if it is marked as a part of it, where names are different. -/
theorem mem_key_iff (distinct : table.attributeNames.Nodup) {attr : Attribute}
    (member : attr ∈ table.attributes) : attr.name ∈ table.key ↔ attr.isPrimaryKey = true := by
  rw [key, AttributeSet.mem_ofList]
  constructor
  · intro isKey
    obtain ⟨other, marked, sameName⟩ := List.mem_map.1 isKey
    obtain ⟨inTable, otherIsKey⟩ := List.mem_filter.1 marked
    rwa [← eq_of_nodup_map distinct inTable member sameName]
  · exact fun marked => List.mem_map_of_mem (List.mem_filter.2 ⟨member, marked⟩)

theorem mem_dependants_wholeRow (distinct : table.attributeNames.Nodup) {attr : Attribute}
    (member : attr ∈ table.attributes) :
    attr.name ∈ table.wholeRow.dependants ↔ attr.isPrimaryKey = false := by
  have declared : attr.name ∈ table.heading :=
    AttributeSet.mem_ofList.2 (List.mem_map_of_mem member)
  have free : attr.name ∈ unmentioned table.heading [] :=
    mem_unmentioned.2 ⟨declared, fun ⟨_, isRow, _⟩ => absurd isRow List.not_mem_nil⟩
  rw [wholeRow, mem_dependants_gain, or_iff_right (AttributeSet.notMem_empty _),
    and_iff_right free, mem_key_iff distinct member, Bool.not_eq_true]

/-- **The one part has the attributes of the table in their order**, if the key comes first. -/
theorem part_bare (distinct : table.attributeNames.Nodup) (keysFirst : table.KeysFirst) :
    table.part 0 table.wholeRow = table.unmarked := by
  have keys : table.select table.wholeRow.determinants true =
      (table.attributes.filter Attribute.isPrimaryKey).map fun attr =>
        attr.withKey attr.isPrimaryKey := by
    have same : table.attributes.filter (fun attr => decide (attr.name ∈ table.key)) =
        table.attributes.filter Attribute.isPrimaryKey :=
      List.filter_congr fun attr member => by simp [mem_key_iff distinct member]
    refine (congrArg (List.map fun attr => attr.withKey true) same).trans ?_
    refine List.map_congr_left fun attr member => ?_
    rw [(List.mem_filter.1 member).2]
  have others : table.select table.wholeRow.dependants false =
      (table.attributes.filter fun attr => !attr.isPrimaryKey).map fun attr =>
        attr.withKey attr.isPrimaryKey := by
    have same : table.attributes.filter
        (fun attr => decide (attr.name ∈ table.wholeRow.dependants)) =
          table.attributes.filter fun attr => !attr.isPrimaryKey :=
      List.filter_congr fun attr member => by simp [mem_dependants_wholeRow distinct member]
    refine (congrArg (List.map fun attr => attr.withKey false) same).trans ?_
    refine List.map_congr_left fun attr member => ?_
    rw [(Bool.not_eq_true' _).mp (List.mem_filter.1 member).2]
  have name : table.partName 0 = onlyPartName table.name := by
    unfold partName onlyPartName
    rw [String.append_assoc]
    rfl
  rw [part, keys, others, name, ← List.map_append, filter_append_filter_of_pairwise keysFirst,
    unmarked]

end Table

theorem Table.attributeNames_unmarked (table : Table) :
    table.unmarked.attributeNames = table.attributeNames := by
  unfold unmarked attributeNames
  rw [List.map_map]
  rfl

/-- An attribute that loses its mark gets it back from its own name. -/
theorem Attribute.markedIn_withKey {attr : Attribute} {names : List String}
    (marked : attr.isForeignKey = true ↔ attr.name ∈ names) :
    (attr.withKey attr.isPrimaryKey).markedIn names = attr := by
  obtain ⟨name, type, notNullable, primaryKey, foreignKey⟩ := attr
  unfold markedIn
  cases foreignKey with
  | true => exact if_pos (marked.1 rfl)
  | false => exact if_neg (mt marked.2 Bool.false_ne_true)

/-- Marking the attributes that were marked before gives the table back, under its new name. -/
theorem Table.markForeignKeys_unmarked {table : Table} (distinct : table.attributeNames.Nodup)
    (bare : table.dependencies = []) {names : List String}
    (marked : ∀ attr ∈ table.attributes, attr.isForeignKey = true ↔ attr.name ∈ names) :
    table.unmarked.markForeignKeys names = table.rename onlyPartName := by
  have attributes : table.unmarked.attributes.map (Attribute.markedIn names) =
      table.attributes := by
    unfold unmarked
    rw [List.map_map]
    exact (List.map_congr_left fun attr member =>
      Attribute.markedIn_withKey (marked attr member)).trans (List.map_id _)
  rw [markForeignKeys_eq (table.attributeNames_unmarked ▸ distinct), attributes]
  unfold unmarked rename
  rw [bare]

/-! ## Leading everything on -/

/-- A table of a scheme as the only part of itself. -/
def Table.asParts (table : Table) : Parts := ⟨table.name, [table.unmarked], []⟩

namespace Scheme.Settled

variable {scheme : Scheme} (settled : scheme.Settled)
include settled

theorem map_decompose (mode : CoverMode) (carry : Bool) (form : NormalForm) :
    scheme.tables.map (Table.decompose ⟨mode, true, carry⟩ form) =
      scheme.tables.map Table.asParts := by
  refine List.map_congr_left fun table member => ?_
  rw [Table.decompose_bare (settled.bare table member) (settled.keyed table member),
    Table.part_bare (settled.formed.tables table member).distinct (settled.keysFirst table member)]
  rfl

end Scheme.Settled

/-- The position of the first table that a relationship starts at. -/
def Scheme.sourcePosition (scheme : Scheme) (relationship : Relationship) : Nat :=
  scheme.tables.findIdx fun table => decide (table.name = relationship.source.table)

/-- A relationship as it is led on to the only parts of its tables. -/
def Scheme.ledOn (scheme : Scheme) (relationship : Relationship) : Carried :=
  ⟨scheme.sourcePosition relationship, 0, relationship.rename onlyPartName⟩

section LedOn

variable {scheme : Scheme} {relationship : Relationship}

theorem sourcePosition_eq_iff (distinct : (scheme.tables.map Table.name).Nodup) {position : Nat}
    {table : Table} (found : scheme.tables[position]? = some table) :
    scheme.sourcePosition relationship = position ↔ relationship.source.table = table.name := by
  obtain ⟨inRange, rfl⟩ := List.getElem?_eq_some_iff.1 found
  refine (List.findIdx_eq inRange).trans ⟨fun first => (of_decide_eq_true first.1).symm, ?_⟩
  refine fun same => ⟨decide_eq_true same.symm, fun earlier before => ?_⟩
  refine decide_eq_false fun named => Nat.ne_of_lt before ?_
  have inRangeToo := List.getElem?_eq_getElem (Nat.lt_trans before inRange)
  exact position_eq_of_nodup_map distinct inRangeToo found (named.trans same)

theorem referred?_asParts {table : Table} {names : List String}
    (contained : names ⊆ table.attributeNames) :
    table.asParts.referred? names = some table.unmarked := by
  have has : table.unmarked.hasAttributes names = true :=
    Table.hasAttributes_iff.2 (table.attributeNames_unmarked ▸ contained)
  unfold Parts.referred? Table.asParts
  rw [List.find?_singleton, List.find?_singleton, if_pos has]
  split <;> rfl

/-- **A relationship that is held by tables is led on to their only parts.** -/
theorem carry?_asParts (distinct : (scheme.tables.map Table.name).Nodup)
    (source : relationship.source.HeldBy scheme.tables)
    (target : relationship.target.HeldBy scheme.tables) :
    carry? (scheme.tables.map Table.asParts) relationship = some (scheme.ledOn relationship) := by
  obtain ⟨_, referring, inTables, isSource, hasSource⟩ := source
  obtain ⟨_, referred, alsoInTables, isTarget, hasTarget⟩ := target
  obtain ⟨index, found⟩ := List.mem_iff_getElem?.1 inTables
  have position : (scheme.tables.map Table.asParts).findIdx?
      (fun parts => decide (parts.table = relationship.source.table)) =
        some (scheme.sourcePosition relationship) := by
    rw [List.findIdx?_map]
    exact List.findIdx?_eq_some_of_exists ⟨referring, inTables, decide_eq_true isSource⟩
  have sources : (scheme.tables.map Table.asParts)[scheme.sourcePosition relationship]? =
      some referring.asParts := by
    rw [(sourcePosition_eq_iff distinct found).2 isSource.symm, List.getElem?_map, found,
      Option.map_some]
  have targets : (scheme.tables.map Table.asParts).find?
      (fun parts => decide (parts.table = relationship.target.table)) =
        some referred.asParts := by
    rw [List.find?_map, ← isTarget]
    exact congrArg (Option.map Table.asParts) (Scheme.table?_of_mem distinct alsoInTables)
  have part : referring.asParts.parts.findIdx?
      (fun part => part.hasAttributes relationship.source.attributes) = some 0 := by
    have has : referring.unmarked.hasAttributes relationship.source.attributes = true :=
      Table.hasAttributes_iff.2 (referring.attributeNames_unmarked ▸ hasSource)
    exact List.findIdx?_cons.trans (if_pos has)
  have target := referred?_asParts hasTarget
  simp only [carry?, position, sources, targets, part, target, Option.bind_eq_bind,
    Option.bind_some]
  unfold Scheme.ledOn Relationship.rename Endpoint.rename
  rw [← isSource, ← isTarget]
  rfl

end LedOn

/-- Where every relationship is led on and all differ, all are kept in their order. -/
theorem foldl_addCarried_eq {tables : List Parts} {led : Relationship → Carried}
    {relationships : List Relationship}
    (leads : ∀ relationship ∈ relationships, carry? tables relationship = some (led relationship))
    {before : List Carried} (distinct :
      ((before ++ relationships.map led).map Carried.relationship).Nodup) :
    relationships.foldl (addCarried tables []) before = before ++ relationships.map led := by
  induction relationships generalizing before with
  | nil => exact (List.append_nil before).symm
  | cons relationship rest ih =>
    obtain ⟨first, later⟩ := List.forall_mem_cons.1 leads
    have place : before ++ (relationship :: rest).map led =
        (before ++ [led relationship]) ++ rest.map led := by
      rw [List.map_cons, List.append_assoc, List.singleton_append]
    have fresh : (led relationship).relationship ∉ [] ++ before.map Carried.relationship := by
      intro old
      rw [List.map_append, List.map_cons] at distinct
      exact (List.nodup_append.1 distinct).2.2 _ old _ List.mem_cons_self rfl
    have added : addCarried tables [] before relationship = before ++ [led relationship] := by
      unfold addCarried
      rw [first]
      exact if_neg fresh
    rw [List.foldl_cons, added, place]
    exact ih later (place ▸ distinct)

namespace Scheme.Settled

variable {scheme : Scheme} (settled : scheme.Settled)
include settled

/-- All relationships of a settled scheme are led on, in their order. -/
theorem foldl_addCarried :
    scheme.relationships.foldl (addCarried (scheme.tables.map Table.asParts) []) [] =
      scheme.relationships.map scheme.ledOn := by
  have distinct : (([] ++ scheme.relationships.map scheme.ledOn).map
      Carried.relationship).Nodup := by
    rw [List.nil_append, List.map_map]
    exact List.pairwise_map.2 (settled.once.imp fun different same =>
      different (Relationship.rename_inj onlyPartName_inj same))
  refine foldl_addCarried_eq (fun relationship member => ?_) distinct
  exact carry?_asParts settled.formed.distinct (settled.formed.sources relationship member)
    (settled.formed.targets relationship member)

/-- The relationships that are led on set the marks that the tables have. -/
theorem markCarried_asParts :
    markCarried (scheme.relationships.map scheme.ledOn) (scheme.tables.map Table.asParts) =
      scheme.tables.map (Table.rename onlyPartName) := by
  have single : scheme.tables.map (Table.rename onlyPartName) =
      (scheme.tables.map fun table => [table.rename onlyPartName]).flatten := by
    rw [← List.flatMap_def, ← List.map_eq_flatMap]
  rw [markCarried, single]
  refine congrArg List.flatten (List.mapIdx_eq_iff.2 fun index => ?_)
  rw [List.getElem?_map, List.getElem?_map]
  cases found : scheme.tables[index]? with
  | none => rfl
  | some table =>
    have member := List.mem_of_getElem? found
    have marked (attr : Attribute) (inTable : attr ∈ table.attributes) :
        attr.isForeignKey = true ↔
          attr.name ∈ carriedNames (scheme.relationships.map scheme.ledOn) index 0 := by
      have starts (relationship : Relationship) :
          scheme.sourcePosition relationship = index ↔ relationship.source.table = table.name :=
        sourcePosition_eq_iff settled.formed.distinct found
      rw [settled.marked table member attr inTable, mem_carriedNames_iff]
      constructor
      · rintro ⟨relationship, inScheme, source, named⟩
        exact ⟨_, List.mem_map_of_mem inScheme, (starts relationship).2 source, rfl, named⟩
      · rintro ⟨_, isLed, position, _, named⟩
        obtain ⟨relationship, inScheme, rfl⟩ := List.mem_map.1 isLed
        exact ⟨relationship, inScheme, (starts relationship).1 position, named⟩
    have only := Table.markForeignKeys_unmarked (settled.formed.tables table member).distinct
      (settled.bare table member) marked
    refine congrArg (fun part => some [part]) (only.symm.trans ?_)
    exact (Table.foldl_markForeignKeys _ _ table.unmarked).symm

/-- **Normalizing a settled scheme only renames it.** -/
theorem decompose (mode : CoverMode) (form : NormalForm) :
    scheme.decompose ⟨mode, true, true⟩ form = scheme.rename onlyPartName := by
  have inner : (scheme.tables.map Table.asParts).flatMap Parts.relationships = [] := by
    rw [List.flatMap_map]
    exact List.flatMap_eq_nil_iff.2 fun _ _ => rfl
  simp only [Scheme.decompose, settled.map_decompose, inner, if_true, settled.foldl_addCarried,
    settled.markCarried_asParts, List.nil_append, List.map_map]
  rfl

end Scheme.Settled

/-- **Normalizing twice only renames.** Where a valid scheme in first normal form has a
determinant in each dependency, a normal form of it is in first normal form, and its own
normal form is the same scheme with `Part1` added to the names of its tables. -/
theorem Scheme.normalize_normalize {scheme : Scheme} (accepted : scheme.violations = [])
    (valid : scheme.validate = .ok ())
    (keyed : ∀ table ∈ scheme.tables, ∀ clause ∈ table.dependencies, clause.determinants ≠ [])
    (settings : Settings) (form : NormalForm) :
    ∃ normal, scheme.normalize settings form = .ok normal ∧
      ∀ (mode : CoverMode) (again : NormalForm), normal.normalize ⟨mode, true, true⟩ again =
        .ok (normal.rename fun name => name ++ "Part1") := by
  have formed := Scheme.validate_eq_ok_iff.1 valid
  refine ⟨_, Scheme.normalize_eq_ok_iff.2 ⟨accepted, rfl⟩, fun mode again => ?_⟩
  refine Scheme.normalize_eq_ok_iff.2 ⟨(violations_decompose_iff accepted).2 ?_, ?_⟩
  · exact fun table member clause stated empty => absurd empty (keyed table member clause stated)
  · exact (settled_decompose accepted formed keyed).decompose mode again

/-- The second normal form of the rentals is its own third normal form under new names. -/
theorem normalize_normalize_rentals :
    rentals.violations = [] ∧ rentals.validate = .ok () ∧
      (∀ table ∈ rentals.tables, ∀ clause ∈ table.dependencies, clause.determinants ≠ []) ∧
      ∃ normal, rentals.normalize .usual .second = .ok normal ∧
        normal.normalize .usual .third = .ok (normal.rename fun name => name ++ "Part1") ∧
        normal.relationships =
          [⟨⟨"carsPart1", ["make"]⟩, ⟨"carsPart2", ["make"]⟩⟩,
            ⟨⟨"rentalsPart1", ["plate"]⟩, ⟨"carsPart1", ["plate"]⟩⟩] := by
  have accepted : rentals.violations = [] := by decide
  have keyed : ∀ table ∈ rentals.tables, ∀ clause ∈ table.dependencies,
      clause.determinants ≠ [] := by decide
  obtain ⟨normal, normalized, renamed⟩ :=
    Scheme.normalize_normalize accepted rfl keyed .usual .second
  refine ⟨accepted, rfl, keyed, normal, normalized, renamed _ .third, ?_⟩
  obtain ⟨_, rfl⟩ := Scheme.normalize_eq_ok_iff.1 normalized
  decide +kernel

end RelationalDesign
