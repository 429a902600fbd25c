import RelationalDesign.Proofs.Normalization.ForeignKeys

/-!
# Which relationships are carried on

A relationship of a scheme is carried on if the normal form has a relationship with the
same attributes from a part of its source table to a part of its target table
(`Scheme.Carries`). That is so if and only if it fits: some part of the source table has all
source attributes and some part of the target table has all target attributes
(`carries_iff`). Where a part of the target table is keyed by the target attributes, the
relationship leads to such a part (`carried_normalize`).

**What fits is carried on.** A relationship that is led on to parts is added, unless it is
there already (`mem_foldl_addCarried`), and it is led on wherever it fits (`exists_carry?`).

**Single attributes fit.** Where the key is kept, every attribute of a table is in one of its
parts (`Table.exists_part_of_attribute`).

Parts are found among the parts of a table, and the tables of a normal form are these parts
with marks. What a part shows, marks aside, is its shape (`Table.shape`).
-/

set_option autoImplicit false

namespace RelationalDesign

/-! ## Shapes -/

namespace Table

/-- The name of a table, and the names of its attributes with whether they belong to the
primary key. -/
def shape (table : Table) : String × List (String × Bool) :=
  (table.name, table.attributes.map Attribute.outline)

theorem shape_markForeignKeys (part : Table) (names : List String) :
    (part.markForeignKeys names).shape = part.shape :=
  congrArg (Prod.mk part.name) (map_markForeignKeys (fun _ => rfl) part names)

variable {part other : Table} (same : part.shape = other.shape)
include same

theorem name_eq_of_shape : part.name = other.name := congrArg Prod.fst same

theorem attributeNames_eq_of_shape : part.attributeNames = other.attributeNames := by
  have names := congrArg (fun shape => shape.2.map Prod.fst) same
  simp only [shape, List.map_map] at names
  exact names

theorem primaryKey_eq_of_shape : part.primaryKey = other.primaryKey := by
  have keys := congrArg (fun shape => (shape.2.filter Prod.snd).map Prod.fst) same
  simp only [shape, List.filter_map, List.map_map] at keys
  exact keys

end Table

/-! ## Leading on -/

/-- The relationship with the same attributes between two parts. -/
def Relationship.between (relationship : Relationship) (source target : Table) : Relationship :=
  ⟨⟨source.name, relationship.source.attributes⟩, ⟨target.name, relationship.target.attributes⟩⟩

theorem exists_findIdx? {α : Type} {members : List α} {member : α} (chosen : α → Bool)
    (isMember : member ∈ members) (isChosen : chosen member = true) :
    ∃ index other, members.findIdx? chosen = some index ∧ members[index]? = some other ∧
      chosen other = true := by
  have isSome : (members.findIdx? chosen).isSome = true := by
    rw [List.findIdx?_isSome]
    exact List.any_eq_true.2 ⟨member, isMember, isChosen⟩
  obtain ⟨index, found⟩ := Option.isSome_iff_exists.1 isSome
  obtain ⟨inRange, holds, _⟩ := List.findIdx?_eq_some_iff_getElem.1 found
  exact ⟨index, members[index], found, List.getElem?_eq_getElem inRange, holds⟩

namespace Parts

variable {parts : Parts} {names : List String}

/-- Some part is referred to if some part has the attributes. -/
theorem exists_referred? {part : Table} (member : part ∈ parts.parts)
    (has : names ⊆ part.attributeNames) : ∃ target, parts.referred? names = some target := by
  unfold referred?
  cases parts.parts.find? fun part => part.primaryKey.isPerm names with
  | some keyed => exact ⟨keyed, rfl⟩
  | none =>
    refine Option.isSome_iff_exists.1 (List.find?_isSome.2 ⟨part, member, ?_⟩)
    exact Table.hasAttributes_iff.2 has

/-- **The part that is referred to is keyed by the attributes**, if some part is. -/
theorem perm_of_referred? {keyed target : Table} (found : parts.referred? names = some target)
    (member : keyed ∈ parts.parts) (isKey : keyed.primaryKey.Perm names) :
    target.primaryKey.Perm names := by
  unfold referred? at found
  cases first : parts.parts.find? fun part => part.primaryKey.isPerm names with
  | some other =>
    rw [first] at found
    cases found
    have holds := List.find?_some first
    exact List.isPerm_iff.1 holds
  | none =>
    have unkeyed := List.find?_eq_none.1 first keyed member
    exact absurd (List.isPerm_iff.2 isKey) unkeyed

end Parts

section LeadingOn

variable {tables : List Parts} {relationship : Relationship}

/-- **A relationship that fits is led on**, to a part that the target table refers it to. -/
theorem exists_carry? (distinct : (tables.map Parts.table).Nodup) {sources targets : Parts}
    (inTables : sources ∈ tables) (isSource : sources.table = relationship.source.table)
    (alsoInTables : targets ∈ tables) (isTarget : targets.table = relationship.target.table)
    {part other : Table} (isPart : part ∈ sources.parts)
    (has : relationship.source.attributes ⊆ part.attributeNames) (isOther : other ∈ targets.parts)
    (otherHas : relationship.target.attributes ⊆ other.attributeNames) :
    ∃ found source target, carry? tables relationship = some found ∧ source ∈ sources.parts ∧
      targets.referred? relationship.target.attributes = some target ∧
      found.relationship = relationship.between source target := by
  obtain ⟨table, chosen, foundTable, isTable, named⟩ :=
    exists_findIdx? (fun parts => decide (parts.table = relationship.source.table)) inTables
      (decide_eq_true isSource)
  obtain rfl : chosen = sources := eq_of_nodup_map distinct (List.mem_of_getElem? isTable) inTables
    ((of_decide_eq_true named).trans isSource.symm)
  have targetFound : tables.find? (fun parts => decide (parts.table = relationship.target.table)) =
      some targets :=
    isTarget ▸ find?_eq_some_of_nodup_map distinct alsoInTables
  obtain ⟨position, source, foundSource, isSourcePart, _⟩ :=
    exists_findIdx? (fun part => part.hasAttributes relationship.source.attributes) isPart
      (Table.hasAttributes_iff.2 has)
  obtain ⟨target, referred⟩ := Parts.exists_referred? isOther otherHas
  refine ⟨⟨table, position, relationship.between source target⟩, source, target, ?_,
    List.mem_of_getElem? isSourcePart, referred, rfl⟩
  simp only [carry?, Option.bind_eq_bind, Option.bind_eq_some_iff, Option.pure_def]
  exact ⟨table, foundTable, chosen, isTable, targets, targetFound, position, foundSource, source,
    isSourcePart, target, referred, rfl⟩

/-- What there is stays when another relationship is led on. -/
theorem mem_addCarried {present : List Relationship} {before : List Carried} {old : Relationship}
    (member : old ∈ present ++ before.map Carried.relationship) :
    old ∈ present ++ (addCarried tables present before relationship).map Carried.relationship := by
  rcases addCarried_cases tables present before relationship with same | ⟨found, _, _, added⟩
  · rw [same]
    exact member
  · rw [added, List.map_append, ← List.append_assoc]
    exact List.mem_append_left _ member

/-- Leading a relationship on, what it is led on to is there. -/
theorem carried_mem_addCarried {present : List Relationship} {before : List Carried}
    {carried : Carried} (found : carry? tables relationship = some carried) :
    carried.relationship ∈
      present ++ (addCarried tables present before relationship).map Carried.relationship := by
  unfold addCarried
  rw [found]
  dsimp only
  split
  · next old => exact old
  · rw [List.map_append, ← List.append_assoc]
    exact List.mem_append_right _ (List.mem_singleton.2 rfl)

/-- **Whatever a relationship is led on to is there in the end.** -/
theorem mem_foldl_addCarried {present : List Relationship} {relationships : List Relationship}
    {before : List Carried} {carried : Carried}
    (member : carried.relationship ∈ present ++ before.map Carried.relationship ∨
      relationship ∈ relationships ∧ carry? tables relationship = some carried) :
    carried.relationship ∈ present ++
      (relationships.foldl (addCarried tables present) before).map Carried.relationship := by
  induction relationships generalizing before with
  | nil => exact member.resolve_right fun absent => List.not_mem_nil absent.1
  | cons first rest ih =>
    refine ih ?_
    rcases member with old | ⟨isMember, found⟩
    · exact Or.inl (mem_addCarried old)
    · rcases List.mem_cons.1 isMember with rfl | later
      · exact Or.inl (carried_mem_addCarried found)
      · exact Or.inr ⟨later, found⟩

end LeadingOn

/-! ## Attributes in parts -/

/-- **Every attribute of a table is in one of its parts**, where the key is kept. -/
theorem Table.exists_part_of_attribute {table : Table} (accepted : table.violations = [])
    {settings : Settings} (keeps : settings.preserveKey = true) (form : NormalForm) {name : String}
    (declared : name ∈ table.attributeNames) :
    ∃ part ∈ (table.decompose settings form).parts, name ∈ part.attributeNames := by
  obtain ⟨row, member, named⟩ :
      Mentions ((form.decompose (settings.cover.cover table.stated)).keepKey table.key
        table.heading).rows name :=
    mentions_of_mem_declared (key_ne_empty accepted) (AttributeSet.mem_ofList.2 declared)
  obtain ⟨part, isPart, heading⟩ := exists_part_of_kept accepted keeps form member
  exact ⟨part, isPart, AttributeSet.mem_ofList.1 (heading ▸ named : name ∈ part.heading)⟩

/-! ## The normal form -/

namespace Scheme

variable (settings : Settings) (form : NormalForm) (scheme : Scheme)

/-- A table of the normal form that is a part of the table of a given name. -/
def HasPart (name : String) (part : Table) : Prop :=
  part ∈ (scheme.decompose settings form).tables ∧
    ∃ table ∈ scheme.tables, table.name = name ∧
      part.name ∈ (table.decompose settings form).parts.map Table.name

instance (name : String) (part : Table) : Decidable (scheme.HasPart settings form name part) :=
  inferInstanceAs (Decidable (part ∈ (scheme.decompose settings form).tables ∧
    ∃ table ∈ scheme.tables, table.name = name ∧
      part.name ∈ (table.decompose settings form).parts.map Table.name))

/-- A part of the table at an end of a relationship has all attributes at that end. -/
def Fits (endpoint : Endpoint) (part : Table) : Prop :=
  scheme.HasPart settings form endpoint.table part ∧ endpoint.attributes ⊆ part.attributeNames

/-- The normal form has a relationship with the same attributes between two parts of the
tables of a relationship. -/
def Carries (relationship : Relationship) (source target : Table) : Prop :=
  scheme.HasPart settings form relationship.source.table source ∧
    scheme.HasPart settings form relationship.target.table target ∧
    relationship.between source target ∈ (scheme.decompose settings form).relationships

end Scheme

section Normal

variable {settings : Settings} {form : NormalForm} {scheme : Scheme}

/-- The parts of a table are tables of the normal form, marks aside. -/
theorem exists_hasPart {table : Table} (inScheme : table ∈ scheme.tables) {unmarked : Table}
    (isPart : unmarked ∈ (table.decompose settings form).parts) :
    ∃ part, scheme.HasPart settings form table.name part ∧ part.shape = unmarked.shape := by
  obtain ⟨part, inNormal, same⟩ := exists_of_mem_parts Table.shape_markForeignKeys inScheme isPart
  refine ⟨part, ⟨inNormal, table, inScheme, rfl, ?_⟩, same⟩
  rw [Table.name_eq_of_shape same]
  exact List.mem_map_of_mem isPart

section WellFormed

variable (formed : scheme.WellFormed)
include formed

/-- Among the tables of the normal form only the parts of a table are its parts. -/
theorem exists_part_of_hasPart {table : Table} (inScheme : table ∈ scheme.tables) {part : Table}
    (isPart : scheme.HasPart settings form table.name part) :
    ∃ unmarked ∈ (table.decompose settings form).parts, part.shape = unmarked.shape := by
  obtain ⟨inNormal, other, alsoInScheme, sameName, named⟩ := isPart
  obtain rfl : other = table := eq_of_nodup_map formed.distinct alsoInScheme inScheme sameName
  obtain ⟨unmarked, inParts, equal⟩ := List.mem_map.1 named
  obtain ⟨marked, ⟨alsoInNormal, _⟩, same⟩ := exists_hasPart inScheme inParts
  obtain rfl : marked = part := eq_of_nodup_map (nodup_map_name_decompose formed.distinct)
    alsoInNormal inNormal ((Table.name_eq_of_shape same).trans equal)
  exact ⟨unmarked, inParts, same⟩

/-- A relationship of the normal form between two parts has attributes of both. -/
theorem fits_of_carries {relationship : Relationship} {source target : Table}
    (carries : scheme.Carries settings form relationship source target) :
    scheme.Fits settings form relationship.source source ∧
      scheme.Fits settings form relationship.target target := by
  obtain ⟨isSource, isTarget, member⟩ := carries
  have normal : (scheme.decompose settings form).WellFormed := formed.decompose
  obtain ⟨_, first, inNormal, sameName, has⟩ := normal.sources _ member
  obtain ⟨_, second, alsoInNormal, alsoSameName, alsoHas⟩ := normal.targets _ member
  obtain rfl : first = source := eq_of_nodup_map normal.distinct inNormal isSource.1 sameName
  obtain rfl : second = target :=
    eq_of_nodup_map normal.distinct alsoInNormal isTarget.1 alsoSameName
  exact ⟨⟨isSource, has⟩, isTarget, alsoHas⟩

variable (carriesOn : settings.carryRelationships = true) {relationship : Relationship}
  (stated : relationship ∈ scheme.relationships)
include carriesOn stated

/-- **A relationship that fits is carried on**, to a part that is keyed by its target
attributes if there is one. -/
theorem exists_carries_of_fits {part other : Table}
    (fits : scheme.Fits settings form relationship.source part)
    (otherFits : scheme.Fits settings form relationship.target other) :
    ∃ source target, scheme.Carries settings form relationship source target ∧
      ∀ keyed, scheme.HasPart settings form relationship.target.table keyed →
        keyed.primaryKey.Perm relationship.target.attributes →
        target.primaryKey.Perm relationship.target.attributes := by
  obtain ⟨isPart, has⟩ := fits
  obtain ⟨isOther, otherHas⟩ := otherFits
  have ⟨_, sources, inScheme, isSource, _⟩ := isPart
  have ⟨_, targets, alsoInScheme, isTarget, _⟩ := isOther
  rw [← isSource] at isPart
  rw [← isTarget] at isOther
  obtain ⟨unmarked, inParts, shape⟩ := exists_part_of_hasPart formed inScheme isPart
  obtain ⟨unmarkedOther, alsoInParts, otherShape⟩ := exists_part_of_hasPart formed alsoInScheme isOther
  have distinct : ((scheme.tables.map (Table.decompose settings form)).map Parts.table).Nodup := by
    rw [List.map_map]
    exact formed.distinct
  obtain ⟨found, source, target, led, inSources, referred, equal⟩ :=
    exists_carry? distinct (List.mem_map_of_mem inScheme) isSource
      (List.mem_map_of_mem alsoInScheme) isTarget inParts
      (Table.attributeNames_eq_of_shape shape ▸ has) alsoInParts
      (Table.attributeNames_eq_of_shape otherShape ▸ otherHas)
  have inNormal : found.relationship ∈ (scheme.decompose settings form).relationships := by
    unfold Scheme.decompose
    dsimp only
    rw [if_pos carriesOn]
    exact mem_foldl_addCarried (Or.inr ⟨stated, led⟩)
  obtain ⟨sourcePart, isSourcePart, sourceShape⟩ := exists_hasPart inScheme inSources
  obtain ⟨targetPart, isTargetPart, targetShape⟩ :=
    exists_hasPart alsoInScheme (Parts.of_referred? referred).1
  refine ⟨sourcePart, targetPart, ⟨isSource ▸ isSourcePart, isTarget ▸ isTargetPart, ?_⟩, ?_⟩
  · unfold Relationship.between at equal ⊢
    rw [Table.name_eq_of_shape sourceShape, Table.name_eq_of_shape targetShape, ← equal]
    exact inNormal
  · intro keyed isKeyed isKey
    rw [← isTarget] at isKeyed
    obtain ⟨unmarkedKeyed, isUnmarked, keyedShape⟩ := exists_part_of_hasPart formed alsoInScheme isKeyed
    rw [Table.primaryKey_eq_of_shape keyedShape] at isKey
    rw [Table.primaryKey_eq_of_shape targetShape]
    exact Parts.perm_of_referred? referred isUnmarked isKey

/-- **A relationship is carried on if and only if it fits.** -/
theorem carries_iff :
    (∃ source target, scheme.Carries settings form relationship source target) ↔
      (∃ source, scheme.Fits settings form relationship.source source) ∧
        ∃ target, scheme.Fits settings form relationship.target target := by
  constructor
  · rintro ⟨source, target, carries⟩
    obtain ⟨fits, otherFits⟩ := fits_of_carries formed carries
    exact ⟨⟨source, fits⟩, target, otherFits⟩
  · rintro ⟨⟨part, fits⟩, other, otherFits⟩
    obtain ⟨source, target, carries, _⟩ :=
      exists_carries_of_fits formed carriesOn stated fits otherFits
    exact ⟨source, target, carries⟩

end WellFormed

/-- An end with one attribute fits, where the keys are kept. -/
theorem exists_fits_of_single (accepted : scheme.violations = [])
    (keeps : settings.preserveKey = true) {endpoint : Endpoint}
    (held : endpoint.HeldBy scheme.tables) (single : endpoint.attributes.length = 1) :
    ∃ part, scheme.Fits settings form endpoint part := by
  obtain ⟨name, only⟩ := List.length_eq_one_iff.1 single
  obtain ⟨_, table, inScheme, sameName, has⟩ := held
  have declared : name ∈ table.attributeNames := has (only ▸ List.mem_singleton.2 rfl)
  have acceptedTable : table.violations = [] := List.flatMap_eq_nil_iff.1 accepted table inScheme
  obtain ⟨unmarked, inParts, named⟩ :=
    table.exists_part_of_attribute acceptedTable keeps form declared
  obtain ⟨part, isPart, same⟩ := exists_hasPart inScheme inParts
  refine ⟨part, sameName ▸ isPart, ?_⟩
  rw [only, Table.attributeNames_eq_of_shape same]
  exact List.cons_subset.2 ⟨named, List.nil_subset _⟩

end Normal

/-- **Which relationships are carried on.** Normalizing carries on exactly the relationships
that fit, that is those with source attributes in one part of the source table and target
attributes in one part of the target table. Those with single attributes always fit. Where a
part of the target table is keyed by the target attributes, the relationship leads to such a
part. -/
theorem carried_normalize {scheme : Scheme} (accepted : scheme.violations = [])
    (valid : scheme.validate = .ok ()) (mode : CoverMode) (form : NormalForm) :
    scheme.normalize ⟨mode, true, true⟩ form = .ok (scheme.decompose ⟨mode, true, true⟩ form) ∧
      ∀ relationship ∈ scheme.relationships,
        ((∃ source target, scheme.Carries ⟨mode, true, true⟩ form relationship source target) ↔
          (∃ source, scheme.Fits ⟨mode, true, true⟩ form relationship.source source) ∧
            ∃ target, scheme.Fits ⟨mode, true, true⟩ form relationship.target target) ∧
        (relationship.source.attributes.length = 1 → relationship.target.attributes.length = 1 →
          ∃ source target, scheme.Carries ⟨mode, true, true⟩ form relationship source target) ∧
        ∀ source keyed, scheme.Fits ⟨mode, true, true⟩ form relationship.source source →
          scheme.HasPart ⟨mode, true, true⟩ form relationship.target.table keyed →
          keyed.primaryKey.Perm relationship.target.attributes →
          ∃ source target, scheme.Carries ⟨mode, true, true⟩ form relationship source target ∧
            target.primaryKey.Perm relationship.target.attributes := by
  have formed := Scheme.validate_eq_ok_iff.1 valid
  refine ⟨Scheme.normalize_eq_ok_iff.2 ⟨accepted, rfl⟩, fun relationship stated => ?_⟩
  have carried := @carries_iff ⟨mode, true, true⟩ form scheme formed rfl relationship stated
  refine ⟨carried, fun singleSource singleTarget => carried.2 ⟨?_, ?_⟩, ?_⟩
  · exact exists_fits_of_single accepted rfl (formed.sources relationship stated) singleSource
  · exact exists_fits_of_single accepted rfl (formed.targets relationship stated) singleTarget
  · intro part keyed fits isKeyed isKey
    have keyedFits : scheme.Fits ⟨mode, true, true⟩ form relationship.target keyed :=
      ⟨isKeyed, List.Subset.trans isKey.symm.subset keyed.primaryKey_subset⟩
    obtain ⟨source, target, carries, leads⟩ :=
      exists_carries_of_fits formed rfl stated fits keyedFits
    exact ⟨source, target, carries, leads keyed isKeyed isKey⟩

/-- In the normal form of the bookings, the room of a booking leads to a part that is keyed by
the room. No part has the guest and the beds of a booking, so they lead nowhere. -/
theorem carried_bookings :
    bookings.violations = [] ∧ bookings.validate = .ok () ∧
      (∃ source target, bookings.Carries .usual .second
        ⟨⟨"bookings", ["room"]⟩, ⟨"rooms", ["room"]⟩⟩ source target ∧
          target.primaryKey.Perm ["room"]) ∧
      ¬∃ source target, bookings.Carries .usual .second
        ⟨⟨"bookings", ["guest", "beds"]⟩, ⟨"rooms", ["room", "floor"]⟩⟩ source target := by
  have accepted : bookings.violations = [] := by decide
  obtain ⟨_, carried⟩ := carried_normalize accepted rfl .minimal .second
  have keyed : bookings.HasPart .usual .second "rooms"
      ⟨"roomsPart1", [⟨"room", .integer, ⟨true, true, false⟩⟩, ⟨"floor", .integer, ∅⟩], []⟩ := by
    decide +kernel
  have fits : bookings.HasPart .usual .second "bookings" ⟨"bookingsPart1",
      [⟨"room", .integer, ⟨true, true, true⟩⟩, ⟨"night", .integer, ⟨true, true, false⟩⟩,
        ⟨"guest", .text, ∅⟩], []⟩ := by
    decide +kernel
  have apart : ∀ part ∈ (bookings.decompose .usual .second).tables,
      part.hasAttributes ["guest", "beds"] = false := by
    decide +kernel
  refine ⟨accepted, rfl, ?_, fun carries => ?_⟩
  · have stated : ⟨⟨"bookings", ["room"]⟩, ⟨"rooms", ["room"]⟩⟩ ∈ bookings.relationships := by decide
    exact (carried _ stated).2.2 _ _ ⟨fits, by decide⟩ keyed (by decide)
  · have stated : ⟨⟨"bookings", ["guest", "beds"]⟩, ⟨"rooms", ["room", "floor"]⟩⟩ ∈
        bookings.relationships := by decide
    obtain ⟨⟨part, ⟨inNormal, _⟩, has⟩, _⟩ := (carried _ stated).1.1 carries
    exact Bool.false_ne_true ((apart part inNormal).symm.trans (Table.hasAttributes_iff.2 has))

end RelationalDesign
