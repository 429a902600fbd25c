import RelationalDesign.Normalization.FirstForm
import RelationalDesign.Normalization.Parts
import RelationalDesign.Proofs.Decomposition.Keys
import RelationalDesign.Proofs.Decomposition.SecondForm
import RelationalDesign.Proofs.Decomposition.ThirdForm
import RelationalDesign.Proofs.Scheme.Validation

/-!
# The attributes and keys of parts

A table in first normal form has a key, and its dependencies name only attributes
that it declares (`key_ne_empty`, `mem_heading_of_mentions`). Decomposing mentions
no other attributes, in either form (`mentions_decompose`).

A part is made of a row: its key are the determinants and its heading are all
attributes of the row. References mark attributes and change neither, so the parts
of a table are the rows of its design again, each with its whole heading as
dependants (`map_keyDependency_design`).
-/

set_option autoImplicit false

namespace RelationalDesign

namespace Table

/-- The attributes of a table. -/
def heading (table : Table) : AttributeSet := .ofList table.attributeNames

/-- The attributes of the primary key. -/
def key (table : Table) : AttributeSet := .ofList table.primaryKey

/-- The dependencies that a table states. -/
def stated (table : Table) : List Dependency := table.dependencies.map DependencyClause.toDependency

/-- The dependency of the whole table on its primary key. -/
def keyDependency (table : Table) : Dependency := ⟨table.key, table.heading⟩

theorem key_subset_heading (table : Table) : table.key ⊆ table.heading := by
  intro name member
  exact AttributeSet.mem_ofList.2 (table.primaryKey_subset (AttributeSet.mem_ofList.1 member))

/-! ## Tables in first normal form -/

theorem hasAttribute_iff {table : Table} {name : String} :
    table.hasAttribute name = true ↔ name ∈ table.heading := by
  rw [hasAttribute_iff_mem, heading, AttributeSet.mem_ofList]

theorem mentions_stated_iff {table : Table} {name : String} :
    Mentions table.stated name ↔ name ∈ table.namesInDependencies := by
  unfold Mentions stated namesInDependencies
  rw [List.mem_flatMap]
  constructor
  · rintro ⟨_, member, named⟩
    obtain ⟨clause, inTable, rfl⟩ := List.mem_map.1 member
    refine ⟨clause, inTable, List.mem_append.2 ?_⟩
    rcases Dependency.mem_attributes.1 named with determinant | dependant
    · exact Or.inr (AttributeSet.mem_ofList.1 determinant)
    · exact Or.inl (AttributeSet.mem_ofList.1 dependant)
  · rintro ⟨clause, inTable, named⟩
    refine ⟨clause.toDependency, List.mem_map_of_mem inTable, Dependency.mem_attributes.2 ?_⟩
    rcases List.mem_append.1 named with dependant | determinant
    · exact Or.inr (AttributeSet.mem_ofList.2 dependant)
    · exact Or.inl (AttributeSet.mem_ofList.2 determinant)

section Accepted

variable {table : Table} (accepted : table.violations = [])
include accepted

theorem key_ne_empty : table.key ≠ ∅ := by
  intro empty
  obtain ⟨keyed, _⟩ := List.append_eq_nil_iff.1 accepted
  cases names : table.primaryKey with
  | nil =>
    rw [if_pos names] at keyed
    exact absurd keyed (List.cons_ne_nil _ _)
  | cons name rest =>
    have member : name ∈ table.key := AttributeSet.mem_ofList.2 (names ▸ List.mem_cons_self)
    rw [empty] at member
    exact AttributeSet.notMem_empty name member

theorem mem_heading_of_mentions {name : String} (mentioned : Mentions table.stated name) :
    name ∈ table.heading := by
  obtain ⟨_, known⟩ := List.append_eq_nil_iff.1 accepted
  rw [← hasAttribute_iff]
  refine Decidable.byContradiction fun unknown => ?_
  have reported : name ∈
      (table.namesInDependencies.filter fun name => !table.hasAttribute name).eraseDups := by
    rw [List.mem_eraseDups, List.mem_filter]
    exact ⟨mentions_stated_iff.1 mentioned, by simpa using unknown⟩
  rw [List.map_eq_nil_iff] at known
  rw [known] at reported
  exact List.not_mem_nil reported

end Accepted

end Table

/-- Decomposing in either form mentions nothing that the dependencies do not mention. -/
theorem mentions_decompose {form : NormalForm} {mode : CoverMode} {given : List Dependency}
    {name : String} (mentioned : Mentions (form.decompose (mode.cover given)).rows name) :
    Mentions given name := by
  have inCover : Mentions (mode.cover given) name := by
    cases form with
    | second => exact mentions_secondForm mentioned
    | third => exact mentions_thirdForm.1 mentioned
  exact inCover.of_cover

/-! ## Marks -/

section Marks

variable {β : Type} {view : Attribute → β} (blind : ∀ attr, view attr.asForeignKey = view attr)
include blind

theorem map_markFirst (name : String) (attributes : List Attribute) :
    (Table.markFirst name attributes).map view = attributes.map view := by
  induction attributes with
  | nil => rfl
  | cons attr rest ih =>
    simp only [Table.markFirst]
    split
    · rw [List.map_cons, List.map_cons, blind]
    · rw [List.map_cons, List.map_cons, ih]

theorem map_markForeignKeys (table : Table) (names : List String) :
    (table.markForeignKeys names).attributes.map view = table.attributes.map view := by
  show (names.foldl _ table.attributes).map view = _
  induction names generalizing table with
  | nil => rfl
  | cons name rest ih =>
    exact (ih { table with attributes := Table.markFirst name table.attributes }).trans
      (map_markFirst blind name table.attributes)

end Marks

/-- A look that no change at any position disturbs sees the same list. -/
theorem map_mapIdx_of_blind {α γ : Type} {look : α → γ} {change : Nat → α → α}
    (blind : ∀ position member, look (change position member) = look member) (members : List α) :
    (members.mapIdx change).map look = members.map look := by
  apply List.ext_getElem
  · rw [List.length_map, List.length_mapIdx, List.length_map]
  · intro position _ _
    rw [List.getElem_map, List.getElem_mapIdx, blind, List.getElem_map]

section Looks

variable {γ : Type} {look : Table → γ}
  (blind : ∀ (part : Table) (names : List String), look (part.markForeignKeys names) = look part)
include blind

theorem look_foldl_markForeignKeys {α : Type} (names : α → List String) (items : List α)
    (part : Table) :
    look (items.foldl (fun part item => part.markForeignKeys (names item)) part) = look part := by
  induction items generalizing part with
  | nil => rfl
  | cons item rest ih => exact (ih _).trans (blind part (names item))

/-- Marking references changes nothing that does not depend on references. -/
theorem map_look_markLinks (links : List Link) (parts : List Table) :
    (Table.markLinks links parts).map look = parts.map look :=
  map_mapIdx_of_blind (fun position part =>
    look_foldl_markForeignKeys blind Link.attributes
      (links.filter fun link => link.source == position) part) parts

end Looks

/-! ## Parts -/

/-- The name of an attribute and whether it belongs to the primary key. -/
def Attribute.outline (attr : Attribute) : String × Bool := (attr.name, attr.isPrimaryKey)

namespace Table

/-- The dependency on the key that a table with the given outline has. -/
def ofOutline (outline : List (String × Bool)) : Dependency :=
  ⟨.ofList ((outline.filter Prod.snd).map Prod.fst), .ofList (outline.map Prod.fst)⟩

theorem keyDependency_eq_ofOutline (table : Table) :
    table.keyDependency = ofOutline (table.attributes.map Attribute.outline) := by
  unfold ofOutline
  rw [List.filter_map, List.map_map, List.map_map]
  rfl

theorem keyDependency_markForeignKeys (table : Table) (names : List String) :
    (table.markForeignKeys names).keyDependency = table.keyDependency := by
  rw [keyDependency_eq_ofOutline, map_markForeignKeys (fun _ => rfl), ← keyDependency_eq_ofOutline]

variable {table : Table} {row : Dependency}

theorem mem_select {names : AttributeSet} {primaryKey : Bool} {name : String} :
    name ∈ (table.select names primaryKey).map Attribute.name ↔
      name ∈ table.heading ∧ name ∈ names := by
  unfold select heading attributeNames
  rw [List.map_map, AttributeSet.mem_ofList]
  constructor
  · intro member
    obtain ⟨attr, selected, rfl⟩ := List.mem_map.1 member
    obtain ⟨declared, inNames⟩ := List.mem_filter.1 selected
    exact ⟨List.mem_map.2 ⟨attr, declared, rfl⟩, of_decide_eq_true inNames⟩
  · rintro ⟨declared, inNames⟩
    obtain ⟨attr, isDeclared, rfl⟩ := List.mem_map.1 declared
    exact List.mem_map.2 ⟨attr, List.mem_filter.2 ⟨isDeclared, decide_eq_true inNames⟩, rfl⟩

theorem filter_select (names : AttributeSet) (primaryKey : Bool) :
    (table.select names primaryKey).filter Attribute.isPrimaryKey =
      if primaryKey then table.select names primaryKey else [] := by
  have marked (attr : Attribute) (member : attr ∈ table.select names primaryKey) :
      attr.isPrimaryKey = primaryKey := by
    obtain ⟨_, _, rfl⟩ := List.mem_map.1 member
    rfl
  cases primaryKey with
  | true => exact List.filter_eq_self.2 marked
  | false =>
    apply List.filter_eq_nil_iff.2
    intro attr member isKey
    rw [marked attr member] at isKey
    exact Bool.false_ne_true isKey

/-- **A part for a row of declared attributes is keyed by the determinants and has
all attributes of the row.** -/
theorem keyDependency_part (position : Nat) (declared : row.attributes ⊆ table.heading) :
    (table.part position row).keyDependency = ⟨row.determinants, row.attributes⟩ := by
  have determinants : (table.part position row).key = row.determinants := by
    ext name
    unfold key primaryKey part
    rw [AttributeSet.mem_ofList, List.filter_append, filter_select, filter_select, if_pos rfl,
      if_neg Bool.false_ne_true, List.append_nil, mem_select]
    refine and_iff_right_of_imp fun determinant => declared name ?_
    exact row.determinants_subset_attributes name determinant
  have attributes : (table.part position row).heading = row.attributes := by
    ext name
    rw [heading, AttributeSet.mem_ofList, attributeNames, part, List.map_append, List.mem_append,
      mem_select, mem_select, ← and_or_left, ← Dependency.mem_attributes]
    exact and_iff_right_of_imp (declared name)
  unfold keyDependency
  rw [determinants, attributes]

/-- What holds of the rows of a decomposition, with and without the key kept, holds of
the rows of a design. -/
theorem design_induction {motive : List Dependency → Prop} {settings : Settings}
    {form : NormalForm} {given : List Dependency}
    (decomposed : motive (form.decompose (settings.cover.cover given)).rows)
    (kept : motive
      ((form.decompose (settings.cover.cover given)).keepKey table.key table.heading).rows) :
    motive (table.design settings form given).rows := by
  unfold design
  cases settings.preserveKey with
  | true => exact kept
  | false => exact decomposed

theorem rows_design {settings : Settings} (keeps : settings.preserveKey = true) (form : NormalForm)
    (given : List Dependency) :
    (table.design settings form given).rows =
      ((form.decompose (settings.cover.cover given)).keepKey table.key table.heading).rows := by
  unfold design
  dsimp only
  rw [if_pos keeps]
  rfl

section Accepted

variable (accepted : table.violations = [])
include accepted

/-- The rows of the design of a table in first normal form mention declared attributes. -/
theorem mem_heading_of_mentions_design {settings : Settings} {form : NormalForm} {name : String}
    (mentioned : Mentions (table.design settings form table.stated).rows name) :
    name ∈ table.heading := by
  have declares (name : String)
      (mentioned : Mentions (form.decompose (settings.cover.cover table.stated)).rows name) :
      name ∈ table.heading :=
    mem_heading_of_mentions accepted (mentions_decompose mentioned)
  refine design_induction (motive := fun rows => Mentions rows name → name ∈ table.heading)
    (declares name) ?_ mentioned
  exact mentions_keepKey (key_ne_empty accepted) declares table.key_subset_heading

/-- **The parts of a table in first normal form are the rows of its design.** -/
theorem map_keyDependency_design (settings : Settings) (form : NormalForm) :
    (table.decompose settings form).parts.map keyDependency =
      (table.design settings form table.stated).rows.map fun row =>
        ⟨row.determinants, row.attributes⟩ := by
  refine (map_look_markLinks keyDependency_markForeignKeys _ _).trans ?_
  apply List.ext_getElem
  · simp only [List.length_map, List.length_mapIdx]
    rfl
  · intro position _ _
    simp only [List.getElem_map, List.getElem_mapIdx]
    apply keyDependency_part
    exact fun name named => mem_heading_of_mentions_design accepted ⟨_, List.getElem_mem _, named⟩

theorem map_keyDependency_decompose {settings : Settings} (keeps : settings.preserveKey = true)
    (form : NormalForm) :
    (table.decompose settings form).parts.map keyDependency =
      ((form.decompose (settings.cover.cover table.stated)).keepKey table.key
        table.heading).rows.map fun row => ⟨row.determinants, row.attributes⟩ := by
  rw [map_keyDependency_design accepted, rows_design keeps]

end Accepted

theorem map_heading_decompose (accepted : table.violations = []) {settings : Settings}
    (keeps : settings.preserveKey = true) (form : NormalForm) :
    (table.decompose settings form).parts.map heading =
      ((form.decompose (settings.cover.cover table.stated)).keepKey table.key
        table.heading).rows.map Dependency.attributes := by
  have same := congrArg (List.map Dependency.dependants)
    (map_keyDependency_decompose accepted keeps form)
  rw [List.map_map, List.map_map] at same
  exact same

/-- Some part has exactly the attributes of a row, once the key is kept. -/
theorem exists_part_of_kept (accepted : table.violations = []) {settings : Settings}
    (keeps : settings.preserveKey = true) (form : NormalForm)
    (member : row ∈ ((form.decompose (settings.cover.cover table.stated)).keepKey table.key
      table.heading).rows) :
    ∃ part ∈ (table.decompose settings form).parts, part.heading = row.attributes := by
  have inParts : row.attributes ∈ (table.decompose settings form).parts.map heading := by
    rw [map_heading_decompose accepted keeps]
    exact List.mem_map_of_mem member
  exact List.mem_map.1 inParts

end Table

end RelationalDesign
