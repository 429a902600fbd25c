import RelationalDesign.Proofs.Decomposition.Chains
import RelationalDesign.Proofs.Normalization.Parts

/-!
# Whether the primary key is kept as a key

A table keeps its primary key if one of its parts has exactly that key
(`KeySurvives`). Keeping the key makes sure of less: some part holds its attributes. A row
that holds them already takes the place of a row of their own, whatever its determinants
are. So the key survives if and only if some row of the decomposition has it as determinants
or no row holds it (`keySurvives`).

Under a minimal cover it survives if it fixes all attributes of the dependencies and
none of them has an attribute of the key as a dependant (`KeyIndependent`): then a row that
holds the key has it among its determinants, and so has nothing else there. It need not
survive otherwise. If the permit of a vehicle fixes its plate, then the part of the permit
holds the plate and all the rest of the vehicle, and no part is keyed by the plate
(`key_of_vehicles`).
-/

set_option autoImplicit false

namespace RelationalDesign

/-- Decomposing makes dependants only of what the dependencies have as dependants, aside from
the determinants there. -/
theorem exists_of_dependant_decompose {form : NormalForm} {mode : CoverMode}
    {given : List Dependency} {row : Dependency}
    (member : row ∈ (form.decompose (mode.cover given)).rows) {name : String}
    (dependant : name ∈ row.dependants) :
    ∃ origin ∈ given, name ∈ origin.dependants ∧ name ∉ origin.determinants := by
  obtain ⟨_, last, _, chain, stated⟩ := traced_decompose form _ row member name dependant
  exact exists_of_dependant_cover chain.last_mem stated

namespace Table

/-- Some part has the primary key of the table. -/
def KeySurvives (settings : Settings) (form : NormalForm) (table : Table) : Prop :=
  ∃ part ∈ (table.decompose settings form).parts, part.key = table.key

/-- No dependency has an attribute of the key as a dependant, unless among its determinants. -/
def KeyIndependent (table : Table) : Prop :=
  ∀ row ∈ table.stated, ∀ name ∈ row.dependants, name ∈ table.key → name ∈ row.determinants

instance (table : Table) : Decidable table.KeyIndependent :=
  inferInstanceAs (Decidable (∀ row ∈ table.stated, ∀ name ∈ row.dependants,
    name ∈ table.key → name ∈ row.determinants))

section Accepted

variable {table : Table} (accepted : table.violations = []) {settings : Settings}
  (keeps : settings.preserveKey = true) (form : NormalForm)
include accepted keeps

/-- **The key survives if and only if the decomposition has a row for it or no row that
holds it.** -/
theorem keySurvives_iff :
    table.KeySurvives settings form ↔
      table.key ∈
          (form.decompose (settings.cover.cover table.stated)).rows.map Dependency.determinants ∨
        ∀ row ∈ (form.decompose (settings.cover.cover table.stated)).rows,
          ¬table.key ⊆ row.attributes := by
  have parts : table.KeySurvives settings form ↔
      table.key ∈ ((table.decompose settings form).parts.map keyDependency).map
        Dependency.determinants := by
    rw [List.map_map, List.mem_map]
    rfl
  rw [parts, map_keyDependency_decompose accepted keeps, List.map_map,
    ← mem_determinants_keepKey_iff (key_ne_empty accepted)]
  rfl

/-- Under a minimal cover an independent key that fixes what the dependencies name survives. -/
theorem keySurvives_of_independent (minimal : settings.cover = .minimal)
    (fixes : ∀ name ∈ table.namesInDependencies, name ∈ closure table.stated table.key)
    (independent : table.KeyIndependent) : table.KeySurvives settings form := by
  have spans : Spans table.stated table.key := fun name mentioned =>
    fixes name (mentions_stated_iff.1 mentioned)
  rw [keySurvives_iff accepted keeps]
  refine Decidable.or_iff_not_imp_right.2 fun held => ?_
  obtain ⟨row, member, holds⟩ : ∃ row ∈ _, table.key ⊆ Dependency.attributes row := by
    simpa using held
  -- no attribute of the key is a dependant, so the row has the key among its determinants
  have among : table.key ⊆ row.determinants := by
    intro name inKey
    refine (Dependency.mem_attributes.1 (holds name inKey)).resolve_right fun dependant => ?_
    obtain ⟨origin, inStated, stated, nontrivial⟩ := exists_of_dependant_decompose member dependant
    exact nontrivial (independent origin inStated name stated inKey)
  obtain ⟨origin, inCover, same⟩ := List.mem_map.1
    (determinants_decompose_subset form _ (List.mem_map_of_mem member))
  rw [minimal] at inCover
  have only : origin.determinants = table.key :=
    determinants_eq_of_spans inCover (key_ne_empty accepted) spans (same ▸ among)
  exact List.mem_map.2 ⟨row, member, same.symm.trans only⟩

/-- **Some part holds the key**, whether it is keyed by it or not. -/
theorem exists_part_holds_key :
    ∃ part ∈ (table.decompose settings form).parts, table.key ⊆ part.heading := by
  obtain ⟨holder, member, holds, _⟩ := exists_holder (key_ne_empty accepted) table.heading
    (form.decompose (settings.cover.cover table.stated))
  obtain ⟨part, inTable, heading⟩ := exists_part_of_kept accepted keeps form member
  exact ⟨part, inTable, heading ▸ holds⟩

end Accepted

/-- **When the primary key survives as a key**: if and only if the decomposition has a row for
it or no row that holds it, as is so under a minimal cover if the key fixes all attributes of
the dependencies and is independent. Its attributes are together in some part in any case. -/
theorem keySurvives {scheme : Scheme} (accepted : scheme.violations = []) {table : Table}
    (member : table ∈ scheme.tables) {settings : Settings} (keeps : settings.preserveKey = true)
    (form : NormalForm) :
    (table.KeySurvives settings form ↔
      (∃ row ∈ (form.decompose (settings.cover.cover table.stated)).rows,
        row.determinants = table.key) ∨
      ∀ row ∈ (form.decompose (settings.cover.cover table.stated)).rows,
        ¬table.key ⊆ row.attributes) ∧
      (settings.cover = .minimal →
        (∀ name ∈ table.namesInDependencies, name ∈ closure table.stated table.key) →
        table.KeyIndependent → table.KeySurvives settings form) ∧
      ∃ part ∈ (table.decompose settings form).parts, table.key ⊆ part.heading := by
  have acceptedTable : table.violations = [] := List.flatMap_eq_nil_iff.1 accepted table member
  refine ⟨?_, keySurvives_of_independent acceptedTable keeps form,
    exists_part_holds_key acceptedTable keeps form⟩
  rw [keySurvives_iff acceptedTable keeps, List.mem_map]

/-- Vehicles with a plate, the permit that they have and their model. -/
def vehicles (dependencies : List DependencyClause) : Table where
  name := "vehicles"
  attributes :=
    [⟨"plate", .text, ⟨true, true, false⟩⟩, ⟨"permit", .text, ∅⟩, ⟨"model", .text, ∅⟩]
  dependencies := dependencies

/-- If the plate fixes the permit, then the plate is still a key. -/
theorem keySurvives_vehicles :
    let table := vehicles [⟨["plate"], ["permit"]⟩, ⟨["plate", "permit"], ["model"]⟩]
    (⟨[table], []⟩ : Scheme).violations = [] ∧ table ∈ [table] ∧
      (∀ name ∈ table.namesInDependencies, name ∈ closure table.stated table.key) ∧
      table.KeyIndependent ∧
      table.KeySurvives .usual .second ∧ table.KeySurvives .usual .third := by
  intro table
  have accepted : (⟨[table], []⟩ : Scheme).violations = [] := by decide
  have member : table ∈ [table] := List.mem_singleton.2 rfl
  have fixes : ∀ name ∈ table.namesInDependencies, name ∈ closure table.stated table.key := by
    decide
  have independent : table.KeyIndependent := by decide
  have survives (form : NormalForm) : table.KeySurvives .usual form :=
    (keySurvives accepted member rfl form).2.1 rfl fixes independent
  exact ⟨accepted, member, fixes, independent, survives .second, survives .third⟩

/-- **A key that is lost.** If the permit of a vehicle fixes its plate, then no part is keyed by
the plate, in either form. -/
theorem key_of_vehicles :
    let table := vehicles [⟨["permit"], ["plate"]⟩]
    (⟨[table], []⟩ : Scheme).violations = [] ∧
      ¬table.KeySurvives .usual .second ∧ ¬table.KeySurvives .usual .third := by
  intro table
  have accepted : table.violations = [] := by decide
  have cover : minimalCover table.stated = [⟨{"permit"}, {"plate"}⟩] := by decide
  have lost (form : NormalForm)
      (rows : (form.decompose (minimalCover table.stated)).rows = [⟨{"permit"}, {"plate"}⟩]) :
      ¬table.KeySurvives .usual form := by
    rw [keySurvives_iff accepted rfl]
    show ¬(_ ∈ (form.decompose (minimalCover table.stated)).rows.map _ ∨
      ∀ row ∈ (form.decompose (minimalCover table.stated)).rows, _)
    rw [rows]
    decide
  refine ⟨by decide, lost .second ?_, lost .third ?_⟩
  · rw [cover]
    decide +kernel
  · rw [NormalForm.decompose, thirdForm_minimalCover, cover]
    decide

end Table

end RelationalDesign
