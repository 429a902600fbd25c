import RelationalDesign.Proofs.Decomposition.Rows
import RelationalDesign.Proofs.Normalization.Scheme

/-!
# Normalizing what has been normalized

The tables of a normal form state no dependencies, so all that can be against first
normal form in them is a missing key. The key of a part are the determinants of its
row, and a row without determinants stands for attributes that are constant. So a
normal form can be normalized again if and only if no dependency of the scheme makes an
attribute constant (`violations_normalize_iff`). Prices in one currency have a part
without a key (`violations_prices`).
-/

set_option autoImplicit false

namespace RelationalDesign

theorem AttributeSet.ofList_eq_empty_iff {names : List String} : ofList names = ∅ ↔ names = [] := by
  constructor
  · intro empty
    refine List.eq_nil_iff_forall_not_mem.2 fun name member => notMem_empty name ?_
    rw [← empty]
    exact mem_ofList.2 member
  · rintro rfl
    rfl

namespace Table

/-- A table that states no dependencies lacks nothing but perhaps a key. -/
theorem violations_eq_nil_iff {table : Table} (bare : table.dependencies = []) :
    table.violations = [] ↔ table.key ≠ ∅ := by
  unfold violations key
  simp only [namesInDependencies, bare, ne_eq, AttributeSet.ofList_eq_empty_iff]
  by_cases keyless : table.primaryKey = []
  · simp [keyless]
  · simp [keyless]

/-- Every row of the design of a table has determinants if and only if no dependency of
the table makes an attribute constant. -/
theorem keyed_design_iff {table : Table} (accepted : table.violations = []) (settings : Settings)
    (form : NormalForm) :
    Keyed (table.design settings form table.stated).rows ↔
      ∀ clause ∈ table.dependencies, clause.determinants = [] → clause.dependants = [] := by
  have decomposed : Keyed (table.design settings form table.stated).rows ↔
      Keyed (form.decompose (settings.cover.cover table.stated)).rows :=
    design_induction (motive := fun rows => Keyed rows ↔
      Keyed (form.decompose (settings.cover.cover table.stated)).rows) Iff.rfl
      (keyed_keepKey_iff (key_ne_empty accepted))
  rw [decomposed, keyed_decompose_iff, keyed_cover_iff, stated, List.forall_mem_map]
  refine forall₂_congr fun clause _ => ?_
  show (AttributeSet.ofList _ = ∅ → AttributeSet.ofList _ = ∅) ↔ _
  rw [AttributeSet.ofList_eq_empty_iff, AttributeSet.ofList_eq_empty_iff]

end Table

variable {settings : Settings} {form : NormalForm} {scheme normal : Scheme}

theorem Scheme.normalize_eq_ok_iff :
    scheme.normalize settings form = .ok normal ↔
      scheme.violations = [] ∧ scheme.decompose settings form = normal := by
  unfold Scheme.normalize
  split
  · next accepted => simp [accepted]
  · next refused => simp [refused]

/-- The tables of a normal form state no dependencies. -/
theorem dependencies_eq_nil {part : Table} (member : part ∈ (scheme.decompose settings form).tables) :
    part.dependencies = [] := by
  have blind (part : Table) (names : List String) :
      (part.markForeignKeys names).dependencies = part.dependencies := rfl
  obtain ⟨table, _, position, row, _, same⟩ := exists_row_of_mem_decompose blind member
  exact same.symm

theorem violations_decompose_iff (accepted : scheme.violations = []) :
    (scheme.decompose settings form).violations = [] ↔
      ∀ table ∈ scheme.tables, ∀ clause ∈ table.dependencies,
        clause.determinants = [] → clause.dependants = [] := by
  calc (scheme.decompose settings form).violations = []
      ↔ ∀ part ∈ (scheme.decompose settings form).tables, part.key ≠ ∅ := by
        refine List.flatMap_eq_nil_iff.trans (forall₂_congr fun part member => ?_)
        exact Table.violations_eq_nil_iff (dependencies_eq_nil member)
    _ ↔ ∀ dependency ∈ (scheme.decompose settings form).tables.map Table.keyDependency,
          dependency.determinants ≠ ∅ := by
        rw [List.forall_mem_map]
        rfl
    _ ↔ ∀ table ∈ scheme.tables, Keyed (table.design settings form table.stated).rows := by
        rw [map_keyDependency_tables accepted, List.forall_mem_flatMap]
        simp only [List.forall_mem_map, Keyed]
    _ ↔ ∀ table ∈ scheme.tables, ∀ clause ∈ table.dependencies,
          clause.determinants = [] → clause.dependants = [] := by
        refine forall₂_congr fun table member => ?_
        exact Table.keyed_design_iff (List.flatMap_eq_nil_iff.1 accepted table member) settings form

/-- **A normal form can be normalized again if and only if no dependency of the scheme
makes an attribute constant.** All its tables have a primary key then. -/
theorem violations_normalize_iff (normalized : scheme.normalize settings form = .ok normal) :
    (normal.violations = [] ↔ ∀ table ∈ scheme.tables, ∀ clause ∈ table.dependencies,
        clause.determinants = [] → clause.dependants = []) ∧
      (normal.violations = [] ↔ ∀ part ∈ normal.tables, part.primaryKey ≠ []) := by
  obtain ⟨accepted, rfl⟩ := Scheme.normalize_eq_ok_iff.1 normalized
  refine ⟨violations_decompose_iff accepted, ?_⟩
  refine List.flatMap_eq_nil_iff.trans (forall₂_congr fun part member => ?_)
  rw [Table.violations_eq_nil_iff (dependencies_eq_nil member), Table.key, ne_eq,
    AttributeSet.ofList_eq_empty_iff]

/-- Prices of items, which are all in one currency. -/
def prices (dependencies : List DependencyClause) : Scheme where
  tables :=
    [⟨"prices", [⟨"item", .integer, ⟨true, true, false⟩⟩, ⟨"price", .float, ∅⟩,
      ⟨"currency", .text, ∅⟩], dependencies⟩]
  relationships := []

/-- Where the item fixes the currency, too, prices can be normalized again and again. -/
theorem violations_prices_of_item :
    let scheme := prices [⟨["item"], ["price", "currency"]⟩]
    scheme.normalize .usual .third = .ok (scheme.decompose .usual .third) ∧
      (scheme.decompose .usual .third).violations = [] := by
  intro scheme
  have normalized : scheme.normalize .usual .third = .ok (scheme.decompose .usual .third) :=
    Scheme.normalize_eq_ok_iff.2 ⟨by decide, rfl⟩
  obtain ⟨again, _⟩ := violations_normalize_iff normalized
  exact ⟨normalized, again.2 (by decide)⟩

/-- **A normal form that cannot be normalized again**: the part for the currency has no
key. -/
theorem violations_prices :
    let scheme := prices [⟨["item"], ["price"]⟩, ⟨[], ["currency"]⟩]
    ∃ normal, scheme.normalize .usual .third = .ok normal ∧ normal.violations ≠ [] := by
  intro scheme
  have accepted : scheme.violations = [] := by decide
  refine ⟨_, Scheme.normalize_eq_ok_iff.2 ⟨accepted, rfl⟩, fun faultless => ?_⟩
  exact absurd ((violations_decompose_iff accepted).1 faultless) (by decide)

end RelationalDesign
