import RelationalDesign.Proofs.Decomposition.Keys
import RelationalDesign.Proofs.Decomposition.RowInvariants

/-!
# The two sides of a row

No new determinants come up when rows are decomposed (`determinants_decompose_subset`), and
the only row without determinants is never taken away, since nothing leads to such a row. So
all rows of a decomposition have determinants if and only if all rows of its cover have some
(`keyed_decompose_iff`), that is, if no given dependency makes an attribute constant
(`keyed_cover_iff`).

A cover starts with rows whose dependants are not among their determinants, and a row
only gains dependants that are not its own determinants. So the two sides of every row
stay disjoint (`AllDisjoint.decompose`, `AllDisjoint.keepKey`).
-/

set_option autoImplicit false

namespace RelationalDesign

/-! ## Rows that have determinants -/

/-- Every row has determinants. -/
def Keyed (rows : List Dependency) : Prop := ∀ row ∈ rows, row.determinants ≠ ∅

theorem keyed_iff {rows : List Dependency} :
    Keyed rows ↔ ∅ ∉ rows.map Dependency.determinants := by
  unfold Keyed
  rw [List.mem_map]
  constructor
  · rintro keyed ⟨row, member, empty⟩
    exact keyed row member empty
  · intro noEmpty row member empty
    exact noEmpty ⟨row, member, empty⟩

/-- Rows that bring up no determinants have determinants if the others have. -/
theorem Keyed.of_subset {rows others : List Dependency} (keyed : Keyed others)
    (among : rows.map Dependency.determinants ⊆ others.map Dependency.determinants) : Keyed rows :=
  keyed_iff.2 fun empty => keyed_iff.1 keyed (among empty)

/-- **Absorbing leaves the rows without determinants**: nothing leads to them. -/
theorem Focus.keyed_absorb_iff {focus : Focus} :
    Keyed (focus.absorb .determinant).rows ↔ Keyed focus.rows := by
  constructor
  · intro keyed row member empty
    rcases mem_rows.1 member with rfl | other
    · exact keyed (focus.absorb .determinant).row (mem_rows_absorb.2 (Or.inl rfl)) empty
    · cases leads : focus.row.leadsTo .determinant row with
      | false => exact keyed row (mem_rows_absorb.2 (Or.inr ⟨other, leads⟩)) empty
      | true =>
        obtain ⟨name, _, determinant⟩ := AttributeSet.meets_iff.1 leads
        have inEmpty : name ∈ (∅ : AttributeSet) := empty ▸ determinant
        exact AttributeSet.notMem_empty name inEmpty
  · exact fun keyed => keyed.of_subset (focus.determinants_absorb_subset .determinant)

theorem keyed_mergeIdentical_iff {rows : List Dependency} :
    Keyed (mergeIdentical rows) ↔ Keyed rows := by
  rw [keyed_iff, keyed_iff, mem_determinants_mergeIdentical]

theorem keyed_secondForm_iff {cover : List Dependency} :
    Keyed (secondForm cover).rows ↔ Keyed cover := by
  obtain ⟨rows, same, form⟩ := exists_consolidated
    (motive := fun rows => Keyed rows ↔ Keyed cover)
    (fun focus same => Focus.keyed_absorb_iff.trans same) Iff.rfl
  rw [form, keyed_iff, map_determinants_separate, ← keyed_iff, keyed_mergeIdentical_iff, same]

/-- **A decomposition has a row without determinants if and only if its cover has one.** -/
theorem keyed_decompose_iff (form : NormalForm) {cover : List Dependency} :
    Keyed (form.decompose cover).rows ↔ Keyed cover := by
  cases form with
  | second => exact keyed_secondForm_iff
  | third =>
    show Keyed (thirdForm cover).rows ↔ Keyed cover
    rw [keyed_iff, map_determinants_thirdForm, ← keyed_iff, keyed_mergeIdentical_iff]

theorem keyed_keepKey_iff {key declared : AttributeSet} {design : Decomposition}
    (nonempty : key ≠ ∅) : Keyed (design.keepKey key declared).rows ↔ Keyed design.rows := by
  constructor
  · intro keyed row member
    obtain ⟨kept, inKept, same, _⟩ := exists_of_keepKey nonempty member
    exact same ▸ keyed kept inKept
  · intro keyed kept member
    rcases of_mem_keepKey nonempty member with ⟨row, inDesign, same, _⟩ | ⟨same, _⟩
    · exact same ▸ keyed row inDesign
    · exact same ▸ nonempty

/-- Nothing is constant if and only if rows without determinants have no dependants. -/
theorem closure_empty_iff {rows : List Dependency} :
    closure rows ∅ = ∅ ↔ ∀ row ∈ rows, row.determinants = ∅ → row.dependants = ∅ := by
  constructor
  · intro nothing row member empty
    have fixed := implies_of_mem member
    unfold Implies at fixed
    rw [empty, nothing] at fixed
    exact AttributeSet.subset_antisymm fixed (AttributeSet.empty_subset row.dependants)
  · intro idle
    have noneFixed : ∀ name ∈ closure rows ∅, False := by
      refine closure_induction (motive := fun _ => False) ?_ fun name => AttributeSet.notMem_empty name
      intro row member unusable name dependant
      rcases row.determinants.eq_empty_or_exists_mem with empty | ⟨other, determinant⟩
      · rw [idle row member empty] at dependant
        exact AttributeSet.notMem_empty name dependant
      · exact unusable other determinant
    exact (closure rows ∅).eq_empty_or_exists_mem.resolve_right
      fun ⟨name, fixed⟩ => noneFixed name fixed

/-- **All rows of a cover have determinants if and only if no given dependency makes an
attribute constant.** -/
theorem keyed_cover_iff (mode : CoverMode) {given : List Dependency} :
    Keyed (mode.cover given) ↔ ∀ row ∈ given, row.determinants = ∅ → row.dependants = ∅ := by
  calc Keyed (mode.cover given)
      ↔ ∀ row ∈ mode.cover given, row.determinants = ∅ → row.dependants = ∅ := by
        refine forall₂_congr fun row member => ?_
        obtain ⟨name, single, _⟩ := single_cover member
        have used : row.dependants ≠ ∅ := fun empty =>
          AttributeSet.notMem_empty name (empty ▸ single ▸ AttributeSet.mem_singleton.2 rfl)
        exact ⟨fun keyed empty => absurd empty keyed, fun idle empty => used (idle empty)⟩
    _ ↔ closure (mode.cover given) ∅ = ∅ := closure_empty_iff.symm
    _ ↔ closure given ∅ = ∅ := by rw [closure_cover]
    _ ↔ ∀ row ∈ given, row.determinants = ∅ → row.dependants = ∅ := closure_empty_iff

/-! ## Rows with disjoint sides -/

/-- No dependant of a row is among its determinants. -/
def Dependency.SidesDisjoint (row : Dependency) : Prop :=
  ∀ name ∈ row.dependants, name ∉ row.determinants

theorem Dependency.SidesDisjoint.gain {row : Dependency} (disjoint : row.SidesDisjoint)
    (names : AttributeSet) : (row.gain names).SidesDisjoint := by
  intro name dependant
  rcases mem_dependants_gain.1 dependant with old | ⟨_, new⟩
  · exact disjoint name old
  · exact new

/-- The sides of all rows are disjoint. -/
def AllDisjoint (rows : List Dependency) : Prop := ∀ row ∈ rows, row.SidesDisjoint

theorem allDisjoint_cover (mode : CoverMode) (given : List Dependency) :
    AllDisjoint (mode.cover given) := by
  intro row member name dependant
  obtain ⟨only, single, nontrivial⟩ := single_cover member
  rw [single] at dependant
  exact AttributeSet.mem_singleton.1 dependant ▸ nontrivial

theorem AllDisjoint.absorb {focus : Focus} (disjoint : AllDisjoint focus.rows) (role : Role) :
    AllDisjoint (focus.absorb role).rows := by
  intro row member
  rcases Focus.mem_rows_absorb.1 member with rfl | ⟨other, _⟩
  · exact (disjoint focus.row (Focus.mem_rows.2 (Or.inl rfl))).gain _
  · exact disjoint row (Focus.mem_rows.2 (Or.inr other))

theorem rowInvariant_allDisjoint : RowInvariant AllDisjoint where
  narrow := by
    intro rows others narrows disjoint row member name dependant
    obtain ⟨origin, inOthers, same, stated⟩ :=
      narrows.states row.determinants name ⟨row, member, rfl, dependant⟩
    exact same ▸ disjoint origin inOthers name stated
  absorb _ disjoint := disjoint.absorb .determinant

/-- **The rows of a decomposition have disjoint sides** if the rows of its cover have. -/
theorem AllDisjoint.decompose {cover : List Dependency} (disjoint : AllDisjoint cover)
    (form : NormalForm) : AllDisjoint (form.decompose cover).rows :=
  rowInvariant_allDisjoint.decompose disjoint form

theorem AllDisjoint.keepKey {design : Decomposition} (disjoint : AllDisjoint design.rows)
    (key declared : AttributeSet) : AllDisjoint (design.keepKey key declared).rows := by
  by_cases empty : key = ∅
  · unfold Decomposition.keepKey
    rw [if_pos empty]
    exact disjoint
  · obtain ⟨before, holder, after, _, rows, origin⟩ := keepKey_cases empty declared design
    rw [rows]
    intro row member
    rcases origin with place | ⟨place, rfl⟩
    · rw [place] at disjoint
      rcases mem_append_cons.1 member with rfl | around
      · exact (disjoint holder List.mem_append_cons_self).gain _
      · exact disjoint row (append_subset_append_cons around)
    · rw [place] at disjoint
      rcases mem_append_cons.1 member with rfl | around
      · have disjointKey : Dependency.SidesDisjoint ⟨key, ∅⟩ := fun name dependant =>
          absurd dependant (AttributeSet.notMem_empty name)
        exact disjointKey.gain _
      · exact disjoint row around

end RelationalDesign
