import RelationalDesign.Normalization.NormalForm
import RelationalDesign.Proofs.Decomposition.SecondForm
import RelationalDesign.Proofs.Decomposition.ThirdForm

/-!
# Properties of rows that decomposing keeps

A decomposition rewrites rows in four ways: a row absorbs other rows, rows with equal
determinants are merged, overlapping rows are separated, and dependants are moved on a walk.
All but the first narrow the rows (`Narrows`): what is left states nothing that was not
stated before, and it has no determinants that were not there before.

So two things have to be shown of a property of rows, that narrowing keeps it and that
absorbing keeps it (`RowInvariant`). Then the rows of a decomposition have it if those of the
cover have it (`RowInvariant.decompose`).

Separating and walking even keep the determinants of every row in their place
(`map_determinants_separate`, `map_determinants_thirdForm`).
-/

set_option autoImplicit false

namespace RelationalDesign

/-! ## Determinants in their place -/

theorem map_determinants_claimDependants (rows : List Dependency) (claimant : Nat) :
    (claimDependants rows claimant).map Dependency.determinants =
      rows.map Dependency.determinants := by
  rcases claimDependants_cases rows claimant with same | ⟨before, row, after, rfl, claimed⟩
  · rw [same]
  · have kept (side : List Dependency) :
        (side.map fun other => other.yieldTo row).map Dependency.determinants =
          side.map Dependency.determinants := by
      rw [List.map_map]
      exact List.map_congr_left fun other _ => other.determinants_yieldTo row
    rw [claimed, List.map_append, List.map_cons, kept, kept, List.map_append, List.map_cons]

/-- **Separated rows have their determinants in the same places.** -/
theorem map_determinants_separate (rows : List Dependency) :
    (separate rows).map Dependency.determinants = rows.map Dependency.determinants := by
  apply separate_induction
    (motive := fun current => current.map Dependency.determinants =
      rows.map Dependency.determinants) ?_ rfl
  intro current claimant same
  rw [map_determinants_claimDependants, same]

theorem Walk.map_determinants_moveDependant (walk : Walk) (start current : Nat) (name : String) :
    (walk.moveDependant start current name).rows.map Dependency.determinants =
      walk.rows.map Dependency.determinants := by
  rcases walk.moveDependant_cases start current name with same | moved
  · rw [same]
  · obtain ⟨before, home, after, _, place, _, _, _, _, _, moved⟩ := moved
    rw [moved, place, List.map_append, List.map_append]
    rfl

/-- **The third normal form has the determinants of the merged rows in their places.** -/
theorem map_determinants_thirdForm (cover : List Dependency) :
    (thirdForm cover).rows.map Dependency.determinants =
      (mergeIdentical cover).map Dependency.determinants := by
  refine thirdForm_induction (motive := fun design =>
    design.rows.map Dependency.determinants =
      (mergeIdentical cover).map Dependency.determinants) ?_ rfl
  intro walk start current name same
  rw [walk.map_determinants_moveDependant, same]

/-! ## Narrowing -/

/-- Each separated row is left of a row with the same determinants. -/
theorem exists_of_mem_separate {rows : List Dependency} {row : Dependency}
    (member : row ∈ separate rows) :
    ∃ origin ∈ rows, row.determinants = origin.determinants ∧
      row.dependants ⊆ origin.dependants := by
  refine separate_induction (motive := fun current => ∀ row ∈ current, ∃ origin ∈ rows,
    row.determinants = origin.determinants ∧ row.dependants ⊆ origin.dependants) ?_ ?_ row member
  · intro current claimant left row member
    rcases claimDependants_cases current claimant with same | ⟨before, smaller, after, rfl, claimed⟩
    · exact left row (same ▸ member)
    · rw [claimed] at member
      rcases mem_yielded.1 member with rfl | ⟨other, around, rfl⟩
      · exact left row List.mem_append_cons_self
      · obtain ⟨origin, inRows, same, fewer⟩ := left other (append_subset_append_cons around)
        refine ⟨origin, inRows, (other.determinants_yieldTo smaller).trans same, ?_⟩
        exact fun name dependant => fewer name (Dependency.mem_dependants_yieldTo.1 dependant).1
  · exact fun row member => ⟨row, member, rfl, AttributeSet.subset_refl row.dependants⟩

/-- A list of rows states nothing and has no determinants that another list does not state
or have. -/
structure Narrows (rows others : List Dependency) : Prop where
  determinants : rows.map Dependency.determinants ⊆ others.map Dependency.determinants
  states : ∀ determinants name, States rows determinants name → States others determinants name

theorem narrows_mergeIdentical (rows : List Dependency) : Narrows (mergeIdentical rows) rows where
  determinants _ member := mem_determinants_mergeIdentical.1 member
  states _ _ stated := states_mergeIdentical.1 stated

theorem narrows_separate (rows : List Dependency) : Narrows (separate rows) rows where
  determinants := by
    rw [map_determinants_separate]
    exact List.Subset.refl _
  states := by
    rintro _ name ⟨row, member, rfl, dependant⟩
    obtain ⟨origin, inRows, same, fewer⟩ := exists_of_mem_separate member
    exact ⟨origin, inRows, same.symm, fewer name dependant⟩

theorem narrows_moveDependant (walk : Walk) (start current : Nat) (name : String) :
    Narrows (walk.moveDependant start current name).rows walk.rows where
  determinants := by
    rw [walk.map_determinants_moveDependant]
    exact List.Subset.refl _
  states := by
    rintro _ other ⟨row, member, rfl, dependant⟩
    rcases walk.moveDependant_cases start current name with same | moved
    · exact ⟨row, same ▸ member, rfl, dependant⟩
    · obtain ⟨before, home, after, _, place, _, _, _, _, _, moved⟩ := moved
      rw [moved] at member
      rw [place]
      rcases mem_append_cons.1 member with rfl | around
      · exact ⟨home, List.mem_append_cons_self, rfl, (Dependency.mem_dependants_lose.1 dependant).1⟩
      · exact ⟨row, append_subset_append_cons around, rfl, dependant⟩

/-- Absorbing brings up no determinants, whatever the absorbed rows are chosen by. -/
theorem Focus.determinants_absorb_subset (focus : Focus) (role : Role) :
    (focus.absorb role).rows.map Dependency.determinants ⊆
      focus.rows.map Dependency.determinants := by
  intro determinants member
  obtain ⟨row, inRows, rfl⟩ := List.mem_map.1 member
  rcases mem_rows_absorb.1 inRows with rfl | ⟨other, _⟩
  · have focusIn : focus.row.determinants ∈ focus.rows.map Dependency.determinants :=
      List.mem_map_of_mem (mem_rows.2 (Or.inl rfl))
    exact focusIn
  · exact List.mem_map_of_mem (mem_rows.2 (Or.inr other))

/-! ## What is kept -/

/-- A property of rows that both ways of rewriting them keep. -/
structure RowInvariant (holds : List Dependency → Prop) : Prop where
  narrow : ∀ rows others, Narrows rows others → holds others → holds rows
  absorb : ∀ focus : Focus, holds focus.rows → holds (focus.absorb .determinant).rows

namespace RowInvariant

variable {holds : List Dependency → Prop} (invariant : RowInvariant holds)
include invariant

theorem moveDependant (walk : Walk) (start current : Nat) (name : String)
    (before : holds walk.rows) : holds (walk.moveDependant start current name).rows :=
  invariant.narrow _ _ (narrows_moveDependant walk start current name) before

/-- Walks keep a property of the rows. -/
theorem follow (walk : Walk) {start current : Nat} (before : holds walk.rows) :
    holds (walk.follow start current).rows :=
  Walk.follow_induction (motive := fun design => holds design.rows)
    (fun walk start current name => invariant.moveDependant walk start current name) walk before

variable {cover : List Dependency} (initially : holds cover)
include initially

theorem secondForm : holds (secondForm cover).rows := by
  obtain ⟨rows, consolidated, form⟩ :=
    exists_consolidated (motive := holds) invariant.absorb initially
  rw [form]
  have merged := invariant.narrow _ _ (narrows_mergeIdentical rows) consolidated
  exact invariant.narrow _ _ (narrows_separate (mergeIdentical rows)) merged

theorem thirdForm : holds (thirdForm cover).rows :=
  thirdForm_induction (motive := fun design => holds design.rows)
    (fun walk start current name => invariant.moveDependant walk start current name)
    (invariant.narrow _ _ (narrows_mergeIdentical cover) initially)

/-- **What the rows of a cover have, the rows of its decomposition have**, in either form. -/
theorem decompose (form : NormalForm) : holds (form.decompose cover).rows := by
  cases form with
  | second => exact invariant.secondForm initially
  | third => exact invariant.thirdForm initially

end RowInvariant

/-- **Decomposing brings up no determinants that the cover does not have.** -/
theorem determinants_decompose_subset (form : NormalForm) (cover : List Dependency) :
    (form.decompose cover).rows.map Dependency.determinants ⊆
      cover.map Dependency.determinants := by
  have invariant : RowInvariant fun rows =>
      rows.map Dependency.determinants ⊆ cover.map Dependency.determinants := {
    narrow := fun _ _ narrows among => List.Subset.trans narrows.determinants among
    absorb := fun focus among =>
      List.Subset.trans (focus.determinants_absorb_subset .determinant) among }
  exact invariant.decompose (List.Subset.refl _) form

end RelationalDesign
