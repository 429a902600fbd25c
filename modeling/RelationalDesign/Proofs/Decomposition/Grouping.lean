import RelationalDesign.Decomposition.Matrix
import RelationalDesign.Proofs.Decomposition.Merge

/-!
# Grouping the rows of a matrix

Merging the rows of a matrix with equal determinants leaves one row for each set of
determinants, counts exactly the rows that disappear, keeps all closures, and has nothing left
to do afterwards (`mergeCounting_groups`).

Every row that is merged is either counted or kept (`Merging.removed_add`), so the rows that
are counted and those that are left make up the rows that were given
(`removed_mergeCounting`). Rows with distinct determinants stay as they are
(`mergeCounting_of_distinct`), and merged rows are of this kind.
-/

set_option autoImplicit false

namespace RelationalDesign

/-! ## Counting -/

theorem length_joinRow (row : Dependency) (merged : List Dependency) :
    (joinRow row merged).length =
      if row.determinants ∈ merged.map Dependency.determinants then merged.length
      else merged.length + 1 := by
  have lengths := congrArg List.length (map_determinants_joinRow row merged)
  rw [List.length_map] at lengths
  rw [lengths]
  split <;> simp

/-- A row that is merged is counted or kept. -/
theorem Merging.removed_add (merging : Merging) (row : Dependency) :
    (merging.add row).removed + (merging.add row).rows.length =
      merging.removed + merging.rows.length + 1 := by
  have length := length_joinRow row merging.rows
  simp only [add, length]
  split <;> omega

/-- The last row is merged into what the rows before it make. -/
theorem mergeCounting_append_singleton (rows : List Dependency) (row : Dependency) :
    mergeCounting (rows ++ [row]) = (mergeCounting rows).add row := List.foldl_append

theorem rows_mergeCounting (rows : List Dependency) :
    (mergeCounting rows).rows = mergeIdentical rows := by
  induction rows using List.reverseRecOn with
  | nil => rfl
  | append_singleton rows row ih =>
    rw [mergeCounting_append_singleton, mergeIdentical_append_singleton, ← ih]
    rfl

/-- **The rows that are counted and those that are left** are as many as were given. -/
theorem removed_mergeCounting (rows : List Dependency) :
    (mergeCounting rows).removed + (mergeCounting rows).rows.length = rows.length := by
  induction rows using List.reverseRecOn with
  | nil => rfl
  | append_singleton rows row ih =>
    rw [mergeCounting_append_singleton, Merging.removed_add, ih, List.length_append,
      List.length_singleton]

/-! ## Merging merged rows -/

theorem joinRow_of_notMem {row : Dependency} {merged : List Dependency}
    (absent : row.determinants ∉ merged.map Dependency.determinants) :
    joinRow row merged = merged ++ [row] := by
  induction merged with
  | nil => rfl
  | cons first rest ih =>
    rw [List.map_cons, List.mem_cons, not_or] at absent
    obtain ⟨notFirst, notLater⟩ := absent
    rw [joinRow, if_neg (Ne.symm notFirst), ih notLater, List.cons_append]

/-- **Rows with distinct determinants are left as they are.** -/
theorem mergeIdentical_of_distinct {rows : List Dependency} (distinct : DistinctDeterminants rows) :
    mergeIdentical rows = rows := by
  induction rows using List.reverseRecOn with
  | nil => rfl
  | append_singleton rows row ih =>
    unfold DistinctDeterminants at distinct
    rw [List.map_append, List.nodup_append] at distinct
    obtain ⟨distinctBefore, -, apart⟩ := distinct
    rw [mergeIdentical_append_singleton, ih distinctBefore]
    exact joinRow_of_notMem fun among => apart _ among _ List.mem_cons_self rfl

theorem mergeCounting_of_distinct {rows : List Dependency} (distinct : DistinctDeterminants rows) :
    mergeCounting rows = ⟨rows, 0⟩ := by
  have kept : (mergeCounting rows).rows = rows := by
    rw [rows_mergeCounting, mergeIdentical_of_distinct distinct]
  have total := removed_mergeCounting rows
  rw [kept] at total
  exact Merging.ext kept (Nat.add_eq_right.1 total)

/-! ## Matrices -/

namespace DependencyMatrix

/-- Merging with a count merges the rows. -/
theorem mergeCounting_fst (matrix : DependencyMatrix) :
    matrix.mergeCounting.1 = matrix.mergeIdentical := by
  show { matrix with rows := (RelationalDesign.mergeCounting matrix.rows).rows } = _
  rw [rows_mergeCounting]
  rfl

theorem mergeCounting_mergeIdentical (matrix : DependencyMatrix) :
    matrix.mergeIdentical.mergeCounting = (matrix.mergeIdentical, 0) := by
  have distinct : DistinctDeterminants matrix.mergeIdentical.rows := distinct_mergeIdentical
  unfold mergeCounting
  rw [mergeCounting_of_distinct distinct]

/-- **Merging rows with equal determinants groups the rows of a matrix**: one row is left for
each set of determinants, where it first occurs, with all dependants of the rows that have it.
As many rows are counted as have disappeared, no closure changes, and merging again does
nothing. -/
theorem mergeCounting_groups (matrix : DependencyMatrix) :
    matrix.mergeCounting.1 = { matrix with rows := grouped matrix.rows } ∧
      matrix.mergeCounting.2 + matrix.mergeCounting.1.rows.length = matrix.rows.length ∧
      (∀ names, closure matrix.mergeCounting.1.rows names = closure matrix.rows names) ∧
      matrix.mergeCounting.1.mergeCounting = (matrix.mergeCounting.1, 0) := by
  refine ⟨?_, removed_mergeCounting matrix.rows, fun names => ?_, ?_⟩
  · rw [mergeCounting_fst, mergeIdentical, mergeIdentical_eq_grouped]
  · rw [mergeCounting_fst]
    exact congrFun (closure_mergeIdentical matrix.rows) names
  · rw [mergeCounting_fst]
    exact mergeCounting_mergeIdentical matrix

example :
    (ofGiven [⟨{"car"}, {"owner"}⟩, ⟨{"owner"}, {"city"}⟩, ⟨{"car"}, {"colour"}⟩]
        .splitOnly).canonicalize.mergeCounting =
      (⟨[⟨{"car"}, {"owner"}⟩, ⟨{"owner"}, {"city"}⟩, ⟨{"car"}, {"colour"}⟩], .splitOnly,
        [⟨{"car"}, {"colour", "owner"}⟩, ⟨{"owner"}, {"city"}⟩]⟩, 1) := by decide

end DependencyMatrix

end RelationalDesign
