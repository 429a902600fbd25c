import Mathlib.Data.List.Induction
import RelationalDesign.Decomposition.Merge
import RelationalDesign.Proofs.Dependency.Statements

/-!
# Merging rows with equal determinants

Merging keeps what the rows state (`states_mergeIdentical`), and with it their
closure (`closure_mergeIdentical`) and the attributes they mention
(`mentions_mergeIdentical`). It leaves no two rows with the same determinants
(`distinct_mergeIdentical`), so that a row of the result holds all that is stated
about its determinants (`mem_dependants_mergeIdentical`).

Altogether merging groups the rows by their determinants: one row for each set of
determinants, in the order in which these first occur (`mergeIdentical_eq_grouped`).
-/

set_option autoImplicit false

namespace RelationalDesign

/-- No two rows have the same determinants. -/
def DistinctDeterminants (rows : List Dependency) : Prop :=
  (rows.map Dependency.determinants).Nodup

/-- The rows around a row have other determinants. -/
theorem DistinctDeterminants.ne_of_mem {before after : List Dependency} {row other : Dependency}
    (distinct : DistinctDeterminants (before ++ row :: after)) (around : other ∈ before ++ after) :
    other.determinants ≠ row.determinants := by
  have moved := (List.perm_middle.map Dependency.determinants).nodup_iff.1 distinct
  rw [List.map_cons, List.nodup_cons] at moved
  exact fun same => moved.1 (same ▸ List.mem_map_of_mem around)

/-- Among rows with distinct determinants, a row holds all that is stated about its own. -/
theorem DistinctDeterminants.mem_dependants {rows : List Dependency} {row : Dependency}
    (distinct : DistinctDeterminants rows) (member : row ∈ rows) {name : String} :
    name ∈ row.dependants ↔ States rows row.determinants name := by
  refine ⟨fun dependant => ⟨row, member, rfl, dependant⟩, ?_⟩
  rintro ⟨other, otherMember, same, dependant⟩
  obtain ⟨before, after, rfl⟩ := List.append_of_mem member
  rcases mem_append_cons.1 otherMember with equal | around
  · exact equal ▸ dependant
  · exact absurd same (distinct.ne_of_mem around)

/-! ## Joining one row -/

theorem states_joinRow {row : Dependency} {merged : List Dependency} {determinants : AttributeSet}
    {name : String} :
    States (joinRow row merged) determinants name ↔ States (row :: merged) determinants name := by
  induction merged with
  | nil => exact Iff.rfl
  | cons first rest ih =>
    simp only [joinRow]
    split
    · next same =>
      simp only [states_cons, AttributeSet.mem_union, same]
      rw [and_or_left, or_comm (a := _ ∧ name ∈ first.dependants), or_assoc]
    · simp only [states_cons] at ih ⊢
      rw [ih]
      exact or_left_comm

/-- Joining a row adds its determinants at the end, unless they are there. -/
theorem map_determinants_joinRow (row : Dependency) (merged : List Dependency) :
    (joinRow row merged).map Dependency.determinants =
      if row.determinants ∈ merged.map Dependency.determinants then
        merged.map Dependency.determinants
      else merged.map Dependency.determinants ++ [row.determinants] := by
  induction merged with
  | nil => rfl
  | cons first rest ih =>
    simp only [joinRow]
    by_cases same : first.determinants = row.determinants
    · simp [same]
    · rw [if_neg same, List.map_cons, ih, List.map_cons]
      by_cases later : row.determinants ∈ rest.map Dependency.determinants
      · rw [if_pos later, if_pos (List.mem_cons_of_mem _ later)]
      · rw [if_neg later, if_neg, List.cons_append]
        exact fun member => (List.mem_cons.1 member).elim (fun equal => same equal.symm) later

theorem distinct_joinRow (row : Dependency) {merged : List Dependency}
    (distinct : DistinctDeterminants merged) : DistinctDeterminants (joinRow row merged) := by
  unfold DistinctDeterminants at distinct ⊢
  rw [map_determinants_joinRow]
  split
  · exact distinct
  · next absent =>
    refine List.nodup_append.2 ⟨distinct, List.pairwise_singleton _ _, ?_⟩
    intro determinants member last isLast equal
    rw [equal, List.mem_singleton.1 isLast] at member
    exact absent member

/-! ## Joining all rows -/

/-- The last row is joined to the merged rows before it. -/
theorem mergeIdentical_append_singleton (rows : List Dependency) (row : Dependency) :
    mergeIdentical (rows ++ [row]) = joinRow row (mergeIdentical rows) := List.foldl_append

variable {rows : List Dependency}

/-- **Merged rows state what the rows state.** -/
theorem states_mergeIdentical {determinants : AttributeSet} {name : String} :
    States (mergeIdentical rows) determinants name ↔ States rows determinants name := by
  induction rows using List.reverseRecOn with
  | nil => exact Iff.rfl
  | append_singleton rows row ih =>
    rw [mergeIdentical_append_singleton, states_joinRow, states_cons, ih, states_append,
      states_singleton, or_comm]

/-- **No two merged rows have the same determinants.** -/
theorem distinct_mergeIdentical : DistinctDeterminants (mergeIdentical rows) := by
  induction rows using List.reverseRecOn with
  | nil => exact List.nodup_nil
  | append_singleton rows row ih =>
    rw [mergeIdentical_append_singleton]
    exact distinct_joinRow row ih

/-- A list without its repetitions grows by each member that it does not have. -/
theorem eraseDups_append_singleton {α : Type} [DecidableEq α] (members : List α) (last : α) :
    (members ++ [last]).eraseDups =
      if last ∈ members then members.eraseDups else members.eraseDups ++ [last] := by
  have added : [last].removeAll members = if last ∈ members then [] else [last] := by
    by_cases present : last ∈ members <;> simp [List.removeAll, present]
  rw [List.eraseDups_append, added]
  split
  · exact List.append_nil members.eraseDups
  · rfl

/-- **Merging keeps each set of determinants at its first place.** -/
theorem map_determinants_mergeIdentical (rows : List Dependency) :
    (mergeIdentical rows).map Dependency.determinants =
      (rows.map Dependency.determinants).eraseDups := by
  induction rows using List.reverseRecOn with
  | nil => rfl
  | append_singleton rows row ih =>
    rw [mergeIdentical_append_singleton, map_determinants_joinRow, ih, List.map_append,
      List.map_singleton, eraseDups_append_singleton]
    simp only [List.mem_eraseDups]

theorem mem_determinants_mergeIdentical {determinants : AttributeSet} :
    determinants ∈ (mergeIdentical rows).map Dependency.determinants ↔
      determinants ∈ rows.map Dependency.determinants := by
  rw [map_determinants_mergeIdentical, List.mem_eraseDups]

/-- A merged row holds all that the rows state about its determinants. -/
theorem mem_dependants_mergeIdentical {row : Dependency} (member : row ∈ mergeIdentical rows)
    {name : String} : name ∈ row.dependants ↔ States rows row.determinants name := by
  rw [distinct_mergeIdentical.mem_dependants member, states_mergeIdentical]

/-- **Merged rows have the closure of the rows.** -/
theorem closure_mergeIdentical (rows : List Dependency) :
    closure (mergeIdentical rows) = closure rows :=
  closure_eq_of_states_iff fun _ _ => states_mergeIdentical

theorem mentions_mergeIdentical {name : String} :
    Mentions (mergeIdentical rows) name ↔ Mentions rows name := by
  rw [mentions_iff, mentions_iff]
  simp only [states_mergeIdentical, mem_determinants_mergeIdentical]

/-! ## Grouping -/

/-- All that a list of rows states about some determinants, in one row. -/
def gathered (rows : List Dependency) (determinants : AttributeSet) : Dependency :=
  ⟨determinants, AttributeSet.unions
    ((rows.filter fun row => decide (row.determinants = determinants)).map Dependency.dependants)⟩

/-- One row for each set of determinants, in the order in which they first occur. -/
def grouped (rows : List Dependency) : List Dependency :=
  (rows.map Dependency.determinants).eraseDups.map (gathered rows)

theorem mem_dependants_gathered {determinants : AttributeSet} {name : String} :
    name ∈ (gathered rows determinants).dependants ↔ States rows determinants name := by
  show name ∈ AttributeSet.unions _ ↔ _
  simp only [AttributeSet.mem_unions_map, List.mem_filter, decide_eq_true_eq, and_assoc, States]

/-- A merged row is what the rows state about its determinants. -/
theorem gathered_of_mem {row : Dependency} (member : row ∈ mergeIdentical rows) :
    gathered rows row.determinants = row := by
  have dependants : (gathered rows row.determinants).dependants = row.dependants := by
    ext name
    rw [mem_dependants_gathered, mem_dependants_mergeIdentical member]
  obtain ⟨determinants, held⟩ := row
  exact congrArg (Dependency.mk determinants) dependants

/-- **Merging rows with equal determinants groups them.** -/
theorem mergeIdentical_eq_grouped (rows : List Dependency) :
    mergeIdentical rows = grouped rows := by
  calc mergeIdentical rows
      = (mergeIdentical rows).map id := (List.map_id _).symm
    _ = (mergeIdentical rows).map (gathered rows ∘ Dependency.determinants) :=
        List.map_congr_left fun row member => (gathered_of_mem member).symm
    _ = ((mergeIdentical rows).map Dependency.determinants).map (gathered rows) :=
        List.map_map.symm
    _ = grouped rows := by rw [map_determinants_mergeIdentical, grouped]

end RelationalDesign
