import RelationalDesign.Decomposition.SecondForm
import RelationalDesign.Proofs.Decomposition.Walk

/-!
# Separating overlapping rows

A row that claims its dependants takes them from the rows around it whose
determinants contain its own (`claimDependants_cases`). What such a row yields, it
still fixes by way of the claimant, so separating rows keeps their closure
(`closure_separate`) and the attributes they mention (`mentions_separate`). A row
refers to the rows that may claim from it (`mem_nestedReferences_iff`).
-/

set_option autoImplicit false

namespace RelationalDesign

/-- What is left of a row when a row with a part of its determinants claims its
own dependants. -/
def Dependency.yieldTo (row claimant : Dependency) : Dependency :=
  if claimant.determinants ⊆ row.determinants then row.lose claimant.dependants else row

theorem Dependency.determinants_yieldTo (row claimant : Dependency) :
    (row.yieldTo claimant).determinants = row.determinants := by
  unfold yieldTo
  split
  · rfl
  · rfl

/-- A row keeps the dependants that are not claimed from it. -/
theorem Dependency.mem_dependants_yieldTo {row claimant : Dependency} {name : String} :
    name ∈ (row.yieldTo claimant).dependants ↔
      name ∈ row.dependants ∧
        ¬(claimant.determinants ⊆ row.determinants ∧ name ∈ claimant.dependants) := by
  unfold yieldTo
  split
  · next contained =>
    show name ∈ row.dependants \ claimant.dependants ↔ _
    rw [AttributeSet.mem_diff]
    simp only [contained, true_and]
  · next notContained => simp only [notContained, false_and, not_false_eq_true, and_true]

theorem mapIdx_eq_map {rows : List Dependency} {indexed : Nat → Dependency → Dependency}
    {plain : Dependency → Dependency}
    (same : ∀ index < rows.length, ∀ row, indexed index row = plain row) :
    rows.mapIdx indexed = rows.map plain := by
  apply List.ext_getElem
  · rw [List.length_mapIdx, List.length_map]
  · intro index inMapped _
    rw [List.length_mapIdx] at inMapped
    rw [List.getElem_mapIdx, List.getElem_map, same index inMapped]

/-- **A claimant changes only the rows around it**, each of which yields to it. -/
theorem claimDependants_cases (rows : List Dependency) (claimant : Nat) :
    claimDependants rows claimant = rows ∨
      ∃ before row after, rows = before ++ row :: after ∧
        claimDependants rows claimant =
          before.map (fun other => other.yieldTo row) ++
            row :: after.map fun other => other.yieldTo row := by
  unfold claimDependants
  split
  · exact Or.inl rfl
  · next row found =>
    obtain ⟨before, after, rfl, rfl⟩ := exists_place_of_getElem? found
    refine Or.inr ⟨before, row, after, rfl, ?_⟩
    rw [List.mapIdx_append, List.mapIdx_cons]
    congr 1
    · apply mapIdx_eq_map
      intro index inRange other
      simp only [Nat.ne_of_lt inRange, ne_eq, not_false_eq_true, true_and, Dependency.yieldTo]
    · congr 1
      · simp only [Nat.zero_add, ne_eq, not_true_eq_false, false_and, if_false]
      · apply mapIdx_eq_map
        intro index inRange other
        have later : index + 1 + before.length ≠ before.length := by omega
        simp only [later, ne_eq, not_false_eq_true, true_and, Dependency.yieldTo]

section Yielding

variable {before after : List Dependency} {row : Dependency}

theorem mem_yielded {member : Dependency} :
    member ∈ before.map (fun other => other.yieldTo row) ++
        row :: after.map (fun other => other.yieldTo row) ↔
      member = row ∨ ∃ other ∈ before ++ after, other.yieldTo row = member := by
  rw [mem_append_cons, ← List.map_append, List.mem_map]

theorem closure_yield :
    closure (before.map (fun other => other.yieldTo row) ++
        row :: after.map fun other => other.yieldTo row) =
      closure (before ++ row :: after) := by
  apply closure_eq_of_implies
  · intro member inYielded
    rcases mem_yielded.1 inYielded with rfl | ⟨other, around, rfl⟩
    · exact implies_of_mem List.mem_append_cons_self
    · intro name dependant
      rw [Dependency.determinants_yieldTo]
      refine implies_of_mem (append_subset_append_cons around) name ?_
      exact (Dependency.mem_dependants_yieldTo.1 dependant).1
  · intro member inList
    rcases mem_append_cons.1 inList with rfl | around
    · exact implies_of_mem List.mem_append_cons_self
    · intro name dependant
      by_cases claimed : row.determinants ⊆ member.determinants ∧ name ∈ row.dependants
      · refine closed_closure _ member.determinants row List.mem_append_cons_self ?_ name claimed.2
        exact AttributeSet.subset_trans claimed.1 (subset_closure _ member.determinants)
      · have yielded := implies_of_mem (mem_yielded.2 (Or.inr ⟨member, around, rfl⟩))
          name (Dependency.mem_dependants_yieldTo.2 ⟨dependant, claimed⟩)
        rwa [Dependency.determinants_yieldTo] at yielded

theorem mentions_yield {name : String} :
    Mentions (before.map (fun other => other.yieldTo row) ++
        row :: after.map fun other => other.yieldTo row) name ↔
      Mentions (before ++ row :: after) name := by
  constructor
  · rintro ⟨member, inYielded, named⟩
    rcases mem_yielded.1 inYielded with rfl | ⟨other, around, rfl⟩
    · exact ⟨member, List.mem_append_cons_self, named⟩
    · refine ⟨other, append_subset_append_cons around, Dependency.mem_attributes.2 ?_⟩
      rw [← other.determinants_yieldTo row]
      exact (Dependency.mem_attributes.1 named).imp id fun dependant =>
        (Dependency.mem_dependants_yieldTo.1 dependant).1
  · rintro ⟨member, inList, named⟩
    rcases mem_append_cons.1 inList with rfl | around
    · exact ⟨member, List.mem_append_cons_self, named⟩
    · by_cases claimed : row.determinants ⊆ member.determinants ∧ name ∈ row.dependants
      · exact .of_dependant List.mem_append_cons_self claimed.2
      · refine ⟨_, mem_yielded.2 (Or.inr ⟨member, around, rfl⟩), Dependency.mem_attributes.2 ?_⟩
        rw [member.determinants_yieldTo row]
        exact (Dependency.mem_attributes.1 named).imp id fun dependant =>
          Dependency.mem_dependants_yieldTo.2 ⟨dependant, claimed⟩

end Yielding

/-! ## One claim after another -/

theorem closure_claimDependants (rows : List Dependency) (claimant : Nat) :
    closure (claimDependants rows claimant) = closure rows := by
  rcases claimDependants_cases rows claimant with same | ⟨before, row, after, place, claimed⟩
  · rw [same]
  · rw [claimed, place, closure_yield]

theorem mentions_claimDependants (rows : List Dependency) (claimant : Nat) (name : String) :
    Mentions (claimDependants rows claimant) name ↔ Mentions rows name := by
  rcases claimDependants_cases rows claimant with same | ⟨before, row, after, place, claimed⟩
  · rw [same]
  · rw [claimed, place, mentions_yield]

/-- What every claim preserves and the rows have, the separated rows have. -/
theorem separate_induction {motive : List Dependency → Prop}
    (claim : ∀ rows claimant, motive rows → motive (claimDependants rows claimant))
    {rows : List Dependency} (initially : motive rows) : motive (separate rows) := by
  have claims (claimants : List Nat) {current : List Dependency} (before : motive current) :
      motive (claimants.foldl claimDependants current) := by
    induction claimants generalizing current with
    | nil => exact before
    | cons claimant rest ih => exact ih (claim current claimant before)
  exact claims _ initially

/-- **Separated rows have the closure of the rows.** -/
theorem closure_separate (rows : List Dependency) : closure (separate rows) = closure rows := by
  apply separate_induction (motive := fun current => closure current = closure rows) ?_ rfl
  intro current claimant same
  rw [closure_claimDependants, same]

theorem mentions_separate {rows : List Dependency} {name : String} :
    Mentions (separate rows) name ↔ Mentions rows name := by
  apply separate_induction (motive := fun current => Mentions current name ↔ Mentions rows name) ?_
    Iff.rfl
  intro current claimant same
  rw [mentions_claimDependants, same]

/-! ## References -/

section References

variable {rows : List Dependency} {position : Nat} {row : Dependency}

theorem getElem?_nestedReferences (found : rows[position]? = some row) :
    (nestedReferences rows)[position]? = some (rows.zipIdx.filterMap fun (other, target) =>
      if target ≠ position ∧ other.determinants ⊆ row.determinants ∧ other.determinants ≠ ∅ then
        some ⟨other.determinants, target⟩
      else none) := by
  unfold nestedReferences
  rw [List.getElem?_mapIdx, found, Option.map_some]

variable {fromRow : List Reference} (isList : (nestedReferences rows)[position]? = some fromRow)
  (found : rows[position]? = some row)
include isList found

/-- **A row refers to the other rows whose determinants are among its own**, unless these are
none. -/
theorem mem_nestedReferences_iff {reference : Reference} :
    reference ∈ fromRow ↔ ∃ other, rows[reference.target]? = some other ∧
      reference.target ≠ position ∧ reference.key = other.determinants ∧
      other.determinants ⊆ row.determinants ∧ other.determinants ≠ ∅ := by
  rw [getElem?_nestedReferences found, Option.some.injEq] at isList
  rw [← isList, List.mem_filterMap]
  constructor
  · rintro ⟨⟨other, target⟩, place, recorded⟩
    obtain ⟨⟨away, nested, nonempty⟩, equal⟩ := Option.ite_none_right_eq_some.1 recorded
    cases equal
    exact ⟨other, List.mem_zipIdx_iff_getElem?.1 place, away, rfl, nested, nonempty⟩
  · obtain ⟨key, target⟩ := reference
    rintro ⟨other, place, away, rfl, nested, nonempty⟩
    exact ⟨(other, target), List.mem_zipIdx_iff_getElem?.2 place, if_pos ⟨away, nested, nonempty⟩⟩

end References

end RelationalDesign
