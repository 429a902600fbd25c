import RelationalDesign.Decomposition.Matrix
import RelationalDesign.Proofs.Decomposition.Walk
import RelationalDesign.Proofs.Dependency.Cover

/-!
# The third normal form keeps the dependencies

Covering, merging and walking each keep the closure, so the rows of the third
normal form of a matrix have the closure of the dependencies it was given
(`closure_toThirdForm`). They also mention the same attributes as the cover
(`mentions_thirdForm`).

On a minimal cover the walks find nothing to move: an entry of a merged row is
a row of the cover, and if it could be derived without that row then the cover
would be redundant (`tight_mergeIdentical`).
-/

set_option autoImplicit false

namespace RelationalDesign

theorem closure_thirdForm (cover : List Dependency) :
    closure (thirdForm cover).rows = closure cover := by
  refine thirdForm_induction (motive := fun design => closure design.rows = closure cover) ?_ ?_
  · intro walk start current name same
    rw [walk.closure_moveDependant, same]
  · exact closure_mergeIdentical cover

theorem mentions_thirdForm {cover : List Dependency} {name : String} :
    Mentions (thirdForm cover).rows name ↔ Mentions cover name := by
  refine thirdForm_induction
    (motive := fun design => Mentions design.rows name ↔ Mentions cover name) ?_ ?_
  · intro walk start current moved same
    rw [walk.mentions_moveDependant, same]
  · exact mentions_mergeIdentical

theorem spans_thirdForm {cover : List Dependency} {key : AttributeSet} :
    Spans (thirdForm cover).rows key ↔ Spans cover key :=
  spans_congr (closure_thirdForm cover) fun _ => mentions_thirdForm

/-- **The rows of the third normal form have the closure of the given dependencies.** -/
theorem closure_toThirdForm (matrix : DependencyMatrix) (names : AttributeSet) :
    closure matrix.toThirdForm.1.rows names = closure matrix.given names := by
  show closure (thirdForm (matrix.mode.cover matrix.given)).rows names = closure matrix.given names
  rw [closure_thirdForm, closure_cover]

/-- What is covered implies each row of its third normal form. -/
theorem implies_of_mem_thirdForm {mode : CoverMode} {given : List Dependency} {row : Dependency}
    (member : row ∈ (thirdForm (mode.cover given)).rows) : Implies given row := by
  have same : closure (thirdForm (mode.cover given)).rows = closure given :=
    (closure_thirdForm (mode.cover given)).trans (closure_cover mode given)
  exact (implies_congr same).1 (implies_of_mem member)

/-! ## Rows with nothing to move -/

/-- Where every entry is needed, the third normal form is the merged rows. -/
theorem thirdForm_of_tight {cover : List Dependency} (tight : Tight (mergeIdentical cover)) :
    thirdForm cover =
      ⟨mergeIdentical cover, List.replicate (mergeIdentical cover).length []⟩ :=
  foldl_moveTransitive_of_tight tight _

/-- **In merged rows of an irredundant cover with single dependants every entry is needed.** -/
theorem tight_mergeIdentical {cover : List Dependency}
    (single : ∀ row ∈ cover, ∃ name, row.dependants = {name}) (irredundant : Irredundant cover) :
    Tight (mergeIdentical cover) := by
  intro before row after place name dependant derivable
  have member : row ∈ mergeIdentical cover := place ▸ List.mem_append_cons_self
  have distinct : DistinctDeterminants (before ++ row :: after) := place ▸ distinct_mergeIdentical
  obtain ⟨origin, inCover, same, stated⟩ := (mem_dependants_mergeIdentical member).1 dependant
  obtain ⟨only, isOnly⟩ := single origin inCover
  obtain rfl : name = only := AttributeSet.mem_singleton.1 (isOnly ▸ stated)
  obtain ⟨earlier, later, cut⟩ := List.append_of_mem inCover
  -- what is left after the entry has been taken out, rows other than its origin state
  have remaining (determinants : AttributeSet) (other : String)
      (left : States (before ++ row.lose {name} :: after) determinants other) :
      States (earlier ++ later) determinants other := by
    obtain ⟨merged, inList, rfl, kept⟩ := left
    rcases mem_append_cons.1 inList with equal | around
    · subst equal
      obtain ⟨inRow, notName⟩ := Dependency.mem_dependants_lose.1 kept
      refine States.leave_out (cut ▸ (mem_dependants_mergeIdentical member).1 inRow) ?_
      rintro ⟨_, fromOrigin⟩
      exact notName (AttributeSet.mem_singleton.1 (isOnly ▸ fromOrigin))
    · have inMerged : merged ∈ mergeIdentical cover := place ▸ append_subset_append_cons around
      refine States.leave_out (cut ▸ (mem_dependants_mergeIdentical inMerged).1 kept) ?_
      rintro ⟨fromOrigin, _⟩
      exact distinct.ne_of_mem around (fromOrigin.symm.trans same)
  refine irredundant earlier origin later cut fun other isOther => ?_
  have isName : other = name := AttributeSet.mem_singleton.1 (isOnly ▸ isOther)
  rw [isName, same]
  exact closure_subset_of_states remaining row.determinants name derivable

theorem tight_mergeIdentical_minimalCover (given : List Dependency) :
    Tight (mergeIdentical (minimalCover given)) := by
  refine tight_mergeIdentical (fun row member => ?_) (irredundant_minimalCover given)
  obtain ⟨name, single, _⟩ := single_minimalCover member
  exact ⟨name, single⟩

/-- **The third normal form of a minimal cover is its rows, merged.** -/
theorem thirdForm_minimalCover (given : List Dependency) :
    thirdForm (minimalCover given) = ⟨mergeIdentical (minimalCover given),
      List.replicate (mergeIdentical (minimalCover given)).length []⟩ :=
  thirdForm_of_tight (tight_mergeIdentical_minimalCover given)

end RelationalDesign
