import Mathlib.Data.List.Induction
import RelationalDesign.Proofs.Decomposition.Cells

/-!
# Operations on a matrix

Whatever is done to a matrix, in whatever order and with whatever arguments, it keeps what it
was given, and its rows keep disjoint sides and, if all given dependencies have some,
determinants (`invariant_after`). Its cells show its rows, too, unless a key has been kept
since the rows were last made anew: a key may name attributes for which there is no column.

All of these are properties of the rows that narrowing and absorbing keep
(`MatrixInvariant`). So they are kept by one operation (`MatrixInvariant.perform`), and by
induction from the last operation backwards by a run of them (`MatrixInvariant.after`).
-/

set_option autoImplicit false

namespace RelationalDesign

namespace DependencyMatrix

/-- What can be done to a matrix, with the arguments it takes. -/
inductive Operation where
  | canonicalize
  | setMode (mode : CoverMode)
  | absorb (row : Nat) (role : Role)
  | mergeIdentical
  | removeOverlaps
  | toSecondForm
  | toThirdForm
  | follow (references : References) (start current : Nat) (visited : List Nat)
  | keepKey (references : References) (key declared : AttributeSet)
  | linkKeys (references : References)

namespace Operation

/-- Whether an operation makes the rows anew. -/
def renews : Operation → Bool
  | canonicalize | toSecondForm | toThirdForm => true
  | _ => false

/-- Whether an operation keeps a key in the rows. -/
def keepsKey : Operation → Bool
  | keepKey .. => true
  | _ => false

theorem renews_eq_false_of_keepsKey {operation : Operation} (keeps : operation.keepsKey = true) :
    operation.renews = false := by
  cases operation with
  | keepKey => rfl
  | _ => cases keeps

/-- The operations after the last one that makes the rows anew, latest first. -/
def sinceRenewed (operations : List Operation) : List Operation :=
  operations.reverse.takeWhile fun operation => !operation.renews

end Operation

/-- The matrix after an operation, and the references that the operation gives. -/
def perform (matrix : DependencyMatrix) : Operation → DependencyMatrix × References
  | .canonicalize => (matrix.canonicalize, [])
  | .setMode mode => ({ matrix with mode }, [])
  | .absorb row role => (matrix.absorb row role, [])
  | .mergeIdentical => (matrix.mergeIdentical, [])
  | .removeOverlaps => matrix.removeOverlaps
  | .toSecondForm => matrix.toSecondForm
  | .toThirdForm => matrix.toThirdForm
  | .follow references start current visited => (matrix.follow references start current visited).1
  | .keepKey references key declared => matrix.keepKey references key declared
  | .linkKeys references => (matrix, matrix.linkKeys references)

/-- The matrix after some operations, one after the other. -/
def after (matrix : DependencyMatrix) (operations : List Operation) : DependencyMatrix :=
  operations.foldl (fun matrix operation => (matrix.perform operation).1) matrix

/-! ## Runs from their end -/

theorem after_append_singleton (matrix : DependencyMatrix) (operations : List Operation)
    (last : Operation) :
    matrix.after (operations ++ [last]) = ((matrix.after operations).perform last).1 :=
  List.foldl_append

theorem Operation.sinceRenewed_append_singleton (operations : List Operation) (last : Operation) :
    sinceRenewed (operations ++ [last]) =
      if last.renews then [] else last :: sinceRenewed operations := by
  unfold sinceRenewed
  rw [List.reverse_append, List.reverse_singleton, List.singleton_append, List.takeWhile_cons]
  cases last.renews <;> rfl

/-- What is given is not touched by an operation. -/
theorem given_perform (matrix : DependencyMatrix) (operation : Operation) :
    (matrix.perform operation).1.given = matrix.given := by
  cases operation with
  | absorb row role =>
    show (matrix.absorb row role).given = matrix.given
    unfold absorb
    split <;> rfl
  | _ => rfl

theorem given_after (matrix : DependencyMatrix) (operations : List Operation) :
    (matrix.after operations).given = matrix.given := by
  induction operations using List.reverseRecOn with
  | nil => rfl
  | append_singleton earlier last ih => rw [after_append_singleton, given_perform, ih]

end DependencyMatrix

/-! ## Properties that operations keep -/

/-- A property of rows that is kept when rows are narrowed or absorbed, in either role. -/
structure MatrixInvariant (holds : List Dependency → Prop) : Prop extends RowInvariant holds where
  absorbDependant : ∀ focus : Focus, holds focus.rows → holds (focus.absorb .dependant).rows

/-- Keeping a key in the rows keeps a property of them. -/
def KeepsWithKey (holds : List Dependency → Prop) : Prop :=
  ∀ (design : Decomposition) (key declared : AttributeSet), holds design.rows →
    holds (design.keepKey key declared).rows

namespace MatrixInvariant

open DependencyMatrix (Operation)

variable {holds : List Dependency → Prop} (invariant : MatrixInvariant holds)
include invariant

/-- **One operation keeps a property of the rows**, and it need not hold before if the rows are
made anew. -/
theorem perform {matrix : DependencyMatrix} (operation : Operation)
    (covered : holds (matrix.mode.cover matrix.given))
    (before : operation.renews = false → holds matrix.rows)
    (keeps : operation.keepsKey = true → KeepsWithKey holds) :
    holds (matrix.perform operation).1.rows := by
  cases operation with
  | canonicalize => exact covered
  | setMode | linkKeys => exact before rfl
  | absorb row role =>
    show holds (matrix.absorb row role).rows
    unfold DependencyMatrix.absorb
    split
    · exact before rfl
    · next focus found =>
      have inFocus : holds focus.rows :=
        (rows_of_mem_focuses (List.mem_of_getElem? found)).symm ▸ before rfl
      cases role with
      | determinant => exact invariant.absorb focus inFocus
      | dependant => exact invariant.absorbDependant focus inFocus
  | mergeIdentical => exact invariant.narrow _ _ (narrows_mergeIdentical _) (before rfl)
  | removeOverlaps => exact invariant.narrow _ _ (narrows_separate _) (before rfl)
  | toSecondForm => exact invariant.secondForm covered
  | toThirdForm => exact invariant.thirdForm covered
  | follow references start current visited =>
    exact invariant.follow ⟨⟨matrix.rows, references⟩, visited.eraseDups⟩ (before rfl)
  | keepKey references key declared =>
    exact keeps rfl ⟨matrix.rows, references⟩ key declared (before rfl)

/-- **A run of operations keeps a property of the rows** that every cover has. Keeping a key
matters only if it is done after the rows have last been made anew. -/
theorem after {matrix : DependencyMatrix}
    (covered : ∀ mode : CoverMode, holds (mode.cover matrix.given)) (initially : holds matrix.rows)
    (operations : List Operation)
    (keeps : ∀ operation ∈ Operation.sinceRenewed operations, operation.keepsKey = true →
      KeepsWithKey holds) :
    holds (matrix.after operations).rows := by
  induction operations using List.reverseRecOn with
  | nil => exact initially
  | append_singleton earlier last ih =>
    have coveredThen (mode : CoverMode) : holds (mode.cover (matrix.after earlier).given) := by
      rw [DependencyMatrix.given_after]
      exact covered mode
    rw [DependencyMatrix.after_append_singleton]
    rw [Operation.sinceRenewed_append_singleton] at keeps
    cases renewed : last.renews with
    | true =>
      refine invariant.perform last (coveredThen _) (fun old => ?_) (fun keepsKey => ?_)
      · exact Bool.noConfusion (renewed.symm.trans old)
      · exact Bool.noConfusion
          (renewed.symm.trans (Operation.renews_eq_false_of_keepsKey keepsKey))
    | false =>
      rw [renewed] at keeps
      obtain ⟨here, before⟩ := List.forall_mem_cons.1 keeps
      exact invariant.perform last (coveredThen _) (fun _ => ih before) here

end MatrixInvariant

theorem matrixInvariant_allDisjoint : MatrixInvariant AllDisjoint :=
  { rowInvariant_allDisjoint with absorbDependant := fun _ disjoint => disjoint.absorb .dependant }

theorem matrixInvariant_keyed : MatrixInvariant Keyed where
  narrow _ _ narrows keyed := keyed.of_subset narrows.determinants
  absorb focus keyed := keyed.of_subset (focus.determinants_absorb_subset .determinant)
  absorbDependant focus keyed := keyed.of_subset (focus.determinants_absorb_subset .dependant)

theorem matrixInvariant_within (attributes : AttributeSet) :
    MatrixInvariant (Within attributes) where
  narrow rows others narrows within name mentioned := by
    refine within name (mentions_iff.2 ?_)
    rcases mentions_iff.1 mentioned with ⟨determinants, among, determinant⟩ | ⟨determinants, stated⟩
    · exact Or.inl ⟨determinants, narrows.determinants among, determinant⟩
    · exact Or.inr ⟨determinants, narrows.states determinants name stated⟩
  absorb _ within name mentioned := within name (Focus.mentions_absorb mentioned)
  absorbDependant _ within name mentioned := within name (Focus.mentions_absorb mentioned)

theorem keepsWithKey_keyed : KeepsWithKey Keyed := by
  intro design key declared keyed
  by_cases empty : key = ∅
  · rw [Decomposition.keepKey, if_pos empty]
    exact keyed
  · exact (keyed_keepKey_iff empty).2 keyed

namespace DependencyMatrix

/-- **Whatever is done to a matrix**, what it was given and its columns stay, the sides of its
rows are disjoint, and its rows have determinants if the given dependencies have. Its cells
show its rows if no key has been kept since they were last made anew. -/
theorem invariant_after (given : List Dependency) (mode : CoverMode) (operations : List Operation) :
    ((ofGiven given mode).after operations).given = given ∧
      ((ofGiven given mode).after operations).attributes = (ofGiven given mode).attributes ∧
      AllDisjoint ((ofGiven given mode).after operations).rows ∧
      (Keyed given → Keyed ((ofGiven given mode).after operations).rows) ∧
      ((∀ operation ∈ Operation.sinceRenewed operations, operation.keepsKey = false) →
        ((ofGiven given mode).after operations).Shows) := by
  have sameGiven : ((ofGiven given mode).after operations).given = given := given_after _ operations
  have sameAttributes : ((ofGiven given mode).after operations).attributes =
      (ofGiven given mode).attributes := by
    unfold attributes
    rw [given_after]
  have disjoint : AllDisjoint ((ofGiven given mode).after operations).rows :=
    matrixInvariant_allDisjoint.after (fun mode => allDisjoint_cover mode given)
      (fun _ member => absurd member List.not_mem_nil) operations
      fun _ _ _ _ key declared disjoint => disjoint.keepKey key declared
  refine ⟨sameGiven, sameAttributes, disjoint, fun keyed => ?_, fun noKey => ?_⟩
  · have covered (mode : CoverMode) : Keyed (mode.cover given) :=
      (keyed_cover_iff mode).2 fun row member empty => absurd empty (keyed row member)
    exact matrixInvariant_keyed.after covered (fun _ member => absurd member List.not_mem_nil)
      operations fun _ _ _ => keepsWithKey_keyed
  · refine shows_of_within disjoint ?_
    rw [sameAttributes]
    refine (matrixInvariant_within _).after (fun mode name mentioned => ?_) ?_ operations ?_
    · exact AttributeSet.mem_unions_map.2 mentioned.of_cover
    · rintro name ⟨_, member, _⟩
      exact absurd member List.not_mem_nil
    · intro operation member keeps
      exact Bool.noConfusion (keeps.symm.trans (noKey operation member))

theorem invariant_after_repairs :
    let given : List Dependency := [⟨{"car"}, {"owner"}⟩, ⟨{"owner"}, {"city"}⟩,
      ⟨{"car", "date"}, {"price"}⟩]
    let operations : List Operation := [.keepKey [] {"invoice"} {"note"}, .canonicalize,
      .absorb 0 .determinant, .absorb 7 .dependant, .linkKeys [], .setMode .splitOnly]
    let matrix := (ofGiven given .minimal).after operations
    Keyed given ∧
      (∀ operation ∈ Operation.sinceRenewed operations, operation.keepsKey = false) ∧
      matrix.rows = [⟨{"car"}, {"city", "owner"}⟩, ⟨{"car", "date"}, {"price"}⟩] ∧
      matrix.given = given ∧ AllDisjoint matrix.rows ∧ Keyed matrix.rows ∧ matrix.Shows := by
  intro given operations matrix
  have keyed : Keyed given := by
    unfold Keyed
    decide
  have noKey : ∀ operation ∈ Operation.sinceRenewed operations, operation.keepsKey = false := by
    decide
  obtain ⟨sameGiven, _, disjoint, stillKeyed, shows⟩ := invariant_after given .minimal operations
  exact ⟨keyed, noKey, by decide, sameGiven, disjoint, stillKeyed keyed, shows noKey⟩

end DependencyMatrix

end RelationalDesign
