import RelationalDesign.Decomposition.Merge

/-!
# Second normal form

From a starting row on, the row in focus absorbs the rows that its dependants
lead to, and the focus moves to the row that leads on furthest; if there is
none it stays. The first time that nothing is absorbed the loop ends. Then rows
with equal determinants are merged, and overlapping rows are separated.

Two rows overlap when the determinants of one are among those of the other: then
the smaller row alone keeps the dependants that they share, and the larger row
refers to it. The rows are taken in order, and each one is compared with the
others as the earlier ones have left them.
-/

set_option autoImplicit false

namespace RelationalDesign

/-! ## Absorbing -/

/-- The focus on the row that leads on furthest, or else the same focus. -/
def Focus.moveOn (focus : Focus) : Focus := (leadingFocus? focus.rows).getD focus

/-- Moving on changes no row. -/
@[simp]
theorem Focus.rows_moveOn (focus : Focus) : focus.moveOn.rows = focus.rows := by
  unfold moveOn
  cases chosen : leadingFocus? focus.rows with
  | none => rfl
  | some next => exact rows_of_leadingFocus? chosen

/-- Absorbs and moves on until the row in focus leads to no other row. -/
def consolidate (focus : Focus) : List Dependency :=
  if focus.absorbed .determinant = [] then focus.rows
  else consolidate (focus.absorb .determinant).moveOn
termination_by focus.rows.length
decreasing_by
  next absorbs =>
    have counted := focus.length_absorb .determinant
    have := List.length_pos_iff.2 absorbs
    rw [Focus.rows_moveOn]
    omega

/-! ## Overlapping rows -/

/-- Takes the dependants of one row out of every other row whose determinants
contain those of the row. -/
def claimDependants (rows : List Dependency) (claimant : Nat) : List Dependency :=
  match rows[claimant]? with
  | none => rows
  | some smaller =>
    rows.mapIdx fun index row =>
      if index ≠ claimant ∧ smaller.determinants ⊆ row.determinants then
        row.lose smaller.dependants
      else row

/-- The rows after each of them, in order, has claimed its dependants. -/
def separate (rows : List Dependency) : List Dependency :=
  (List.range rows.length).foldl claimDependants rows

/-- For each row the references to the other rows whose determinants are among
its own. A row without determinants cannot be referred to. -/
def nestedReferences (rows : List Dependency) : References :=
  rows.mapIdx fun index row =>
    rows.zipIdx.filterMap fun (other, target) =>
      if target ≠ index ∧ other.determinants ⊆ row.determinants ∧ other.determinants ≠ ∅ then
        some ⟨other.determinants, target⟩
      else none

/-- Rows whose dependants do not overlap, with the references between them. -/
def removeOverlaps (rows : List Dependency) : Decomposition :=
  ⟨separate rows, nestedReferences rows⟩

/-! ## The second normal form -/

/-- The second normal form of a cover. -/
def secondForm (cover : List Dependency) : Decomposition :=
  let rows :=
    match startingFocus? cover with
    | none => cover
    | some focus => consolidate focus
  removeOverlaps (mergeIdentical rows)

end RelationalDesign
