import RelationalDesign.Decomposition.Role

/-!
# Merging rows

A row absorbs the rows that its dependants lead to: it gains their dependants
and they disappear. Rows with the same determinants are merged into the first
of them, and the rows that disappear in this way can be counted.
-/

set_option autoImplicit false

namespace RelationalDesign

/-- The members of a list are those that are left out and those that are chosen. -/
theorem length_filter_not_add_countP {α : Type} (chosen : α → Bool) (members : List α) :
    (members.filter fun member => !chosen member).length + members.countP chosen =
      members.length := by
  have parted : members.length = _ := List.length_eq_countP_add_countP chosen
  simp only [Bool.not_eq_true, Bool.decide_eq_false] at parted
  rw [parted, ← List.countP_eq_length_filter, Nat.add_comm]

namespace Focus

/-- The other rows in which a dependant of the row in focus has the given role. -/
def absorbed (focus : Focus) (role : Role) : List Dependency :=
  focus.others.filter (focus.row.leadsTo role)

/-- The row in focus gains the dependants of the rows that it leads to, and
those rows disappear. -/
def absorb (focus : Focus) (role : Role) : Focus where
  before := focus.before.filter fun other => !focus.row.leadsTo role other
  row := focus.row.gain (AttributeSet.unions ((focus.absorbed role).map Dependency.dependants))
  after := focus.after.filter fun other => !focus.row.leadsTo role other

/-- Absorbing takes away exactly the absorbed rows. -/
theorem length_absorb (focus : Focus) (role : Role) :
    (focus.absorb role).rows.length + (focus.absorbed role).length = focus.rows.length := by
  have beforeCount := length_filter_not_add_countP (focus.row.leadsTo role) focus.before
  have afterCount := length_filter_not_add_countP (focus.row.leadsTo role) focus.after
  rw [List.countP_eq_length_filter] at beforeCount afterCount
  simp only [rows, absorb, absorbed, others, List.filter_append, List.length_append,
    List.length_cons]
  omega

end Focus

/-- Adds a row to a list of rows: to the first row with the same determinants,
or else at the end. -/
def joinRow (row : Dependency) : List Dependency → List Dependency
  | [] => [row]
  | first :: rest =>
    if first.determinants = row.determinants then
      ⟨first.determinants, first.dependants ∪ row.dependants⟩ :: rest
    else first :: joinRow row rest

/-- One row for each set of determinants, at its first place, with all dependants. -/
def mergeIdentical (rows : List Dependency) : List Dependency :=
  rows.foldl (fun merged row => joinRow row merged) []

/-- Merged rows, and the number of rows that have disappeared into others. -/
@[ext]
structure Merging where
  rows : List Dependency
  removed : Nat
deriving DecidableEq

/-- Merges one more row, which disappears if an earlier row has its determinants. -/
def Merging.add (merging : Merging) (row : Dependency) : Merging where
  rows := joinRow row merging.rows
  removed :=
    if row.determinants ∈ merging.rows.map Dependency.determinants then merging.removed + 1
    else merging.removed

/-- Merges the rows with equal determinants, and counts those that disappear. -/
def mergeCounting (rows : List Dependency) : Merging := rows.foldl Merging.add ⟨[], 0⟩

end RelationalDesign
