import RelationalDesign.Decomposition.Basic

/-!
# Roles

In a row an attribute is a determinant, a dependant or absent. Rows are chosen
for work by their roles: by how many determinants they have, by how often an
attribute is a determinant, and by whether a row leads on, that is, whether one
of its dependants is a determinant of another row.
-/

set_option autoImplicit false

namespace RelationalDesign

/-- What an attribute is in a row that mentions it. -/
inductive Role where
  | dependant
  | determinant
deriving DecidableEq

namespace Dependency

/-- The attributes that have a role in a row. -/
def inRole (row : Dependency) : Role → AttributeSet
  | .determinant => row.determinants
  | .dependant => row.dependants

/-- The role of an attribute in a row, if the row mentions it. -/
def role? (row : Dependency) (name : String) : Option Role :=
  if name ∈ row.determinants then some .determinant
  else if name ∈ row.dependants then some .dependant
  else none

/-- Whether one of the dependants of a row has the given role in another row. -/
def leadsTo (row : Dependency) (role : Role) (other : Dependency) : Bool :=
  row.dependants.meets (other.inRole role)

end Dependency

/-- In how many rows an attribute is a determinant. -/
def useCount (rows : List Dependency) (name : String) : Nat :=
  rows.countP fun row => decide (name ∈ row.determinants)

/-- Whether a dependant of the row in focus determines another row. -/
def Focus.leadsOn (focus : Focus) : Bool :=
  focus.others.any (focus.row.leadsTo .determinant)

/-- The row to start with: of the rows that use the most used determinant, the
first with the fewest determinants; the first row of all if none has any. -/
def startingFocus? (rows : List Dependency) : Option Focus :=
  let determinants := (AttributeSet.unions (rows.map Dependency.determinants)).toList
  match determinants.maxOn? (useCount rows) with
  | none => (focuses rows).head?
  | some name =>
    ((focuses rows).filter fun focus => decide (name ∈ focus.row.determinants)).minOn?
      fun focus => focus.row.determinants.size

/-- The row to go on with: of the rows with the most determinants, the first
that leads on. A row without determinants is never chosen. -/
def leadingFocus? (rows : List Dependency) : Option Focus :=
  let most := (rows.map fun row => row.determinants.size).max?.getD 0
  (focuses rows).find? fun focus =>
    decide (focus.row.determinants.size = most) && focus.leadsOn
      && decide (focus.row.determinants ≠ ∅)

/-- The row to go on with is a row of the list. -/
theorem rows_of_leadingFocus? {rows : List Dependency} {focus : Focus}
    (chosen : leadingFocus? rows = some focus) : focus.rows = rows :=
  rows_of_mem_focuses (List.mem_of_find?_eq_some chosen)

end RelationalDesign
