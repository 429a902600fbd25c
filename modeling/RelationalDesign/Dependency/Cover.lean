import RelationalDesign.Dependency.Closure

/-!
# Covers of a list of dependencies

A cover is a list of dependencies that states the same as another one. `split`
gives every dependency a single dependant and leaves the trivial ones out.
`minimalCover` splits, then takes away the determinants that the cover can do
without, and last the rows that the other rows imply.

Both passes work from the first row to the last and see the rows as they stand
at that moment: the rows behind have been dealt with, the rows ahead have not.
-/

set_option autoImplicit false

namespace RelationalDesign

/-- The two ways of preparing dependencies for a decomposition. -/
inductive CoverMode where
  /-- The minimal cover. -/
  | minimal
  /-- The rows with a single dependant each, none of them taken away. -/
  | splitOnly
deriving DecidableEq

/-- One row for each dependant that is not a determinant of its own row. -/
def split (rows : List Dependency) : List Dependency :=
  rows.flatMap fun row =>
    (row.dependants \ row.determinants).toList.map fun name => ⟨row.determinants, {name}⟩

/-! ## Determinants that are not needed -/

/-- Takes one determinant out of a row if another one remains and the cover,
this row among it, derives the dependants from the rest. -/
def dropDeterminant (behind ahead : List Dependency) (row : Dependency) (name : String) :
    Dependency :=
  let reduced : Dependency := ⟨row.determinants.erase name, row.dependants⟩
  if 1 < row.determinants.size ∧ Implies (behind ++ row :: ahead) reduced then reduced else row

/-- Tries each determinant of a row once, in order. -/
def reduceRow (behind ahead : List Dependency) (row : Dependency) : Dependency :=
  row.determinants.toList.foldl (dropDeterminant behind ahead) row

/-- Reduces the rows that are ahead, one after the other. -/
def reduceRows (behind : List Dependency) : List Dependency → List Dependency
  | [] => []
  | row :: ahead =>
    let reduced := reduceRow behind ahead row
    reduced :: reduceRows (behind ++ [reduced]) ahead

/-! ## Rows that are not needed -/

/-- Leaves out each row ahead that the rows kept so far and the rows after it imply. -/
def pruneRows (kept : List Dependency) : List Dependency → List Dependency
  | [] => []
  | row :: ahead =>
    if Implies (kept ++ ahead) row then pruneRows kept ahead
    else row :: pruneRows (kept ++ [row]) ahead

/-- A minimal cover: single dependants, no determinant and no row that could go. -/
def minimalCover (rows : List Dependency) : List Dependency :=
  pruneRows [] (reduceRows [] (split rows))

/-- The cover that a mode asks for. -/
def CoverMode.cover : CoverMode → List Dependency → List Dependency
  | minimal, rows => minimalCover rows
  | splitOnly, rows => split rows

end RelationalDesign
