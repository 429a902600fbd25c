import RelationalDesign.Dependency.Cover
import RelationalDesign.Decomposition.SecondForm
import RelationalDesign.Decomposition.Walk
import RelationalDesign.Decomposition.Keys

/-!
# The dependency matrix

A dependency matrix holds the dependencies that are given and the rows that are
worked on, which begin as a cover of the given ones. It has one column for each
attribute that a given dependency mentions, in order, and a cell shows the role
of the column's attribute in a row.

All work happens on the rows: what is given and the columns never change.
-/

set_option autoImplicit false

namespace RelationalDesign

/-- Given dependencies and the rows that are worked on. -/
structure DependencyMatrix where
  /-- The dependencies as they were given. -/
  given : List Dependency
  /-- How the given dependencies are made into rows. -/
  mode : CoverMode
  /-- The rows that are worked on. -/
  rows : List Dependency
deriving DecidableEq

namespace DependencyMatrix

/-- A matrix whose rows are still to be made. -/
def ofGiven (given : List Dependency) (mode : CoverMode) : DependencyMatrix := ⟨given, mode, []⟩

/-- The attributes of the columns: all that a given dependency mentions. -/
def attributes (matrix : DependencyMatrix) : AttributeSet :=
  AttributeSet.unions (matrix.given.map Dependency.attributes)

/-- Makes the rows anew from the given dependencies. -/
def canonicalize (matrix : DependencyMatrix) : DependencyMatrix :=
  { matrix with rows := matrix.mode.cover matrix.given }

/-- The role of a column's attribute in a row; nothing outside the matrix. -/
def cell (matrix : DependencyMatrix) (row column : Nat) : Option Role :=
  match matrix.rows[row]?, matrix.attributes.toList[column]? with
  | some dependency, some name => dependency.role? name
  | _, _ => none

/-- The number of determinants in each row. -/
def rowCounts (matrix : DependencyMatrix) : List Nat :=
  matrix.rows.map fun row => row.determinants.size

/-- The number of rows in which the attribute of each column is a determinant. -/
def columnCounts (matrix : DependencyMatrix) : List Nat :=
  matrix.attributes.toList.map (useCount matrix.rows)

/-- Lets a row absorb the rows that its dependants lead to. A row that does not
exist absorbs nothing. -/
def absorb (matrix : DependencyMatrix) (row : Nat) (role : Role) : DependencyMatrix :=
  match (focuses matrix.rows)[row]? with
  | none => matrix
  | some focus => { matrix with rows := (focus.absorb role).rows }

/-- Merges the rows with equal determinants. -/
def mergeIdentical (matrix : DependencyMatrix) : DependencyMatrix :=
  { matrix with rows := RelationalDesign.mergeIdentical matrix.rows }

/-- Merges the rows with equal determinants, and gives the number of rows that disappear. -/
def mergeCounting (matrix : DependencyMatrix) : DependencyMatrix × Nat :=
  let merging := RelationalDesign.mergeCounting matrix.rows
  ({ matrix with rows := merging.rows }, merging.removed)

/-- Whether a dependant of a row determines another row. -/
def leadsOn (matrix : DependencyMatrix) (row : Nat) : Bool :=
  (focuses matrix.rows)[row]?.any Focus.leadsOn

/-- The matrix with the rows of a decomposition, and the references that go with them. -/
def withDesign (matrix : DependencyMatrix) (design : Decomposition) :
    DependencyMatrix × References :=
  ({ matrix with rows := design.rows }, design.references)

/-- Separates the rows whose determinants contain each other. -/
def removeOverlaps (matrix : DependencyMatrix) : DependencyMatrix × References :=
  matrix.withDesign (RelationalDesign.removeOverlaps matrix.rows)

/-- Makes the rows anew and brings them into second normal form. -/
def toSecondForm (matrix : DependencyMatrix) : DependencyMatrix × References :=
  matrix.withDesign (secondForm (matrix.mode.cover matrix.given))

/-- Makes the rows anew and brings them into third normal form. -/
def toThirdForm (matrix : DependencyMatrix) : DependencyMatrix × References :=
  matrix.withDesign (thirdForm (matrix.mode.cover matrix.given))

/-- Walks from one row, beginning with the entry into another. Also gives the
rows that have been entered in the end, in order. -/
def follow (matrix : DependencyMatrix) (references : References) (start current : Nat)
    (visited : List Nat) : (DependencyMatrix × References) × List Nat :=
  let walk := Walk.follow ⟨⟨matrix.rows, references⟩, visited.eraseDups⟩ start current
  (matrix.withDesign walk.toDecomposition,
    walk.visited.mergeSort fun first second => decide (first ≤ second))

/-- Keeps a key in some row, with the declared attributes that no row mentions. -/
def keepKey (matrix : DependencyMatrix) (references : References) (key declared : AttributeSet) :
    DependencyMatrix × References :=
  matrix.withDesign (Decomposition.keepKey key declared ⟨matrix.rows, references⟩)

/-- Adds the references from each row to the rows whose determinants it holds. -/
def linkKeys (matrix : DependencyMatrix) (references : References) : References :=
  (Decomposition.linkKeys ⟨matrix.rows, references⟩).references

/-- The written form of a matrix: one line for each row, with its number. -/
def render (matrix : DependencyMatrix) : String :=
  String.join (matrix.rows.mapIdx fun index row => toString index ++ ": " ++ row.render ++ "\n")

end DependencyMatrix

end RelationalDesign
