import RelationalDesign.Dependency.Basic

/-!
# Decompositions

A decomposition is a list of rows, each of which becomes a relation keyed by
the row's determinants, together with the references between them: for each row
the rows whose determinants it holds and points to.

A row is looked at in its place as a `Focus`: the rows before it, the row and
the rows after it. Every row of a list has exactly one focus (`focuses`), whose
rows are the list again (`rows_of_mem_focuses`).
-/

set_option autoImplicit false

namespace RelationalDesign

/-- A reference from one row to another: the referring row holds the
determinants of the target. -/
structure Reference where
  /-- The attributes that refer: the determinants of the target. -/
  key : AttributeSet
  /-- The position of the row that is referred to. -/
  target : Nat
deriving DecidableEq

/-- For each row, by position, the references that start from it. -/
abbrev References := List (List Reference)

/-- As many lists of references as asked for: the surplus is cut off, and a row
that has none yet starts with an empty list. -/
def References.resize (references : References) (count : Nat) : References :=
  references.take count ++ List.replicate (count - references.length) []

/-- Rows and the references between them. -/
structure Decomposition where
  rows : List Dependency
  references : References
deriving DecidableEq

/-! ## Rows in their place -/

/-- A row of a list together with the rows before and after it. -/
structure Focus where
  before : List Dependency
  row : Dependency
  after : List Dependency

namespace Focus

/-- The whole list. -/
def rows (focus : Focus) : List Dependency := focus.before ++ focus.row :: focus.after

/-- The position of the row. -/
def index (focus : Focus) : Nat := focus.before.length

/-- All rows but the one in focus, in order. -/
def others (focus : Focus) : List Dependency := focus.before ++ focus.after

end Focus

/-- Each row of a list in its place, in order. -/
def focuses : List Dependency → List Focus
  | [] => []
  | row :: rest =>
    ⟨[], row, rest⟩ :: (focuses rest).map fun focus => ⟨row :: focus.before, focus.row, focus.after⟩

/-- A focus on a row of a list has the rows of the list. -/
theorem rows_of_mem_focuses {focus : Focus} {rows : List Dependency}
    (member : focus ∈ focuses rows) : focus.rows = rows := by
  induction rows generalizing focus with
  | nil => simp [focuses] at member
  | cons row rest ih =>
    rcases List.mem_cons.1 member with equal | member
    · subst equal
      rfl
    · obtain ⟨inner, innerMember, equal⟩ := List.mem_map.1 member
      subst equal
      simpa [Focus.rows] using ih innerMember

end RelationalDesign
