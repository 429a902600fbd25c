import RelationalDesign.Proofs.Decomposition.Rows

/-!
# What the cells of a matrix show

A cell shows the role of its column's attribute in its row. Where the sides of a row are
disjoint, an attribute has a role exactly if it is on that side (`role?_eq_some_iff`), and
where a row names attributes of columns only, no member of a side is left without a cell. So
the cells of such a row show both of its sides, and their counts are the counts of
determinants (`shows_of_within`).
-/

set_option autoImplicit false

namespace RelationalDesign

/-- Determinants are looked for first, so they are recognized in any row. -/
theorem Dependency.role?_eq_determinant_iff {row : Dependency} {name : String} :
    row.role? name = some .determinant ↔ name ∈ row.determinants := by
  unfold role?
  split
  · next determinant => simp [determinant]
  · next absent => split <;> simp [absent]

theorem Dependency.role?_eq_some_iff {row : Dependency} (disjoint : row.SidesDisjoint) {role : Role}
    {name : String} : row.role? name = some role ↔ name ∈ row.inRole role := by
  cases role with
  | determinant => exact role?_eq_determinant_iff
  | dependant =>
    unfold role?
    split
    · next determinant =>
      have notDependant : name ∉ row.dependants := fun dependant =>
        disjoint name dependant determinant
      simp [inRole, notDependant]
    · simp [inRole]

/-- A set has as many members as there are among the members of a larger set. -/
theorem AttributeSet.countP_mem {names others : AttributeSet} (contained : names ⊆ others) :
    (others.toList.countP fun name => decide (name ∈ names)) = names.size := by
  have same : others.filter (fun name => decide (name ∈ names)) = names := by
    ext name
    rw [mem_filter, decide_eq_true_eq]
    exact and_iff_right_of_imp (contained name)
  calc others.toList.countP (fun name => decide (name ∈ names))
      = (others.filter fun name => decide (name ∈ names)).size := List.countP_eq_length_filter
    _ = names.size := by rw [same]

/-- All attributes that the rows mention are among the given ones. -/
def Within (attributes : AttributeSet) (rows : List Dependency) : Prop :=
  ∀ name, Mentions rows name → name ∈ attributes

namespace DependencyMatrix

variable {matrix : DependencyMatrix}

/-- The cells of a row, column by column. -/
def rowCells (matrix : DependencyMatrix) (row : Nat) : List (Option Role) :=
  (List.range matrix.attributes.size).map (matrix.cell row)

/-- The cells of a column, row by row. -/
def columnCells (matrix : DependencyMatrix) (column : Nat) : List (Option Role) :=
  (List.range matrix.rows.length).map fun row => matrix.cell row column

/-- The cells of a matrix show its rows: an attribute is on a side of a row exactly if its
column has a cell with that role there, and the counts of determinants are counts of cells. -/
structure Shows (matrix : DependencyMatrix) : Prop where
  within : Within matrix.attributes matrix.rows
  sides : ∀ (row : Nat) (dependency : Dependency), matrix.rows[row]? = some dependency →
    ∀ (role : Role) (name : String), name ∈ dependency.inRole role ↔
      ∃ column : Nat, matrix.attributes.toList[column]? = some name ∧
        matrix.cell row column = some role
  rowCounts : matrix.rowCounts = (List.range matrix.rows.length).map fun row =>
    (matrix.rowCells row).count (some .determinant)
  columnCounts : matrix.columnCounts = (List.range matrix.attributes.size).map fun column =>
    (matrix.columnCells column).count (some .determinant)

theorem cell_of_found {row column : Nat} {dependency : Dependency} {name : String}
    (found : matrix.rows[row]? = some dependency)
    (named : matrix.attributes.toList[column]? = some name) :
    matrix.cell row column = dependency.role? name := by
  unfold cell
  rw [found, named]

theorem rowCells_eq {row : Nat} {dependency : Dependency}
    (found : matrix.rows[row]? = some dependency) :
    matrix.rowCells row = matrix.attributes.toList.map dependency.role? := by
  refine List.ext_getElem (by simp [rowCells, AttributeSet.size]) fun column _ inRange => ?_
  rw [List.length_map] at inRange
  simp only [rowCells, List.getElem_map, List.getElem_range]
  exact cell_of_found found (List.getElem?_eq_getElem inRange)

theorem columnCells_eq {column : Nat} {name : String}
    (named : matrix.attributes.toList[column]? = some name) :
    matrix.columnCells column = matrix.rows.map fun row => row.role? name := by
  refine List.ext_getElem (by simp [columnCells]) fun row _ inRange => ?_
  rw [List.length_map] at inRange
  simp only [columnCells, List.getElem_map, List.getElem_range]
  exact cell_of_found (List.getElem?_eq_getElem inRange) named

/-- A row has as many cells of determinants as determinants, if its determinants are
attributes of columns. -/
theorem count_rowCells {row : Nat} {dependency : Dependency}
    (found : matrix.rows[row]? = some dependency)
    (within : dependency.determinants ⊆ matrix.attributes) :
    (matrix.rowCells row).count (some .determinant) = dependency.determinants.size := by
  rw [rowCells_eq found, List.count_eq_countP, List.countP_map, ← AttributeSet.countP_mem within]
  refine List.countP_congr fun name _ => ?_
  simp only [Function.comp, beq_iff_eq, decide_eq_true_eq, Dependency.role?_eq_determinant_iff]

/-- A column has as many cells of determinants as there are rows that use its attribute. -/
theorem count_columnCells {column : Nat} {name : String}
    (named : matrix.attributes.toList[column]? = some name) :
    (matrix.columnCells column).count (some .determinant) = useCount matrix.rows name := by
  rw [columnCells_eq named, List.count_eq_countP, List.countP_map, useCount]
  refine List.countP_congr fun row _ => ?_
  simp only [Function.comp, beq_iff_eq, decide_eq_true_eq, Dependency.role?_eq_determinant_iff]

/-- **The cells of a matrix show its rows**, if their sides are disjoint and they name
attributes of columns only. -/
theorem shows_of_within (disjoint : AllDisjoint matrix.rows)
    (within : Within matrix.attributes matrix.rows) : matrix.Shows where
  within := within
  sides row dependency found role name := by
    have member := List.mem_of_getElem? found
    have shown : dependency.role? name = some role ↔ name ∈ dependency.inRole role :=
      Dependency.role?_eq_some_iff (disjoint dependency member)
    constructor
    · intro onSide
      have mentioned : Mentions matrix.rows name := by
        cases role with
        | determinant => exact .of_determinant member onSide
        | dependant => exact .of_dependant member onSide
      obtain ⟨column, named⟩ := List.mem_iff_getElem?.1 (within name mentioned)
      exact ⟨column, named, (cell_of_found found named).trans (shown.2 onSide)⟩
    · rintro ⟨column, named, isRole⟩
      exact shown.1 ((cell_of_found found named).symm.trans isRole)
  rowCounts := by
    refine List.ext_getElem (by simp [rowCounts]) fun row inRange _ => ?_
    rw [rowCounts, List.length_map] at inRange
    have found := List.getElem?_eq_getElem inRange
    have member := List.mem_of_getElem? found
    simp only [rowCounts, List.getElem_map, List.getElem_range]
    refine (count_rowCells found fun name determinant => ?_).symm
    exact within name (.of_determinant member determinant)
  columnCounts := by
    refine List.ext_getElem (by simp [columnCounts, AttributeSet.size]) fun column inRange _ => ?_
    have named := List.getElem?_eq_getElem (l := matrix.attributes.toList) (i := column)
      (by simpa [columnCounts] using inRange)
    simp only [columnCounts, List.getElem_map, List.getElem_range]
    exact (count_columnCells named).symm

end DependencyMatrix

end RelationalDesign
