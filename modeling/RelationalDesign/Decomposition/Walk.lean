import RelationalDesign.Decomposition.Merge
import RelationalDesign.Dependency.Closure

/-!
# Walking along dependants

A walk starts at one row and follows its dependants, depth first, to the rows
that they determine. Where it meets a dependant of the starting row again, the
starting row gives it up and refers to the row that holds it, as long as the
dependant stays derivable. Each row is entered at most once.

The walk is written as a list of steps still to be taken. It ends because every
row entered is a row less to enter, and every other step is taken off the list
for at most as many new steps as there are rows.

The third normal form merges the rows with equal determinants. Then a walk from
every row moves the row's transitive dependants to the rows that hold them: first
from the row that leads on furthest, then from the others in order.
-/

set_option autoImplicit false

namespace RelationalDesign

/-- The state of a walk: the decomposition so far and the rows entered. -/
structure Walk extends Decomposition where
  visited : List Nat

namespace Walk

/-- Something still to be done on a walk. -/
inductive Step where
  /-- Enter a row, unless it has been entered. -/
  | enter (row : Nat)
  /-- Look at one dependant of a row that has been entered. -/
  | reach (row : Nat) (name : String)

/-- Counts a row as entered. -/
def visit (walk : Walk) (row : Nat) : Walk := ⟨walk.toDecomposition, walk.visited.insert row⟩

/-- Whether the determinants of a row fix an attribute without the row's own entry for it. -/
def derivableWithout (rows : List Dependency) (start : Nat) (row : Dependency) (name : String) :
    Bool :=
  decide (name ∈ closure (rows.set start (row.lose {name})) row.determinants)

/-- Where the walk meets a dependant of the starting row at another row, the
starting row gives it up if it stays derivable, and refers to the other row. -/
def moveDependant (walk : Walk) (start current : Nat) (name : String) : Walk :=
  match walk.rows[start]?, walk.rows[current]? with
  | some home, some holder =>
    if current ≠ start ∧ name ∈ home.dependants ∧
        derivableWithout walk.rows start home name = true then
      { walk with
        rows := walk.rows.set start (home.lose {name})
        references := walk.references.modify start fun references =>
          if ⟨holder.determinants, current⟩ ∈ references then references
          else references ++ [⟨holder.determinants, current⟩] }
    else walk
  | _, _ => walk

/-- A look at each dependant of a row, in order. -/
def arrivals (walk : Walk) (current : Nat) : List Step :=
  match walk.rows[current]? with
  | none => []
  | some row => row.dependants.toList.map (Step.reach current)

/-- The rows that an attribute leads to: those that it determines and that have
not been entered, the starting row aside. -/
def departures (walk : Walk) (start : Nat) (name : String) : List Step :=
  walk.rows.zipIdx.filterMap fun (row, index) =>
    if index ≠ start ∧ index ∉ walk.visited ∧ name ∈ row.determinants then some (.enter index)
    else none

/-! ## The measure of a walk -/

/-- The number of rows that have not been entered. -/
def unvisited (walk : Walk) : Nat :=
  (List.range walk.rows.length).countP fun row => decide (row ∉ walk.visited)

/-- What a list of steps may cost while no row is entered. -/
def weight (count : Nat) : List Step → Nat
  | [] => 0
  | .enter _ :: later => weight count later + 1
  | .reach _ _ :: later => weight count later + (count + 1)

/-- The weights of two lists of steps add up. -/
theorem weight_append (count : Nat) (steps later : List Step) :
    weight count (steps ++ later) = weight count steps + weight count later := by
  fun_induction weight count steps <;> simp only [List.nil_append, List.cons_append, weight] <;>
    omega

/-- Moving a dependant keeps the number of rows. -/
@[simp]
theorem length_rows_moveDependant (walk : Walk) (start current : Nat) (name : String) :
    (walk.moveDependant start current name).rows.length = walk.rows.length := by
  unfold moveDependant
  split
  · split
    · exact List.length_set
    · rfl
  · rfl

/-- Moving a dependant enters no row. -/
@[simp]
theorem visited_moveDependant (walk : Walk) (start current : Nat) (name : String) :
    (walk.moveDependant start current name).visited = walk.visited := by
  unfold moveDependant
  split
  · split <;> rfl
  · rfl

/-- Moving a dependant leaves as many rows to enter as before. -/
theorem unvisited_moveDependant (walk : Walk) (start current : Nat) (name : String) :
    (walk.moveDependant start current name).unvisited = walk.unvisited := by
  simp [unvisited]

/-- An attribute leads to at most as many rows as there are. -/
theorem weight_departures_le (walk : Walk) (start : Nat) (name : String) (count : Nat) :
    weight count (walk.departures start name) ≤ walk.rows.length := by
  unfold departures
  suffices general : ∀ (rows : List Dependency) (index : Nat),
      weight count ((rows.zipIdx index).filterMap fun (row, index) =>
        if index ≠ start ∧ index ∉ walk.visited ∧ name ∈ row.determinants then
          some (Step.enter index) else none) ≤ rows.length from general walk.rows 0
  intro rows
  induction rows with
  | nil => intro index; simp [weight]
  | cons row rest ih =>
    intro index
    have later := ih (index + 1)
    simp only [List.zipIdx_cons, List.filterMap_cons, List.length_cons]
    split
    · exact Nat.le_succ_of_le later
    · next step chosen =>
      split at chosen
      · cases chosen
        simp only [weight] at later ⊢
        omega
      · cases chosen

/-- Visiting one more number in a range leaves fewer of the range unvisited. -/
theorem countP_insert_lt {visited : List Nat} {row count : Nat} (inRange : row < count)
    (fresh : row ∉ visited) :
    (List.range count).countP (fun other => decide (other ∉ visited.insert row)) <
      (List.range count).countP fun other => decide (other ∉ visited) := by
  induction count with
  | zero => omega
  | succ count ih =>
    simp only [List.range_succ, List.countP_append, List.countP_singleton, List.mem_insert_iff]
    by_cases last : row = count
    · subst last
      have same : (List.range row).countP (fun other => decide (other ∉ visited.insert row)) =
          (List.range row).countP fun other => decide (other ∉ visited) := by
        refine List.countP_congr fun other member => ?_
        have := List.mem_range.1 member
        simp only [List.mem_insert_iff, decide_eq_true_eq]
        grind
      simp only [List.mem_insert_iff] at same
      rw [same]
      simp [fresh]
    · have earlier := ih (by omega)
      simp only [List.mem_insert_iff] at earlier
      grind

/-- Entering a row for the first time leaves fewer rows to enter. -/
theorem unvisited_visit_lt {walk : Walk} {row : Nat} (inRange : row < walk.rows.length)
    (fresh : row ∉ walk.visited) : (walk.visit row).unvisited < walk.unvisited :=
  countP_insert_lt inRange fresh

/-- Entering a row never leaves more rows to enter. -/
theorem unvisited_visit_le (walk : Walk) (row : Nat) :
    (walk.visit row).unvisited ≤ walk.unvisited := by
  refine List.countP_mono_left fun other _ outside => ?_
  simp only [visit, List.mem_insert_iff, decide_eq_true_eq] at outside ⊢
  exact fun member => outside (Or.inr member)

/-- A row that does not exist has no dependants to look at. -/
theorem arrivals_eq_nil {walk : Walk} {row : Nat} (outOfRange : ¬row < walk.rows.length) :
    walk.arrivals row = [] := by
  simp [arrivals, List.getElem?_eq_none (Nat.le_of_not_lt outOfRange)]

/-! ## The walk itself -/

/-- Takes the steps of a list, each with all that follows from it before the next. -/
def run (start : Nat) (walk : Walk) : List Step → Walk
  | [] => walk
  | .enter row :: later =>
    if row ∈ walk.visited then run start walk later
    else run start (walk.visit row) ((walk.visit row).arrivals row ++ later)
  | .reach current name :: later =>
    run start (walk.moveDependant start current name)
      ((walk.moveDependant start current name).departures start name ++ later)
termination_by steps => (walk.unvisited, weight walk.rows.length steps)
decreasing_by
  · exact Prod.Lex.right _ (by simp [weight])
  · next fresh =>
    by_cases inRange : row < walk.rows.length
    · exact Prod.Lex.left _ _ (unvisited_visit_lt inRange fresh)
    · have empty : (walk.visit row).arrivals row = [] := arrivals_eq_nil inRange
      rw [empty]
      rcases Nat.lt_or_eq_of_le (walk.unvisited_visit_le row) with less | equal
      · exact Prod.Lex.left _ _ less
      · rw [equal]
        exact Prod.Lex.right _ (by simp [weight, visit])
  · rw [unvisited_moveDependant, length_rows_moveDependant]
    refine Prod.Lex.right _ ?_
    have bound := (walk.moveDependant start current name).weight_departures_le start name
      walk.rows.length
    rw [length_rows_moveDependant] at bound
    simp only [weight_append, weight]
    omega

/-- The walk from one row, which begins by entering a given row. Nothing happens
if one of the two does not exist. -/
def follow (walk : Walk) (start current : Nat) : Walk :=
  if current < walk.rows.length ∧ start < walk.rows.length then
    run start (walk.visit current) ((walk.visit current).arrivals current)
  else walk

end Walk

/-! ## Third normal form -/

/-- A walk from one row, with nothing visited before it. -/
def moveTransitive (design : Decomposition) (row : Nat) : Decomposition :=
  (Walk.follow ⟨design, []⟩ row row).toDecomposition

/-- The third normal form of a cover. -/
def thirdForm (cover : List Dependency) : Decomposition :=
  let rows := mergeIdentical cover
  let start := ((leadingFocus? rows).map Focus.index).getD 0
  let others := (List.range rows.length).filter fun row => decide (row ≠ start)
  (start :: others).foldl moveTransitive ⟨rows, List.replicate rows.length []⟩

end RelationalDesign
