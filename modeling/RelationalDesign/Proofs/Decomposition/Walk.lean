import RelationalDesign.Decomposition.Walk
import RelationalDesign.Proofs.Decomposition.Merge

/-!
# What a walk can do

Entering a row changes no row, so all that a walk does to a decomposition is to
move dependants, one at a time (`moveDependant_cases`). What one move preserves,
a walk preserves (`run_induction`, `moveTransitive_induction`), and so does the
third normal form, which is one walk after another (`thirdForm_induction`; what only
whole walks preserve, it preserves by `thirdForm_induction_of_walks`).

A move keeps the closure, since the dependant stays derivable
(`closure_moveDependant`), and it keeps the attributes that are mentioned
(`mentions_moveDependant`). Where no dependant is derivable without its own entry
there is nothing to move (`moveDependant_of_tight`), and walks change nothing
(`foldl_moveTransitive_of_tight`).
-/

set_option autoImplicit false

namespace RelationalDesign

theorem exists_place_of_getElem? {rows : List Dependency} {index : Nat} {row : Dependency}
    (found : rows[index]? = some row) :
    ∃ before after, rows = before ++ row :: after ∧ before.length = index := by
  obtain ⟨inRange, same⟩ := List.getElem?_eq_some_iff.1 found
  refine ⟨rows.take index, rows.drop (index + 1), ?_, ?_⟩
  · rw [← same, List.getElem_cons_drop, List.take_append_drop]
  · rw [List.length_take, Nat.min_eq_left (Nat.le_of_lt inRange)]

theorem set_place (before after : List Dependency) (row other : Dependency) :
    (before ++ row :: after).set before.length other = before ++ other :: after := by
  rw [List.set_append_right before.length other (Nat.le_refl _), Nat.sub_self, List.set_cons_zero]

theorem getElem?_place (before after : List Dependency) (row : Dependency) :
    (before ++ row :: after)[before.length]? = some row := by
  rw [List.getElem?_append_right (Nat.le_refl _), Nat.sub_self, List.getElem?_cons_zero]

theorem Dependency.mem_dependants_lose {row : Dependency} {name other : String} :
    other ∈ (row.lose {name}).dependants ↔ other ∈ row.dependants ∧ other ≠ name := by
  show other ∈ row.dependants \ {name} ↔ _
  rw [AttributeSet.mem_diff, AttributeSet.mem_singleton]

namespace Walk

/-! ## The steps that follow from a step -/

theorem exists_of_mem_arrivals {walk : Walk} {current : Nat} {step : Step}
    (member : step ∈ walk.arrivals current) :
    ∃ row name, step = .reach current name ∧ walk.rows[current]? = some row ∧
      name ∈ row.dependants := by
  unfold arrivals at member
  split at member
  · cases member
  · next row found =>
    obtain ⟨name, dependant, rfl⟩ := List.mem_map.1 member
    exact ⟨row, name, rfl, found, AttributeSet.mem_toList.1 dependant⟩

/-- An attribute leads only to rows that it determines. -/
theorem exists_of_mem_departures {walk : Walk} {start : Nat} {name : String} {step : Step}
    (member : step ∈ walk.departures start name) :
    ∃ index row, step = .enter index ∧ walk.rows[index]? = some row ∧
      name ∈ row.determinants := by
  obtain ⟨⟨row, index⟩, place, chosen⟩ := List.mem_filterMap.1 member
  obtain ⟨⟨_, _, determinant⟩, equal⟩ := Option.ite_none_right_eq_some.1 chosen
  cases equal
  exact ⟨index, row, rfl, List.mem_zipIdx_iff_getElem?.1 place, determinant⟩

/-! ## One move -/

/-- **A move leaves the walk as it is or takes a derivable dependant from the
starting row**, which then refers to the row that has been reached. -/
theorem moveDependant_cases (walk : Walk) (start current : Nat) (name : String) :
    walk.moveDependant start current name = walk ∨
      ∃ before home after holder, walk.rows = before ++ home :: after ∧ before.length = start ∧
        walk.rows[current]? = some holder ∧ current ≠ start ∧ name ∈ home.dependants ∧
        name ∈ closure (before ++ home.lose {name} :: after) home.determinants ∧
        walk.moveDependant start current name =
          { walk with
            rows := before ++ home.lose {name} :: after
            references := walk.references.modify start fun references =>
              if ⟨holder.determinants, current⟩ ∈ references then references
              else references ++ [⟨holder.determinants, current⟩] } := by
  unfold moveDependant
  split
  · next home holder homeFound holderFound =>
    split
    · next moves =>
      obtain ⟨different, dependant, derivable⟩ := moves
      obtain ⟨before, after, place, rfl⟩ := exists_place_of_getElem? homeFound
      simp only [derivableWithout, place, set_place, decide_eq_true_eq] at derivable ⊢
      rw [place] at holderFound
      exact Or.inr ⟨before, home, after, holder, rfl, rfl, holderFound, different, dependant,
        derivable, rfl⟩
    · exact Or.inl rfl
  · exact Or.inl rfl

/-- **Moving a dependant keeps the closure of the rows.** -/
theorem closure_moveDependant (walk : Walk) (start current : Nat) (name : String) :
    closure (walk.moveDependant start current name).rows = closure walk.rows := by
  rcases walk.moveDependant_cases start current name with same | moved
  · rw [same]
  · obtain ⟨before, home, after, _, place, _, _, _, _, derivable, moved⟩ := moved
    rw [moved, place]
    refine closure_replace ?_ ?_
    · intro other kept
      have dependant := (Dependency.mem_dependants_lose.1 kept).1
      exact implies_of_mem List.mem_append_cons_self other dependant
    · intro other dependant
      by_cases isName : other = name
      · exact isName ▸ derivable
      · have kept := Dependency.mem_dependants_lose.2 ⟨dependant, isName⟩
        exact implies_of_mem List.mem_append_cons_self other kept

/-- Moving a dependant keeps what the rows mention: what stays derivable is still mentioned. -/
theorem mentions_moveDependant (walk : Walk) (start current : Nat) (name other : String) :
    Mentions (walk.moveDependant start current name).rows other ↔ Mentions walk.rows other := by
  rcases walk.moveDependant_cases start current name with same | moved
  · rw [same]
  · obtain ⟨before, home, after, _, place, _, _, _, dependant, derivable, moved⟩ := moved
    rw [moved, place]
    constructor
    · rintro ⟨row, member, named⟩
      rcases mem_append_cons.1 member with equal | around
      · subst equal
        rcases Dependency.mem_attributes.1 named with determinant | kept
        · exact .of_determinant List.mem_append_cons_self determinant
        · exact .of_dependant List.mem_append_cons_self (Dependency.mem_dependants_lose.1 kept).1
      · exact ⟨row, append_subset_append_cons around, named⟩
    · have reduced : home.lose {name} ∈ before ++ home.lose {name} :: after :=
        List.mem_append_cons_self
      rintro ⟨row, member, named⟩
      rcases mem_append_cons.1 member with equal | around
      · subst equal
        rcases Dependency.mem_attributes.1 named with determinant | dependant
        · exact .of_determinant reduced determinant
        · by_cases isName : other = name
          · subst isName
            exact (mem_or_mentions_of_mem_closure derivable).elim (.of_determinant reduced) id
          · exact .of_dependant reduced (Dependency.mem_dependants_lose.2 ⟨dependant, isName⟩)
      · exact ⟨row, append_subset_append_cons around, named⟩

end Walk

/-- No dependant is derivable without its own entry. -/
def Tight (rows : List Dependency) : Prop :=
  ∀ before row after, rows = before ++ row :: after → ∀ name ∈ row.dependants,
    name ∉ closure (before ++ row.lose {name} :: after) row.determinants

/-- **Where every entry is needed, nothing is moved.** -/
theorem Walk.moveDependant_of_tight {walk : Walk} (tight : Tight walk.rows) (start current : Nat)
    (name : String) : walk.moveDependant start current name = walk := by
  rcases walk.moveDependant_cases start current name with same | moved
  · exact same
  · obtain ⟨before, home, after, _, place, _, _, _, dependant, derivable, _⟩ := moved
    exact absurd derivable (tight before home after place name dependant)

/-! ## Whole walks -/

section Invariants

variable {motive : Decomposition → Prop}
  (move : ∀ (walk : Walk) (start current : Nat) (name : String), motive walk.toDecomposition →
    motive (walk.moveDependant start current name).toDecomposition)
include move

/-- What every move preserves, the steps of a walk preserve. -/
theorem Walk.run_induction {start : Nat} (walk : Walk) {steps : List Walk.Step}
    (initially : motive walk.toDecomposition) :
    motive (Walk.run start walk steps).toDecomposition := by
  fun_induction Walk.run start walk steps with
  | case1 walk => exact initially
  | case2 walk row later entered ih => exact ih initially
  | case3 walk row later fresh ih => exact ih initially
  | case4 walk current name later ih => exact ih (move walk start current name initially)

theorem Walk.follow_induction (walk : Walk) {start current : Nat}
    (initially : motive walk.toDecomposition) :
    motive (walk.follow start current).toDecomposition := by
  unfold Walk.follow
  split
  · exact Walk.run_induction move (walk.visit current) initially
  · exact initially

theorem moveTransitive_induction {design : Decomposition} {row : Nat} (initially : motive design) :
    motive (moveTransitive design row) :=
  Walk.follow_induction move ⟨design, []⟩ initially

end Invariants

/-- Where every entry is needed, a walk leaves the rows and the references as they are. -/
theorem Walk.follow_of_tight (walk : Walk) (tight : Tight walk.rows) (start current : Nat) :
    (walk.follow start current).toDecomposition = walk.toDecomposition := by
  refine Walk.follow_induction (motive := fun design => design = walk.toDecomposition) ?_ walk rfl
  intro other start current name same
  have rows : other.rows = walk.rows := congrArg Decomposition.rows same
  rw [Walk.moveDependant_of_tight (rows ▸ tight), same]

/-- Where every entry is needed, walks leave the design as it is, wherever they start. -/
theorem foldl_moveTransitive_of_tight {design : Decomposition} (tight : Tight design.rows)
    (starts : List Nat) : starts.foldl moveTransitive design = design := by
  induction starts with
  | nil => rfl
  | cons start rest ih =>
    have still : moveTransitive design start = design :=
      Walk.follow_of_tight ⟨design, []⟩ tight start start
    rw [List.foldl_cons, still, ih]

/-- What every walk preserves and the merged rows have, the third normal form has. -/
theorem thirdForm_induction_of_walks {motive : Decomposition → Prop} {cover : List Dependency}
    (walk : ∀ design row, motive design → motive (moveTransitive design row))
    (initially : motive ⟨mergeIdentical cover, List.replicate (mergeIdentical cover).length []⟩) :
    motive (thirdForm cover) := by
  have walks (starts : List Nat) {design : Decomposition} (before : motive design) :
      motive (starts.foldl moveTransitive design) := by
    induction starts generalizing design with
    | nil => exact before
    | cons start rest ih => exact ih (walk design start before)
  exact walks _ initially

/-- **What every move preserves and the merged rows have, the third normal form has.** -/
theorem thirdForm_induction {motive : Decomposition → Prop}
    (move : ∀ (walk : Walk) (start current : Nat) (name : String), motive walk.toDecomposition →
      motive (walk.moveDependant start current name).toDecomposition) {cover : List Dependency}
    (initially : motive ⟨mergeIdentical cover, List.replicate (mergeIdentical cover).length []⟩) :
    motive (thirdForm cover) :=
  thirdForm_induction_of_walks (fun _ _ before => moveTransitive_induction move before) initially

end RelationalDesign
