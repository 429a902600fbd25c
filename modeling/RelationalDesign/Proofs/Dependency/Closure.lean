import RelationalDesign.Dependency.Closure

/-!
# The closure is the least closed set

A property of attributes is closed under a list of dependencies if it passes
from the determinants of each of them to the dependants (`Closed`). The closure
of a set contains the set (`subset_closure`), membership in it is closed
(`closed_closure`), and every closed property that the set has is a property of
the closure (`closure_induction`). All other facts about closures follow from
these three.

That the closure is closed rests on the number of sweeps. A dependency is open
as long as one of its dependants is not known; each sweep that changes something
leaves fewer dependencies open (`openCount_sweep_lt`), so as many sweeps as there
are dependencies reach a set that no sweep changes.

Two lists that imply each other's dependencies have the same closure
(`closure_eq_of_implies`), which is how one list replaces another throughout.

The count only serves to bound the sweeps. Sweeping for as long as a sweep changes
something ends, and with the closure (`settles_iff`).
-/

set_option autoImplicit false

namespace RelationalDesign

/-- A property of attributes passes from determinants to dependants. -/
def Closed (rows : List Dependency) (holds : String → Prop) : Prop :=
  ∀ row ∈ rows, (∀ name ∈ row.determinants, holds name) → ∀ name ∈ row.dependants, holds name

/-! ## One dependency and one sweep -/

theorem Dependency.subset_extend (row : Dependency) (known : AttributeSet) :
    known ⊆ row.extend known := by
  intro name member
  unfold Dependency.extend
  split
  · exact AttributeSet.mem_union.2 (Or.inl member)
  · exact member

theorem Dependency.dependants_subset_extend {row : Dependency} {known : AttributeSet}
    (usable : row.determinants ⊆ known) : row.dependants ⊆ row.extend known := by
  intro name member
  rw [Dependency.extend, if_pos usable]
  exact AttributeSet.mem_union.2 (Or.inr member)

/-- A dependency that changes what is known has been used, and for the first time. -/
theorem Dependency.open_of_extend_ne {row : Dependency} {known : AttributeSet}
    (changed : row.extend known ≠ known) :
    row.determinants ⊆ known ∧ ¬row.dependants ⊆ known := by
  unfold Dependency.extend at changed
  split at changed
  · next usable =>
    refine ⟨usable, fun contained => changed ?_⟩
    ext name
    rw [AttributeSet.mem_union]
    exact ⟨fun member => member.elim id (contained name), Or.inl⟩
  · exact absurd rfl changed

theorem Dependency.mem_extend {row : Dependency} {known : AttributeSet} {name : String}
    (member : name ∈ row.extend known) :
    name ∈ known ∨ row.determinants ⊆ known ∧ name ∈ row.dependants := by
  unfold Dependency.extend at member
  split at member
  · next usable => exact (AttributeSet.mem_union.1 member).imp id fun added => ⟨usable, added⟩
  · exact Or.inl member

theorem sweep_cons (row : Dependency) (rest : List Dependency) (known : AttributeSet) :
    sweep (row :: rest) known = sweep rest (row.extend known) := rfl

theorem subset_sweep (rows : List Dependency) (known : AttributeSet) :
    known ⊆ sweep rows known := by
  induction rows generalizing known with
  | nil => exact AttributeSet.subset_refl known
  | cons row rest ih =>
    exact AttributeSet.subset_trans (row.subset_extend known) (ih (row.extend known))

/-- A set that a sweep leaves as it is, is closed. -/
theorem closed_of_sweep_eq {rows : List Dependency} {known : AttributeSet}
    (fixed : sweep rows known = known) : Closed rows (· ∈ known) := by
  induction rows with
  | nil =>
    intro row member
    exact absurd member List.not_mem_nil
  | cons first rest ih =>
    rw [sweep_cons] at fixed
    have unused : first.extend known = known := by
      refine AttributeSet.subset_antisymm ?_ (first.subset_extend known)
      have contained := subset_sweep rest (first.extend known)
      rwa [fixed] at contained
    rw [unused] at fixed
    intro row member usable
    rcases List.mem_cons.1 member with equal | member
    · subst equal
      have contained := Dependency.dependants_subset_extend usable
      rwa [unused] at contained
    · exact ih fixed row member usable

/-- A sweep that changes something uses a dependency for the first time. -/
theorem exists_open_of_sweep_ne {rows : List Dependency} {known : AttributeSet}
    (changed : sweep rows known ≠ known) :
    ∃ row ∈ rows, ¬row.dependants ⊆ known ∧ row.dependants ⊆ sweep rows known := by
  induction rows generalizing known with
  | nil => exact absurd rfl changed
  | cons first rest ih =>
    rw [sweep_cons] at changed ⊢
    by_cases unused : first.extend known = known
    · rw [unused] at changed ⊢
      obtain ⟨row, member, before, after⟩ := ih changed
      exact ⟨row, List.mem_cons_of_mem first member, before, after⟩
    · obtain ⟨usable, before⟩ := Dependency.open_of_extend_ne unused
      refine ⟨first, List.mem_cons_self, before, ?_⟩
      exact AttributeSet.subset_trans (Dependency.dependants_subset_extend usable)
        (subset_sweep rest (first.extend known))

/-! ## Enough sweeps -/

/-- The number of dependencies some of whose dependants are not known. -/
def openCount (rows : List Dependency) (known : AttributeSet) : Nat :=
  rows.countP fun row => decide (¬row.dependants ⊆ known)

/-- A sweep that changes something leaves fewer dependencies open. -/
theorem openCount_sweep_lt {rows : List Dependency} {known : AttributeSet}
    (changed : sweep rows known ≠ known) :
    openCount rows (sweep rows known) < openCount rows known := by
  obtain ⟨row, member, before, after⟩ := exists_open_of_sweep_ne changed
  obtain ⟨earlier, later, split⟩ := List.append_of_mem member
  have fewer (side : List Dependency) :
      openCount side (sweep rows known) ≤ openCount side known := by
    refine List.countP_mono_left fun other _ stillOpen => ?_
    simp only [decide_eq_true_eq] at stillOpen ⊢
    exact fun contained =>
      stillOpen (AttributeSet.subset_trans contained (subset_sweep rows known))
  have earlierFewer := fewer earlier
  have laterFewer := fewer later
  generalize sweep rows known = next at after earlierFewer laterFewer
  subst split
  simp only [openCount, List.countP_append, List.countP_cons, before, after, not_true_eq_false,
    not_false_eq_true, decide_true, decide_false, Bool.false_eq_true, if_true, if_false]
    at earlierFewer laterFewer ⊢
  omega

/-- A property of what is known that is closed stays with every sweep. -/
theorem sweep_induction {rows : List Dependency} {motive : String → Prop}
    (closed : Closed rows motive) {known : AttributeSet} (start : ∀ name ∈ known, motive name) :
    ∀ name ∈ sweep rows known, motive name := by
  induction rows generalizing known with
  | nil => exact start
  | cons first rest ih =>
    refine ih (fun row member => closed row (List.mem_cons_of_mem first member)) ?_
    intro name member
    rcases Dependency.mem_extend member with old | ⟨usable, added⟩
    · exact start name old
    · exact closed first List.mem_cons_self (fun other fixed => start other (usable other fixed))
        name added

theorem saturate_induction {rows : List Dependency} {motive : String → Prop}
    (closed : Closed rows motive) {rounds : Nat} {known : AttributeSet}
    (start : ∀ name ∈ known, motive name) : ∀ name ∈ saturate rows rounds known, motive name := by
  induction rounds generalizing known with
  | zero => exact start
  | succ rounds ih =>
    simp only [saturate]
    split
    · exact start
    · exact ih (sweep_induction closed start)

theorem subset_saturate (rows : List Dependency) (rounds : Nat) (known : AttributeSet) :
    known ⊆ saturate rows rounds known := by
  induction rounds generalizing known with
  | zero => exact AttributeSet.subset_refl known
  | succ rounds ih =>
    simp only [saturate]
    split
    · exact AttributeSet.subset_refl known
    · exact AttributeSet.subset_trans (subset_sweep rows known) (ih (sweep rows known))

/-- As many rounds as dependencies are open reach a closed set. -/
theorem closed_saturate {rows : List Dependency} {rounds : Nat} {known : AttributeSet}
    (enough : openCount rows known ≤ rounds) : Closed rows (· ∈ saturate rows rounds known) := by
  induction rounds generalizing known with
  | zero =>
    intro row member _ name dependant
    have noneOpen : openCount rows known = 0 := Nat.le_zero.1 enough
    have contained := List.countP_eq_zero.1 noneOpen row member
    simp only [decide_eq_true_eq, Decidable.not_not] at contained
    exact contained name dependant
  | succ rounds ih =>
    by_cases fixed : sweep rows known = known
    · simp only [saturate, fixed, if_true]
      exact closed_of_sweep_eq fixed
    · simp only [saturate, fixed, if_false]
      have fewer := openCount_sweep_lt fixed
      exact ih (by omega)

/-! ## The closure -/

theorem subset_closure (rows : List Dependency) (names : AttributeSet) :
    names ⊆ closure rows names :=
  subset_saturate rows rows.length names

/-- **Membership in a closure is closed under the dependencies.** -/
theorem closed_closure (rows : List Dependency) (names : AttributeSet) :
    Closed rows (· ∈ closure rows names) :=
  closed_saturate List.countP_le_length

/-- **A closed property of a set is a property of its closure.** -/
theorem closure_induction {rows : List Dependency} {motive : String → Prop}
    (closed : Closed rows motive) {names : AttributeSet} (start : ∀ name ∈ names, motive name) :
    ∀ name ∈ closure rows names, motive name :=
  saturate_induction closed start

theorem closure_subset_closure {rows : List Dependency} {inner outer : AttributeSet}
    (contained : inner ⊆ closure rows outer) : closure rows inner ⊆ closure rows outer :=
  closure_induction (closed_closure rows outer) contained

theorem closure_mono (rows : List Dependency) {inner outer : AttributeSet}
    (contained : inner ⊆ outer) : closure rows inner ⊆ closure rows outer :=
  closure_subset_closure (AttributeSet.subset_trans contained (subset_closure rows outer))

/-- A closure adds nothing to a closure. -/
theorem closure_closure (rows : List Dependency) (names : AttributeSet) :
    closure rows (closure rows names) = closure rows names :=
  AttributeSet.subset_antisymm
    (closure_subset_closure (AttributeSet.subset_refl (closure rows names)))
    (subset_closure rows (closure rows names))

/-! ## Implied dependencies -/

theorem implies_of_mem {rows : List Dependency} {row : Dependency} (member : row ∈ rows) :
    Implies rows row :=
  closed_closure rows row.determinants row member (subset_closure rows row.determinants)

/-- Lists with the same closure imply the same dependencies. -/
theorem implies_congr {first second : List Dependency} (same : closure first = closure second)
    {row : Dependency} : Implies first row ↔ Implies second row := by
  unfold Implies
  rw [same]

/-- A dependency with one dependant is implied if its determinants fix that one. -/
theorem implies_iff_of_single {rows : List Dependency} {row : Dependency} {name : String}
    (single : row.dependants = {name}) : Implies rows row ↔ name ∈ closure rows row.determinants := by
  unfold Implies
  rw [single]
  constructor
  · exact fun implied => implied name (AttributeSet.mem_singleton.2 rfl)
  · intro member other isName
    rwa [AttributeSet.mem_singleton.1 isName]

/-- A dependency that is implied can be used in a closure. -/
theorem Implies.dependants_subset {rows : List Dependency} {row : Dependency}
    (implied : Implies rows row) {names : AttributeSet}
    (usable : row.determinants ⊆ closure rows names) : row.dependants ⊆ closure rows names :=
  AttributeSet.subset_trans implied (closure_subset_closure usable)

/-- A list that implies another one has the larger closures. -/
theorem closure_subset_of_implies {first second : List Dependency}
    (implied : ∀ row ∈ first, Implies second row) (names : AttributeSet) :
    closure first names ⊆ closure second names :=
  closure_induction (fun row member usable => (implied row member).dependants_subset usable)
    (subset_closure second names)

/-- **Lists that imply each other have the same closure.** -/
theorem closure_eq_of_implies {first second : List Dependency}
    (forward : ∀ row ∈ first, Implies second row) (back : ∀ row ∈ second, Implies first row) :
    closure first = closure second := by
  funext names
  exact AttributeSet.subset_antisymm (closure_subset_of_implies forward names)
    (closure_subset_of_implies back names)

theorem closure_subset_of_subset {first second : List Dependency} (contained : first ⊆ second)
    (names : AttributeSet) : closure first names ⊆ closure second names :=
  closure_subset_of_implies (fun _ member => implies_of_mem (contained member)) names

/-- The order and the repetitions of a list do not matter for its closure. -/
theorem closure_congr_mem {first second : List Dependency}
    (same : ∀ row, row ∈ first ↔ row ∈ second) : closure first = closure second :=
  closure_eq_of_implies (fun row member => implies_of_mem ((same row).1 member))
    fun row member => implies_of_mem ((same row).2 member)

theorem Implies.mono {first second : List Dependency} (contained : first ⊆ second)
    {row : Dependency} (implied : Implies first row) : Implies second row :=
  AttributeSet.subset_trans implied (closure_subset_of_subset contained row.determinants)

/-! ## The least closed set -/

/-- The least set that has the given names and is closed under the dependencies. Its
members have every closed property that the given names have. -/
structure IsLeastClosed (rows : List Dependency) (names result : AttributeSet) : Prop where
  contains : names ⊆ result
  closed : Closed rows (· ∈ result)
  least : ∀ holds : String → Prop, Closed rows holds → (∀ name ∈ names, holds name) →
    ∀ name ∈ result, holds name

theorem isLeastClosed_iff {rows : List Dependency} {names result : AttributeSet} :
    IsLeastClosed rows names result ↔ result = closure rows names := by
  constructor
  · rintro ⟨contains, closed, least⟩
    refine AttributeSet.subset_antisymm ?_ (closure_induction closed contains)
    exact least _ (closed_closure rows names) (subset_closure rows names)
  · rintro rfl
    exact ⟨subset_closure rows names, closed_closure rows names,
      fun _ closed start => closure_induction closed start⟩

/-! ## Sweeping without a bound -/

/-- Sweeping for as long as a sweep changes something ends with a given set. -/
inductive Settles (rows : List Dependency) : AttributeSet → AttributeSet → Prop where
  | still {known : AttributeSet} (same : sweep rows known = known) : Settles rows known known
  | again {known result : AttributeSet} (changed : sweep rows known ≠ known)
      (later : Settles rows (sweep rows known) result) : Settles rows known result

section Settling

variable {rows : List Dependency} {known : AttributeSet}

/-- A set that is closed is left as it is by a sweep. -/
theorem sweep_eq_of_closed (closed : Closed rows (· ∈ known)) : sweep rows known = known :=
  AttributeSet.subset_antisymm (sweep_induction closed fun _ member => member)
    (subset_sweep rows known)

/-- As many rounds as dependencies are open are as good as any number. -/
theorem settles_saturate {rounds : Nat} (enough : openCount rows known ≤ rounds) :
    Settles rows known (saturate rows rounds known) := by
  induction rounds generalizing known with
  | zero => exact .still (sweep_eq_of_closed (closed_saturate enough))
  | succ rounds ih =>
    simp only [saturate]
    split
    · next same => exact .still same
    · next changed =>
      have fewer := openCount_sweep_lt changed
      exact .again changed (ih (by omega))

/-- Sweeping ends with one set only. -/
theorem Settles.unique {first second : AttributeSet} (toFirst : Settles rows known first)
    (toSecond : Settles rows known second) : first = second := by
  induction toFirst with
  | still same =>
    cases toSecond with
    | still => rfl
    | again changed => exact absurd same changed
  | again changed _ ih =>
    cases toSecond with
    | still same => exact absurd same changed
    | again _ later => exact ih later

/-- **Sweeping until nothing changes ends, and with the closure.** -/
theorem settles_iff {result : AttributeSet} :
    Settles rows known result ↔ result = closure rows known := by
  have ends : Settles rows known (closure rows known) := settles_saturate List.countP_le_length
  constructor
  · exact fun settled => settled.unique ends
  · rintro rfl
    exact ends

end Settling

end RelationalDesign
