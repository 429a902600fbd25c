import RelationalDesign.Proofs.Decomposition.Walk

/-!
# The walk as a recursion

A walk takes its steps off one list, and puts the steps that follow from a step in front of
the others. What it computes is a recursion: to follow a row is to enter it and to look at its
dependants in order, and the rows that a dependant leads to are followed, each unless it has
been entered by then, before the next dependant is looked at (`Calls`).

Following a row always ends, and it has one result, which is that of the walk
(`calls_row_iff`).
-/

set_option autoImplicit false

namespace RelationalDesign

namespace Walk

/-- What the recursion is called for. -/
inductive Call where
  /-- To follow a row. -/
  | row (current : Nat)
  /-- To take steps one after another. -/
  | loop (steps : List Step)

/-- The walk after a call, which begins with the given walk. -/
inductive Calls (start : Nat) : Call → Walk → Walk → Prop
  /-- Nothing happens if one of the two rows does not exist. -/
  | outside {walk : Walk} {current : Nat}
      (missing : ¬(current < walk.rows.length ∧ start < walk.rows.length)) :
      Calls start (.row current) walk walk
  /-- The row is entered, and the dependants that it has then are looked at. -/
  | enter {walk after : Walk} {current : Nat}
      (inRange : current < walk.rows.length ∧ start < walk.rows.length)
      (inside : Calls start (.loop ((walk.visit current).arrivals current)) (walk.visit current)
        after) :
      Calls start (.row current) walk after
  | done {walk : Walk} : Calls start (.loop []) walk walk
  /-- A dependant is moved if need be, and the rows to go to are chosen, before any of them is
  followed. -/
  | reach {walk between after : Walk} {current : Nat} {name : String} {later : List Step}
      (inside : Calls start
        (.loop ((walk.moveDependant start current name).departures start name))
        (walk.moveDependant start current name) between)
      (rest : Calls start (.loop later) between after) :
      Calls start (.loop (.reach current name :: later)) walk after
  /-- A row that has been entered since it was chosen is left out. -/
  | skip {walk after : Walk} {row : Nat} {later : List Step} (entered : row ∈ walk.visited)
      (rest : Calls start (.loop later) walk after) :
      Calls start (.loop (.enter row :: later)) walk after
  | descend {walk between after : Walk} {row : Nat} {later : List Step}
      (fresh : row ∉ walk.visited) (inside : Calls start (.row row) walk between)
      (rest : Calls start (.loop later) between after) :
      Calls start (.loop (.enter row :: later)) walk after

variable {start : Nat} {walk after : Walk}

/-- **A call has one result.** -/
theorem Calls.unique {call : Call} {other : Walk} (calls : Calls start call walk after)
    (again : Calls start call walk other) : after = other := by
  induction calls generalizing other with
  | outside missing =>
    cases again with
    | outside => rfl
    | enter inRange => exact absurd inRange missing
  | enter inRange _ ih =>
    cases again with
    | outside missing => exact absurd inRange missing
    | enter _ inside => exact ih inside
  | done =>
    cases again with
    | done => rfl
  | reach _ _ ihInside ihRest =>
    cases again with
    | reach inside rest =>
      obtain rfl := ihInside inside
      exact ihRest rest
  | skip entered _ ih =>
    cases again with
    | skip _ rest => exact ih rest
    | descend fresh => exact absurd entered fresh
  | descend fresh _ _ ihInside ihRest =>
    cases again with
    | skip entered => exact absurd entered fresh
    | descend _ inside rest =>
      obtain rfl := ihInside inside
      exact ihRest rest

/-- Steps in a row are taken by taking the first ones and then the others. -/
theorem Calls.exists_of_append {first second : List Step}
    (calls : Calls start (.loop (first ++ second)) walk after) :
    ∃ between, Calls start (.loop first) walk between ∧
      Calls start (.loop second) between after := by
  induction first generalizing walk with
  | nil => exact ⟨walk, .done, calls⟩
  | cons step rest ih =>
    cases calls with
    | reach inside later =>
      obtain ⟨between, taken, left⟩ := ih later
      exact ⟨between, .reach inside taken, left⟩
    | skip entered later =>
      obtain ⟨between, taken, left⟩ := ih later
      exact ⟨between, .skip entered taken, left⟩
    | descend fresh inside later =>
      obtain ⟨between, taken, left⟩ := ih later
      exact ⟨between, .descend fresh inside taken, left⟩

/-- The rows that the steps enter exist. -/
def EntersRows (walk : Walk) (steps : List Step) : Prop :=
  ∀ row, .enter row ∈ steps → row < walk.rows.length

theorem entersRows_arrivals (current : Nat) : walk.EntersRows (walk.arrivals current) := by
  intro row member
  obtain ⟨_, _, isReach, _⟩ := exists_of_mem_arrivals member
  cases isReach

theorem entersRows_departures (start : Nat) (name : String) :
    walk.EntersRows (walk.departures start name) := by
  intro row member
  obtain ⟨_, _, same, found, _⟩ := exists_of_mem_departures member
  cases same
  exact (List.getElem?_eq_some_iff.1 found).1

theorem EntersRows.append {first second : List Step} (inFirst : walk.EntersRows first)
    (inSecond : walk.EntersRows second) : walk.EntersRows (first ++ second) :=
  fun row member => (List.mem_append.1 member).elim (inFirst row) (inSecond row)

/-- **Taking the steps off a list is taking them by recursion**, as long as they enter rows. -/
theorem calls_run {steps : List Step} (home : start < walk.rows.length)
    (enters : walk.EntersRows steps) : Calls start (.loop steps) walk (run start walk steps) := by
  fun_induction run start walk steps with
  | case1 walk => exact .done
  | case2 walk row later entered ih =>
    exact .skip entered (ih home fun row member => enters row (List.mem_cons_of_mem _ member))
  | case3 walk row later fresh ih =>
    have entersLater : walk.EntersRows later :=
      fun row member => enters row (List.mem_cons_of_mem _ member)
    have entersAll : (walk.visit row).EntersRows ((walk.visit row).arrivals row ++ later) :=
      (entersRows_arrivals row).append entersLater
    obtain ⟨between, inside, rest⟩ := (ih home entersAll).exists_of_append
    exact .descend fresh (.enter ⟨enters row List.mem_cons_self, home⟩ inside) rest
  | case4 walk current name later ih =>
    have same := walk.length_rows_moveDependant start current name
    have entersLater : (walk.moveDependant start current name).EntersRows later := by
      intro row member
      rw [same]
      exact enters row (List.mem_cons_of_mem _ member)
    have entersAll := (entersRows_departures start name).append entersLater
    obtain ⟨between, inside, rest⟩ := (ih (same ▸ home) entersAll).exists_of_append
    exact .reach inside rest

/-- **Following a row by recursion ends with the result of the walk**, and with no other. -/
theorem calls_row_iff {current : Nat} :
    Calls start (.row current) walk after ↔ after = walk.follow start current := by
  have calls : Calls start (.row current) walk (walk.follow start current) := by
    unfold follow
    split
    · next inRange => exact .enter inRange (calls_run inRange.2 (entersRows_arrivals current))
    · next missing => exact .outside missing
  exact ⟨fun other => other.unique calls, fun same => same ▸ calls⟩

end Walk

end RelationalDesign
