/-!
# Chains of steps that can fail

A chain succeeds if all of its steps do, and an action on a list if it succeeds on every
member (`exists_mapM_eq_ok_iff`); then each result has a member that it comes from, in
order (`map_of_mapM_eq_ok`). Otherwise the first failure is that of the whole: `failure?`
turns a chain into a search, for steps one after the other (`failure?_bind`) and for the
members of a list (`failure?_mapM`).

Results that are there already are gathered in the same way, into all of their values or into
the first failure among them (`mapM_id_eq_ok_iff`, `mapM_id_eq_error_iff`).
-/

set_option autoImplicit false

namespace RelationalDesign

variable {ε α β γ : Type}

/-! ## Success -/

theorem bind_eq_ok_iff {first : Except ε α} {second : α → Except ε β} {result : β} :
    first >>= second = .ok result ↔ ∃ value, first = .ok value ∧ second value = .ok result := by
  cases first <;> simp [bind, Except.bind]

theorem exists_bind_eq_ok_iff {first : Except ε α} {second : α → Except ε β} :
    (∃ result, first >>= second = .ok result) ↔
      ∃ value, first = .ok value ∧ ∃ result, second value = .ok result := by
  cases first <;> simp [bind, Except.bind]

theorem exists_pure_eq_ok (result : α) : ∃ value, (pure result : Except ε α) = .ok value :=
  ⟨result, rfl⟩

/-- An action succeeds on a list if and only if it succeeds on every member. -/
theorem exists_mapM_eq_ok_iff {action : α → Except ε β} {members : List α} :
    (∃ results, members.mapM action = .ok results) ↔
      ∀ member ∈ members, ∃ result, action member = .ok result := by
  induction members with
  | nil => simp [pure, Except.pure]
  | cons member rest ih =>
    rw [List.mapM_cons, exists_bind_eq_ok_iff, List.forall_mem_cons, ← ih]
    simp only [exists_bind_eq_ok_iff, exists_pure_eq_ok, and_true, exists_and_right]

theorem exists_of_mapM_eq_ok {action : α → Except ε β} {members : List α} {results : List β}
    (mapped : members.mapM action = .ok results) :
    ∀ result ∈ results, ∃ member ∈ members, action member = .ok result := by
  induction members generalizing results with
  | nil =>
    cases mapped
    exact fun _ member => absurd member List.not_mem_nil
  | cons member rest ih =>
    rw [List.mapM_cons] at mapped
    obtain ⟨first, acted, mapped⟩ := bind_eq_ok_iff.1 mapped
    obtain ⟨others, mappedRest, same⟩ := bind_eq_ok_iff.1 mapped
    cases same
    refine List.forall_mem_cons.2 ⟨⟨member, List.mem_cons_self, acted⟩, fun result inRest => ?_⟩
    obtain ⟨origin, isMember, made⟩ := ih mappedRest result inRest
    exact ⟨origin, List.mem_cons_of_mem member isMember, made⟩

/-- What is seen of the results, where each result shows something of its origin. -/
theorem map_of_mapM_eq_ok {action : α → Except ε β} {look : β → γ} {origin : α → γ}
    (shows : ∀ member result, action member = .ok result → look result = origin member)
    {members : List α} {results : List β} (mapped : members.mapM action = .ok results) :
    results.map look = members.map origin := by
  induction members generalizing results with
  | nil =>
    cases mapped
    rfl
  | cons member rest ih =>
    rw [List.mapM_cons] at mapped
    obtain ⟨first, acted, mapped⟩ := bind_eq_ok_iff.1 mapped
    obtain ⟨others, mappedRest, same⟩ := bind_eq_ok_iff.1 mapped
    cases same
    rw [List.map_cons, List.map_cons, shows member first acted, ih mappedRest]

/-- An action that takes back what each member was turned into takes back the list. -/
theorem mapM_map_eq_ok {encode : α → β} {decode : β → Except ε α} {members : List α}
    (each : ∀ member ∈ members, decode (encode member) = .ok member) :
    (members.map encode).mapM decode = .ok members := by
  induction members with
  | nil => rfl
  | cons member rest ih =>
    obtain ⟨first, later⟩ := List.forall_mem_cons.1 each
    rw [List.map_cons, List.mapM_cons, first, ih later]
    rfl

/-! ## Failure -/

/-- The error of a step that fails. -/
def failure? : Except ε α → Option ε
  | .ok _ => none
  | .error error => some error

theorem failure?_eq_none_iff {step : Except ε α} :
    failure? step = none ↔ ∃ value, step = .ok value := by
  cases step <;> simp [failure?]

theorem failure?_eq_some_iff {step : Except ε α} {error : ε} :
    failure? step = some error ↔ step = .error error := by
  cases step <;> simp [failure?]

/-- A chain fails with its first failure, if how the second step fails does not depend on what
the first one gives. -/
theorem failure?_bind {first : Except ε α} {second : α → Except ε β} {later : Option ε}
    (same : ∀ value, failure? (second value) = later) :
    failure? (first >>= second) = (failure? first).or later := by
  cases first with
  | ok value => exact same value
  | error error => rfl

theorem failure?_bind_pure {first : Except ε α} {value : α → β} :
    failure? (first >>= fun result => pure (value result)) = failure? first := by
  cases first <;> rfl

theorem failure?_bind_of_some {first : Except ε α} {second : α → Except ε β} {error : ε}
    (failed : failure? first = some error) : failure? (first >>= second) = some error := by
  rw [failure?_eq_some_iff.1 failed]
  rfl

/-- An action on a list fails with the failure on the first member on which it fails. -/
theorem failure?_mapM {action : α → Except ε β} (members : List α) :
    failure? (members.mapM action) = members.findSome? fun member => failure? (action member) := by
  induction members with
  | nil => rfl
  | cons member rest ih =>
    rw [List.mapM_cons, List.findSome?_cons]
    cases acted : action member with
    | error error => rfl
    | ok value => exact failure?_bind_pure.trans ih

/-! ## Gathering results -/

theorem mapM_id_eq_ok_iff {results : List (Except ε α)} {values : List α} :
    results.mapM id = .ok values ↔ results = values.map .ok := by
  constructor
  · intro gathered
    have same : values.map Except.ok = results.map id :=
      map_of_mapM_eq_ok (fun _ _ made => made.symm) gathered
    rw [List.map_id] at same
    exact same.symm
  · rintro rfl
    exact mapM_map_eq_ok fun _ _ => rfl

/-- Results that are gathered fail with the first failure among them. -/
theorem mapM_id_eq_error_iff {results : List (Except ε α)} {error : ε} :
    results.mapM id = .error error ↔
      ∃ (values : List α) (later : List (Except ε α)),
        results = values.map .ok ++ .error error :: later := by
  rw [← failure?_eq_some_iff, failure?_mapM, List.findSome?_eq_some_iff]
  constructor
  · rintro ⟨before, failed, later, place, isError, clear⟩
    obtain ⟨values, gathered⟩ := exists_mapM_eq_ok_iff.2 fun result among =>
      failure?_eq_none_iff.1 (clear result among)
    refine ⟨values, later, ?_⟩
    rw [place, mapM_id_eq_ok_iff.1 gathered]
    exact congrArg (_ ++ · :: later) (failure?_eq_some_iff.1 isError)
  · rintro ⟨values, later, place⟩
    refine ⟨values.map .ok, .error error, later, place, rfl, fun result among => ?_⟩
    obtain ⟨value, _, rfl⟩ := List.mem_map.1 among
    rfl

/-! ## Searching -/

/-- Looks that agree on the members find the same. -/
theorem findSome?_congr {look other : α → Option β} {members : List α}
    (same : ∀ member ∈ members, look member = other member) :
    members.findSome? look = members.findSome? other := by
  induction members with
  | nil => rfl
  | cons member rest ih =>
    obtain ⟨here, later⟩ := List.forall_mem_cons.1 same
    rw [List.findSome?_cons, List.findSome?_cons, here, ih later]

theorem findSome?_flatMap {expand : α → List β} {look : β → Option γ} (members : List α) :
    (members.flatMap expand).findSome? look =
      members.findSome? fun member => (expand member).findSome? look := by
  induction members with
  | nil => rfl
  | cons member rest ih =>
    rw [List.flatMap_cons, List.findSome?_append, List.findSome?_cons, ih]
    cases (expand member).findSome? look <;> rfl

end RelationalDesign
