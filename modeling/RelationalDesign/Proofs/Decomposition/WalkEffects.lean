import RelationalDesign.Proofs.Decomposition.WalkRecursion

/-!
# What a walk changes

A walk from a row changes this row and its references only, and only by moving dependants
(`Effects`). What the row gives up is held, in the end, by another row that the walk has
entered, and the row refers to it (`HeldAt`).

The effects of calls one after another add up (`Effects.trans`), since rows other than the
starting one do not change: where a dependant is held, it stays held (`HeldAt.mono`). So the
effects of a call follow by induction on the recursion (`Calls.effects`). At a look at a
dependant of a row, the row has been entered and still holds the dependant
(`Call.Ready`), unless it is the starting row, from which nothing is moved to itself.

Together with the recursion this says what following a row does, and that it ends
(`effects_follow`).
-/

set_option autoImplicit false

namespace RelationalDesign

namespace Walk

/-- A row other than the starting one that the walk has entered has the name among its
dependants, and the starting row refers to it, if it has a list of references. -/
structure HeldAt (start : Nat) (walk : Walk) (name : String) (target : Nat) : Prop where
  away : target ≠ start
  entered : target ∈ walk.visited
  holder : ∃ holder : Dependency, walk.rows[target]? = some holder ∧ name ∈ holder.dependants ∧
    ∀ fromStart : List Reference, walk.references[start]? = some fromStart →
      ⟨holder.determinants, target⟩ ∈ fromStart

/-- What may change on a walk from a starting row, if dependants are moved to rows of an origin
or to rows that the walk enters. -/
structure Effects (start : Nat) (origin : Nat → Prop) (before after : Walk) : Prop where
  length : after.rows.length = before.rows.length
  rows : ∀ position, position ≠ start → after.rows[position]? = before.rows[position]?
  listed : after.references.length = before.references.length
  lists : ∀ position, position ≠ start →
    after.references[position]? = before.references[position]?
  /-- The starting row keeps its determinants, gains no dependant, and loses only dependants
  that are held elsewhere. -/
  home : ∀ row : Dependency, before.rows[start]? = some row → ∃ left : Dependency,
    after.rows[start]? = some left ∧ left.determinants = row.determinants ∧
      left.dependants ⊆ row.dependants ∧
      ∀ name ∈ row.dependants, name ∉ left.dependants →
        ∃ target, HeldAt start after name target ∧ (origin target ∨ target ∉ before.visited)
  closure : ∀ names, closure after.rows names = closure before.rows names
  /-- References of the starting row are added at the end, each of them once. -/
  references : ∀ fromStart : List Reference, before.references[start]? = some fromStart →
    ∃ added : List Reference, after.references[start]? = some (fromStart ++ added) ∧
      added.Nodup ∧ ∀ reference ∈ added, reference.target ≠ start ∧ reference ∉ fromStart
  visited : ∀ row ∈ before.visited, row ∈ after.visited

variable {start : Nat} {origin : Nat → Prop} {before between after : Walk}

/-! ## Effects one after another -/

/-- A list of references that the starting row has after some effects continues the one that it
had before. -/
theorem Effects.exists_prefix (effects : Effects start origin before after)
    {fromStart : List Reference} (isList : after.references[start]? = some fromStart) :
    ∃ earlier, before.references[start]? = some earlier ∧ earlier <+: fromStart := by
  obtain ⟨inRange, _⟩ := List.getElem?_eq_some_iff.1 isList
  rw [effects.listed] at inRange
  obtain ⟨added, continued, _⟩ := effects.references _ (List.getElem?_eq_getElem inRange)
  refine ⟨_, List.getElem?_eq_getElem inRange, added, ?_⟩
  exact Option.some.inj (continued.symm.trans isList)

/-- **What is held before some effects is held after them.** -/
theorem HeldAt.mono {name : String} {target : Nat} (held : HeldAt start before name target)
    (effects : Effects start origin before after) : HeldAt start after name target where
  away := held.away
  entered := effects.visited target held.entered
  holder := by
    obtain ⟨holder, found, dependant, refers⟩ := held.holder
    refine ⟨holder, (effects.rows target held.away).trans found, dependant, ?_⟩
    intro fromStart isList
    obtain ⟨earlier, wasList, continued⟩ := effects.exists_prefix isList
    exact continued.subset (refers earlier wasList)

namespace Effects

theorem refl (start : Nat) (origin : Nat → Prop) (walk : Walk) :
    Effects start origin walk walk where
  length := rfl
  rows _ _ := rfl
  listed := rfl
  lists _ _ := rfl
  home row found := ⟨row, found, rfl, AttributeSet.subset_refl row.dependants,
    fun _ dependant lost => absurd dependant lost⟩
  closure _ := rfl
  references fromStart isList := by
    refine ⟨[], ?_, List.nodup_nil, List.forall_mem_nil _⟩
    rw [List.append_nil]
    exact isList
  visited _ member := member

/-- **Effects one after another are effects.** -/
theorem trans (earlier : Effects start origin before between)
    (later : Effects start origin between after) : Effects start origin before after where
  length := later.length.trans earlier.length
  rows position away := (later.rows position away).trans (earlier.rows position away)
  listed := later.listed.trans earlier.listed
  lists position away := (later.lists position away).trans (earlier.lists position away)
  home row found := by
    obtain ⟨middle, isMiddle, sameMiddle, fewerMiddle, movedEarlier⟩ := earlier.home row found
    obtain ⟨left, isLeft, same, fewer, movedLater⟩ := later.home middle isMiddle
    refine ⟨left, isLeft, same.trans sameMiddle, AttributeSet.subset_trans fewer fewerMiddle, ?_⟩
    intro name dependant lost
    by_cases stayed : name ∈ middle.dependants
    · obtain ⟨target, held, known⟩ := movedLater name stayed lost
      exact ⟨target, held, known.imp_right (mt (earlier.visited target))⟩
    · obtain ⟨target, held, known⟩ := movedEarlier name dependant stayed
      exact ⟨target, held.mono later, known⟩
  closure names := (later.closure names).trans (earlier.closure names)
  references fromStart isList := by
    obtain ⟨first, isMiddle, nodupFirst, newFirst⟩ := earlier.references fromStart isList
    obtain ⟨second, isLast, nodupSecond, newSecond⟩ := later.references _ isMiddle
    refine ⟨first ++ second, ?_, ?_, ?_⟩
    · rw [← List.append_assoc]
      exact isLast
    · refine List.nodup_append.2 ⟨nodupFirst, nodupSecond, ?_⟩
      rintro reference inFirst _ inSecond rfl
      exact (newSecond reference inSecond).2 (List.mem_append_right fromStart inFirst)
    · intro reference member
      rcases List.mem_append.1 member with inFirst | inSecond
      · exact newFirst reference inFirst
      · obtain ⟨away, absent⟩ := newSecond reference inSecond
        exact ⟨away, mt (List.mem_append_left first) absent⟩
  visited row member := later.visited row (earlier.visited row member)

/-- Dependants may as well come from more origins, if the others are rows that have not been
entered. -/
theorem widen {wider : Nat → Prop} (effects : Effects start origin before after)
    (known : ∀ target, origin target → wider target ∨ target ∉ before.visited) :
    Effects start wider before after :=
  { effects with
    home := by
      intro row found
      obtain ⟨left, isLeft, same, fewer, moved⟩ := effects.home row found
      refine ⟨left, isLeft, same, fewer, fun name dependant lost => ?_⟩
      obtain ⟨target, held, source⟩ := moved name dependant lost
      exact ⟨target, held, source.elim (known target) Or.inr⟩ }

end Effects

/-! ## Effects of one step -/

theorem effects_visit (start : Nat) (origin : Nat → Prop) (walk : Walk) (row : Nat) :
    Effects start origin walk (walk.visit row) :=
  { Effects.refl start origin walk with
    home := by
      intro home found
      exact ⟨home, found, rfl, AttributeSet.subset_refl home.dependants,
        fun _ dependant lost => absurd dependant lost⟩
    visited := fun _ member => List.mem_insert_iff.2 (Or.inr member) }

/-- A reference that is recorded once is in the list. -/
theorem mem_recorded (reference : Reference) (fromStart : List Reference) :
    reference ∈ if reference ∈ fromStart then fromStart else fromStart ++ [reference] := by
  split
  · next known => exact known
  · exact List.mem_append_right fromStart List.mem_cons_self

/-- What is added to a list by recording a reference once is the reference, if it is new. -/
theorem exists_added_recorded (reference : Reference) (fromStart : List Reference) :
    ∃ added : List Reference,
      (if reference ∈ fromStart then fromStart else fromStart ++ [reference]) =
        fromStart ++ added ∧
      added.Nodup ∧ ∀ other ∈ added, other = reference ∧ other ∉ fromStart := by
  split
  · exact ⟨[], (List.append_nil fromStart).symm, List.nodup_nil, List.forall_mem_nil _⟩
  · next unknown =>
    exact ⟨[reference], rfl, List.pairwise_singleton _ _,
      List.forall_mem_singleton.2 ⟨rfl, unknown⟩⟩

/-- The row at a position has been entered and holds the name, unless it is the starting row. -/
def Holds (start : Nat) (walk : Walk) (current : Nat) (name : String) : Prop :=
  current ∈ walk.visited ∧
    (current = start ∨ ∃ row : Dependency, walk.rows[current]? = some row ∧ name ∈ row.dependants)

/-- A dependant of a row is held there once the starting row refers to it. -/
theorem heldAt_of_recorded {walk : Walk} {current : Nat} {name : String} {row left : Dependency}
    (away : current ≠ start) (entered : current ∈ walk.visited)
    (found : walk.rows[current]? = some row) (dependant : name ∈ row.dependants) :
    HeldAt start
      { walk with
        rows := walk.rows.set start left
        references := walk.references.modify start fun fromStart =>
          if ⟨row.determinants, current⟩ ∈ fromStart then fromStart
          else fromStart ++ [⟨row.determinants, current⟩] } name current where
  away := away
  entered := entered
  holder := by
    refine ⟨row, (List.getElem?_set_ne away.symm).trans found, dependant, fun fromStart isList => ?_⟩
    rw [List.getElem?_modify_eq] at isList
    obtain ⟨earlier, _, rfl⟩ := Option.map_eq_some_iff.1 isList
    exact mem_recorded ⟨row.determinants, current⟩ earlier

/-- **A move at a row that holds the name moves it there.** -/
theorem effects_moveDependant {walk : Walk} {current : Nat} {name : String}
    (holds : walk.Holds start current name) :
    Effects start (· = current) walk (walk.moveDependant start current name) := by
  have closed := walk.closure_moveDependant start current name
  rcases walk.moveDependant_cases start current name with same | moved
  · rw [same]
    exact .refl start _ walk
  obtain ⟨before, home, after, holder, place, rfl, reached, away, _, _, moved⟩ := moved
  obtain ⟨entered, isStart | ⟨row, found, dependant⟩⟩ := holds
  · exact absurd isStart away
  obtain rfl := Option.some.inj (found.symm.trans reached)
  have isHome : walk.rows[before.length]? = some home := place ▸ getElem?_place before after home
  have inRange := (List.getElem?_eq_some_iff.1 isHome).1
  rw [← set_place before after home, ← place] at moved
  rw [moved] at closed ⊢
  exact {
    length := List.length_set
    rows := fun position other => List.getElem?_set_ne other.symm
    listed := List.length_modify _ _ _
    lists := fun position other => List.getElem?_modify_ne _ _ other.symm
    home := by
      intro same isSame
      obtain rfl := Option.some.inj (isHome.symm.trans isSame)
      refine ⟨home.lose {name}, List.getElem?_set_self inRange, rfl, ?_, ?_⟩
      · exact fun other kept => (Dependency.mem_dependants_lose.1 kept).1
      · intro other wasDependant lost
        have isName : other = name := by
          by_contra different
          exact lost (Dependency.mem_dependants_lose.2 ⟨wasDependant, different⟩)
        exact ⟨current, heldAt_of_recorded away entered reached (isName ▸ dependant), Or.inl rfl⟩
    closure := fun names => congrFun closed names
    references := by
      intro fromStart isList
      obtain ⟨added, recorded, once, new⟩ :=
        exists_added_recorded ⟨row.determinants, current⟩ fromStart
      refine ⟨added, ?_, once, fun reference member => ?_⟩
      · rw [List.getElem?_modify_eq, isList]
        exact congrArg some recorded
      · obtain ⟨rfl, unknown⟩ := new reference member
        exact ⟨away, unknown⟩
    visited := fun _ member => member }

/-! ## Effects of a call -/

/-- The positions at which the dependants are that a call looks at before it enters a row. -/
def Call.Origin : Call → Nat → Prop
  | .row current, target => target = current
  | .loop steps, target => ∃ name, .reach target name ∈ steps

/-- The looks that a call begins with are at rows that hold the names. -/
def Call.Ready (start : Nat) (walk : Walk) : Call → Prop
  | .row _ => True
  | .loop steps => ∀ current name, .reach current name ∈ steps → walk.Holds start current name

theorem Call.Ready.tail {walk : Walk} {step : Step} {later : List Step}
    (ready : (Call.loop (step :: later)).Ready start walk) : (Call.loop later).Ready start walk :=
  fun current name member => ready current name (List.mem_cons_of_mem step member)

theorem Call.origin_tail {step : Step} {later : List Step} {target : Nat}
    (isLater : (Call.loop later).Origin target) : (Call.loop (step :: later)).Origin target :=
  isLater.imp fun _ member => List.mem_cons_of_mem step member

theorem Holds.mono {current : Nat} {name : String} (holds : before.Holds start current name)
    (effects : Effects start origin before after) : after.Holds start current name := by
  obtain ⟨entered, isStart | ⟨row, found, dependant⟩⟩ := holds
  · exact ⟨effects.visited current entered, Or.inl isStart⟩
  · refine ⟨effects.visited current entered, ?_⟩
    by_cases isStart : current = start
    · exact Or.inl isStart
    · exact Or.inr ⟨row, (effects.rows current isStart).trans found, dependant⟩

theorem Call.Ready.mono {steps : List Step} (ready : (Call.loop steps).Ready start before)
    (effects : Effects start origin before after) : (Call.loop steps).Ready start after :=
  fun current name member => (ready current name member).mono effects

theorem ready_arrivals (start : Nat) (walk : Walk) (current : Nat) :
    (Call.loop ((walk.visit current).arrivals current)).Ready start (walk.visit current) := by
  intro other name member
  obtain ⟨row, _, same, found, dependant⟩ := exists_of_mem_arrivals member
  cases same
  exact ⟨List.mem_insert_self, Or.inr ⟨row, found, dependant⟩⟩

theorem reach_notMem_departures (walk : Walk) (start current : Nat) (name other : String) :
    Step.reach current other ∉ walk.departures start name := by
  intro member
  obtain ⟨_, _, same, _⟩ := exists_of_mem_departures member
  cases same

/-- **A call has the effects of a walk**, if it looks at rows that hold the names. -/
theorem Calls.effects {call : Call} {walk : Walk} (calls : Calls start call walk after)
    (ready : call.Ready start walk) : Effects start call.Origin walk after := by
  induction calls with
  | outside | done => exact .refl start _ _
  | @enter walk after current _ _ ih =>
    have inside := ih (ready_arrivals start walk current)
    refine (effects_visit start _ walk current).trans (inside.widen ?_)
    rintro target ⟨name, member⟩
    obtain ⟨_, _, same, _⟩ := exists_of_mem_arrivals member
    cases same
    exact Or.inl rfl
  | @reach walk between after current name later _ _ ihInside ihRest =>
    have move := effects_moveDependant (ready current name List.mem_cons_self)
    have inside := ihInside fun target other member =>
      absurd member (reach_notMem_departures _ start target name other)
    have first : Effects start (Call.loop (.reach current name :: later)).Origin walk between := by
      refine (move.widen ?_).trans (inside.widen ?_)
      · rintro _ rfl
        exact Or.inl ⟨name, List.mem_cons_self⟩
      · rintro target ⟨other, member⟩
        exact absurd member (reach_notMem_departures _ start target name other)
    have rest := ihRest (ready.tail.mono first)
    exact first.trans (rest.widen fun _ isLater => Or.inl (Call.origin_tail isLater))
  | skip _ _ ih => exact (ih ready.tail).widen fun _ isLater => Or.inl (Call.origin_tail isLater)
  | @descend walk between after row later fresh _ _ ihInside ihRest =>
    have inside : Effects start (Call.loop (.enter row :: later)).Origin walk between :=
      (ihInside trivial).widen fun target same => Or.inr (same ▸ fresh)
    have rest := ihRest (ready.tail.mono inside)
    exact inside.trans (rest.widen fun _ isLater => Or.inl (Call.origin_tail isLater))

/-- **Following a row ends, and it changes nothing but the starting row and its references**,
where it moves dependants to the row that is followed first and to rows that it enters. -/
theorem effects_follow (walk : Walk) (start current : Nat) :
    (∀ after, Calls start (.row current) walk after ↔ after = walk.follow start current) ∧
      Effects start (· = current) walk (walk.follow start current) :=
  ⟨fun _ => calls_row_iff, (calls_row_iff.2 rfl).effects trivial⟩

end Walk

end RelationalDesign
