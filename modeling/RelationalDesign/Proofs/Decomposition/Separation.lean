import RelationalDesign.Proofs.Decomposition.Targets

/-!
# Separated rows

Separating rows takes dependants away from rows, but never the last one of a name
(`separates_removeOverlaps`).

**Nothing is lost.** A row gives a dependant up to a row with a part of its determinants,
which may give it up in turn. However long this goes on, some row with a part of the first
one's determinants holds it in the end (`exists_holder_separate`).

**Nothing is left to take.** After its turn a row shares no dependant with the rows around
it (`apart_claimDependants`). From then on both only shrink, so it stays that way
(`Apart.shrink`), and every row has its turn.

**References.** They depend on determinants only, which stay in their places.
-/

set_option autoImplicit false

namespace RelationalDesign

/-! ## Shrinking rows -/

/-- Each row of a list has the determinants of the row in its place, and no more dependants. -/
def Shrunk (left rows : List Dependency) : Prop :=
  ∀ (position : Nat) (row : Dependency), left[position]? = some row → ∃ origin : Dependency,
    rows[position]? = some origin ∧ row.determinants = origin.determinants ∧
      row.dependants ⊆ origin.dependants

theorem Shrunk.refl (rows : List Dependency) : Shrunk rows rows :=
  fun _ row found => ⟨row, found, rfl, AttributeSet.subset_refl row.dependants⟩

theorem Shrunk.trans {last left rows : List Dependency} (later : Shrunk last left)
    (earlier : Shrunk left rows) : Shrunk last rows := by
  intro position row found
  obtain ⟨middle, isMiddle, same, fewer⟩ := later position row found
  obtain ⟨origin, isOrigin, sameBefore, fewerBefore⟩ := earlier position middle isMiddle
  exact ⟨origin, isOrigin, same.trans sameBefore, AttributeSet.subset_trans fewer fewerBefore⟩

/-- The row at a position shares no dependant with any other row whose determinants contain
its own. -/
def Apart (rows : List Dependency) (position : Nat) : Prop :=
  ∀ (other : Nat) (smaller larger : Dependency), other ≠ position →
    rows[position]? = some smaller → rows[other]? = some larger →
    smaller.determinants ⊆ larger.determinants →
    ∀ name ∈ smaller.dependants, name ∉ larger.dependants

/-- **Rows that share no dependant share none when they have shrunk.** -/
theorem Apart.shrink {left rows : List Dependency} {position : Nat} (apart : Apart rows position)
    (shrunk : Shrunk left rows) : Apart left position := by
  intro other smaller larger different isSmaller isLarger nested name inSmaller inLarger
  obtain ⟨first, isFirst, sameFirst, fewerFirst⟩ := shrunk position smaller isSmaller
  obtain ⟨second, isSecond, sameSecond, fewerSecond⟩ := shrunk other larger isLarger
  rw [sameFirst, sameSecond] at nested
  exact apart other first second different isFirst isSecond nested name
    (fewerFirst name inSmaller) (fewerSecond name inLarger)

/-! ## One claim -/

/-- A claimant stays, and the rows around it yield to it. -/
theorem getElem?_claimDependants {rows : List Dependency} {claimant : Nat} {smaller : Dependency}
    (found : rows[claimant]? = some smaller) (position : Nat) :
    (claimDependants rows claimant)[position]? =
      if position = claimant then some smaller
      else rows[position]?.map fun row => row.yieldTo smaller := by
  unfold claimDependants
  rw [found]
  dsimp only
  rw [List.getElem?_mapIdx]
  by_cases own : position = claimant
  · rw [if_pos own, own, found, Option.map_some, if_neg fun both => both.1 rfl]
  · rw [if_neg own]
    simp only [own, ne_eq, not_false_eq_true, true_and, Dependency.yieldTo]

theorem claimDependants_of_none {rows : List Dependency} {claimant : Nat}
    (missing : rows[claimant]? = none) : claimDependants rows claimant = rows := by
  unfold claimDependants
  rw [missing]

theorem shrunk_claimDependants (rows : List Dependency) (claimant : Nat) :
    Shrunk (claimDependants rows claimant) rows := by
  cases claiming : rows[claimant]? with
  | none =>
    rw [claimDependants_of_none claiming]
    exact .refl rows
  | some smaller =>
    intro position row found
    rw [getElem?_claimDependants claiming] at found
    split at found
    · next own =>
      obtain rfl := Option.some.inj found
      exact ⟨smaller, own ▸ claiming, rfl, AttributeSet.subset_refl smaller.dependants⟩
    · obtain ⟨origin, isOrigin, rfl⟩ := Option.map_eq_some_iff.1 found
      refine ⟨origin, isOrigin, origin.determinants_yieldTo smaller, fun name kept => ?_⟩
      exact (Dependency.mem_dependants_yieldTo.1 kept).1

/-- **After its claim a row shares no dependant with the rows around it.** -/
theorem apart_claimDependants (rows : List Dependency) (claimant : Nat) :
    Apart (claimDependants rows claimant) claimant := by
  intro other smaller larger different isSmaller isLarger nested name inSmaller inLarger
  obtain ⟨claiming, isClaiming, _⟩ := shrunk_claimDependants rows claimant claimant smaller isSmaller
  rw [getElem?_claimDependants isClaiming, if_pos rfl, Option.some.injEq] at isSmaller
  rw [getElem?_claimDependants isClaiming, if_neg different] at isLarger
  obtain ⟨origin, _, rfl⟩ := Option.map_eq_some_iff.1 isLarger
  rw [origin.determinants_yieldTo, ← isSmaller] at nested
  exact (Dependency.mem_dependants_yieldTo.1 inLarger).2 ⟨nested, isSmaller ▸ inSmaller⟩

/-! ## One claim after another -/

theorem shrunk_foldl_claimDependants (claimants : List Nat) (rows : List Dependency) :
    Shrunk (claimants.foldl claimDependants rows) rows := by
  induction claimants generalizing rows with
  | nil => exact .refl rows
  | cons claimant rest ih => exact (ih _).trans (shrunk_claimDependants rows claimant)

/-- Every row that has had its turn shares no dependant with the rows around it. -/
theorem apart_foldl_claimDependants {claimants : List Nat} {claimant : Nat}
    (member : claimant ∈ claimants) (rows : List Dependency) :
    Apart (claimants.foldl claimDependants rows) claimant := by
  induction claimants generalizing rows with
  | nil => exact absurd member List.not_mem_nil
  | cons first rest ih =>
    rw [List.foldl_cons]
    rcases List.mem_cons.1 member with rfl | later
    · exact (apart_claimDependants rows claimant).shrink (shrunk_foldl_claimDependants rest _)
    · exact ih later _

theorem length_separate (rows : List Dependency) : (separate rows).length = rows.length := by
  have same := congrArg List.length (map_determinants_separate rows)
  rwa [List.length_map, List.length_map] at same

/-- **Separated rows with nested determinants share no dependant.** -/
theorem apart_separate (rows : List Dependency) (position : Nat) :
    Apart (separate rows) position := by
  intro other smaller larger different isSmaller
  have inRange : position ∈ List.range rows.length := by
    rw [List.mem_range, ← length_separate]
    exact (List.getElem?_eq_some_iff.1 isSmaller).1
  exact apart_foldl_claimDependants inRange rows other smaller larger different isSmaller

/-- **A dependant of a row is held in the end by a row with a part of the determinants.** -/
theorem exists_holder_separate {rows : List Dependency} {row : Dependency} (member : row ∈ rows)
    {name : String} (dependant : name ∈ row.dependants) :
    ∃ holder ∈ separate rows, holder.determinants ⊆ row.determinants ∧ name ∈ holder.dependants := by
  refine separate_induction (motive := fun current => ∃ holder ∈ current,
    holder.determinants ⊆ row.determinants ∧ name ∈ holder.dependants) ?_
    ⟨row, member, AttributeSet.subset_refl row.determinants, dependant⟩
  rintro current claimant ⟨holder, inCurrent, within, holds⟩
  rcases claimDependants_cases current claimant with same | ⟨before, claiming, after, rfl, claimed⟩
  · rw [same]
    exact ⟨holder, inCurrent, within, holds⟩
  · rw [claimed]
    rcases mem_append_cons.1 inCurrent with rfl | around
    · exact ⟨holder, mem_yielded.2 (Or.inl rfl), within, holds⟩
    · by_cases taken : claiming.determinants ⊆ holder.determinants ∧ name ∈ claiming.dependants
      · exact ⟨claiming, mem_yielded.2 (Or.inl rfl), AttributeSet.subset_trans taken.1 within,
          taken.2⟩
      · refine ⟨holder.yieldTo claiming, mem_yielded.2 (Or.inr ⟨holder, around, rfl⟩), ?_,
          Dependency.mem_dependants_yieldTo.2 ⟨holds, taken⟩⟩
        rw [holder.determinants_yieldTo]
        exact within

/-! ## References -/

/-- References are recorded in the order of their targets. -/
theorem pairwise_nestedReferences {rows : List Dependency} {position : Nat} {row : Dependency}
    {fromRow : List Reference} (isList : (nestedReferences rows)[position]? = some fromRow)
    (found : rows[position]? = some row) :
    fromRow.Pairwise fun first second => first.target < second.target := by
  rw [getElem?_nestedReferences found, Option.some.injEq] at isList
  rw [← isList]
  refine List.pairwise_filterMap.2 ((pairwise_lt_zipIdx rows).imp ?_)
  intro first second before reference isReference later isLater
  obtain ⟨_, equal⟩ := Option.ite_none_right_eq_some.1 isReference
  obtain ⟨_, equalLater⟩ := Option.ite_none_right_eq_some.1 isLater
  cases equal
  cases equalLater
  exact before

/-! ## The separated rows as a whole -/

/-- What is kept when overlapping rows are separated, and what is reached. -/
structure Separates (rows : List Dependency) (design : Decomposition) : Prop where
  /-- There are as many rows, with the same determinants in the same places. -/
  determinants : design.rows.map Dependency.determinants = rows.map Dependency.determinants
  closure : ∀ names, closure design.rows names = closure rows names
  held : ∀ row ∈ rows, ∀ name ∈ row.dependants, ∃ holder ∈ design.rows,
    holder.determinants ⊆ row.determinants ∧ name ∈ holder.dependants
  apart : ∀ position, Apart design.rows position
  listed : design.references.length = rows.length
  /-- The references of a row, in the order of their targets, are those to the other rows whose
  determinants, of which there are some, are among its own. -/
  references : ∀ (position : Nat) (row : Dependency), rows[position]? = some row →
    ∃ fromRow : List Reference, design.references[position]? = some fromRow ∧
      fromRow.Pairwise (fun first second => first.target < second.target) ∧
      ∀ reference : Reference, reference ∈ fromRow ↔
        ∃ other : Dependency, rows[reference.target]? = some other ∧
          reference.target ≠ position ∧ reference.key = other.determinants ∧
          other.determinants ⊆ row.determinants ∧ other.determinants ≠ ∅

/-- **Separating overlapping rows loses nothing and leaves no overlap**, and it refers from
each row to those that are nested in it. -/
theorem separates_removeOverlaps (rows : List Dependency) : Separates rows (removeOverlaps rows) where
  determinants := map_determinants_separate rows
  closure names := congrFun (closure_separate rows) names
  held _ member _ dependant := exists_holder_separate member dependant
  apart := apart_separate rows
  listed := List.length_mapIdx
  references _ _ found := ⟨_, getElem?_nestedReferences found,
    pairwise_nestedReferences (getElem?_nestedReferences found) found,
    fun _ => mem_nestedReferences_iff (getElem?_nestedReferences found) found⟩

end RelationalDesign
