import Mathlib.Data.List.InsertIdx
import RelationalDesign.Decomposition.Matrix
import RelationalDesign.Proofs.Decomposition.Separation

/-!
# The merges of the second normal form

The second normal form is a loop over positions: the row at a working position takes in the
other rows that its dependants lead to, these are deleted, and the position moves down by the
number of rows deleted before it (`MergesAt`). If some row leads on, its position is the next
working position, and otherwise the old one is kept (`MergeLoop`).

A focus never mistakes its row, since it carries the row with it. What is proved here is that
positions do not either: after a merge the lowered position denotes the row that has
gained (`Focus.mergesAt_absorb`). Every loop over a list with any row at all ends, with one
result, after fewer merges than there are rows (`mergeLoop_consolidate`,
`MergeLoop.unique`).

What the loop leaves is merged and separated, and then a row refers only to rows with a proper
part of its determinants (`DependencyMatrix.mergesTo_toSecondForm`).
-/

set_option autoImplicit false

namespace RelationalDesign

/-! ## One merge -/

/-- What a merge does: the row at a position of a list takes in the other rows that it leads
to, and it is found at the shifted position of the merged list. -/
structure MergesAt (row : Dependency) (rows : List Dependency) (position : Nat)
    (merged : List Dependency) (shifted : Nat) : Prop where
  working : rows[position]? = some row
  /-- The other rows that the working row does not lead to remain, in order. -/
  others : merged.eraseIdx shifted =
    (rows.eraseIdx position).filter fun other => !row.leadsTo .determinant other
  /-- The position loses as much as there are deleted rows before it. -/
  shift : shifted + (rows.take position).countP (row.leadsTo .determinant) = position
  /-- The working row keeps its determinants and gains the other dependants of the deleted rows. -/
  stays : ∃ grown : Dependency, merged[shifted]? = some grown ∧
    grown.determinants = row.determinants ∧
    ∀ name, name ∈ grown.dependants ↔ name ∈ row.dependants ∨
      (∃ gone ∈ rows.eraseIdx position, row.leadsTo .determinant gone = true ∧
        name ∈ gone.dependants) ∧ name ∉ row.determinants

/-- A list is known by one of its members, its position and the other members. -/
theorem eq_of_eraseIdx_eq {α : Type} {first second : List α} {position : Nat} {member : α}
    (inFirst : first[position]? = some member) (inSecond : second[position]? = some member)
    (others : first.eraseIdx position = second.eraseIdx position) : first = second := by
  obtain ⟨firstRange, atFirst⟩ := List.getElem?_eq_some_iff.1 inFirst
  obtain ⟨secondRange, atSecond⟩ := List.getElem?_eq_some_iff.1 inSecond
  rw [← List.insertIdx_eraseIdx_getElem firstRange, ← List.insertIdx_eraseIdx_getElem secondRange,
    atFirst, atSecond, others]

/-- **A merge has one outcome.** -/
theorem MergesAt.unique {row second : Dependency} {rows merged others : List Dependency}
    {position shifted moved : Nat} (merges : MergesAt row rows position merged shifted)
    (again : MergesAt second rows position others moved) : merged = others ∧ shifted = moved := by
  obtain rfl := Option.some.inj (merges.working.symm.trans again.working)
  have shift := merges.shift
  have shiftAgain := again.shift
  obtain rfl : shifted = moved := by omega
  obtain ⟨grown, isGrown, determinants, gained⟩ := merges.stays
  obtain ⟨other, isOther, determinantsAgain, gainedAgain⟩ := again.stays
  have dependants : grown.dependants = other.dependants :=
    AttributeSet.ext fun name => (gained name).trans (gainedAgain name).symm
  obtain rfl : grown = other :=
    congrArg₂ Dependency.mk (determinants.trans determinantsAgain.symm) dependants
  exact ⟨eq_of_eraseIdx_eq isGrown isOther (merges.others.trans again.others.symm), rfl⟩

/-! ## Foci and positions -/

namespace Focus

theorem getElem?_rows_index (focus : Focus) : focus.rows[focus.index]? = some focus.row :=
  getElem?_place focus.before focus.after focus.row

theorem eraseIdx_rows_index (focus : Focus) : focus.rows.eraseIdx focus.index = focus.others := by
  unfold rows index others
  rw [List.eraseIdx_append_of_length_le (Nat.le_refl _), Nat.sub_self, List.eraseIdx_cons_zero]

theorem take_rows_index (focus : Focus) : focus.rows.take focus.index = focus.before :=
  List.take_left

/-- **Absorbing is a merge at the position of the row in focus**, which afterwards is the
position of the row that has gained. -/
theorem mergesAt_absorb (focus : Focus) :
    MergesAt focus.row focus.rows focus.index (focus.absorb .determinant).rows
      (focus.absorb .determinant).index where
  working := focus.getElem?_rows_index
  others := by
    rw [eraseIdx_rows_index, eraseIdx_rows_index]
    exact (List.filter_append focus.before focus.after).symm
  shift := by
    rw [take_rows_index]
    exact length_filter_not_add_countP (focus.row.leadsTo .determinant) focus.before
  stays := by
    refine ⟨_, getElem?_rows_index _, rfl, fun name => ?_⟩
    rw [eraseIdx_rows_index, mem_dependants_absorb]
    simp only [mem_absorbed, and_assoc]

end Focus

/-- The position of the row to start with, and the first position if there is no row. -/
def startingPosition (rows : List Dependency) : Nat :=
  ((startingFocus? rows).map Focus.index).getD 0

/-- The position of the row to go on with. -/
def leadingPosition? (rows : List Dependency) : Option Nat :=
  (leadingFocus? rows).map Focus.index

/-- The focus moves on to the position of the row to go on with, and stays if there is none. -/
theorem Focus.index_moveOn (focus : Focus) :
    focus.moveOn.index = (leadingPosition? focus.rows).getD focus.index := by
  unfold moveOn leadingPosition?
  cases leadingFocus? focus.rows <;> rfl

theorem exists_mem_focuses {rows : List Dependency} {row : Dependency} (member : row ∈ rows) :
    ∃ focus ∈ focuses rows, focus.row = row := by
  induction rows with
  | nil => exact absurd member List.not_mem_nil
  | cons first rest ih =>
    rcases List.mem_cons.1 member with rfl | later
    · exact ⟨_, List.mem_cons_self, rfl⟩
    · obtain ⟨focus, inRest, same⟩ := ih later
      exact ⟨_, List.mem_cons_of_mem _ (List.mem_map_of_mem inRest), same⟩

/-- **Any list with a row has a row to start with.** -/
theorem exists_startingFocus? {rows : List Dependency} (nonempty : rows ≠ []) :
    ∃ focus, startingFocus? rows = some focus := by
  apply Option.isSome_iff_exists.1
  unfold startingFocus?
  dsimp only
  split
  · obtain ⟨first, rest, rfl⟩ := List.exists_cons_of_ne_nil nonempty
    rfl
  · next name chosen =>
    obtain ⟨row, member, determinant⟩ := AttributeSet.mem_unions_map.1
      (AttributeSet.mem_toList.1 (List.maxOn?_mem chosen))
    obtain ⟨focus, inFocuses, rfl⟩ := exists_mem_focuses member
    exact List.isSome_minOn?_of_mem (List.mem_filter.2 ⟨inFocuses, decide_eq_true determinant⟩)

/-! ## The loop -/

/-- The loop of merges on a list of rows, from a working position to the rows in the end. The
number counts the merges that delete rows. -/
inductive MergeLoop : List Dependency → Nat → Nat → List Dependency → Prop
  /-- The loop ends where the working row leads to no other row. -/
  | last {rows : List Dependency} {position : Nat} {row : Dependency}
      (working : rows[position]? = some row)
      (alone : ∀ other ∈ rows.eraseIdx position, row.leadsTo .determinant other = false) :
      MergeLoop rows position 0 rows
  /-- After a merge it goes on with the row that leads on, or with the same row. -/
  | merge {rows merged result : List Dependency} {row : Dependency} {position shifted count : Nat}
      (leads : ∃ other ∈ rows.eraseIdx position, row.leadsTo .determinant other = true)
      (merges : MergesAt row rows position merged shifted)
      (later : MergeLoop merged ((leadingPosition? merged).getD shifted) count result) :
      MergeLoop rows position (count + 1) result

/-- The loop does not both end and go on. -/
theorem MergesAt.false_of_alone {row second : Dependency} {rows merged : List Dependency}
    {position shifted : Nat} (merges : MergesAt second rows position merged shifted)
    (leads : ∃ other ∈ rows.eraseIdx position, second.leadsTo .determinant other = true)
    (working : rows[position]? = some row)
    (alone : ∀ other ∈ rows.eraseIdx position, row.leadsTo .determinant other = false) : False := by
  obtain rfl := Option.some.inj (working.symm.trans merges.working)
  obtain ⟨gone, around, isLed⟩ := leads
  exact Bool.false_ne_true ((alone gone around).symm.trans isLed)

/-- **The loop has one result.** -/
theorem MergeLoop.unique {rows result others : List Dependency} {position count again : Nat}
    (loop : MergeLoop rows position count result) (other : MergeLoop rows position again others) :
    count = again ∧ result = others := by
  induction loop generalizing again others with
  | last working alone =>
    cases other with
    | last _ _ => exact ⟨rfl, rfl⟩
    | merge leads merges _ => exact (merges.false_of_alone leads working alone).elim
  | merge leads merges _ ih =>
    cases other with
    | last working alone => exact (merges.false_of_alone leads working alone).elim
    | merge _ mergesAgain laterAgain =>
      obtain ⟨rfl, rfl⟩ := merges.unique mergesAgain
      obtain ⟨rfl, sameResult⟩ := ih laterAgain
      exact ⟨rfl, sameResult⟩

/-- **The loop ends, after fewer merges than there are rows.** -/
theorem mergeLoop_consolidate (focus : Focus) :
    ∃ count < focus.rows.length,
      MergeLoop focus.rows focus.index count (consolidate focus) := by
  fun_induction consolidate focus with
  | case1 focus alone =>
    refine ⟨0, ?_, .last focus.getElem?_rows_index ?_⟩
    · exact List.length_pos_of_mem (Focus.mem_rows.2 (Or.inl rfl))
    · rw [focus.eraseIdx_rows_index]
      intro other around
      exact eq_false_of_ne_true (List.filter_eq_nil_iff.1 alone other around)
  | case2 focus absorbs ih =>
    obtain ⟨count, fewer, loop⟩ := ih
    rw [Focus.rows_moveOn] at fewer loop
    rw [Focus.index_moveOn] at loop
    have counted := focus.length_absorb .determinant
    have gone := List.length_pos_iff.2 absorbs
    refine ⟨count + 1, by omega, .merge ?_ focus.mergesAt_absorb loop⟩
    rw [focus.eraseIdx_rows_index]
    obtain ⟨other, absorbed⟩ := List.exists_mem_of_ne_nil _ absorbs
    exact ⟨other, Focus.mem_absorbed.1 absorbed⟩

/-- The loop on the rows of a cover has one run: it merges some number of times, at most once
for each row, and leaves some rows. -/
structure MergesTo (cover : List Dependency) (count : Nat) (consolidated : List Dependency) :
    Prop where
  loop : MergeLoop cover (startingPosition cover) count consolidated
  only : ∀ (again : Nat) (others : List Dependency),
    MergeLoop cover (startingPosition cover) again others → again = count ∧ others = consolidated
  bounded : count ≤ cover.length

/-- The second normal form of a cover with any row at all is what the loop leaves, merged and
separated. -/
theorem exists_mergesTo {cover : List Dependency} (nonempty : cover ≠ []) :
    ∃ count consolidated, MergesTo cover count consolidated ∧
      secondForm cover = removeOverlaps (mergeIdentical consolidated) := by
  obtain ⟨focus, chosen⟩ := exists_startingFocus? nonempty
  obtain rfl := rows_of_startingFocus? chosen
  have start : startingPosition focus.rows = focus.index := by
    rw [startingPosition, chosen, Option.map_some, Option.getD_some]
  obtain ⟨count, fewer, loop⟩ := mergeLoop_consolidate focus
  rw [← start] at loop
  refine ⟨count, consolidate focus, ⟨loop, fun _ _ other => other.unique loop,
    Nat.le_of_lt fewer⟩, ?_⟩
  unfold secondForm
  rw [chosen]

/-! ## The references -/

/-- Each row has its list of references, and these are to other rows, by determinants that are a
proper part of the row's own. -/
structure Decomposition.RefersToParts (design : Decomposition) : Prop where
  listed : design.references.length = design.rows.length
  parts : ∀ (position : Nat) (row : Dependency), design.rows[position]? = some row →
    ∃ fromRow : List Reference, design.references[position]? = some fromRow ∧
      ∀ reference ∈ fromRow, reference.target ≠ position ∧
        ∃ target : Dependency, design.rows[reference.target]? = some target ∧
          reference.key = target.determinants ∧ target.determinants ⊆ row.determinants ∧
          target.determinants ≠ row.determinants

/-- A row has the determinants of the row in its place in the other list. -/
theorem exists_of_map_determinants_eq {rows others : List Dependency} {position : Nat}
    {row : Dependency} (same : rows.map Dependency.determinants = others.map Dependency.determinants)
    (found : rows[position]? = some row) :
    ∃ other, others[position]? = some other ∧ other.determinants = row.determinants := by
  have looked := congrArg (fun sets => sets[position]?) same
  rw [List.getElem?_map, List.getElem?_map, found, Option.map_some] at looked
  exact Option.map_eq_some_iff.1 looked.symm

/-- **Where no two rows have the same determinants, separated rows refer to smaller rows.** -/
theorem refersToParts_removeOverlaps {rows : List Dependency}
    (distinct : DistinctDeterminants rows) : (removeOverlaps rows).RefersToParts where
  listed := by
    show (nestedReferences rows).length = (separate rows).length
    rw [length_separate]
    exact List.length_mapIdx
  parts := by
    intro position row found
    obtain ⟨before, inRows, sameRow⟩ :=
      exists_of_map_determinants_eq (map_determinants_separate rows) found
    have isList := getElem?_nestedReferences inRows
    refine ⟨_, isList, fun reference member => ?_⟩
    obtain ⟨other, atTarget, away, isKey, nested, _⟩ :=
      (mem_nestedReferences_iff isList inRows).1 member
    obtain ⟨target, inDesign, sameTarget⟩ :=
      exists_of_map_determinants_eq (map_determinants_separate rows).symm atTarget
    rw [sameRow, ← sameTarget] at nested
    refine ⟨away, target, inDesign, isKey.trans sameTarget.symm, nested, fun equal => away ?_⟩
    exact position_eq_of_nodup_map distinct atTarget inRows
      (sameTarget.symm.trans (equal.trans sameRow.symm))

theorem refersToParts_secondForm (cover : List Dependency) : (secondForm cover).RefersToParts :=
  refersToParts_removeOverlaps distinct_mergeIdentical

/-! ## The matrix -/

namespace DependencyMatrix

/-- **Bringing a matrix into second normal form follows one run of the loop**, which keeps track
of its working row, and each row refers only to rows with a proper part of its determinants. -/
theorem mergesTo_toSecondForm (matrix : DependencyMatrix) :
    (matrix.mode.cover matrix.given ≠ [] → ∃ count consolidated,
      MergesTo (matrix.mode.cover matrix.given) count consolidated ∧
      matrix.toSecondForm =
        matrix.withDesign
          (RelationalDesign.removeOverlaps (RelationalDesign.mergeIdentical consolidated))) ∧
    Decomposition.RefersToParts ⟨matrix.toSecondForm.1.rows, matrix.toSecondForm.2⟩ := by
  refine ⟨fun nonempty => ?_, refersToParts_secondForm (matrix.mode.cover matrix.given)⟩
  obtain ⟨count, consolidated, mergesTo, form⟩ := exists_mergesTo nonempty
  exact ⟨count, consolidated, mergesTo, congrArg matrix.withDesign form⟩

/-- The row in the middle starts, as its determinant is used most. The row before it disappears,
and its position is shifted to the front. -/
theorem mergesTo_shifted :
    let matrix := ofGiven [⟨{"street"}, {"city"}⟩, ⟨{"house"}, {"street"}⟩,
      ⟨{"house", "floor"}, {"owner"}⟩] .splitOnly
    matrix.mode.cover matrix.given ≠ [] ∧
      startingPosition (matrix.mode.cover matrix.given) = 1 ∧
      MergesTo (matrix.mode.cover matrix.given) 1
        [⟨{"house"}, {"street", "city"}⟩, ⟨{"house", "floor"}, {"owner"}⟩] := by
  intro matrix
  have nonempty : matrix.mode.cover matrix.given ≠ [] := by decide
  have start : startingPosition (matrix.mode.cover matrix.given) = 1 := by decide
  let focus : Focus := ⟨[⟨{"street"}, {"city"}⟩], ⟨{"house"}, {"street"}⟩,
    [⟨{"house", "floor"}, {"owner"}⟩]⟩
  have leads : ∃ other ∈ focus.rows.eraseIdx focus.index,
      focus.row.leadsTo .determinant other = true := by decide
  have merges := focus.mergesAt_absorb
  have merged : (focus.absorb .determinant).rows =
      [⟨{"house"}, {"street", "city"}⟩, ⟨{"house", "floor"}, {"owner"}⟩] := by decide
  have stays : (leadingPosition? (focus.absorb .determinant).rows).getD
      (focus.absorb .determinant).index = (focus.absorb .determinant).index := by decide
  have alone : MergeLoop (focus.absorb .determinant).rows (focus.absorb .determinant).index 0
      (focus.absorb .determinant).rows :=
    .last (focus.absorb .determinant).getElem?_rows_index (by decide)
  rw [← stays] at alone
  obtain ⟨count, consolidated, mergesTo, _⟩ := matrix.mergesTo_toSecondForm.1 nonempty
  obtain ⟨rfl, rfl⟩ := mergesTo.only 1 _ (.merge leads merges alone)
  rw [merged] at mergesTo
  exact ⟨nonempty, start, mergesTo⟩

end DependencyMatrix

end RelationalDesign
