import RelationalDesign.Decomposition.SecondForm
import RelationalDesign.Proofs.Decomposition.Overlap
import RelationalDesign.Proofs.Dependency.Cover

/-!
# What the second normal form still reaches

The second normal form is one absorption after another, followed by a merge and a
separation of rows (`exists_consolidated`). Absorbing may forget dependencies: the
determinants of an absorbed row need no longer fix its dependants. So a key that
fixes all attributes of a cover need not fix them afterwards.

It does if the dependencies lead upwards in some ranking of the attributes
(`Ascending`). Then the determinants of the absorbing row rank below the attribute
that leads to the absorbed row, and whoever reaches the absorbed row's dependants
has reached them before (`spans_absorb`, `spans_secondForm`).
-/

set_option autoImplicit false

namespace RelationalDesign

/-! ## One absorption -/

namespace Focus

variable {focus : Focus} {role : Role}

/-- After an absorption there are the row in focus, which has gained, and the
other rows that it does not lead to. -/
theorem mem_rows_absorb {row : Dependency} :
    row ∈ (focus.absorb role).rows ↔ row = (focus.absorb role).row ∨
      row ∈ focus.others ∧ focus.row.leadsTo role row = false := by
  unfold rows absorb others
  rw [mem_append_cons, ← List.filter_append, List.mem_filter, Bool.not_eq_true']

theorem mem_absorbed {row : Dependency} :
    row ∈ focus.absorbed role ↔ row ∈ focus.others ∧ focus.row.leadsTo role row = true := by
  unfold absorbed
  exact List.mem_filter

/-- The row in focus gains the dependants of the absorbed rows. -/
theorem mem_dependants_absorb {name : String} :
    name ∈ (focus.absorb role).row.dependants ↔
      name ∈ focus.row.dependants ∨
        (∃ other ∈ focus.absorbed role, name ∈ other.dependants) ∧
          name ∉ focus.row.determinants := by
  unfold absorb Dependency.gain
  rw [AttributeSet.mem_union, AttributeSet.mem_diff, AttributeSet.mem_unions_map]

theorem mem_rows {row : Dependency} : row ∈ focus.rows ↔ row = focus.row ∨ row ∈ focus.others :=
  mem_append_cons

theorem mentions_absorb {name : String} (mentioned : Mentions (focus.absorb role).rows name) :
    Mentions focus.rows name := by
  obtain ⟨row, member, named⟩ := mentioned
  rcases mem_rows_absorb.1 member with rfl | ⟨kept, _⟩
  · rcases Dependency.mem_attributes.1 named with determinant | dependant
    · exact .of_determinant (mem_rows.2 (Or.inl rfl)) determinant
    · rcases mem_dependants_absorb.1 dependant with old | ⟨⟨other, absorbed, gained⟩, _⟩
      · exact .of_dependant (mem_rows.2 (Or.inl rfl)) old
      · exact .of_dependant (mem_rows.2 (Or.inr (mem_absorbed.1 absorbed).1)) gained
  · exact ⟨row, mem_rows.2 (Or.inr kept), named⟩

end Focus

/-! ## The whole form -/

theorem rows_of_startingFocus? {rows : List Dependency} {focus : Focus}
    (chosen : startingFocus? rows = some focus) : focus.rows = rows := by
  unfold startingFocus? at chosen
  dsimp only at chosen
  split at chosen
  · exact rows_of_mem_focuses (List.mem_of_head? chosen)
  · exact rows_of_mem_focuses (List.mem_filter.1 (List.minOn?_mem chosen)).1

section Invariants

variable {motive : List Dependency → Prop}
  (absorbing : ∀ focus : Focus, motive focus.rows → motive (focus.absorb .determinant).rows)
include absorbing

/-- What every absorption preserves, the loop of absorptions preserves. -/
theorem consolidate_induction {focus : Focus} (initially : motive focus.rows) :
    motive (consolidate focus) := by
  fun_induction consolidate focus with
  | case1 focus alone => exact initially
  | case2 focus absorbs ih =>
    apply ih
    rw [Focus.rows_moveOn]
    exact absorbing focus initially

/-- **The second normal form consists of rows that have been consolidated, then
merged and separated.** -/
theorem exists_consolidated {cover : List Dependency} (initially : motive cover) :
    ∃ rows, motive rows ∧ (secondForm cover).rows = separate (mergeIdentical rows) := by
  unfold secondForm removeOverlaps
  cases chosen : startingFocus? cover with
  | none => exact ⟨cover, initially, rfl⟩
  | some focus =>
    refine ⟨consolidate focus, consolidate_induction absorbing ?_, rfl⟩
    rw [rows_of_startingFocus? chosen]
    exact initially

end Invariants

/-- The second normal form mentions nothing that its cover does not mention. -/
theorem mentions_secondForm {cover : List Dependency} {name : String}
    (mentioned : Mentions (secondForm cover).rows name) : Mentions cover name := by
  obtain ⟨rows, within, form⟩ := exists_consolidated
    (motive := fun rows => ∀ name, Mentions rows name → Mentions cover name)
    (fun focus within name mentioned => within name (Focus.mentions_absorb mentioned))
    (fun name mentioned => mentioned)
  rw [form, mentions_separate, mentions_mergeIdentical] at mentioned
  exact within name mentioned

/-! ## Dependencies that lead upwards -/

/-- In a ranking of the attributes every dependant ranks above the determinants. -/
def Ascending (rank : String → Nat) (rows : List Dependency) : Prop :=
  ∀ row ∈ rows, ∀ determinant ∈ row.determinants, ∀ dependant ∈ row.dependants,
    rank determinant < rank dependant

instance (rank : String → Nat) (rows : List Dependency) : Decidable (Ascending rank rows) :=
  inferInstanceAs (Decidable (∀ row ∈ rows, ∀ determinant ∈ row.determinants,
    ∀ dependant ∈ row.dependants, rank determinant < rank dependant))

/-- A cover of ascending dependencies is ascending. -/
theorem Ascending.cover {rank : String → Nat} {given : List Dependency}
    (ascending : Ascending rank (split given)) (mode : CoverMode) :
    Ascending rank (mode.cover given) := by
  intro row member determinant isDeterminant dependant isDependant
  obtain ⟨single, inSplit, less⟩ := exists_of_mem_cover member
  apply ascending single inSplit
  · exact less.determinants determinant isDeterminant
  · exact less.dependants ▸ isDependant

section Ranked

variable {rank : String → Nat} {focus : Focus} (ascending : Ascending rank focus.rows)
include ascending

/-- The determinants of the row in focus rank below the dependants of a row that
it leads to. -/
theorem Ascending.lt_of_absorbed {other : Dependency}
    (absorbed : other ∈ focus.absorbed .determinant) {determinant dependant : String}
    (isDeterminant : determinant ∈ focus.row.determinants)
    (isDependant : dependant ∈ other.dependants) :
    rank determinant < rank dependant := by
  obtain ⟨inOthers, leads⟩ := Focus.mem_absorbed.1 absorbed
  obtain ⟨link, fromFocus, toOther⟩ := AttributeSet.meets_iff.1 leads
  have focusIn : focus.row ∈ focus.rows := Focus.mem_rows.2 (Or.inl rfl)
  have otherIn : other ∈ focus.rows := Focus.mem_rows.2 (Or.inr inOthers)
  calc rank determinant
      < rank link := ascending focus.row focusIn determinant isDeterminant link fromFocus
    _ < rank dependant := ascending other otherIn link toOther dependant isDependant

theorem Ascending.absorb : Ascending rank (focus.absorb .determinant).rows := by
  intro row member determinant isDeterminant dependant isDependant
  rcases Focus.mem_rows_absorb.1 member with rfl | ⟨kept, _⟩
  · rcases Focus.mem_dependants_absorb.1 isDependant with old | ⟨⟨other, absorbed, gained⟩, _⟩
    · exact ascending focus.row (Focus.mem_rows.2 (Or.inl rfl)) _ isDeterminant _ old
    · exact ascending.lt_of_absorbed absorbed isDeterminant gained
  · exact ascending row (Focus.mem_rows.2 (Or.inr kept)) _ isDeterminant _ isDependant

/-- A dependant is still a dependant after an absorption, of a row with
determinants of lower rank. -/
theorem Ascending.exists_of_absorb {row : Dependency} (member : row ∈ focus.rows) {name : String}
    (dependant : name ∈ row.dependants) :
    ∃ later ∈ (focus.absorb .determinant).rows, name ∈ later.dependants ∧
      ∀ determinant ∈ later.determinants,
        rank determinant < rank name ∧ Mentions focus.rows determinant := by
  have focusIn : focus.row ∈ focus.rows := Focus.mem_rows.2 (Or.inl rfl)
  have gaining : (focus.absorb .determinant).row ∈ (focus.absorb .determinant).rows :=
    Focus.mem_rows_absorb.2 (Or.inl rfl)
  rcases Focus.mem_rows.1 member with rfl | other
  · refine ⟨_, gaining, Focus.mem_dependants_absorb.2 (Or.inl dependant), ?_⟩
    intro determinant isDeterminant
    exact ⟨ascending focus.row member determinant isDeterminant name dependant,
      .of_determinant member isDeterminant⟩
  · cases leads : focus.row.leadsTo .determinant row with
    | false =>
      refine ⟨row, Focus.mem_rows_absorb.2 (Or.inr ⟨other, leads⟩), dependant, ?_⟩
      intro determinant isDeterminant
      exact ⟨ascending row member determinant isDeterminant name dependant,
        .of_determinant member isDeterminant⟩
    | true =>
      have absorbed := Focus.mem_absorbed.2 ⟨other, leads⟩
      have lower (determinant : String) (isDeterminant : determinant ∈ focus.row.determinants) :
          rank determinant < rank name :=
        ascending.lt_of_absorbed absorbed isDeterminant dependant
      refine ⟨_, gaining, ?_, ?_⟩
      · refine Focus.mem_dependants_absorb.2 (Or.inr ⟨⟨row, absorbed, dependant⟩, ?_⟩)
        exact fun own => Nat.lt_irrefl _ (lower name own)
      · exact fun determinant isDeterminant =>
          ⟨lower determinant isDeterminant, .of_determinant focusIn isDeterminant⟩

/-- **What fixes all attributes of ascending rows fixes them after an absorption.** -/
theorem spans_absorb {key : AttributeSet} (spans : Spans focus.rows key) :
    Spans (focus.absorb .determinant).rows key := by
  -- by induction on a bound for the rank: an attribute is fixed once all of lower rank are
  have fixed (bound : Nat) (name : String) (below : rank name < bound)
      (mentioned : Mentions focus.rows name) :
      name ∈ closure (focus.absorb .determinant).rows key := by
    induction bound generalizing name with
    | zero => exact absurd below (Nat.not_lt_zero _)
    | succ bound ih =>
      rcases mem_or_dependant_of_mem_closure (spans name mentioned) with inKey | held
      · exact subset_closure _ key name inKey
      · obtain ⟨row, member, dependant⟩ := held
        obtain ⟨later, inLater, stillDependant, lower⟩ :=
          ascending.exists_of_absorb member dependant
        refine closed_closure _ key later inLater ?_ name stillDependant
        intro determinant isDeterminant
        obtain ⟨less, alsoMentioned⟩ := lower determinant isDeterminant
        exact ih determinant (Nat.lt_of_lt_of_le less (Nat.le_of_lt_succ below)) alsoMentioned
  intro name mentioned
  exact fixed (rank name + 1) name (Nat.lt_succ_self _) (Focus.mentions_absorb mentioned)

end Ranked

/-- **What fixes all attributes of an ascending cover fixes them in its second
normal form.** -/
theorem spans_secondForm {rank : String → Nat} {cover : List Dependency}
    (ascending : Ascending rank cover) {key : AttributeSet} (spans : Spans cover key) :
    Spans (secondForm cover).rows key := by
  obtain ⟨rows, ⟨_, spansRows⟩, form⟩ := exists_consolidated
    (motive := fun rows => Ascending rank rows ∧ Spans rows key)
    (fun focus both => ⟨both.1.absorb, spans_absorb both.1 both.2⟩) ⟨ascending, spans⟩
  rw [form]
  refine (spans_congr ?_ fun name => ?_).2 spansRows
  · rw [closure_separate, closure_mergeIdentical]
  · rw [mentions_separate, mentions_mergeIdentical]

end RelationalDesign
