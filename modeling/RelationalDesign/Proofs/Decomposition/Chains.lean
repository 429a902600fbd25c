import RelationalDesign.Proofs.Decomposition.Rows

/-!
# Where the dependants of the second normal form come from

A row leads to another one if one of its dependants is among the other's
determinants. A chain is a sequence of rows each of which leads to the next
(`Chain`).

Absorbing brings a dependant into a row over such links only, and whatever else is done
to rows brings in none. So a dependant of a decomposed row can be traced to the cover: a
chain of rows leads from a row with the same determinants to a row that states the
dependant (`traced_decompose`). Which chains there are decides what can go wrong with the
second normal form.

If every link of a chain enters determinants that are all fixed, the first
determinants of a chain fix all later ones (`LinksFully.determinants_subset`).
-/

set_option autoImplicit false

namespace RelationalDesign

theorem Dependency.leadsTo_iff {row other : Dependency} :
    row.leadsTo .determinant other = true ↔
      ∃ name, name ∈ row.dependants ∧ name ∈ other.determinants :=
  AttributeSet.meets_iff

/-- Each row leads to the next, from a first row of a list to a last one. -/
inductive Chain (rows : List Dependency) : Dependency → Dependency → Prop
  | refl {row : Dependency} (member : row ∈ rows) : Chain rows row row
  | step {first middle last : Dependency} (chain : Chain rows first middle) (member : last ∈ rows)
      (leads : middle.leadsTo .determinant last = true) : Chain rows first last

namespace Chain

variable {rows : List Dependency} {first middle last : Dependency}

theorem first_mem (chain : Chain rows first last) : first ∈ rows := by
  induction chain with
  | refl member => exact member
  | step _ _ _ ih => exact ih

theorem last_mem (chain : Chain rows first last) : last ∈ rows := by
  cases chain with
  | refl member => exact member
  | step _ member _ => exact member

theorem trans (earlier : Chain rows first middle) (later : Chain rows middle last) :
    Chain rows first last := by
  induction later with
  | refl _ => exact earlier
  | step _ member leads ih => exact ih.step member leads

end Chain

/-! ## Tracing dependants -/

/-- A chain of the cover leads from a row with the given determinants to a row that
states the name. -/
def Traced (cover : List Dependency) (determinants : AttributeSet) (name : String) : Prop :=
  ∃ first last, first.determinants = determinants ∧ Chain cover first last ∧
    name ∈ last.dependants

/-- Every dependant of every row is traced. -/
def AllTraced (cover rows : List Dependency) : Prop :=
  ∀ row ∈ rows, ∀ name ∈ row.dependants, Traced cover row.determinants name

section AllTraced

variable {cover : List Dependency}

theorem Traced.of_mem {row : Dependency} (member : row ∈ cover) {name : String}
    (dependant : name ∈ row.dependants) : Traced cover row.determinants name :=
  ⟨row, row, rfl, .refl member, dependant⟩

/-- A name that is traced from determinants among which there is a traced name is
traced itself. -/
theorem Traced.trans {determinants others : AttributeSet} {link name : String}
    (earlier : Traced cover determinants link) (linked : link ∈ others)
    (later : Traced cover others name) : Traced cover determinants name := by
  obtain ⟨first, middle, same, toMiddle, states⟩ := earlier
  obtain ⟨next, last, rfl, toLast, dependant⟩ := later
  have leads : middle.leadsTo .determinant next = true :=
    Dependency.leadsTo_iff.2 ⟨link, states, linked⟩
  exact ⟨first, last, same, (toMiddle.step toLast.first_mem leads).trans toLast, dependant⟩

/-- **Absorbing brings in traced dependants only.** -/
theorem AllTraced.absorb {focus : Focus} (traced : AllTraced cover focus.rows) :
    AllTraced cover (focus.absorb .determinant).rows := by
  intro row member name dependant
  rcases Focus.mem_rows_absorb.1 member with rfl | ⟨other, _⟩
  · rcases Focus.mem_dependants_absorb.1 dependant with old | ⟨⟨other, absorbed, gained⟩, _⟩
    · exact traced focus.row (Focus.mem_rows.2 (Or.inl rfl)) name old
    · obtain ⟨inOthers, leads⟩ := Focus.mem_absorbed.1 absorbed
      obtain ⟨link, stated, linked⟩ := Dependency.leadsTo_iff.1 leads
      have toLink := traced focus.row (Focus.mem_rows.2 (Or.inl rfl)) link stated
      exact toLink.trans linked (traced other (Focus.mem_rows.2 (Or.inr inOthers)) name gained)
  · exact traced row (Focus.mem_rows.2 (Or.inr other)) name dependant

theorem rowInvariant_allTraced : RowInvariant (AllTraced cover) where
  narrow := by
    intro rows others narrows traced row member name dependant
    obtain ⟨origin, inOthers, same, stated⟩ :=
      narrows.states row.determinants name ⟨row, member, rfl, dependant⟩
    exact same ▸ traced origin inOthers name stated
  absorb _ traced := traced.absorb

/-- **Dependants are traced in either form**: a dependant is stated by a row of the cover to
which a chain leads from a row with the same determinants. -/
theorem traced_decompose (form : NormalForm) (cover : List Dependency) :
    AllTraced cover (form.decompose cover).rows := by
  refine rowInvariant_allTraced.decompose ?_ form
  exact fun row member name dependant => .of_mem member dependant

end AllTraced

/-! ## Chains of full links -/

/-- Where a row leads to another one, it fixes all determinants of the other. -/
def LinksFully (given rows : List Dependency) : Prop :=
  ∀ row ∈ rows, ∀ other ∈ rows, row.leadsTo .determinant other = true →
    other.determinants ⊆ closure given row.determinants

instance (given rows : List Dependency) : Decidable (LinksFully given rows) :=
  inferInstanceAs (Decidable (∀ row ∈ rows, ∀ other ∈ rows, row.leadsTo .determinant other = true →
    other.determinants ⊆ closure given row.determinants))

/-- **Over full links the first determinants of a chain fix the last ones.** -/
theorem LinksFully.determinants_subset {given rows : List Dependency}
    (full : LinksFully given rows) {first last : Dependency} (chain : Chain rows first last) :
    last.determinants ⊆ closure given first.determinants := by
  induction chain with
  | refl _ => exact subset_closure given _
  | step chain member leads ih =>
    exact AttributeSet.subset_trans (full _ chain.last_mem _ member leads)
      (closure_subset_closure ih)

end RelationalDesign
