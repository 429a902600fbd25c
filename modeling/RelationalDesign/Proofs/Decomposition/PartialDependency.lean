import RelationalDesign.Decomposition.Matrix
import RelationalDesign.Proofs.Decomposition.Chains

/-!
# Partial dependencies in second normal form

A dependant depends fully on the determinants of its row if no proper part of them
fixes it (`DependsFully`). Rows are in second normal form if all dependants depend
fully (`SecondNormal`).

In a minimal cover all dependants do (`dependsFully_of_mem_minimalCover`). The loop of
absorptions can change that: a row of several determinants takes over the dependants
of the rows it leads to, and a part of the determinants may fix one of them another
way. Nothing else can go wrong. A dependant of the second normal form of a minimal
cover depends fully unless a chain brings it to a row of several determinants
(`dependsFully_or_chain`), so second normal form is reached if no chain brings such a
row a dependant that a part fixes (`secondNormal_toSecondForm`).

Lessons show that it can happen. A class and a teacher have a room, which is in a
building. The teacher has an office, which is in a building as well. The second normal
form keeps the building with the class and the teacher, though the teacher alone fixes
it (`partialDependency_lessons`).
-/

set_option autoImplicit false

namespace RelationalDesign

/-- No proper part of the determinants fixes the attribute. -/
def DependsFully (given : List Dependency) (determinants : AttributeSet) (name : String) : Prop :=
  ∀ part, part ⊆ determinants → part ≠ determinants → name ∉ closure given part

/-- Every dependant of every row depends fully on the determinants of the row. -/
def SecondNormal (given rows : List Dependency) : Prop :=
  ∀ row ∈ rows, ∀ name ∈ row.dependants, DependsFully given row.determinants name

variable {given : List Dependency} {determinants : AttributeSet} {name : String}

/-- It is enough to look at the parts that lack one determinant. -/
theorem dependsFully_iff :
    DependsFully given determinants name ↔
      ∀ other ∈ determinants, name ∉ closure given (determinants.erase other) := by
  constructor
  · intro full other determinant
    refine full (determinants.erase other) ?_ ?_
    · exact fun kept member => (AttributeSet.mem_erase.1 member).1
    · intro same
      rw [← same] at determinant
      exact (AttributeSet.mem_erase.1 determinant).2 rfl
  · intro full part contained proper fixed
    refine proper (AttributeSet.subset_antisymm contained fun other determinant => ?_)
    refine Decidable.byContradiction fun lacks => full other determinant ?_
    refine closure_mono given (fun kept member => ?_) name fixed
    exact AttributeSet.mem_erase.2 ⟨contained kept member, fun isOther => lacks (isOther ▸ member)⟩

instance : Decidable (DependsFully given determinants name) :=
  decidable_of_iff _ dependsFully_iff.symm

/-- Where nothing is constant, everything depends fully on a single determinant. -/
theorem dependsFully_of_single (inconstant : closure given ∅ = ∅)
    (single : ¬1 < determinants.size) : DependsFully given determinants name := by
  rw [dependsFully_iff]
  intro other determinant fixed
  have rest : determinants.erase other = ∅ := by
    refine (determinants.erase other).eq_empty_or_exists_mem.resolve_right fun ⟨third, member⟩ => ?_
    obtain ⟨alsoDeterminant, different⟩ := AttributeSet.mem_erase.1 member
    exact single (AttributeSet.one_lt_size alsoDeterminant determinant different)
  rw [rest, inconstant] at fixed
  exact AttributeSet.notMem_empty name fixed

/-- **In a minimal cover all dependants depend fully.** -/
theorem dependsFully_of_mem_minimalCover (inconstant : closure given ∅ = ∅) {row : Dependency}
    (member : row ∈ minimalCover given) (dependant : name ∈ row.dependants) :
    DependsFully given row.determinants name := by
  by_cases several : 1 < row.determinants.size
  · rw [dependsFully_iff]
    intro other determinant fixed
    obtain ⟨only, isOnly, _⟩ := single_minimalCover member
    refine reduced_minimalCover member several other determinant fun stated isStated => ?_
    have same : stated = name :=
      (AttributeSet.mem_singleton.1 (isOnly ▸ isStated)).trans
        (AttributeSet.mem_singleton.1 (isOnly ▸ dependant)).symm
    exact same ▸ fixed
  · exact dependsFully_of_single inconstant several

/-- **Where partial dependencies come from**: a dependant of the second normal form
depends fully on the determinants of its row, unless they are several and a chain brings
it from another row. -/
theorem dependsFully_or_chain (inconstant : closure given ∅ = ∅) {row : Dependency}
    (member : row ∈ (secondForm (minimalCover given)).rows) (dependant : name ∈ row.dependants) :
    DependsFully given row.determinants name ∨
      1 < row.determinants.size ∧ ∃ first last, first.determinants = row.determinants ∧
        first ≠ last ∧ Chain (minimalCover given) first last ∧ name ∈ last.dependants := by
  obtain ⟨first, last, same, chain, stated⟩ := traced_decompose .second _ row member name dependant
  by_cases several : 1 < row.determinants.size
  · by_cases ends : first = last
    · subst ends
      exact Or.inl (same ▸ dependsFully_of_mem_minimalCover inconstant chain.last_mem stated)
    · exact Or.inr ⟨several, first, last, same, ends, chain, stated⟩
  · exact Or.inl (dependsFully_of_single inconstant several)

theorem rows_toSecondForm {matrix : DependencyMatrix} (minimal : matrix.mode = .minimal) :
    matrix.toSecondForm.1.rows = (secondForm (minimalCover matrix.given)).rows := by
  show (secondForm (matrix.mode.cover matrix.given)).rows = _
  rw [minimal]
  rfl

/-- **Second normal form is reached** if every given dependency has determinants and no
chain brings a row of several determinants a dependant that a proper part of them fixes. -/
theorem secondNormal_toSecondForm {matrix : DependencyMatrix} (minimal : matrix.mode = .minimal)
    (keyed : Keyed matrix.given)
    (unfixed : ∀ first last, Chain (minimalCover matrix.given) first last → first ≠ last →
      1 < first.determinants.size → ∀ name ∈ last.dependants,
        DependsFully matrix.given first.determinants name) :
    SecondNormal matrix.given matrix.toSecondForm.1.rows := by
  rw [rows_toSecondForm minimal]
  intro row member name dependant
  have inconstant : closure matrix.given ∅ = ∅ :=
    closure_empty_iff.2 fun row member empty => absurd empty (keyed row member)
  rcases dependsFully_or_chain inconstant member dependant with full | ⟨several, brought⟩
  · exact full
  · obtain ⟨first, last, same, different, chain, stated⟩ := brought
    rw [← same] at several ⊢
    exact unfixed first last chain different several name stated

/-- Lessons of a class with a teacher in a room, and the grades of the pupils of a class. -/
def lessons (more : List Dependency) : DependencyMatrix :=
  .ofGiven
    ([⟨.ofList ["class", "teacher"], {"room"}⟩, ⟨{"room"}, {"building"}⟩,
      ⟨.ofList ["class", "pupil"], {"grade"}⟩] ++ more) .minimal

/-- Where only the room fixes the building, second normal form is reached. -/
theorem secondNormal_lessons :
    (lessons []).mode = .minimal ∧ Keyed (lessons []).given ∧
      (∀ first last, Chain (minimalCover (lessons []).given) first last → first ≠ last →
        1 < first.determinants.size → ∀ name ∈ last.dependants,
          DependsFully (lessons []).given first.determinants name) ∧
      SecondNormal (lessons []).given (lessons []).toSecondForm.1.rows := by
  have keyed : Keyed (lessons []).given := by
    unfold Keyed
    decide
  have separate : ∀ first ∈ minimalCover (lessons []).given,
      ∀ last ∈ minimalCover (lessons []).given, first ≠ last → 1 < first.determinants.size →
        ∀ name ∈ last.dependants, DependsFully (lessons []).given first.determinants name := by
    decide
  have unfixed (first last : Dependency) (chain : Chain (minimalCover (lessons []).given) first last)
      (different : first ≠ last) := separate first chain.first_mem last chain.last_mem different
  exact ⟨rfl, keyed, unfixed, secondNormal_toSecondForm rfl keyed unfixed⟩

deriving instance DecidableEq for Focus

/-- The row of the class and the teacher absorbs the row from the room to the building. -/
theorem secondForm_lessons :
    (lessons [⟨{"teacher"}, {"office"}⟩, ⟨{"office"}, {"building"}⟩]).toSecondForm.1.rows =
      [⟨.ofList ["class", "teacher"], .ofList ["building", "room"]⟩,
        ⟨.ofList ["class", "pupil"], {"grade"}⟩, ⟨{"teacher"}, {"office"}⟩,
        ⟨{"office"}, {"building"}⟩] := by
  let others : List Dependency :=
    [⟨.ofList ["class", "pupil"], {"grade"}⟩, ⟨{"teacher"}, {"office"}⟩,
      ⟨{"office"}, {"building"}⟩]
  let start : Focus :=
    ⟨[], ⟨.ofList ["class", "teacher"], {"room"}⟩, ⟨{"room"}, {"building"}⟩ :: others⟩
  have cover : minimalCover
      (lessons [⟨{"teacher"}, {"office"}⟩, ⟨{"office"}, {"building"}⟩]).given = start.rows := by
    decide
  have chosen : startingFocus? start.rows = some start := by decide +kernel
  have consolidated : consolidate start =
      ⟨.ofList ["class", "teacher"], .ofList ["building", "room"]⟩ :: others := by
    rw [consolidate, if_neg (by decide), consolidate, if_pos (by decide)]
    decide
  rw [rows_toSecondForm rfl, cover, secondForm, chosen]
  dsimp only
  rw [consolidated]
  decide

/-- **A partial dependency in second normal form**: the teacher fixes the building by way
of the office, and the building is kept with the class and the teacher. -/
theorem partialDependency_lessons :
    let matrix := lessons [⟨{"teacher"}, {"office"}⟩, ⟨{"office"}, {"building"}⟩]
    matrix.mode = .minimal ∧ Keyed matrix.given ∧
      ⟨.ofList ["class", "teacher"], .ofList ["building", "room"]⟩ ∈ matrix.toSecondForm.1.rows ∧
      "building" ∈ closure matrix.given {"teacher"} ∧
      ¬SecondNormal matrix.given matrix.toSecondForm.1.rows := by
  intro matrix
  have keyed : Keyed matrix.given := by
    unfold Keyed
    decide
  have member : ⟨.ofList ["class", "teacher"], .ofList ["building", "room"]⟩ ∈
      matrix.toSecondForm.1.rows := by
    rw [secondForm_lessons]
    exact List.mem_cons_self
  have fixed : "building" ∈ closure matrix.given {"teacher"} := by decide
  refine ⟨rfl, keyed, member, fixed, fun normal => ?_⟩
  exact normal _ member "building" (by decide) {"teacher"} (by decide) (by decide) fixed

end RelationalDesign
