import RelationalDesign.Proofs.Decomposition.ThirdForm

/-!
# The third normal form is reached

A relation is in third normal form if every dependency between its attributes
that is not trivial starts from a set that fixes the whole relation, or leads
to an attribute of a key. A key is a minimal set of attributes that fixes the
relation.

Each row of the third normal form of a minimal cover is such a relation
(`thirdNormal_toThirdForm`). The determinants of a row are a key, unless the
empty set fixes the row already (`fixed_by_empty_or_isKey`). And an attribute
that is derived from a part that does not fix the row is no dependant: its row of
the cover would not be used to derive it, so the other rows would imply that row
(`determinant_of_derived`).
-/

set_option autoImplicit false

namespace RelationalDesign

variable {given : List Dependency}

/-- A minimal set of attributes of a relation that fixes the relation. -/
structure IsKey (given : List Dependency) (relation key : AttributeSet) : Prop where
  within : key ⊆ relation
  fixes : relation ⊆ closure given key
  minimal : ∀ smaller, smaller ⊆ key → relation ⊆ closure given smaller → smaller = key

/-- What a part of a relation fixes beyond itself belongs to a key, unless the
part fixes the whole relation. -/
def ThirdNormal (given : List Dependency) (relation : AttributeSet) : Prop :=
  ∀ part name, part ⊆ relation → name ∈ relation → name ∉ part → name ∈ closure given part →
    relation ⊆ closure given part ∨ ∃ key, IsKey given relation key ∧ name ∈ key

section MergedCover

variable {row : Dependency} (member : row ∈ mergeIdentical (minimalCover given))
include member

/-- The determinants of a row fix all its attributes. -/
theorem attributes_subset_closure_determinants :
    row.attributes ⊆ closure given row.determinants := by
  rw [← closure_minimalCover, ← closure_mergeIdentical]
  intro name named
  rcases Dependency.mem_attributes.1 named with determinant | dependant
  · exact subset_closure _ row.determinants name determinant
  · exact implies_of_mem member name dependant

/-- A set that lacks a determinant of a row and is not empty does not fix the row. -/
theorem not_fixes_of_lacks {smaller : AttributeSet} {name other : String}
    (contained : smaller ⊆ row.determinants) (determinant : name ∈ row.determinants)
    (lacks : name ∉ smaller) (nonempty : other ∈ smaller) :
    ¬row.attributes ⊆ closure given smaller := by
  intro fixes
  have several : 1 < row.determinants.size :=
    AttributeSet.one_lt_size determinant (contained other nonempty)
      fun same => lacks (same ▸ nonempty)
  obtain ⟨origin, inCover, same⟩ :=
    List.mem_map.1 (mem_determinants_mergeIdentical.1 (List.mem_map_of_mem member))
  refine reduced_minimalCover inCover (same ▸ several) name (same ▸ determinant) ?_
  intro dependant stated
  have inRow : dependant ∈ row.dependants :=
    (mem_dependants_mergeIdentical member).2 ⟨origin, inCover, same, stated⟩
  have fixed := fixes dependant (row.dependants_subset_attributes dependant inRow)
  refine closure_mono given ?_ dependant fixed
  intro kept inSmaller
  refine AttributeSet.mem_erase.2 ⟨same ▸ contained kept inSmaller, ?_⟩
  exact fun isName => lacks (isName ▸ inSmaller)

/-- **The empty set fixes a row, or its determinants are a key.** -/
theorem fixed_by_empty_or_isKey :
    row.attributes ⊆ closure given ∅ ∨ IsKey given row.attributes row.determinants := by
  by_cases fixed : row.attributes ⊆ closure given ∅
  · exact Or.inl fixed
  · refine Or.inr ⟨?_, attributes_subset_closure_determinants member, ?_⟩
    · exact row.determinants_subset_attributes
    · intro smaller contained fixes
      rcases smaller.eq_empty_or_exists_mem with rfl | ⟨other, nonempty⟩
      · exact absurd fixes fixed
      · refine AttributeSet.subset_antisymm contained fun name determinant => ?_
        refine Decidable.byContradiction fun lacks => ?_
        exact not_fixes_of_lacks member contained determinant lacks nonempty fixes

/-- A part that does not fix the row derives no dependant of the row beyond itself. -/
theorem determinant_of_derived {part : AttributeSet} {name : String}
    (within : part ⊆ row.attributes) (inRow : name ∈ row.attributes)
    (new : name ∉ part) (derived : name ∈ closure given part)
    (unfixed : ¬row.attributes ⊆ closure given part) : name ∈ row.determinants := by
  refine Decidable.byContradiction fun notDeterminant => ?_
  have dependant := (Dependency.mem_attributes.1 inRow).resolve_left notDeterminant
  obtain ⟨origin, inCover, same, stated⟩ := (mem_dependants_mergeIdentical member).1 dependant
  obtain ⟨only, isOnly, _⟩ := single_minimalCover inCover
  obtain rfl : name = only := AttributeSet.mem_singleton.1 (isOnly ▸ stated)
  obtain ⟨before, after, cut⟩ := List.append_of_mem inCover
  have closureCut : closure (before ++ origin :: after) = closure given := by
    rw [← cut, closure_minimalCover]
  -- a derivation of the name does not use its row: the part does not fix the determinants
  have unused : ¬origin.determinants ⊆ closure (before ++ origin :: after) part := by
    rw [closureCut, same]
    exact fun fixed => unfixed (AttributeSet.subset_trans
      (attributes_subset_closure_determinants member) (closure_subset_closure fixed))
  have without : name ∈ closure (before ++ after) part :=
    closure_subset_leave_out unused name (closureCut ▸ derived)
  -- and the other rows derive the part from the determinants
  have reached : part ⊆ closure (before ++ after) row.determinants := by
    intro other inPart
    rcases Dependency.mem_attributes.1 (within other inPart) with determinant | dependant
    · exact subset_closure _ row.determinants other determinant
    · have stated : States (before ++ origin :: after) row.determinants other :=
        cut ▸ (mem_dependants_mergeIdentical member).1 dependant
      refine (stated.leave_out ?_).mem_closure
      rintro ⟨_, fromOrigin⟩
      exact new (AttributeSet.mem_singleton.1 (isOnly ▸ fromOrigin) ▸ inPart)
  refine irredundant_minimalCover given before origin after cut fun other isOther => ?_
  have isName : other = name := AttributeSet.mem_singleton.1 (isOnly ▸ isOther)
  rw [isName, same]
  exact closure_subset_closure reached name without

/-- **A row of the merged cover is a relation in third normal form.** -/
theorem thirdNormal_mergeIdentical : ThirdNormal given row.attributes := by
  intro part name within inRow new derived
  by_cases fixes : row.attributes ⊆ closure given part
  · exact Or.inl fixes
  · refine Or.inr ⟨row.determinants, ?_, ?_⟩
    · refine (fixed_by_empty_or_isKey member).resolve_left fun fixed => fixes ?_
      exact AttributeSet.subset_trans fixed (closure_mono given (AttributeSet.empty_subset part))
    · exact determinant_of_derived member within inRow new derived fixes

end MergedCover

theorem rows_toThirdForm {matrix : DependencyMatrix} (minimal : matrix.mode = .minimal) :
    matrix.toThirdForm.1.rows = mergeIdentical (minimalCover matrix.given) := by
  show (thirdForm (matrix.mode.cover matrix.given)).rows = _
  rw [minimal]
  exact congrArg Decomposition.rows (thirdForm_minimalCover matrix.given)

/-- **Every row of the third normal form of a minimal cover is a relation in third
normal form.** -/
theorem thirdNormal_toThirdForm (matrix : DependencyMatrix) (minimal : matrix.mode = .minimal) :
    ∀ row ∈ matrix.toThirdForm.1.rows, ThirdNormal matrix.given row.attributes := by
  intro row member
  apply thirdNormal_mergeIdentical
  rw [rows_toThirdForm minimal] at member
  exact member

/-- Addresses: a city and a street have a zip code, which belongs to a city. There
is one country, which with a zip code fixes the region. -/
def addresses : DependencyMatrix :=
  .ofGiven
    [⟨.ofList ["city", "street"], .ofList ["zip"]⟩, ⟨.ofList ["zip"], .ofList ["city"]⟩,
      ⟨∅, .ofList ["country"]⟩, ⟨.ofList ["country", "zip"], .ofList ["region"]⟩] .minimal

/-- The zip code fixes a city without fixing the street, but the city belongs to a key. -/
theorem thirdNormal_addresses :
    addresses.mode = .minimal ∧
      ⟨.ofList ["city", "street"], .ofList ["zip"]⟩ ∈ addresses.toThirdForm.1.rows ∧
      ThirdNormal addresses.given (.ofList ["city", "street", "zip"]) := by
  have member : ⟨.ofList ["city", "street"], .ofList ["zip"]⟩ ∈ addresses.toThirdForm.1.rows := by
    rw [rows_toThirdForm rfl]
    decide
  exact ⟨rfl, member, thirdNormal_toThirdForm addresses rfl _ member⟩

end RelationalDesign
