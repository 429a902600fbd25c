import Mathlib.Data.Set.Defs
import RelationalDesign.Proofs.Dependency.Closure

/-!
# Relations and the dependencies they satisfy

A tuple gives a value to some attributes. A relation is a set of tuples over one
heading: each of them has a value exactly for the attributes of the heading. It
satisfies a dependency if tuples that agree on the determinants agree on the
dependants.

Where a relation satisfies a list of dependencies, the attributes on which two of
its tuples agree are closed under the list (`closed_agreement`). So tuples that
agree on a set agree on its closure (`agree_on_closure`), and the relation
satisfies whatever the list implies (`Satisfies.of_implies`).
-/

set_option autoImplicit false

namespace RelationalDesign

universe u

variable {V : Type u}

/-- Values for some attributes. -/
abbrev Tuple (V : Type u) := String → Option V

/-- The values of a tuple for a set of attributes, and no others. -/
def Tuple.restrict (tuple : Tuple V) (names : AttributeSet) : Tuple V :=
  fun name => if name ∈ names then tuple name else none

/-- A set of tuples that have values for the same attributes. -/
structure Relation (V : Type u) where
  heading : AttributeSet
  tuples : Set (Tuple V)
  /-- Each tuple has values for the attributes of the heading and for no others. -/
  typed : ∀ tuple ∈ tuples, ∀ name, (tuple name).isSome ↔ name ∈ heading

namespace Tuple

theorem restrict_of_mem {tuple : Tuple V} {names : AttributeSet} {name : String}
    (member : name ∈ names) : tuple.restrict names name = tuple name := if_pos member

theorem restrict_of_notMem {tuple : Tuple V} {names : AttributeSet} {name : String}
    (outside : name ∉ names) : tuple.restrict names name = none := if_neg outside

theorem restrict_restrict {tuple : Tuple V} {inner outer : AttributeSet}
    (contained : inner ⊆ outer) : (tuple.restrict outer).restrict inner = tuple.restrict inner := by
  funext name
  by_cases member : name ∈ inner
  · rw [restrict_of_mem member, restrict_of_mem member, restrict_of_mem (contained name member)]
  · rw [restrict_of_notMem member, restrict_of_notMem member]

end Tuple

namespace Relation

@[ext]
theorem ext {first second : Relation V} (heading : first.heading = second.heading)
    (tuples : ∀ tuple, tuple ∈ first.tuples ↔ tuple ∈ second.tuples) : first = second := by
  obtain ⟨firstHeading, firstTuples, _⟩ := first
  obtain ⟨secondHeading, secondTuples, _⟩ := second
  obtain rfl : firstHeading = secondHeading := heading
  obtain rfl : firstTuples = secondTuples := Set.ext tuples
  rfl

/-- A tuple of a relation has no value outside the heading. -/
theorem eq_none_of_notMem {relation : Relation V} {tuple : Tuple V}
    (member : tuple ∈ relation.tuples) {name : String} (outside : name ∉ relation.heading) :
    tuple name = none := by
  rw [← Option.not_isSome_iff_eq_none, relation.typed tuple member name]
  exact outside

/-- Tuples that agree on the determinants agree on the dependants. -/
def Satisfies (relation : Relation V) (row : Dependency) : Prop :=
  ∀ first ∈ relation.tuples, ∀ second ∈ relation.tuples,
    (∀ name ∈ row.determinants, first name = second name) →
      ∀ name ∈ row.dependants, first name = second name

/-- The relation with one tuple for each index, given by the values of all names. -/
def ofValues {ι : Type} (heading : AttributeSet) (values : ι → String → V) : Relation V where
  heading := heading
  tuples := {tuple | ∃ index, tuple = Tuple.restrict (fun name => some (values index name)) heading}
  typed := by
    rintro _ ⟨index, rfl⟩ name
    by_cases member : name ∈ heading
    · rw [Tuple.restrict_of_mem member]
      exact iff_of_true rfl member
    · rw [Tuple.restrict_of_notMem member]
      exact iff_of_false Bool.false_ne_true member

theorem satisfies_ofValues {ι : Type} {heading : AttributeSet} {values : ι → String → V}
    {row : Dependency} (within : row.determinants ⊆ heading)
    (fixed : ∀ first second, (∀ name ∈ row.determinants, values first name = values second name) →
      ∀ name ∈ row.dependants, values first name = values second name) :
    (ofValues heading values).Satisfies row := by
  rintro _ ⟨first, rfl⟩ _ ⟨second, rfl⟩ agree name dependant
  by_cases member : name ∈ heading
  · rw [Tuple.restrict_of_mem member, Tuple.restrict_of_mem member]
    refine congrArg some (fixed first second (fun determinant isDeterminant => ?_) name dependant)
    have same := agree determinant isDeterminant
    rw [Tuple.restrict_of_mem (within determinant isDeterminant),
      Tuple.restrict_of_mem (within determinant isDeterminant)] at same
    exact Option.some.inj same
  · rw [Tuple.restrict_of_notMem member, Tuple.restrict_of_notMem member]

/-- Rows of values that agree on the determinants of a dependency which their relation
satisfies agree on its dependants. -/
theorem Satisfies.agree {ι : Type} {heading : AttributeSet} {values : ι → String → V}
    {row : Dependency} (satisfied : (ofValues heading values).Satisfies row) {first second : ι}
    (agree : ∀ name ∈ row.determinants, values first name = values second name) {name : String}
    (dependant : name ∈ row.dependants) (inHeading : name ∈ heading) :
    values first name = values second name := by
  have equal := satisfied _ ⟨first, rfl⟩ _ ⟨second, rfl⟩ (fun determinant isDeterminant => ?_)
    name dependant
  · rw [Tuple.restrict_of_mem inHeading, Tuple.restrict_of_mem inHeading] at equal
    exact Option.some.inj equal
  · by_cases inside : determinant ∈ heading
    · rw [Tuple.restrict_of_mem inside, Tuple.restrict_of_mem inside]
      exact congrArg some (agree determinant isDeterminant)
    · rw [Tuple.restrict_of_notMem inside, Tuple.restrict_of_notMem inside]

variable {relation : Relation V} {rows : List Dependency}
  (satisfied : ∀ row ∈ rows, relation.Satisfies row)
include satisfied

/-- **Agreement of two tuples is closed under the dependencies that are satisfied.** -/
theorem closed_agreement {first second : Tuple V} (firstMember : first ∈ relation.tuples)
    (secondMember : second ∈ relation.tuples) : Closed rows fun name => first name = second name :=
  fun row member => satisfied row member first firstMember second secondMember

/-- Tuples that agree on a set of attributes agree on its closure. -/
theorem agree_on_closure {first second : Tuple V} (firstMember : first ∈ relation.tuples)
    (secondMember : second ∈ relation.tuples) {names : AttributeSet}
    (agree : ∀ name ∈ names, first name = second name) :
    ∀ name ∈ closure rows names, first name = second name :=
  closure_induction (closed_agreement satisfied firstMember secondMember) agree

/-- **A relation satisfies what the dependencies it satisfies imply.** -/
theorem Satisfies.of_implies {row : Dependency} (implied : Implies rows row) :
    relation.Satisfies row := by
  intro first firstMember second secondMember agree name dependant
  exact agree_on_closure satisfied firstMember secondMember agree name (implied name dependant)

end Relation

end RelationalDesign
