import RelationalDesign.AttributeSet

/-!
# Functional dependencies

A dependency says that rows agreeing on the determinants agree on the
dependants. A clause is a dependency as a scheme writes it down: it keeps the
order and the repetitions of its two name lists, which the dependency itself
forgets.
-/

set_option autoImplicit false

namespace RelationalDesign

/-- A functional dependency: the determinants fix the dependants. -/
structure Dependency where
  determinants : AttributeSet
  dependants : AttributeSet
deriving DecidableEq

namespace Dependency

/-- All attributes that a dependency mentions. -/
def attributes (row : Dependency) : AttributeSet := row.determinants ∪ row.dependants

/-- A row mentions its determinants and its dependants. -/
@[simp]
theorem mem_attributes {name : String} {row : Dependency} :
    name ∈ row.attributes ↔ name ∈ row.determinants ∨ name ∈ row.dependants :=
  AttributeSet.mem_union

theorem determinants_subset_attributes (row : Dependency) : row.determinants ⊆ row.attributes :=
  fun _ determinant => mem_attributes.2 (Or.inl determinant)

theorem dependants_subset_attributes (row : Dependency) : row.dependants ⊆ row.attributes :=
  fun _ dependant => mem_attributes.2 (Or.inr dependant)

/-- The written form of a dependency: its two sets with an arrow between them. -/
def render (row : Dependency) : String :=
  row.determinants.render ++ " → " ++ row.dependants.render

/-- The same determinants with more dependants, except for those that are
determinants already: no row depends on its own determinant. -/
def gain (row : Dependency) (names : AttributeSet) : Dependency :=
  ⟨row.determinants, row.dependants ∪ (names \ row.determinants)⟩

/-- The same determinants with some dependants taken away. -/
def lose (row : Dependency) (names : AttributeSet) : Dependency :=
  ⟨row.determinants, row.dependants \ names⟩

end Dependency

/-- A dependency as a scheme writes it: two lists of names. -/
structure DependencyClause where
  determinants : List String
  dependants : List String
deriving DecidableEq

/-- The dependency that a clause states. -/
def DependencyClause.toDependency (clause : DependencyClause) : Dependency :=
  ⟨AttributeSet.ofList clause.determinants, AttributeSet.ofList clause.dependants⟩

end RelationalDesign
