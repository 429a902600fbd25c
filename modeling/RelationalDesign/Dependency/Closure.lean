import RelationalDesign.Dependency.Basic

/-!
# The closure of an attribute set

The closure of a set under a list of dependencies is what its attributes fix.
It is computed by sweeps over the list: a sweep lets every dependency whose
determinants are known add its dependants, in the order of the list.

A sweep that changes something uses a dependency whose dependants were not all
known before and are known from then on. So there are at most as many such
sweeps as dependencies, and that many are enough.
-/

set_option autoImplicit false

namespace RelationalDesign

/-- What is known after one dependency has been used, if it can be. -/
def Dependency.extend (row : Dependency) (known : AttributeSet) : AttributeSet :=
  if row.determinants ⊆ known then known ∪ row.dependants else known

/-- What is known after every dependency of a list has been used once, in order. -/
def sweep (rows : List Dependency) (known : AttributeSet) : AttributeSet :=
  rows.foldl (fun known row => row.extend known) known

/-- Sweeps until nothing changes, for a given number of rounds at most. -/
def saturate (rows : List Dependency) : Nat → AttributeSet → AttributeSet
  | 0, known => known
  | rounds + 1, known =>
    let next := sweep rows known
    if next = known then known else saturate rows rounds next

/-- The attributes that a set of attributes fixes under a list of dependencies. -/
def closure (rows : List Dependency) (names : AttributeSet) : AttributeSet :=
  saturate rows rows.length names

/-- Whether a list of dependencies implies a dependency. -/
def Implies (rows : List Dependency) (row : Dependency) : Prop :=
  row.dependants ⊆ closure rows row.determinants

instance (rows : List Dependency) (row : Dependency) : Decidable (Implies rows row) :=
  inferInstanceAs (Decidable (row.dependants ⊆ closure rows row.determinants))

end RelationalDesign
