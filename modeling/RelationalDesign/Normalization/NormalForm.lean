import RelationalDesign.Decomposition.Matrix
import RelationalDesign.Text.Basic

/-!
# Normal forms and settings

Which normal form is wanted, and how a scheme is brought into it. Forms and
cover modes can be given by name, in any case.
-/

set_option autoImplicit false

namespace RelationalDesign

/-- The normal forms that a scheme can be brought into. -/
inductive NormalForm where
  | second
  | third
deriving DecidableEq

namespace NormalForm

/-- The number of a normal form. -/
def number : NormalForm → Nat
  | second => 2
  | third => 3

/-- The normal form with a given number, if there is one. -/
def ofNumber? (number : Nat) : Option NormalForm :=
  if number = 2 then some second else if number = 3 then some third else none

/-- The names of the normal forms. -/
def names : List (String × NormalForm) :=
  [ ("2", second), ("2nf", second), ("second", second),
    ("3", third), ("3nf", third), ("third", third) ]

/-- The normal form of a name, in any case. -/
def ofName? (name : String) : Option NormalForm := Keyword.find? names name

/-- A decomposition of a cover in a normal form. -/
def decompose : NormalForm → List Dependency → Decomposition
  | second, cover => secondForm cover
  | third, cover => thirdForm cover

end NormalForm

namespace CoverMode

/-- The names of the cover modes. -/
def names : List (String × CoverMode) :=
  [("minimal", minimal), ("split", splitOnly), ("split_only", splitOnly)]

/-- The cover mode of a name, in any case. -/
def ofName? (name : String) : Option CoverMode := Keyword.find? names name

end CoverMode

/-- How a scheme is normalized. -/
structure Settings where
  /-- How the dependencies of a table are prepared. -/
  cover : CoverMode
  /-- Whether some part of a table keeps its primary key and the attributes that
  no dependency mentions. -/
  preserveKey : Bool
  /-- Whether the relationships of the scheme are led on to the parts. -/
  carryRelationships : Bool
deriving DecidableEq

/-- The usual settings: a minimal cover, keys and relationships kept. -/
def Settings.usual : Settings := ⟨.minimal, true, true⟩

end RelationalDesign
