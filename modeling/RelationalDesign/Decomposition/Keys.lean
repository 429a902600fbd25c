import RelationalDesign.Decomposition.Basic

/-!
# Keys and references

A decomposition keeps the key of the relation that it splits: `keepKey` makes
sure that some row holds it, and puts the attributes that no row mentions
there. `linkKeys` adds a reference wherever a row holds all determinants of
another row.
-/

set_option autoImplicit false

namespace RelationalDesign

namespace Decomposition

/-- Lets the first row that holds the key also hold the declared attributes that
no row mentions; a row of its own is added for the key if no row holds it.
Nothing happens for an empty key. -/
def keepKey (key declared : AttributeSet) (design : Decomposition) : Decomposition :=
  if key = ∅ then design
  else
    let loose := declared \ AttributeSet.unions (design.rows.map Dependency.attributes)
    match design.rows.findIdx? fun row => decide (key ⊆ row.attributes) with
    | some holder => { design with rows := design.rows.modify holder fun row => row.gain loose }
    | none =>
      ⟨design.rows ++ [Dependency.gain ⟨key, ∅⟩ loose],
        design.references.resize (design.rows.length + 1)⟩

/-- The references that a row may have: to each other row whose determinants it
holds, unless they are none or its own. -/
def possibleReferences (rows : List Dependency) (index : Nat) (row : Dependency) : List Reference :=
  rows.zipIdx.filterMap fun (other, target) =>
    if target ≠ index ∧ other.determinants ≠ ∅ ∧ other.determinants ≠ row.determinants
        ∧ other.determinants ⊆ row.attributes then
      some ⟨other.determinants, target⟩
    else none

/-- Adds to the references of each row the possible ones to rows that it does
not refer to yet. -/
def linkKeys (design : Decomposition) : Decomposition where
  rows := design.rows
  references :=
    (design.rows.zip (design.references.resize design.rows.length)).mapIdx
      fun index (row, known) =>
        known ++ (possibleReferences design.rows index row).filter fun reference =>
          !known.any fun other => other.target == reference.target

end Decomposition

end RelationalDesign
