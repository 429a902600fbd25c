import RelationalDesign.Normalization.FirstForm
import RelationalDesign.Normalization.Parts

/-!
# Normalizing a scheme

Every table of a scheme in first normal form is replaced by its parts. A
relationship of the scheme is led on from a part to a part, where such parts
exist: from the first part that has all its source attributes, and to the part
whose primary key consists of its target attributes, or else to the first part
that has them. A relationship that is there already is not added again.
-/

set_option autoImplicit false

namespace RelationalDesign

/-- A relationship that has been led on to parts, with the place of its source. -/
structure Carried where
  /-- The position of the table among the tables. -/
  table : Nat
  /-- The position of the part among the parts of the table. -/
  part : Nat
  relationship : Relationship
deriving DecidableEq

/-- The part that a relationship to some attributes leads to. -/
def Parts.referred? (parts : Parts) (attributes : List String) : Option Table :=
  (parts.parts.find? fun part => part.primaryKey.isPerm attributes) <|>
    parts.parts.find? fun part => part.hasAttributes attributes

/-- Leads a relationship on to the parts of its tables, if there are such parts. -/
def carry? (tables : List Parts) (relationship : Relationship) : Option Carried := do
  let table ← tables.findIdx? fun parts => decide (parts.table = relationship.source.table)
  let sources ← tables[table]?
  let targets ← tables.find? fun parts => decide (parts.table = relationship.target.table)
  let part ← sources.parts.findIdx? fun part => part.hasAttributes relationship.source.attributes
  let source ← sources.parts[part]?
  let target ← targets.referred? relationship.target.attributes
  return ⟨table, part, ⟨⟨source.name, relationship.source.attributes⟩,
    ⟨target.name, relationship.target.attributes⟩⟩⟩

/-- Adds a relationship that has been led on, unless it is there already. -/
def addCarried (tables : List Parts) (present : List Relationship) (carried : List Carried)
    (relationship : Relationship) : List Carried :=
  match carry? tables relationship with
  | none => carried
  | some found =>
    if found.relationship ∈ present ++ carried.map Carried.relationship then carried
    else carried ++ [found]

/-- Marks the attributes of parts from which relationships have been led on. -/
def markCarried (carried : List Carried) (tables : List Parts) : List Table :=
  (tables.mapIdx fun table parts => parts.parts.mapIdx fun part content =>
    (carried.filter fun other => other.table == table && other.part == part).foldl
      (fun content other => content.markForeignKeys other.relationship.source.attributes)
      content).flatten

namespace Scheme

/-- The scheme with every table replaced by its parts. -/
def decompose (settings : Settings) (form : NormalForm) (scheme : Scheme) : Scheme :=
  let tables := scheme.tables.map (Table.decompose settings form)
  let inner := tables.flatMap Parts.relationships
  let carried :=
    if settings.carryRelationships then scheme.relationships.foldl (addCarried tables inner) []
    else []
  ⟨markCarried carried tables, inner ++ carried.map Carried.relationship⟩

/-- The normal form of a scheme, or what is against its first normal form. -/
def normalize (settings : Settings) (form : NormalForm) (scheme : Scheme) :
    Except (List Violation) Scheme :=
  if scheme.violations = [] then .ok (scheme.decompose settings form)
  else .error scheme.violations

end Scheme

end RelationalDesign
