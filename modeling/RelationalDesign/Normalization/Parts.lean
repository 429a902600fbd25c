import RelationalDesign.Normalization.NormalForm
import RelationalDesign.Scheme.Basic

/-!
# The parts of a table

Each row of a decomposition becomes a part of the table: a table of its own,
whose primary key are the row's determinants and whose other attributes are the
row's dependants. Attributes keep their type and whether they may be empty.
References between rows become relationships between parts, where both parts
have all attributes of the reference.
-/

set_option autoImplicit false

namespace RelationalDesign

/-- A reference between two parts that both have its attributes. -/
structure Link where
  /-- The position of the part that refers. -/
  source : Nat
  /-- The position of the part that is referred to. -/
  target : Nat
  /-- The attributes, as the table declares them. -/
  attributes : List String
deriving DecidableEq

/-- The parts of a table and the relationships between them. -/
structure Parts where
  /-- The name of the table. -/
  table : String
  parts : List Table
  relationships : List Relationship
deriving DecidableEq

namespace Table

/-- The name of a part of a table, by its position. -/
def partName (table : Table) (position : Nat) : String :=
  table.name ++ "Part" ++ toString (position + 1)

/-- The attributes of a table in a set of names, as declared, with their key
constraints replaced. -/
def select (table : Table) (names : AttributeSet) (primaryKey : Bool) : List Attribute :=
  (table.attributes.filter fun attr => decide (attr.name ∈ names)).map fun attr =>
    attr.withKey primaryKey

/-- The part of a table for a row: first the key, then the dependants. -/
def part (table : Table) (position : Nat) (row : Dependency) : Table :=
  ⟨table.partName position, table.select row.determinants true ++ table.select row.dependants false,
    []⟩

/-- The decomposition of a table under given dependencies, with its key kept, if
that is wanted, and with all references. -/
def design (settings : Settings) (form : NormalForm) (table : Table)
    (dependencies : List Dependency) : Decomposition :=
  let decomposed := form.decompose (settings.cover.cover dependencies)
  let kept :=
    if settings.preserveKey then
      decomposed.keepKey (AttributeSet.ofList table.primaryKey)
        (AttributeSet.ofList table.attributeNames)
    else decomposed
  kept.linkKeys

/-- The link for a reference, if each of its attributes is declared once and both
parts have them all. -/
def link? (table : Table) (parts : List Table) (source : Nat) (reference : Reference) :
    Option Link :=
  let names := table.attributeNames.filter fun name => decide (name ∈ reference.key)
  match parts[source]?, parts[reference.target]? with
  | some referring, some referred =>
    if names.length = reference.key.size ∧ referring.hasAttributes names = true
        ∧ referred.hasAttributes names = true then
      some ⟨source, reference.target, names⟩
    else none
  | _, _ => none

/-- The links for all references of a decomposition, in order. -/
def links (table : Table) (parts : List Table) (references : References) : List Link :=
  references.zipIdx.flatMap fun (fromRow, source) => fromRow.filterMap (table.link? parts source)

/-- The relationship that a link stands for. -/
def relationshipOf (table : Table) (link : Link) : Relationship :=
  ⟨⟨table.partName link.source, link.attributes⟩, ⟨table.partName link.target, link.attributes⟩⟩

/-- Marks the attributes of parts that refer to another part. -/
def markLinks (links : List Link) (parts : List Table) : List Table :=
  parts.mapIdx fun position part =>
    (links.filter fun link => link.source == position).foldl
      (fun part link => part.markForeignKeys link.attributes) part

/-- The parts of a table under given dependencies. -/
def decomposeBy (settings : Settings) (form : NormalForm) (table : Table)
    (dependencies : List Dependency) : Parts :=
  let design := table.design settings form dependencies
  let parts := design.rows.mapIdx table.part
  let links := table.links parts design.references
  ⟨table.name, markLinks links parts, links.map table.relationshipOf⟩

/-- The parts of a table under the dependencies that it states. -/
def decompose (settings : Settings) (form : NormalForm) (table : Table) : Parts :=
  table.decomposeBy settings form (table.dependencies.map DependencyClause.toDependency)

end Table

end RelationalDesign
