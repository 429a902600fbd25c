import RelationalDesign.Dependency.Basic
import RelationalDesign.Scheme.Attribute

/-!
# Schemes

A scheme consists of tables and of relationships between them. A table has
attributes and states dependencies between them; a relationship leads from a
group of attributes of one table to a group of attributes of another.

Names need not be unique, and nothing forces a dependency or a relationship to
name what exists. Where a name is looked up, the first thing of that name is
meant.
-/

set_option autoImplicit false

namespace RelationalDesign

/-- A table with its attributes and the dependencies that it states. -/
structure Table where
  name : String
  attributes : List Attribute
  dependencies : List DependencyClause
deriving DecidableEq

namespace Table

/-- The names of the primary key attributes, as declared. -/
def primaryKey (table : Table) : List String :=
  (table.attributes.filter Attribute.isPrimaryKey).map Attribute.name

/-- The names of all attributes, as declared. -/
def attributeNames (table : Table) : List String := table.attributes.map Attribute.name

/-- The first attribute of a name. -/
def attribute? (table : Table) (name : String) : Option Attribute :=
  table.attributes.find? fun attr => decide (attr.name = name)

/-- Whether a table has an attribute of a name. -/
def hasAttribute (table : Table) (name : String) : Bool := (table.attribute? name).isSome

/-- Whether a table has an attribute for each of some names. -/
def hasAttributes (table : Table) (names : List String) : Bool := names.all table.hasAttribute

/-- Lets the first attribute of a name in a list refer to another table. -/
def markFirst (name : String) : List Attribute → List Attribute
  | [] => []
  | attr :: rest =>
    if attr.name = name then attr.asForeignKey :: rest else attr :: markFirst name rest

/-- Lets the attributes of some names refer to another table. -/
def markForeignKeys (table : Table) (names : List String) : Table :=
  { table with
    attributes := names.foldl (fun attributes name => markFirst name attributes) table.attributes }

end Table

/-- A group of attributes of a table, by name. -/
structure Endpoint where
  table : String
  attributes : List String
deriving DecidableEq

/-- A relationship: the attributes at the source refer to those at the target. -/
structure Relationship where
  source : Endpoint
  target : Endpoint
deriving DecidableEq

/-- Tables and the relationships between them. -/
structure Scheme where
  tables : List Table
  relationships : List Relationship
deriving DecidableEq

/-- The first table of a name. -/
def Scheme.table? (scheme : Scheme) (name : String) : Option Table :=
  scheme.tables.find? fun table => decide (table.name = name)

end RelationalDesign
