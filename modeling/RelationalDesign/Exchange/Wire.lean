import RelationalDesign.Scheme.Basic
import RelationalDesign.Scheme.Error

/-!
# Schemes in exchange

For exchange a scheme has its types and constraints replaced by codes. A type
code that no type has is read as the unknown type; a constraint code that no
constraint has is an error, and the first one in the order of the document is
reported.
-/

set_option autoImplicit false

namespace RelationalDesign.Wire

/-- An attribute with codes for its type and its constraints. -/
structure Attribute where
  name : String
  type : Int
  constraints : List Int
deriving DecidableEq

/-- A table whose attributes have codes. -/
structure Table where
  name : String
  attributes : List Attribute
  dependencies : List DependencyClause
deriving DecidableEq

/-- A scheme whose attributes have codes. -/
structure Scheme where
  tables : List Table
  relationships : List Relationship
deriving DecidableEq

/-! ## From codes -/

/-- The constraint with a code, for an attribute of a table. -/
def decodeConstraint (table name : String) (code : Int) : Except SchemeError Constraint :=
  match Constraint.ofCode? code with
  | some constraint => .ok constraint
  | none => .error (.unknownConstraint table name code)

/-- The attribute with the given codes. -/
def Attribute.decode (table : String) (attr : Attribute) :
    Except SchemeError RelationalDesign.Attribute := do
  let constraints ← attr.constraints.mapM (decodeConstraint table attr.name)
  return ⟨attr.name, AttributeType.ofCode attr.type, Constraints.ofList constraints⟩

/-- The table with the given codes. -/
def Table.decode (table : Table) : Except SchemeError RelationalDesign.Table := do
  let attributes ← table.attributes.mapM (Attribute.decode table.name)
  return ⟨table.name, attributes, table.dependencies⟩

/-- The scheme with the given codes. -/
def Scheme.decode (scheme : Scheme) : Except SchemeError RelationalDesign.Scheme := do
  let tables ← scheme.tables.mapM Table.decode
  return ⟨tables, scheme.relationships⟩

/-! ## To codes -/

/-- An attribute with its codes. -/
def Attribute.encode (attr : RelationalDesign.Attribute) : Attribute :=
  ⟨attr.name, attr.type.code, attr.constraints.toList.map Constraint.code⟩

/-- A table with its codes. -/
def Table.encode (table : RelationalDesign.Table) : Table :=
  ⟨table.name, table.attributes.map Attribute.encode, table.dependencies⟩

/-- A scheme with its codes. -/
def Scheme.encode (scheme : RelationalDesign.Scheme) : Scheme :=
  ⟨scheme.tables.map Table.encode, scheme.relationships⟩

end RelationalDesign.Wire
