import RelationalDesign.Ddl.Statement
import RelationalDesign.Scheme.Validation

/-!
# Compiling a scheme

A valid scheme is compiled to one statement for each table and one for each
relationship whose two sides have equally many attributes. A compiler holds the
last valid scheme that it was given; a scheme that is refused changes nothing.
-/

set_option autoImplicit false

namespace RelationalDesign.Ddl

/-- The column of an attribute. With `alone` it is the primary key by itself. -/
def columnOf (dialect : Dialect) (table : String) (alone : Bool) (attr : Attribute) :
    Except SchemeError Column :=
  match dialect.columnType? attr.type with
  | none => .error (.unknownType table attr.name)
  | some type => do
    let name ← Identifier.ofText attr.name
    return ⟨name, type, attr.isNotNullable, attr.isPrimaryKey && alone⟩

/-- The statement that creates a table. -/
def createTable (dialect : Dialect) (table : Table) : Except SchemeError Statement := do
  let composite := decide (1 < table.primaryKey.length)
  let columns ← table.attributes.mapM (columnOf dialect table.name !composite)
  let key ← (if composite then table.primaryKey else []).mapM Identifier.ofText
  let name ← Identifier.ofText table.name
  return .createTable name columns key

/-- The name of the constraint for a relationship. -/
def constraintName (relationship : Relationship) : String :=
  "fk_" ++ relationship.source.table ++ "_" ++ "_".intercalate relationship.source.attributes
    ++ "_to_" ++ relationship.target.table ++ "_" ++ "_".intercalate relationship.target.attributes

/-- Whether a relationship can be a foreign key: its sides have equally many
attributes, at least one, and all of them exist. -/
def isForeignKey (scheme : Scheme) (relationship : Relationship) : Bool :=
  relationship.source.attributes != []
    && relationship.source.attributes.length == relationship.target.attributes.length
    && scheme.resolves relationship.source && scheme.resolves relationship.target

/-- The statement that adds the foreign key of a relationship. -/
def addForeignKey (relationship : Relationship) : Except SchemeError Statement := do
  let table ← Identifier.ofText relationship.source.table
  let name ← Identifier.ofText (constraintName relationship)
  let columns ← relationship.source.attributes.mapM Identifier.ofText
  let target ← Identifier.ofText relationship.target.table
  let targetColumns ← relationship.target.attributes.mapM Identifier.ofText
  return .addForeignKey table name columns target targetColumns

/-- The statements that define a scheme. -/
def statements (dialect : Dialect) (scheme : Scheme) : Except SchemeError (List Statement) := do
  let tables ← scheme.tables.mapM (createTable dialect)
  let foreignKeys ← (scheme.relationships.filter (isForeignKey scheme)).mapM addForeignKey
  return tables ++ foreignKeys

/-- A dialect and the scheme that is to be compiled, if there is one. -/
structure Compiler where
  dialect : Dialect
  scheme : Option Scheme
deriving DecidableEq

namespace Compiler

/-- A compiler without a scheme. -/
def start (dialect : Dialect) : Compiler := ⟨dialect, none⟩

/-- The compiler with another scheme, if that is valid. -/
def accept (compiler : Compiler) (scheme : Scheme) : Except SchemeError Compiler := do
  scheme.validate
  return { compiler with scheme := some scheme }

/-- The text of all statements, each on a line. -/
def build (compiler : Compiler) : Except SchemeError String :=
  match compiler.scheme with
  | none => .error .noScheme
  | some scheme => do
    let statements ← statements compiler.dialect scheme
    return "\n".intercalate (statements.map (Statement.render compiler.dialect))

end Compiler

/-- Validates a scheme and compiles it. -/
def compile (dialect : Dialect) (scheme : Scheme) : Except SchemeError String := do
  let compiler ← (Compiler.start dialect).accept scheme
  compiler.build

end RelationalDesign.Ddl
