import RelationalDesign.Ddl.Dialect

/-!
# Statements

Two kinds of statements define a scheme: one creates a table with its columns
and its key, the other adds a foreign key. The text of a statement is a list of
fragments, which are either fixed words and punctuation or names; only names
depend on what the scheme calls its tables and attributes.
-/

set_option autoImplicit false

namespace RelationalDesign.Ddl

/-- A column of a table. -/
structure Column where
  name : Identifier
  type : String
  notNull : Bool
  /-- Whether the column alone is the primary key. -/
  primaryKey : Bool
deriving DecidableEq

/-- A statement that defines a part of a scheme. -/
inductive Statement where
  /-- Creates a table. The key is empty unless it has several columns. -/
  | createTable (table : Identifier) (columns : List Column) (key : List Identifier)
  /-- Adds a foreign key from some columns of a table to some columns of another. -/
  | addForeignKey (table name : Identifier) (columns : List Identifier) (target : Identifier)
      (targetColumns : List Identifier)
deriving DecidableEq

/-- A piece of the text of a statement. -/
inductive Fragment where
  | fixed (text : String)
  | name (identifier : Identifier)
deriving DecidableEq

/-- Lists of fragments with commas between them. -/
def commaSeparated (lists : List (List Fragment)) : List Fragment :=
  [Fragment.fixed ", "].intercalate lists

/-- Names with commas between them. -/
def nameList (names : List Identifier) : List Fragment :=
  commaSeparated (names.map fun name => [.name name])

/-- The definition of a column. -/
def Column.fragments (column : Column) : List Fragment :=
  [.name column.name,
    .fixed (" " ++ column.type ++ (if column.notNull then " NOT NULL" else "")
      ++ (if column.primaryKey then " PRIMARY KEY" else ""))]

/-- The fragments of a statement. -/
def Statement.fragments : Statement → List Fragment
  | createTable table columns key =>
    let keyClause :=
      if key = [] then []
      else [Fragment.fixed "PRIMARY KEY (" :: (nameList key ++ [Fragment.fixed ")"])]
    [.fixed "CREATE TABLE ", .name table, .fixed " ("]
      ++ commaSeparated (columns.map Column.fragments ++ keyClause) ++ [.fixed ");"]
  | addForeignKey table name columns target targetColumns =>
    [.fixed "ALTER TABLE ", .name table, .fixed " ADD CONSTRAINT ", .name name,
        .fixed " FOREIGN KEY ("]
      ++ nameList columns ++ [.fixed ") REFERENCES ", .name target, .fixed " ("]
      ++ nameList targetColumns ++ [.fixed ");"]

/-- The characters of a fragment. -/
def Fragment.render (dialect : Dialect) : Fragment → List Char
  | fixed text => text.toList
  | name identifier => identifier.quoted dialect

/-- The characters of a list of fragments. -/
def renderFragments (dialect : Dialect) (fragments : List Fragment) : List Char :=
  fragments.flatMap (Fragment.render dialect)

/-- The text of a statement. -/
def Statement.render (dialect : Dialect) (statement : Statement) : String :=
  String.ofList (renderFragments dialect statement.fragments)

/-- The text of a single name. -/
def quoteName (dialect : Dialect) (text : String) : Except SchemeError String := do
  let name ← Identifier.ofText text
  return String.ofList (name.quoted dialect)

/-- The text of a list of names. -/
def quoteNames (dialect : Dialect) (texts : List String) : Except SchemeError String := do
  let names ← texts.mapM Identifier.ofText
  return String.ofList (renderFragments dialect (nameList names))

end RelationalDesign.Ddl
