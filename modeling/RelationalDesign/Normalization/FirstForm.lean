import RelationalDesign.Scheme.Basic

/-!
# First normal form

A table can be decomposed if it has a primary key and its dependencies name
only attributes that it declares. What is against that is reported table by
table: first the missing key, then each unknown name once, in the order in
which the dependencies first name it.
-/

set_option autoImplicit false

namespace RelationalDesign

/-- A violation of first normal form. -/
inductive Violation where
  /-- The table has no primary key. -/
  | noPrimaryKey (table : String)
  /-- A dependency of the table names an attribute that it does not declare. -/
  | unknownAttribute (table name : String)
deriving DecidableEq

namespace Violation

/-- The table of a violation. -/
def table : Violation → String
  | noPrimaryKey table => table
  | unknownAttribute table _ => table

/-- The attribute of a violation; empty if the whole table is meant. -/
def name : Violation → String
  | noPrimaryKey _ => ""
  | unknownAttribute _ name => name

/-- What is wrong. -/
def reason : Violation → String
  | noPrimaryKey _ => "no PK present"
  | unknownAttribute _ _ => "unknown attribute"

/-- A violation as a line of text. An empty attribute name is left out. -/
def render (violation : Violation) : String :=
  let place :=
    if violation.name = "" then violation.table
    else violation.table ++ "." ++ violation.name
  place ++ ": " ++ violation.reason

end Violation

/-- The names that the dependencies of a table use, each one's dependants first. -/
def Table.namesInDependencies (table : Table) : List String :=
  table.dependencies.flatMap fun clause => clause.dependants ++ clause.determinants

/-- The violations of first normal form in a table. -/
def Table.violations (table : Table) : List Violation :=
  let keyMissing := if table.primaryKey = [] then [Violation.noPrimaryKey table.name] else []
  let unknown := table.namesInDependencies.filter fun name => !table.hasAttribute name
  keyMissing ++ unknown.eraseDups.map (Violation.unknownAttribute table.name)

/-- The violations of first normal form in a scheme. -/
def Scheme.violations (scheme : Scheme) : List Violation := scheme.tables.flatMap Table.violations

end RelationalDesign
