import RelationalDesign.Scheme.Basic
import RelationalDesign.SchemeText.Token

/-!
# Writing a scheme

A scheme is written as a text that reads as the same scheme. A name is written
as a bare word if it reads as one and is not a keyword, and otherwise as a
quoted text.
-/

set_option autoImplicit false

namespace RelationalDesign.SchemeText

/-- The words that a text uses for its own structure. -/
def keywords : List String := ["table", "rel", "dep", "pk", "not", "null", "fk"]

/-- Whether a text has the form of a word. -/
def isWord (text : String) : Bool :=
  match text.toList with
  | [] => false
  | first :: rest => beginsWord first && rest.all continuesWord

/-- How a character is written in a quoted text. -/
def escape (c : Char) : List Char :=
  if c = '"' then ['\\', '"']
  else if c = '\\' then ['\\', '\\']
  else if c = '\n' then ['\\', 'n']
  else if c = '\t' then ['\\', 't']
  else if c = '\r' then ['\\', 'r']
  else [c]

/-- A name as a quoted text. -/
def quote (name : String) : String := "\"" ++ String.ofList (name.toList.flatMap escape) ++ "\""

/-- A name as a bare word where that is possible, and quoted elsewhere. -/
def writeName (name : String) : String :=
  if isWord name && !keywords.contains name then name else quote name

/-- Names with commas between them. -/
def writeNames (names : List String) : String := ", ".intercalate (names.map writeName)

/-- The modifiers behind a type, each with a space before it. -/
def writeModifiers (constraints : Constraints) : String :=
  (if constraints.primaryKey then " pk" else "")
    ++ (if constraints.notNullable then " not null" else "")
    ++ (if constraints.foreignKey then " fk" else "")

/-- The line of an attribute. -/
def writeAttribute (attr : Attribute) : String :=
  "    " ++ writeName attr.name ++ " " ++ attr.type.keyword ++ writeModifiers attr.constraints
    ++ "\n"

/-- The line of a dependency. -/
def writeDependency (clause : DependencyClause) : String :=
  "    dep " ++ writeNames clause.determinants ++ " -> " ++ writeNames clause.dependants ++ "\n"

/-- The block of a table. -/
def writeTable (table : Table) : String :=
  "table " ++ writeName table.name ++ " \x7b\n"
    ++ String.join (table.attributes.map writeAttribute)
    ++ String.join (table.dependencies.map writeDependency) ++ "\x7d\n"

/-- An endpoint of a relationship. -/
def writeEndpoint (endpoint : Endpoint) : String :=
  writeName endpoint.table ++ "(" ++ writeNames endpoint.attributes ++ ")"

/-- The line of a relationship. -/
def writeRelationship (relationship : Relationship) : String :=
  "    " ++ writeEndpoint relationship.source ++ " -> " ++ writeEndpoint relationship.target
    ++ "\n"

/-- The block of all relationships. -/
def writeRelationships (relationships : List Relationship) : String :=
  "rel \x7b\n" ++ String.join (relationships.map writeRelationship) ++ "\x7d\n"

/-- A scheme as a text: a block for each table and one for the relationships, if
there are any, with empty lines between the blocks. -/
def write (scheme : Scheme) : String :=
  let relationships :=
    if scheme.relationships = [] then [] else [writeRelationships scheme.relationships]
  "\n".intercalate (scheme.tables.map writeTable ++ relationships)

end RelationalDesign.SchemeText
