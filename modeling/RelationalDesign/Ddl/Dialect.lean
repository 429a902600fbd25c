import RelationalDesign.Scheme.Attribute
import RelationalDesign.Scheme.Error
import RelationalDesign.Text.Basic

/-!
# Dialects of SQL

Dialects differ in the quote character around names and in some column types.
A name is written between quote characters, and a quote character in it is
written twice; so every text can be a name, unless it is empty or contains NUL.
-/

set_option autoImplicit false

namespace RelationalDesign.Ddl

/-- The dialects of SQL. -/
inductive Dialect where
  | generic
  | postgreSql
  | mySql
deriving DecidableEq

namespace Dialect

/-- The usual spelling of a dialect. -/
def title : Dialect → String
  | generic => "Generic"
  | postgreSql => "PostgreSQL"
  | mySql => "MySQL"

/-- The names of the dialects. -/
def names : List (String × Dialect) :=
  [ ("generic", generic), ("ansi", generic), ("postgres", postgreSql), ("postgresql", postgreSql),
    ("pg", postgreSql), ("mysql", mySql), ("mariadb", mySql) ]

/-- The dialect of a name, in any case. -/
def ofName? (name : String) : Option Dialect := Keyword.find? names name

/-- The quote character around names. -/
def quoteCharacter : Dialect → Char
  | generic | postgreSql => '"'
  | mySql => '\x60'

/-- The type of a column for values of a type. Texts are bounded where a column
that is part of a key must be. -/
def columnType? (dialect : Dialect) (type : AttributeType) : Option String :=
  match type, dialect with
  | .unknown, _ => none
  | .integer, mySql => some "INT"
  | .integer, _ => some "INTEGER"
  | .float, _ => some "FLOAT"
  | .text, mySql => some "VARCHAR(255)"
  | .text, _ => some "TEXT"
  | .boolean, _ => some "BOOLEAN"

end Dialect

/-- Whether a text can be the name of something: it is not empty and has no NUL. -/
def isIdentifier (text : String) : Bool := text != "" && !text.toList.contains '\x00'

/-- A text that can be the name of something. -/
structure Identifier where
  text : String
  valid : isIdentifier text = true
deriving DecidableEq

namespace Identifier

/-- The identifier with a given text. -/
def ofText (text : String) : Except SchemeError Identifier :=
  if valid : isIdentifier text = true then .ok ⟨text, valid⟩ else .error (.invalidIdentifier text)

/-- The characters of a name, each quote character twice. -/
def double (quote : Char) (text : List Char) : List Char :=
  text.flatMap fun c => if c = quote then [quote, quote] else [c]

/-- A name between quote characters. -/
def quoted (dialect : Dialect) (identifier : Identifier) : List Char :=
  dialect.quoteCharacter ::
    (double dialect.quoteCharacter identifier.text.toList ++ [dialect.quoteCharacter])

end Identifier

end RelationalDesign.Ddl
