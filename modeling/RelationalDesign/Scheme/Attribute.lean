import RelationalDesign.Text.Basic

/-!
# Attributes

An attribute has a name, a type and constraints. Types and constraints have
numeric codes for exchange, and types have keywords for writing. A code or a
keyword is read back as the type it stands for (`ofCode_code`,
`ofKeyword?_keyword`); an unknown code is read as the unknown type.
-/

set_option autoImplicit false

namespace RelationalDesign

/-- The type of an attribute's values. -/
inductive AttributeType where
  | unknown
  | integer
  | float
  | text
  | boolean
deriving DecidableEq

namespace AttributeType

/-- The keyword by which a type is written. -/
def keyword : AttributeType → String
  | unknown => "unknown"
  | integer => "int"
  | float => "float"
  | text => "string"
  | boolean => "bool"

/-- The keywords by which a type may be read. -/
def keywords : List (String × AttributeType) :=
  [ ("unknown", unknown), ("int", integer), ("integer", integer), ("float", float),
    ("string", text), ("text", text), ("bool", boolean), ("boolean", boolean) ]

/-- The type that a keyword stands for, in any case. -/
def ofKeyword? (name : String) : Option AttributeType := Keyword.find? keywords name

/-- The keyword of a type is read as the type. -/
theorem ofKeyword?_keyword (type : AttributeType) : ofKeyword? type.keyword = some type := by
  cases type <;> decide

/-- The code by which a type is exchanged. -/
def code : AttributeType → Int
  | unknown => -1
  | integer => 0
  | float => 1
  | text => 2
  | boolean => 3

/-- The type with a given code; the unknown type if no type has it. -/
def ofCode (code : Int) : AttributeType :=
  if code = 0 then integer
  else if code = 1 then float
  else if code = 2 then text
  else if code = 3 then boolean
  else unknown

/-- The code of a type is read as the type. -/
theorem ofCode_code (type : AttributeType) : ofCode type.code = type := by
  cases type <;> decide

end AttributeType

/-- A constraint on an attribute. -/
inductive Constraint where
  | notNullable
  | primaryKey
  | foreignKey
deriving DecidableEq

namespace Constraint

/-- The name of a constraint. -/
def name : Constraint → String
  | notNullable => "NotNullable"
  | primaryKey => "PrimaryKey"
  | foreignKey => "ForeignKey"

/-- The code by which a constraint is exchanged. -/
def code : Constraint → Int
  | notNullable => 0
  | primaryKey => 1
  | foreignKey => 2

/-- The constraint with a given code, if there is one. -/
def ofCode? (code : Int) : Option Constraint :=
  if code = 0 then some notNullable
  else if code = 1 then some primaryKey
  else if code = 2 then some foreignKey
  else none

/-- The code of a constraint is read as the constraint. -/
theorem ofCode?_code (constraint : Constraint) : ofCode? constraint.code = some constraint := by
  cases constraint <;> decide

/-- Whether a constraint makes its attribute part of a key. -/
def isKey : Constraint → Bool
  | notNullable => false
  | primaryKey => true
  | foreignKey => true

end Constraint

/-- The constraints of an attribute, each of which holds or not. -/
structure Constraints where
  notNullable : Bool
  primaryKey : Bool
  foreignKey : Bool
deriving DecidableEq

namespace Constraints

instance : EmptyCollection Constraints := ⟨⟨false, false, false⟩⟩

/-- Whether a constraint holds. -/
def holds (constraints : Constraints) : Constraint → Bool
  | .notNullable => constraints.notNullable
  | .primaryKey => constraints.primaryKey
  | .foreignKey => constraints.foreignKey

/-- Adds a constraint. -/
def add (constraints : Constraints) : Constraint → Constraints
  | .notNullable => { constraints with notNullable := true }
  | .primaryKey => { constraints with primaryKey := true }
  | .foreignKey => { constraints with foreignKey := true }

/-- The constraints in a list, whose order and repetitions are forgotten. -/
def ofList (listed : List Constraint) : Constraints := listed.foldl add ∅

/-- The constraints that hold, in a fixed order. -/
def toList (constraints : Constraints) : List Constraint :=
  [Constraint.notNullable, .primaryKey, .foreignKey].filter constraints.holds

/-- The constraints that hold determine which ones hold. -/
theorem ofList_toList (constraints : Constraints) : ofList constraints.toList = constraints := by
  obtain ⟨notNullable, primaryKey, foreignKey⟩ := constraints
  cases notNullable <;> cases primaryKey <;> cases foreignKey <;> rfl

end Constraints

/-- An attribute of a table. -/
structure Attribute where
  name : String
  type : AttributeType
  constraints : Constraints
deriving DecidableEq

namespace Attribute

/-- Whether an attribute belongs to the primary key. -/
def isPrimaryKey (attr : Attribute) : Bool := attr.constraints.primaryKey

/-- Whether an attribute refers to another table. -/
def isForeignKey (attr : Attribute) : Bool := attr.constraints.foreignKey

/-- Whether an attribute must have a value. -/
def isNotNullable (attr : Attribute) : Bool := attr.constraints.notNullable

/-- The same attribute with its key constraints replaced: it belongs to the
primary key or not, and it refers to no table. -/
def withKey (attr : Attribute) (primaryKey : Bool) : Attribute :=
  { attr with constraints := ⟨attr.constraints.notNullable, primaryKey, false⟩ }

/-- The same attribute as one that refers to another table. -/
def asForeignKey (attr : Attribute) : Attribute :=
  { attr with constraints := attr.constraints.add .foreignKey }

end Attribute

end RelationalDesign
