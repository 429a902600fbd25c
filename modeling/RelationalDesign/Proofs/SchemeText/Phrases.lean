import Mathlib.Data.List.Chain
import RelationalDesign.SchemeText.Reading

/-!
# The grammar of scheme texts

A derivation says how a list of tokens makes up a scheme. It is a sequence of items, and
each item is put together from phrases, down to single names, which are bare or quoted:

* an item is the word `table` with a name and entries in braces, or the word `rel` with
  relationships in braces;
* an entry is the word `dep` with names, an arrow and names, or else a name, a type and
  modifiers;
* a relationship is an endpoint, an arrow and an endpoint, and an endpoint is a name with
  names in parentheses.

Keywords may be names, too, but two of them come first. What begins with the bare word `dep`
is no attribute (`EntryPhrase.attr`), and no attribute right behind another one has a
bare name with which a modifier begins (`EntryPhrase.MayPrecede`).

A derivation has its tokens (`Derivation.tokens`) and states a scheme (`Derivation.scheme`),
in which everything stands in the order of the tokens and modifiers have no order and no
repetitions.
-/

set_option autoImplicit false

namespace RelationalDesign.SchemeText

/-! ## Names -/

/-- A name, bare or quoted. -/
inductive NamePhrase where
  | bare (text : String)
  | quoted (text : String)
deriving DecidableEq

namespace NamePhrase

def token : NamePhrase → Token
  | bare text => .word text
  | quoted text => .quoted text

def text : NamePhrase → String
  | bare text => text
  | quoted text => text

end NamePhrase

/-- Further names, each behind a comma. -/
def furtherTokens (others : List NamePhrase) : List Token :=
  others.flatMap fun name => [.comma, name.token]

/-- One or more names with commas between them. -/
structure NamesPhrase where
  first : NamePhrase
  others : List NamePhrase
deriving DecidableEq

namespace NamesPhrase

def tokens (phrase : NamesPhrase) : List Token := phrase.first.token :: furtherTokens phrase.others

def texts (phrase : NamesPhrase) : List String :=
  phrase.first.text :: phrase.others.map NamePhrase.text

end NamesPhrase

/-! ## Entries -/

/-- The modifier for a constraint. -/
def modifierWords : Constraint → List Token
  | .primaryKey => [.word "pk"]
  | .notNullable => [.word "not", .word "null"]
  | .foreignKey => [.word "fk"]

/-- The constraints that some modifiers state, whatever their order and number. -/
def constraintsOf (modifiers : List Constraint) : Constraints :=
  ⟨decide (.notNullable ∈ modifiers), decide (.primaryKey ∈ modifiers),
    decide (.foreignKey ∈ modifiers)⟩

/-- An attribute: a name, the keyword of a type and any number of modifiers. -/
structure AttributePhrase where
  name : NamePhrase
  keyword : String
  type : AttributeType
  typed : AttributeType.ofKeyword? keyword = some type
  modifiers : List Constraint

namespace AttributePhrase

def tokens (phrase : AttributePhrase) : List Token :=
  phrase.name.token :: .word phrase.keyword :: phrase.modifiers.flatMap modifierWords

def toAttribute (phrase : AttributePhrase) : Attribute :=
  ⟨phrase.name.text, phrase.type, constraintsOf phrase.modifiers⟩

end AttributePhrase

/-- A dependency: names, an arrow and names. -/
structure DependencyPhrase where
  determinants : NamesPhrase
  dependants : NamesPhrase

namespace DependencyPhrase

def tokens (phrase : DependencyPhrase) : List Token :=
  phrase.determinants.tokens ++ .arrow :: phrase.dependants.tokens

def toClause (phrase : DependencyPhrase) : DependencyClause :=
  ⟨phrase.determinants.texts, phrase.dependants.texts⟩

end DependencyPhrase

/-- An entry of a table. An attribute is not named by the bare word `dep`. -/
inductive EntryPhrase where
  | attr (phrase : AttributePhrase) (notDep : phrase.name ≠ .bare "dep")
  | dependency (phrase : DependencyPhrase)

namespace EntryPhrase

def tokens : EntryPhrase → List Token
  | .attr phrase _ => phrase.tokens
  | .dependency phrase => .word "dep" :: phrase.tokens

def attribute? : EntryPhrase → Option Attribute
  | .attr phrase _ => some phrase.toAttribute
  | .dependency _ => none

def clause? : EntryPhrase → Option DependencyClause
  | .attr _ _ => none
  | .dependency phrase => some phrase.toClause

/-- An entry may come right before another one, unless both are attributes and the name of the
other one is a bare word that begins a modifier. -/
def MayPrecede : EntryPhrase → EntryPhrase → Prop
  | .attr _ _, .attr other _ => other.name ∉ [.bare "pk", .bare "not", .bare "fk"]
  | _, _ => True

end EntryPhrase

/-- A table: a name and entries in braces. -/
structure TablePhrase where
  name : NamePhrase
  entries : List EntryPhrase
  ordered : entries.IsChain EntryPhrase.MayPrecede

namespace TablePhrase

def tokens (phrase : TablePhrase) : List Token :=
  phrase.name.token :: .openBrace :: (phrase.entries.flatMap EntryPhrase.tokens ++ [.closeBrace])

def toTable (phrase : TablePhrase) : Table :=
  ⟨phrase.name.text, phrase.entries.filterMap EntryPhrase.attribute?,
    phrase.entries.filterMap EntryPhrase.clause?⟩

end TablePhrase

/-! ## Relationships -/

/-- An endpoint: a name and names in parentheses. -/
structure EndpointPhrase where
  table : NamePhrase
  attributes : NamesPhrase

namespace EndpointPhrase

def tokens (phrase : EndpointPhrase) : List Token :=
  phrase.table.token :: .openParen :: (phrase.attributes.tokens ++ [.closeParen])

def toEndpoint (phrase : EndpointPhrase) : Endpoint := ⟨phrase.table.text, phrase.attributes.texts⟩

end EndpointPhrase

/-- A relationship: an endpoint, an arrow and an endpoint. -/
structure RelationshipPhrase where
  source : EndpointPhrase
  target : EndpointPhrase

namespace RelationshipPhrase

def tokens (phrase : RelationshipPhrase) : List Token :=
  phrase.source.tokens ++ .arrow :: phrase.target.tokens

def toRelationship (phrase : RelationshipPhrase) : Relationship :=
  ⟨phrase.source.toEndpoint, phrase.target.toEndpoint⟩

end RelationshipPhrase

/-! ## Schemes -/

/-- An item: a table, or relationships in braces. -/
inductive ItemPhrase where
  | table (phrase : TablePhrase)
  | relationships (phrases : List RelationshipPhrase)

namespace ItemPhrase

def tokens : ItemPhrase → List Token
  | table phrase => .word "table" :: phrase.tokens
  | relationships phrases =>
    .word "rel" :: .openBrace :: (phrases.flatMap RelationshipPhrase.tokens ++ [.closeBrace])

def table? : ItemPhrase → Option Table
  | table phrase => some phrase.toTable
  | relationships _ => none

def block : ItemPhrase → List Relationship
  | table _ => []
  | relationships phrases => phrases.map RelationshipPhrase.toRelationship

end ItemPhrase

/-- A derivation of a scheme: a sequence of items. -/
structure Derivation where
  items : List ItemPhrase

namespace Derivation

def tokens (derivation : Derivation) : List Token := derivation.items.flatMap ItemPhrase.tokens

/-- The scheme of a derivation, with tables and relationships in order. -/
def scheme (derivation : Derivation) : Scheme where
  tables := derivation.items.filterMap ItemPhrase.table?
  relationships := derivation.items.flatMap ItemPhrase.block

end Derivation

end RelationalDesign.SchemeText
