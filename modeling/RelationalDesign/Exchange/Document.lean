import RelationalDesign.Exchange.Wire
import RelationalDesign.Json.Decoding
import RelationalDesign.Json.Value

/-!
# Schemes as JSON documents

A scheme in exchange is a JSON document of nested records. Dependencies and
constraints may be left out where there are none; everything else has to be
there.
-/

set_option autoImplicit false

namespace RelationalDesign

open Json

namespace Wire

/-! ## Reading -/

/-- A field that holds a list of names. -/
def namesField (name : String) : RecordField (List String) := ⟨name, decodeList decodeText, none⟩

/-- Decodes an attribute. -/
def decodeAttribute : Decoder Attribute := fun node =>
  (decodeThree "Attribute" ⟨"name", decodeText, none⟩ ⟨"type", decodeInteger, none⟩
      ⟨"constraints", decodeList decodeInteger, some []⟩ node).map
    fun (name, type, constraints) => ⟨name, type, constraints⟩

/-- Decodes a dependency. -/
def decodeDependency : Decoder DependencyClause := fun node =>
  (decodeTwo "TableDependency" (namesField "determinants") (namesField "dependants") node).map
    fun (determinants, dependants) => ⟨determinants, dependants⟩

/-- Decodes a table. -/
def decodeTable : Decoder Table := fun node =>
  (decodeThree "Table" ⟨"name", decodeText, none⟩
      ⟨"attributes", decodeList decodeAttribute, none⟩
      ⟨"dependencies", decodeList decodeDependency, some []⟩ node).map
    fun (name, attributes, dependencies) => ⟨name, attributes, dependencies⟩

/-- Decodes an endpoint of a relationship. -/
def decodeEndpoint : Decoder Endpoint := fun node =>
  (decodeTwo "RelationshipDestination" ⟨"tableName", decodeText, none⟩
      (namesField "attributeNames") node).map
    fun (table, attributes) => ⟨table, attributes⟩

/-- Decodes a relationship. -/
def decodeRelationship : Decoder Relationship := fun node =>
  (decodeTwo "Relationship" ⟨"from", decodeEndpoint, none⟩ ⟨"to", decodeEndpoint, none⟩ node).map
    fun (source, target) => ⟨source, target⟩

/-- Decodes a scheme. -/
def decodeScheme : Decoder Scheme := fun node =>
  (decodeTwo "Scheme" ⟨"tables", decodeList decodeTable, none⟩
      ⟨"relationships", decodeList decodeRelationship, none⟩ node).map
    fun (tables, relationships) => ⟨tables, relationships⟩

/-- Decodes a whole text: a scheme and nothing after it. -/
def Scheme.readText (text : List Char) : Except Failure Scheme := do
  let (node, complete) := Node.read text
  let scheme ← decodeScheme node
  if complete then return scheme else throw .malformed

/-! ## Writing -/

/-- A list of names as a value. -/
def namesValue (names : List String) : Value := .list (names.map .text)

/-- An attribute as a value. -/
def Attribute.toValue (attr : Attribute) : Value :=
  .record [("name", .text attr.name), ("type", .integer attr.type),
    ("constraints", .list (attr.constraints.map .integer))]

/-- A dependency as a value. -/
def dependencyValue (clause : DependencyClause) : Value :=
  .record [("determinants", namesValue clause.determinants),
    ("dependants", namesValue clause.dependants)]

/-- A table as a value. -/
def Table.toValue (table : Table) : Value :=
  .record [("name", .text table.name),
    ("attributes", .list (table.attributes.map Attribute.toValue)),
    ("dependencies", .list (table.dependencies.map dependencyValue))]

/-- An endpoint of a relationship as a value. -/
def endpointValue (endpoint : Endpoint) : Value :=
  .record [("tableName", .text endpoint.table), ("attributeNames", namesValue endpoint.attributes)]

/-- A relationship as a value. -/
def relationshipValue (relationship : Relationship) : Value :=
  .record [("from", endpointValue relationship.source), ("to", endpointValue relationship.target)]

/-- A scheme as a value. -/
def Scheme.toValue (scheme : Scheme) : Value :=
  .record [("tables", .list (scheme.tables.map Table.toValue)),
    ("relationships", .list (scheme.relationships.map relationshipValue))]

end Wire

namespace Scheme

/-- The scheme that a JSON text holds. -/
def ofJson (text : String) : Except SchemeError Scheme :=
  match Wire.Scheme.readText text.toList with
  | .error failure => .error (.malformed failure)
  | .ok wire => wire.decode

/-- The value by which a scheme is exchanged. -/
def toValue (scheme : Scheme) : Value := (Wire.Scheme.encode scheme).toValue

/-- The JSON text of a scheme, over several lines. -/
def toJson (scheme : Scheme) : String := scheme.toValue.write .indented

end Scheme

end RelationalDesign
