import RelationalDesign.Scheme.Basic
import RelationalDesign.Scheme.Error

/-!
# Valid schemes

In a valid scheme names are unique, every attribute has a known type, and every
relationship leads from attributes that exist to attributes that exist. The
first fault is reported: a repeated table name, then table by table an
attribute of unknown type or with a repeated name, then relationship by
relationship an endpoint that does not exist.
-/

set_option autoImplicit false

namespace RelationalDesign

/-- The first name of a list that has occurred before, in it or among those seen. -/
def repeated? (seen : List String) : List String → Option String
  | [] => none
  | name :: rest => if name ∈ seen then some name else repeated? (name :: seen) rest

/-- The first fault among the attributes of a table, where some names have been seen. -/
def attributeFault? (table : String) (seen : List String) : List Attribute → Option SchemeError
  | [] => none
  | attr :: rest =>
    if attr.type = .unknown then some (.unknownType table attr.name)
    else if attr.name ∈ seen then some (.duplicateAttribute table attr.name)
    else attributeFault? table (attr.name :: seen) rest

/-- The first fault in a table. -/
def Table.fault? (table : Table) : Option SchemeError :=
  attributeFault? table.name [] table.attributes

/-- An endpoint as messages show it: its table and its attributes in parentheses. -/
def Endpoint.render (endpoint : Endpoint) : String :=
  endpoint.table ++ "(" ++ ", ".intercalate endpoint.attributes ++ ")"

namespace Scheme

/-- Whether the attributes of an endpoint exist. -/
def resolves (scheme : Scheme) (endpoint : Endpoint) : Bool :=
  (scheme.table? endpoint.table).any fun table => table.hasAttributes endpoint.attributes

/-- The fault of an endpoint that is empty or does not exist. -/
def endpointFault? (scheme : Scheme) (endpoint : Endpoint) : Option SchemeError :=
  if endpoint.attributes ≠ [] ∧ scheme.resolves endpoint = true then none
  else some (.unresolvedEndpoint endpoint.render)

/-- The first fault of a scheme. -/
def fault? (scheme : Scheme) : Option SchemeError :=
  (repeated? [] (scheme.tables.map Table.name)).map SchemeError.duplicateTable
    <|> scheme.tables.findSome? Table.fault?
    <|> scheme.relationships.findSome? fun relationship =>
      scheme.endpointFault? relationship.source <|> scheme.endpointFault? relationship.target

/-- Accepts a scheme without fault. -/
def validate (scheme : Scheme) : Except SchemeError Unit :=
  match scheme.fault? with
  | none => .ok ()
  | some error => .error error

end Scheme

end RelationalDesign
