import RelationalDesign.Json.Failure

/-!
# Errors about schemes

The faults for which a scheme is refused when it is decoded, validated or
compiled, each with what its message names.
-/

set_option autoImplicit false

namespace RelationalDesign

/-- Why a scheme is refused. -/
inductive SchemeError where
  /-- Two tables have the same name. -/
  | duplicateTable (table : String)
  /-- Two attributes of a table have the same name. -/
  | duplicateAttribute (table name : String)
  /-- An attribute has no known type. -/
  | unknownType (table name : String)
  /-- No constraint has the code. -/
  | unknownConstraint (table name : String) (code : Int)
  /-- A relationship leads from or to something that does not exist. -/
  | unresolvedEndpoint (endpoint : String)
  /-- There is no scheme to compile. -/
  | noScheme
  /-- The text cannot be the name of anything in a statement. -/
  | invalidIdentifier (text : String)
  /-- The document cannot be used. -/
  | malformed (failure : Json.Failure)
deriving DecidableEq

/-- The message of an error. -/
def SchemeError.message : SchemeError → String
  | duplicateTable table => "duplicate entities in scheme: '" ++ table ++ "'"
  | duplicateAttribute table name =>
    "duplicate attributes in an entity: '" ++ table ++ "." ++ name ++ "'"
  | unknownType table name => "unknown attribute type: '" ++ table ++ "." ++ name ++ "'"
  | unknownConstraint table name code =>
    "unknown attribute constraint " ++ toString code ++ " on '" ++ table ++ "." ++ name ++ "'"
  | unresolvedEndpoint endpoint => "entity or attribute does not exist: " ++ endpoint
  | noScheme => "no scheme present"
  | invalidIdentifier text => "invalid identifier: " ++ Quoted.quote text
  | malformed .malformed => "malformed scheme"
  | malformed (.shape error) => "malformed scheme: " ++ error.message

end RelationalDesign
