import RelationalDesign.Ddl.Compiler
import RelationalDesign.Exchange.Document
import RelationalDesign.Normalization.Scheme

/-!
# Requests with JSON documents

Requests that take a scheme as a JSON text and answer with a text: to normalize
it, with a JSON text as the answer, and to compile it. Every refusal has a
message; violations of first normal form are listed in a JSON text.
-/

set_option autoImplicit false

namespace RelationalDesign

open Json

/-- Why a request is refused. -/
inductive Refusal where
  | scheme (error : SchemeError)
  | unsupportedForm (number : Nat)
  | unknownDialect (name : String)
  | violations (found : List Violation)
deriving DecidableEq

/-- A violation of first normal form as a value. -/
def Violation.toValue (violation : Violation) : Value :=
  .record [("tableName", .text violation.table), ("attributeName", .text violation.name),
    ("violation", .text violation.reason)]

/-- The message of a refusal. -/
def Refusal.message : Refusal → String
  | scheme error => error.message
  | unsupportedForm number => "unsupported normal form: " ++ toString number
  | unknownDialect name => "unknown dialect: " ++ name
  | violations found =>
    (Value.record [("violations", .list (found.map Violation.toValue))]).write .compact

/-- The scheme that a JSON text holds. -/
def requestedScheme (text : String) : Except Refusal Scheme :=
  (Scheme.ofJson text).mapError Refusal.scheme

/-- The normal form of a number; the third one if there is no number. -/
def requestedForm : Option Nat → Except Refusal NormalForm
  | none => .ok .third
  | some number =>
    match NormalForm.ofNumber? number with
    | some form => .ok form
    | none => .error (.unsupportedForm number)

/-- The dialect of a name; the generic one if there is no name. -/
def requestedDialect : Option String → Except Refusal Ddl.Dialect
  | none => .ok .generic
  | some name =>
    match Ddl.Dialect.ofName? name with
    | some dialect => .ok dialect
    | none => .error (.unknownDialect name)

/-- Normalizes a scheme with the usual settings. -/
def answerNormalize (text : String) (form : Option Nat) : Except Refusal String := do
  let scheme ← requestedScheme text
  let form ← requestedForm form
  match scheme.normalize Settings.usual form with
  | .error violations => throw (.violations violations)
  | .ok normalized => return (Value.record [("scheme", normalized.toValue)]).write .compact

/-- Compiles a scheme. -/
def answerCompile (text : String) (dialect : Option String) : Except Refusal String := do
  let dialect ← requestedDialect dialect
  let scheme ← requestedScheme text
  (Ddl.compile dialect scheme).mapError Refusal.scheme

end RelationalDesign
