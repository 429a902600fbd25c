import RelationalDesign.Json.Failure

/-!
# Decoding documents

A decoder takes a node for a value of a certain shape. It goes through the node
in the order of the text, and the first thing that does not fit is the failure.

A record is written with its keys in any order, each at most once, among other
keys whose values only have to be well-formed. It may also be written as the list
of its fields. A field can have a value for the case that it is left out.
-/

set_option autoImplicit false

namespace RelationalDesign.Json

/-- A way of taking a node for a value. -/
abbrev Decoder (α : Type) := Node → Except Failure α

/-- Decodes a text. -/
def decodeText : Decoder String
  | .text (some content) => .ok content
  | node => .error (mismatch .text node)

/-- Decodes an integer of 64 bits with a sign. -/
def decodeInteger : Decoder Int
  | .number literal =>
    match literal.value? with
    | some (.integer value) =>
      if value < (Number.signedLimit : Int) then .ok value else .error (.shape (.outOfRange value))
    | _ => .error (mismatch .integer (.number literal))
  | node => .error (mismatch .integer node)

/-- Decodes a list, item by item. -/
def decodeList {α : Type} (item : Decoder α) : Decoder (List α)
  | .list items closed => do
    let values ← items.mapM item
    if closed then return values else throw .malformed
  | node => .error (mismatch .list node)

/-! ## Records -/

/-- A field of a record. -/
structure RecordField (α : Type) where
  name : String
  decode : Decoder α
  /-- The value of the field where it is left out, if it can be. -/
  absent : Option α

namespace RecordField

variable {α : Type}

/-- The value of a field that has been read already or not, once its key is met. -/
def meet (field : RecordField α) (known : Option α) (node : Node) : Except Failure (Option α) :=
  match known with
  | some _ => .error (.shape (.duplicateField field.name))
  | none => (field.decode node).map some

/-- The value of a field at the end of the record. -/
def value (field : RecordField α) : Option α → Except Failure α
  | some value => .ok value
  | none =>
    match field.absent with
    | some value => .ok value
    | none => .error (.shape (.missingField field.name))

end RecordField

/-- A record: its name and the number of its fields. -/
structure Shape where
  name : String
  fields : Nat

namespace Shape

/-- The next field of a record that is written as a list, and the items after it. -/
def takeField {α : Type} (shape : Shape) (closed : Bool) (position : Nat) (field : RecordField α) :
    List Node → Except Failure (α × List Node)
  | node :: rest => (field.decode node).map fun value => (value, rest)
  | [] =>
    if !closed then .error .malformed
    else
      match field.absent with
      | some value => .ok (value, [])
      | none => .error (.shape (.tooShort position shape.name shape.fields))

/-- The end of a record that is written as a list. -/
def endOfFields (closed : Bool) (rest : List Node) : Except Failure Unit :=
  if closed && rest.isEmpty then .ok () else .error .malformed

end Shape

/-- Passes over the value of a key that is no field. -/
def passOver (node : Node) : Except Failure Unit :=
  if node.wellFormed then .ok () else .error .malformed

section TwoFields

variable {α β : Type} (name : String) (first : RecordField α) (second : RecordField β)

/-- Meets one key of a record with two fields. -/
def meetOfTwo (known : Option α × Option β) (entry : Option String × Node) :
    Except Failure (Option α × Option β) :=
  match entry.1 with
  | none => .error .malformed
  | some key =>
    if key = first.name then (first.meet known.1 entry.2).map fun value => (value, known.2)
    else if key = second.name then (second.meet known.2 entry.2).map fun value => (known.1, value)
    else (passOver entry.2).map fun _ => known

/-- Decodes a record with two fields. -/
def decodeTwo : Decoder (α × β)
  | .record entries closed => do
    let (firstKnown, secondKnown) ← entries.foldlM (meetOfTwo first second) (none, none)
    if !closed then throw .malformed
    let firstValue ← first.value firstKnown
    let secondValue ← second.value secondKnown
    return (firstValue, secondValue)
  | .list items closed => do
    let shape : Shape := ⟨name, 2⟩
    let (firstValue, rest) ← shape.takeField closed 0 first items
    let (secondValue, rest) ← shape.takeField closed 1 second rest
    Shape.endOfFields closed rest
    return (firstValue, secondValue)
  | node => .error (mismatch (.record name) node)

end TwoFields

section ThreeFields

variable {α β γ : Type} (name : String) (first : RecordField α) (second : RecordField β)
  (third : RecordField γ)

/-- Meets one key of a record with three fields. -/
def meetOfThree (known : Option α × Option β × Option γ) (entry : Option String × Node) :
    Except Failure (Option α × Option β × Option γ) :=
  match entry.1 with
  | none => .error .malformed
  | some key =>
    if key = first.name then (first.meet known.1 entry.2).map fun value => (value, known.2)
    else if key = second.name then
      (second.meet known.2.1 entry.2).map fun value => (known.1, value, known.2.2)
    else if key = third.name then
      (third.meet known.2.2 entry.2).map fun value => (known.1, known.2.1, value)
    else (passOver entry.2).map fun _ => known

/-- Decodes a record with three fields. -/
def decodeThree : Decoder (α × β × γ)
  | .record entries closed => do
    let (firstKnown, secondKnown, thirdKnown) ←
      entries.foldlM (meetOfThree first second third) (none, none, none)
    if !closed then throw .malformed
    let firstValue ← first.value firstKnown
    let secondValue ← second.value secondKnown
    let thirdValue ← third.value thirdKnown
    return (firstValue, secondValue, thirdValue)
  | .list items closed => do
    let shape : Shape := ⟨name, 3⟩
    let (firstValue, rest) ← shape.takeField closed 0 first items
    let (secondValue, rest) ← shape.takeField closed 1 second rest
    let (thirdValue, rest) ← shape.takeField closed 2 third rest
    Shape.endOfFields closed rest
    return (firstValue, secondValue, thirdValue)
  | node => .error (mismatch (.record name) node)

end ThreeFields

end RelationalDesign.Json
