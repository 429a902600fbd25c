import RelationalDesign.Exchange.Document
import RelationalDesign.Proofs.Exchange.Conversion
import RelationalDesign.Proofs.Json.Documents
import RelationalDesign.Proofs.Json.Records
import RelationalDesign.Proofs.Json.WrittenValues

/-!
# The JSON texts of a scheme

A scheme in exchange has many JSON texts (`Wire.Renders`). Each of its records is written with
keys, in any order and among other keys, or as a list of its fields; dependencies and constraints
may be left out where there are none; and there may be any white space between the tokens.

All of them give the same answer (`Scheme.ofJson_of_renders`): the scheme with the given codes, or
the error about an unknown constraint if some code is no constraint's.
-/

set_option autoImplicit false

namespace RelationalDesign

open Json

/-! ## What is written for a scheme -/

namespace Wire

/-- The nodes that are written for a list of names. -/
def NamesForm : List String → Node → Prop := ListForm TextForm

/-- The nodes that are written for an attribute. -/
def AttributeForm (attr : Attribute) : Node → Prop :=
  RecordForm
    [⟨"name", TextForm attr.name, False⟩, ⟨"type", IntegerForm attr.type, False⟩,
      ⟨"constraints", ListForm IntegerForm attr.constraints, attr.constraints = []⟩]

/-- The nodes that are written for a dependency. -/
def DependencyForm (clause : DependencyClause) : Node → Prop :=
  RecordForm
    [⟨"determinants", NamesForm clause.determinants, False⟩,
      ⟨"dependants", NamesForm clause.dependants, False⟩]

/-- The nodes that are written for a table. -/
def TableForm (table : Table) : Node → Prop :=
  RecordForm
    [⟨"name", TextForm table.name, False⟩,
      ⟨"attributes", ListForm AttributeForm table.attributes, False⟩,
      ⟨"dependencies", ListForm DependencyForm table.dependencies, table.dependencies = []⟩]

/-- The nodes that are written for an endpoint of a relationship. -/
def EndpointForm (endpoint : Endpoint) : Node → Prop :=
  RecordForm
    [⟨"tableName", TextForm endpoint.table, False⟩,
      ⟨"attributeNames", NamesForm endpoint.attributes, False⟩]

/-- The nodes that are written for a relationship. -/
def RelationshipForm (relationship : Relationship) : Node → Prop :=
  RecordForm
    [⟨"from", EndpointForm relationship.source, False⟩,
      ⟨"to", EndpointForm relationship.target, False⟩]

/-- The nodes that are written for a scheme. -/
def SchemeForm (scheme : Scheme) : Node → Prop :=
  RecordForm
    [⟨"tables", ListForm TableForm scheme.tables, False⟩,
      ⟨"relationships", ListForm RelationshipForm scheme.relationships, False⟩]

/-- The texts that are written for a scheme. -/
def Renders (text : String) (scheme : Scheme) : Prop :=
  ∃ node, SchemeForm scheme node ∧ Spells text.toList node.tokens

/-! ## Decoding -/

section Fields

variable {α : Type} {decode : Decoder α} {written : Node → Prop} {value : α}

/-- A field that may not be left out. -/
theorem takes_required (name : String) (takes : Takes decode written value) :
    RecordField.Takes ⟨name, decode, none⟩ ⟨name, written, False⟩ value :=
  ⟨rfl, takes, False.elim⟩

/-- A list that may be left out where it is empty. -/
theorem takes_optional (name : String) {decode : Decoder (List α)} {values : List α}
    (takes : Takes decode written values) :
    RecordField.Takes ⟨name, decode, some []⟩ ⟨name, written, values = []⟩ values :=
  ⟨rfl, takes, fun empty => congrArg some empty.symm⟩

end Fields

theorem takes_decodeNames (names : List String) :
    Takes (decodeList decodeText) (NamesForm names) names :=
  takes_decodeList fun name _ => takes_decodeText name

theorem takes_decodeAttribute (attr : Attribute) :
    Takes decodeAttribute (AttributeForm attr) attr :=
  have constraints : Takes (decodeList decodeInteger) (ListForm IntegerForm attr.constraints)
      attr.constraints :=
    takes_decodeList fun code _ => takes_decodeInteger code
  (takes_decodeThree (takes_required "name" (takes_decodeText attr.name))
    (takes_required "type" (takes_decodeInteger attr.type))
    (takes_optional "constraints" constraints) (by simp) (by simp) (by simp)).map _

theorem takes_decodeDependency (clause : DependencyClause) :
    Takes decodeDependency (DependencyForm clause) clause :=
  (takes_decodeTwo (takes_required "determinants" (takes_decodeNames clause.determinants))
    (takes_required "dependants" (takes_decodeNames clause.dependants)) (by simp)).map _

theorem takes_decodeTable (table : Table) : Takes decodeTable (TableForm table) table :=
  have attributes : Takes (decodeList decodeAttribute) (ListForm AttributeForm table.attributes)
      table.attributes :=
    takes_decodeList fun attr _ => takes_decodeAttribute attr
  have dependencies : Takes (decodeList decodeDependency)
      (ListForm DependencyForm table.dependencies) table.dependencies :=
    takes_decodeList fun clause _ => takes_decodeDependency clause
  (takes_decodeThree (takes_required "name" (takes_decodeText table.name))
    (takes_required "attributes" attributes) (takes_optional "dependencies" dependencies)
    (by simp) (by simp) (by simp)).map _

theorem takes_decodeEndpoint (endpoint : Endpoint) :
    Takes decodeEndpoint (EndpointForm endpoint) endpoint :=
  (takes_decodeTwo (takes_required "tableName" (takes_decodeText endpoint.table))
    (takes_required "attributeNames" (takes_decodeNames endpoint.attributes)) (by simp)).map _

theorem takes_decodeRelationship (relationship : Relationship) :
    Takes decodeRelationship (RelationshipForm relationship) relationship :=
  (takes_decodeTwo (takes_required "from" (takes_decodeEndpoint relationship.source))
    (takes_required "to" (takes_decodeEndpoint relationship.target)) (by simp)).map _

/-- **What is written for a scheme is decoded to the scheme.** -/
theorem takes_decodeScheme (scheme : Scheme) : Takes decodeScheme (SchemeForm scheme) scheme :=
  have tables : Takes (decodeList decodeTable) (ListForm TableForm scheme.tables) scheme.tables :=
    takes_decodeList fun table _ => takes_decodeTable table
  have relationships : Takes (decodeList decodeRelationship)
      (ListForm RelationshipForm scheme.relationships) scheme.relationships :=
    takes_decodeList fun relationship _ => takes_decodeRelationship relationship
  (takes_decodeTwo (takes_required "tables" tables) (takes_required "relationships" relationships)
    (by simp)).map _

theorem readText_of_renders {text : String} {scheme : Scheme} (rendered : Renders text scheme) :
    Scheme.readText text.toList = .ok scheme := by
  obtain ⟨node, form, spelled⟩ := rendered
  obtain ⟨valid, decoded⟩ := takes_decodeScheme scheme node form
  unfold Scheme.readText
  rw [Node.read_of_spells valid spelled]
  show (decodeScheme node >>= fun scheme => _) = _
  rw [decoded]
  rfl

/-! ## Unknown codes -/

/-- **A scheme is refused for an unknown code** and for nothing else. -/
theorem exists_of_decode_eq_error {scheme : Scheme} {error : SchemeError}
    (failed : scheme.decode = .error error) :
    ∃ table ∈ scheme.tables, ∃ attr ∈ table.attributes, ∃ code ∈ attr.constraints,
      Constraint.ofCode? code = none ∧ error = .unknownConstraint table.name attr.name code := by
  rw [← failure?_eq_some_iff, failure?_decode] at failed
  obtain ⟨before, placed, after, place, _, unknown, rfl⟩ := firstUnknown?_eq_some_iff.1 failed
  have isPlaced : placed ∈ scheme.placedCodes := place ▸ List.mem_append_right _ List.mem_cons_self
  obtain ⟨table, isTable, isPlaced⟩ := List.mem_flatMap.1 isPlaced
  obtain ⟨attr, isAttribute, isPlaced⟩ := List.mem_flatMap.1 isPlaced
  obtain ⟨code, isCode, rfl⟩ := List.mem_map.1 isPlaced
  exact ⟨table, isTable, attr, isAttribute, code, isCode,
    Constraint.ofCode?_eq_none_iff.2 unknown, rfl⟩

end Wire

namespace Scheme

open Wire (Renders)

theorem ofJson_eq_decode {text : String} {wire : Wire.Scheme} (rendered : Renders text wire) :
    ofJson text = wire.decode := by
  unfold ofJson
  rw [Wire.readText_of_renders rendered]

/-- **All JSON texts of a scheme give the same answer**: the scheme with its codes, or the error
about a constraint code in it that no constraint has. -/
theorem ofJson_of_renders {text : String} {wire : Wire.Scheme} (rendered : Renders text wire) :
    ofJson text = wire.decode ∧
      ((∃ scheme, ofJson text = .ok scheme) ∨
        ∃ table ∈ wire.tables, ∃ attr ∈ table.attributes, ∃ code ∈ attr.constraints,
          Constraint.ofCode? code = none ∧
          ofJson text = .error (.unknownConstraint table.name attr.name code)) := by
  have same := ofJson_eq_decode rendered
  refine ⟨same, ?_⟩
  cases answer : wire.decode with
  | ok scheme => exact .inl ⟨scheme, same.trans answer⟩
  | error error =>
    obtain ⟨table, isTable, attr, isAttribute, code, isCode, unknown, rfl⟩ :=
      Wire.exists_of_decode_eq_error answer
    exact .inr ⟨table, isTable, attr, isAttribute, code, isCode, unknown, same.trans answer⟩

/-- An attribute as the list of its fields. -/
def identifierDocument : Value :=
  .list [.text "id", .integer 0, .list [.integer 1, .integer 0]]

/-- An attribute with its keys in another order, another key and no constraints. -/
def totalDocument : Value :=
  .record [("type", .integer 9), ("note", .record [("name", .text "x")]), ("name", .text "total")]

/-- A table with its keys in another order and no dependencies. -/
def ordersDocument : Value :=
  .record [("attributes", .list [identifierDocument, totalDocument]), ("name", .text "orders")]

/-- A document with that table, with its keys in another order and another key. -/
def schemeDocument : Value :=
  .record [("version", .list [.integer 1, .record []]), ("relationships", .list []),
    ("tables", .list [ordersDocument])]

theorem renders_schemeDocument (layout : Layout) :
    Renders (schemeDocument.write layout)
      ⟨[⟨"orders", [⟨"id", 0, [1, 0]⟩, ⟨"total", 9, []⟩], []⟩], []⟩ := by
  have code {value : Int} (fits : Number.Fits value) :
      IntegerForm value (Value.node (.integer value)) := ⟨fits, rfl⟩
  have identifier : Wire.AttributeForm ⟨"id", 0, [1, 0]⟩ identifierDocument.node :=
    .listed (.cons rfl (.cons (code (by decide))
      (.cons ⟨_, rfl, .cons (code (by decide)) (.cons (code (by decide)) .nil)⟩ .nil)))
  have total : Wire.AttributeForm ⟨"total", 9, []⟩ totalDocument.node := by
    refine .keyed ?_ (by simp [entries, wellFormed_node])
    simp only [List.forall_mem_cons]
    refine ⟨.cons_of_ne (by simp) (.cons_of_ne (by simp) (.head rfl ?_)),
      .head (code (by decide)) ?_, .absent trivial ?_, by simp⟩ <;> simp [Lacks, entries]
  have orders : Wire.TableForm ⟨"orders", [⟨"id", 0, [1, 0]⟩, ⟨"total", 9, []⟩], []⟩
      ordersDocument.node := by
    refine .keyed ?_ (by simp [entries])
    simp only [List.forall_mem_cons]
    refine ⟨.cons_of_ne (by simp) (.head rfl ?_),
      .head ⟨_, rfl, .cons identifier (.cons total .nil)⟩ ?_, .absent trivial ?_, by simp⟩ <;>
        simp [Lacks, entries]
  refine ⟨schemeDocument.node, .keyed ?_ ?_, schemeDocument.spells_write layout⟩
  · simp only [List.forall_mem_cons]
    refine ⟨.cons_of_ne (by simp) (.cons_of_ne (by simp) (.head ⟨_, rfl, .cons orders .nil⟩ ?_)),
      .cons_of_ne (by simp) (.head ⟨_, rfl, .nil⟩ ?_), by simp⟩ <;> simp [Lacks, entries]
  · simp [entries, wellFormed_node]

theorem ofJson_schemeDocument :
    Renders (schemeDocument.write .indented)
        ⟨[⟨"orders", [⟨"id", 0, [1, 0]⟩, ⟨"total", 9, []⟩], []⟩], []⟩ ∧
      ofJson (schemeDocument.write .indented) =
        .ok ⟨[⟨"orders", [⟨"id", .integer, ⟨true, true, false⟩⟩, ⟨"total", .unknown, ∅⟩], []⟩],
          []⟩ :=
  ⟨renders_schemeDocument .indented,
    (ofJson_of_renders (renders_schemeDocument .indented)).1.trans rfl⟩

end Scheme

end RelationalDesign
