import RelationalDesign.Proofs.Exchange.Renderings
import RelationalDesign.Proofs.Json.WrittenValues

/-!
# Schemes that are written and read again

What is written for a scheme is one of its JSON texts (`Wire.renders_write`), in either layout,
and the codes in it are those of types and constraints. So the scheme is read back from it
(`Scheme.ofJson_toJson`), whatever characters its names consist of.
-/

set_option autoImplicit false

namespace RelationalDesign

open Json

namespace Wire

/-! ## Codes -/

theorem decodeConstraint_code (table name : String) (constraint : Constraint) :
    decodeConstraint table name constraint.code = .ok constraint := by
  rw [decodeConstraint, Constraint.ofCode?_code]

theorem decode_encode_attribute (table : String) (attr : RelationalDesign.Attribute) :
    (Attribute.encode attr).decode table = .ok attr := by
  have constraints : (attr.constraints.toList.map Constraint.code).mapM
      (decodeConstraint table attr.name) = .ok attr.constraints.toList :=
    mapM_map_eq_ok fun constraint _ => decodeConstraint_code table attr.name constraint
  unfold Attribute.decode Attribute.encode
  rw [constraints]
  show Except.ok (⟨attr.name, AttributeType.ofCode attr.type.code,
    Constraints.ofList attr.constraints.toList⟩ : RelationalDesign.Attribute) = _
  rw [AttributeType.ofCode_code, Constraints.ofList_toList]

theorem decode_encode_table (table : RelationalDesign.Table) :
    (Table.encode table).decode = .ok table := by
  have attributes : (table.attributes.map Attribute.encode).mapM (Attribute.decode table.name) =
      .ok table.attributes :=
    mapM_map_eq_ok fun attr _ => decode_encode_attribute table.name attr
  unfold Table.decode Table.encode
  rw [attributes]
  rfl

/-- **The codes of a scheme are those of the scheme.** -/
theorem decode_encode (scheme : RelationalDesign.Scheme) :
    (Scheme.encode scheme).decode = .ok scheme := by
  have tables : (scheme.tables.map Table.encode).mapM Table.decode = .ok scheme.tables :=
    mapM_map_eq_ok fun table _ => decode_encode_table table
  unfold Scheme.decode Scheme.encode
  rw [tables]
  rfl

theorem fits_code_type (type : AttributeType) : Number.Fits type.code := by
  cases type <;> decide

theorem fits_code_constraint (constraint : Constraint) : Number.Fits constraint.code := by
  cases constraint <;> decide

/-! ## What is written -/

theorem listForm_node {α : Type} {written : α → Node → Prop} {toValue : α → Value}
    {members : List α} (each : ∀ member ∈ members, written member (toValue member).node) :
    ListForm written members (Value.node (.list (members.map toValue))) := by
  refine ⟨_, rfl, ?_⟩
  induction members with
  | nil => exact .nil
  | cons member rest ih =>
    obtain ⟨first, later⟩ := List.forall_mem_cons.1 each
    exact .cons first (ih later)

theorem namesForm_node (names : List String) : NamesForm names (namesValue names).node :=
  listForm_node fun _ _ => rfl

theorem attributeForm_node (attr : RelationalDesign.Attribute) :
    AttributeForm (Attribute.encode attr) (Attribute.encode attr).toValue.node := by
  have type : IntegerForm attr.type.code (Value.node (.integer attr.type.code)) :=
    ⟨fits_code_type attr.type, rfl⟩
  have constraints : ListForm IntegerForm (attr.constraints.toList.map Constraint.code)
      (Value.node (.list ((attr.constraints.toList.map Constraint.code).map .integer))) := by
    refine listForm_node fun code member => ⟨?_, rfl⟩
    obtain ⟨constraint, _, rfl⟩ := List.mem_map.1 member
    exact fits_code_constraint constraint
  exact RecordForm.inOrder (by simp) (.cons rfl (.cons type (.cons constraints .nil)))

theorem dependencyForm_node (clause : DependencyClause) :
    DependencyForm clause (dependencyValue clause).node :=
  RecordForm.inOrder (by simp)
    (.cons (namesForm_node clause.determinants) (.cons (namesForm_node clause.dependants) .nil))

theorem tableForm_node (table : RelationalDesign.Table) :
    TableForm (Table.encode table) (Table.encode table).toValue.node := by
  have attributes : ListForm AttributeForm (table.attributes.map Attribute.encode)
      (Value.node (.list ((table.attributes.map Attribute.encode).map Attribute.toValue))) := by
    refine listForm_node fun attr member => ?_
    obtain ⟨attr, _, rfl⟩ := List.mem_map.1 member
    exact attributeForm_node attr
  have dependencies : ListForm DependencyForm table.dependencies
      (Value.node (.list (table.dependencies.map dependencyValue))) :=
    listForm_node fun clause _ => dependencyForm_node clause
  exact RecordForm.inOrder (by simp) (.cons rfl (.cons attributes (.cons dependencies .nil)))

theorem endpointForm_node (endpoint : Endpoint) :
    EndpointForm endpoint (endpointValue endpoint).node :=
  RecordForm.inOrder (by simp) (.cons rfl (.cons (namesForm_node endpoint.attributes) .nil))

theorem relationshipForm_node (relationship : Relationship) :
    RelationshipForm relationship (relationshipValue relationship).node :=
  RecordForm.inOrder (by simp)
    (.cons (endpointForm_node relationship.source)
      (.cons (endpointForm_node relationship.target) .nil))

theorem schemeForm_node (scheme : RelationalDesign.Scheme) :
    SchemeForm (Scheme.encode scheme) scheme.toValue.node := by
  have tables : ListForm TableForm (scheme.tables.map Table.encode)
      (Value.node (.list ((scheme.tables.map Table.encode).map Table.toValue))) := by
    refine listForm_node fun table member => ?_
    obtain ⟨table, _, rfl⟩ := List.mem_map.1 member
    exact tableForm_node table
  have relationships : ListForm RelationshipForm scheme.relationships
      (Value.node (.list (scheme.relationships.map relationshipValue))) :=
    listForm_node fun relationship _ => relationshipForm_node relationship
  exact RecordForm.inOrder (by simp) (.cons tables (.cons relationships .nil))

/-- **What is written for a scheme is one of its JSON texts.** -/
theorem renders_write (layout : Layout) (scheme : RelationalDesign.Scheme) :
    Renders (scheme.toValue.write layout) (Scheme.encode scheme) :=
  ⟨scheme.toValue.node, schemeForm_node scheme, scheme.toValue.spells_write layout⟩

end Wire

namespace Scheme

/-- The only field of a record without any space around it. -/
theorem write_compact_record (key : String) (value : Value) :
    (Value.record [(key, value)]).write .compact =
      "\x7b" ++ quote key ++ ":" ++ value.write .compact ++ "\x7d" := by
  show "\x7b" ++ "" ++ quote key ++ ":" ++ value.render .compact 1 ++ "" ++ "" ++ "\x7d" = _
  rw [render_compact 1 0 value]
  simp [Value.write, String.append_assoc]

/-- **A scheme is read back from the JSON text that is written for it**, over several lines or
without any space. The text without any space is the one that an answer with the scheme holds
behind its only key. -/
theorem ofJson_toJson (scheme : Scheme) :
    ofJson scheme.toJson = .ok scheme ∧
      ofJson (scheme.toValue.write .compact) = .ok scheme ∧
      (Value.record [("scheme", scheme.toValue)]).write .compact =
        "\x7b" ++ quote "scheme" ++ ":" ++ scheme.toValue.write .compact ++ "\x7d" := by
  have either (layout : Layout) : ofJson (scheme.toValue.write layout) = .ok scheme :=
    (ofJson_eq_decode (Wire.renders_write layout scheme)).trans (Wire.decode_encode scheme)
  exact ⟨either .indented, either .compact, write_compact_record "scheme" scheme.toValue⟩

end Scheme

end RelationalDesign
