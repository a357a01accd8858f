import Grm.Runtime.Requests
import Grm.Service.ProtoRequests
import Grm.Service.RequestConversions

/-!
# The wire round trip

Records and models go into messages directly, with an encoder of property values of their
own, and come back through the service's types. What a reachable session stores comes
back as it was, and so does every request that the client can send.
-/

set_option autoImplicit false

/-! ## Models -/

/-- `proto_field_value_type_from_runtime`. -/
def protoFieldValueTypeFromRuntime : PrimitiveKind → Int
  | .string => 1
  | .int => 2
  | .float => 3
  | .bool => 4
  | .bytes => 5
  | .decimal => 6
  | .date => 7
  | .dateTime => 8
  | .duration => 9
  | .uuid => 10

/-- `runtime_value_type_from_proto`. -/
def runtimeValueTypeFromProto : Int → GrmResult PrimitiveKind
  | 1 => .ok .string
  | 2 => .ok .int
  | 3 => .ok .float
  | 4 => .ok .bool
  | 5 => .ok .bytes
  | 6 => .ok .decimal
  | 7 => .ok .date
  | 8 => .ok .dateTime
  | 9 => .ok .duration
  | 10 => .ok .uuid
  | value => .error (unknownProtoEnum "FieldValueType" value)

/-- `proto_field_spec`. -/
def protoFieldSpec (field : RuntimeField) : Proto.FieldSpec :=
  { name := field.name, valueType := protoFieldValueTypeFromRuntime field.valueType, required := field.required }

/-- `runtime_field_from_proto`. -/
def runtimeFieldFromProto (field : Proto.FieldSpec) : GrmResult RuntimeField := do
  let valueType ← runtimeValueTypeFromProto field.valueType
  return { name := field.name, valueType, required := field.required }

theorem runtimeFieldFromProto_spec (field : RuntimeField) : runtimeFieldFromProto (protoFieldSpec field) = .ok field := by
  obtain ⟨name, valueType, required⟩ := field
  cases valueType <;> rfl

/-- `proto_id_type`. -/
def protoIdType : BackendIdType → GrmResult Int
  | .int64 => .ok 1
  | .uuid => .error (.notSupported "service proto id type mapping for UUID ids")

/-- `backend_id_type_from_proto`. -/
def backendIdTypeFromProto : Int → GrmResult BackendIdType
  | 1 => .ok .int64
  | value => .error (unknownProtoEnum "IdType" value)

/-- `proto_node_model`. -/
def protoNodeModel (model : RuntimeNodeModel) : GrmResult Proto.NodeModel := do
  let idType ← protoIdType model.idType
  return { name := model.name, label := model.label, idFieldName := model.idFieldName, idType
           fields := model.fields.map protoFieldSpec }

/-- `proto_edge_model`. -/
def protoEdgeModel (model : RuntimeRelModel) : GrmResult Proto.EdgeModel := do
  let idType ← protoIdType model.idType
  return { name := model.name, relType := model.relType, fromModel := model.fromModel, toModel := model.toModel
           idFieldName := model.idFieldName, idType, fields := model.fields.map protoFieldSpec }

/-- `runtime_node_model_from_proto`; the client wraps the error. -/
def runtimeNodeModelFromProto (model : Proto.NodeModel) : GrmResult RuntimeNodeModel := do
  let fields ← model.fields.mapM runtimeFieldFromProto
  let idType ← backendIdTypeFromProto model.idType
  RuntimeNodeModel.new model.name model.idFieldName idType fields

/-- `runtime_edge_model_from_proto`; the client wraps the error. -/
def runtimeEdgeModelFromProto (model : Proto.EdgeModel) : GrmResult RuntimeRelModel := do
  let fields ← model.fields.mapM runtimeFieldFromProto
  let idType ← backendIdTypeFromProto model.idType
  RuntimeRelModel.new model.name model.fromModel model.toModel model.idFieldName idType fields

/-- A checked model is built again from its message. -/
theorem RuntimeNodeModel.Checked.survives {model : RuntimeNodeModel} (checked : model.Checked) :
    Survives protoNodeModel runtimeNodeModelFromProto model := by
  have made := RuntimeNodeModel.new_ok checked
  have int64 : model.idType = .int64 := congrArg RuntimeNodeModel.idType made
  have fields := mapM_map_eq_ok (l := model.fields) fun field _ => runtimeFieldFromProto_spec field
  refine ⟨⟨model.name, model.label, model.idFieldName, 1, model.fields.map protoFieldSpec⟩, ?_, ?_⟩
  · rw [protoNodeModel, int64]
    rfl
  · simp only [runtimeNodeModelFromProto, fields, Except.ok_bind]
    exact checked

theorem RuntimeRelModel.Checked.survives {model : RuntimeRelModel} (checked : model.Checked) :
    Survives protoEdgeModel runtimeEdgeModelFromProto model := by
  have made := RuntimeRelModel.new_ok checked
  have int64 : model.idType = .int64 := congrArg RuntimeRelModel.idType made
  have fields := mapM_map_eq_ok (l := model.fields) fun field _ => runtimeFieldFromProto_spec field
  refine ⟨⟨model.name, model.relType, model.fromModel, model.toModel, model.idFieldName, 1,
    model.fields.map protoFieldSpec⟩, ?_, ?_⟩
  · rw [protoEdgeModel, int64]
    rfl
  · simp only [runtimeEdgeModelFromProto, fields, Except.ok_bind]
    exact checked

/-! ## Records -/

section Records
variable [Externals]

/-- The oneof that `proto_property_value` chooses. -/
def protoKind (value : Value) : GrmResult Proto.Kind :=
  match value with
  | .string value => .ok (.stringValue value)
  | .number n => match n.asI64InRange with
    | some i => .ok (.intValue i)
    | none => match n.asDouble with
      | some x => .ok (.floatValue x.bits)
      | none => .error Value.numericPropertyError
  | .bool value => .ok (.boolValue value)
  | .object fields => match (Value.object fields).typedValueParts with
    | some ("bytes", raw) => (Value.decodeBytes raw).map .bytesValue
    | some ("decimal", raw) => .ok (.decimalValue raw)
    | some ("date", raw) => .ok (.dateValue raw)
    | some ("datetime", raw) => .ok (.datetimeValue raw)
    | some ("duration", raw) => .ok (.durationValue raw)
    | some ("uuid", raw) => .ok (.uuidValue raw)
    | _ => .error (.constraint "property value cannot be represented in service proto")
  | .null | .array _ => .error (.constraint "property value cannot be represented in service proto")

/-- `proto_property_value`. -/
def protoPropertyValue (value : Value) : GrmResult Proto.PropertyValue := do
  let kind ← protoKind value
  return { kind := some kind }

/-- An entry of `proto_property_map`. -/
def protoProperty (entry : String × Value) : GrmResult Proto.Property := do
  let value ← protoPropertyValue entry.2
  return { name := entry.1, value := some value }

/-- `proto_property_map`. -/
def protoPropertyMap (props : Props) : GrmResult Proto.PropertyMap := do
  let properties ← props.toList.mapM protoProperty
  return { properties }

/-- `proto_stored_node`. -/
def protoStoredNode (node : StoredNode) : GrmResult Proto.StoredNode := do
  let props ← protoPropertyMap node.props
  return { id := node.id, labels := node.labels, props := some props }

/-- `proto_stored_edge`. -/
def protoStoredEdge (edge : StoredRel) : GrmResult Proto.StoredEdge := do
  let props ← protoPropertyMap edge.props
  return { id := edge.id, relType := edge.relType, fromId := edge.fromId, toId := edge.toId, props := some props }

/-- `stored_node_from_proto`; the client wraps the error. -/
def storedNodeFromProto (node : Proto.StoredNode) : GrmResult StoredNode := do
  let map ← Service.PropertyMap.ofProtoOrEmpty node.props
  let props ← Props.ofService map
  return { id := node.id, labels := node.labels, props }

/-- `stored_edge_from_proto`; the client wraps the error. -/
def storedEdgeFromProto (edge : Proto.StoredEdge) : GrmResult StoredRel := do
  let map ← Service.PropertyMap.ofProtoOrEmpty edge.props
  let props ← Props.ofService map
  return { id := edge.id, relType := edge.relType, fromId := edge.fromId, toId := edge.toId, props }

/-- The two encoders of property values make the same message of the value. -/
def EncodersAgree (value : Value) : Prop := protoPropertyValue value = value.toService.map Service.PropertyValue.toProto

theorem encodersAgree_tagged {kind : PrimitiveKind} (isTagged : kind.isTagged = true) (raw : String) :
    EncodersAgree (Value.tagged kind raw) := by
  cases kind with
  | bytes =>
    show ((Value.decodeBytes raw).map Proto.Kind.bytesValue >>= fun kind => pure (Proto.PropertyValue.mk (some kind))) =
      ((Value.decodeBytes raw).map Service.PropertyValue.bytes).map Service.PropertyValue.toProto
    cases Value.decodeBytes raw <;> rfl
  | string | int | float | bool => cases isTagged
  | _ => rfl

theorem Value.Valid.encodersAgree {value : Value} (valid : value.Valid) : EncodersAgree value := by
  obtain ⟨kind, valid⟩ := valid
  cases isTagged : kind.isTagged with
  | true =>
    obtain ⟨raw, rfl, -⟩ := (valid_tagged isTagged).1 valid
    exact encodersAgree_tagged isTagged raw
  | false => cases kind with
    | string =>
      obtain ⟨s, rfl⟩ := valid_string.1 valid
      rfl
    | int =>
      obtain ⟨i, read⟩ := valid_int.1 valid
      cases value with
      | number n =>
        obtain ⟨j, rfl, range⟩ := Number.asI64_some read
        rw [EncodersAgree, protoPropertyValue, protoKind, Value.toService, Number.asI64InRange_int range]
        rfl
      | _ => cases read
    | float =>
      obtain ⟨x, rfl⟩ := valid_float.1 valid
      rfl
    | bool =>
      obtain ⟨b, rfl⟩ := valid_bool.1 valid
      rfl
    | _ => cases isTagged

/-- A valid property map goes into a message directly as it does by way of the service. -/
theorem Props.Valid.carried {props : Props} (valid : Props.Valid props) :
    ∃ map sent, protoPropertyMap props = .ok sent ∧ Service.PropertyMap.ofProto sent = .ok map ∧
      Props.ofService map = .ok props := by
  have each : ∀ entry ∈ props.toList, ∃ property sent, Props.entryToService entry = .ok property ∧
      property.toProto = .ok sent ∧ protoProperty entry = .ok sent := by
    intro entry member
    have fits := valid entry.1 entry.2 (Std.ExtTreeMap.mem_toList_iff_getElem?_eq_some.1 member)
    obtain ⟨value, encoded, -⟩ := fits.survives
    have agrees : protoPropertyValue entry.2 = .ok value.toProto := by
      rw [fits.encodersAgree, encoded]
      rfl
    refine ⟨⟨entry.1, value⟩, ⟨entry.1, some value.toProto⟩, ?_, rfl, ?_⟩
    · rw [Props.entryToService, encoded]
      rfl
    · rw [protoProperty, agrees]
      rfl
  obtain ⟨properties, messages, made, sent, direct⟩ := mapM_through each
  obtain ⟨map, encoded, decoded⟩ := valid.survives
  have same : map = ⟨properties⟩ := by
    rw [Props.toService, made] at encoded
    exact (Except.ok.inj encoded).symm
  obtain ⟨message, toMessage, ofMessage⟩ := map.survives
  have written : message = ⟨messages⟩ := by
    rw [same, Service.PropertyMap.toProto, sent] at toMessage
    exact (Except.ok.inj toMessage).symm
  refine ⟨map, message, ?_, ofMessage, decoded⟩
  rw [protoPropertyMap, direct, written]
  rfl

theorem survives_storedNode {node : StoredNode} (valid : Props.Valid node.props) :
    Survives protoStoredNode storedNodeFromProto node := by
  obtain ⟨map, sent, encoded, read, decoded⟩ := valid.carried
  refine ⟨⟨node.id, node.labels, some sent⟩, ?_, ?_⟩
  · rw [protoStoredNode, encoded]
    rfl
  · simp only [storedNodeFromProto, Service.PropertyMap.ofProtoOrEmpty, read, decoded, Except.ok_bind]
    rfl

theorem survives_storedEdge {edge : StoredRel} (valid : Props.Valid edge.props) :
    Survives protoStoredEdge storedEdgeFromProto edge := by
  obtain ⟨map, sent, encoded, read, decoded⟩ := valid.carried
  refine ⟨⟨edge.id, edge.relType, edge.fromId, edge.toId, some sent⟩, ?_, ?_⟩
  · rw [protoStoredEdge, encoded]
    rfl
  · simp only [storedEdgeFromProto, Service.PropertyMap.ofProtoOrEmpty, read, decoded, Except.ok_bind]
    rfl

end Records

/-! ## Requests -/

section Requests
variable [Externals]

omit [Externals] in
theorem specified_toService (field : RuntimeField) : field.toService.Specified := by
  obtain ⟨name, valueType, required⟩ := field
  cases valueType <;> exact fun same => (by cases same)

omit [Externals] in
/-- Only the keyword of a supported type is converted. -/
theorem specified_of_keyword {fields : List SessionBatchFieldParam} {made : List Service.FieldSpec}
    (converted : batchFieldsToServiceFields fields = .ok made) : ∀ field ∈ made, field.Specified := by
  intro field member
  obtain ⟨param, -, converted⟩ := GrmResult.mapM_source converted member
  obtain ⟨valueType, known, converted⟩ := GrmResult.bind_eq_ok.1 converted
  cases converted
  intro unspecified
  obtain rfl : valueType = .unspecified := unspecified
  unfold fieldValueTypeOfKeyword at known
  split at known <;> cases known

theorem SessionBatchOp.toService_specified {op : SessionBatchOp} {made : Service.BatchOperation}
    (converted : op.toService = .ok made) : made.Specified := by
  cases op with
  | schemaDefineNode name idField fields =>
    obtain ⟨fields, known, converted⟩ := GrmResult.bind_eq_ok.1 converted
    cases converted
    exact specified_of_keyword known
  | schemaDefineEdge name fromModel toModel idField fields =>
    obtain ⟨fields, known, converted⟩ := GrmResult.bind_eq_ok.1 converted
    cases converted
    exact specified_of_keyword known
  | nodeCreate | nodeUpdate | edgeCreate | edgeUpdate =>
    obtain ⟨props, -, converted⟩ := GrmResult.bind_eq_ok.1 converted
    cases converted
    trivial
  | nodeDelete | edgeDelete =>
    cases converted
    trivial

theorem NodeRequest.toService_sendable {request : NodeRequest} {made : Service.Request}
    (converted : request.toService = .ok made) : made.Sendable := by
  cases request with
  | create | update =>
    obtain ⟨props, -, converted⟩ := GrmResult.bind_eq_ok.1 converted
    cases converted
    trivial
  | delete =>
    cases converted
    trivial
  | find =>
    obtain ⟨shape, -, rfl⟩ := GrmResult.map_eq_ok.1 converted
    trivial

theorem EdgeRequest.toService_sendable {request : EdgeRequest} {made : Service.Request}
    (converted : request.toService = .ok made) : made.Sendable := by
  cases request with
  | create | update =>
    obtain ⟨props, -, converted⟩ := GrmResult.bind_eq_ok.1 converted
    cases converted
    trivial
  | delete =>
    cases converted
    trivial
  | find =>
    obtain ⟨shape, -, rfl⟩ := GrmResult.map_eq_ok.1 converted
    trivial

/-- What the client makes of a runtime request, it can send. -/
theorem RuntimeRequest.toService_sendable {request : RuntimeRequest} {made : Service.Request}
    (converted : request.toService = some (.ok made)) : made.Sendable := by
  cases request with
  | schema request =>
    cases request with
    | defineNode | defineEdge =>
      cases converted
      intro field member
      obtain ⟨source, -, rfl⟩ := List.mem_map.1 member
      exact specified_toService source
    | list =>
      cases converted
      trivial
  | node request => exact NodeRequest.toService_sendable (Option.some.inj converted)
  | edge request => exact EdgeRequest.toService_sendable (Option.some.inj converted)
  | explain request | profile request =>
    obtain ⟨query, -, rfl⟩ := GrmResult.map_eq_ok.1 (Option.some.inj converted)
    trivial
  | batch params =>
    obtain ⟨batch, built, rfl⟩ := GrmResult.map_eq_ok.1 (Option.some.inj converted)
    obtain ⟨ops, known, built⟩ := GrmResult.bind_eq_ok.1 built
    cases built
    intro op member
    obtain ⟨source, -, converted⟩ := GrmResult.mapM_source known member
    exact SessionBatchOp.toService_specified converted
  | admin request =>
    cases request with
    | summary =>
      cases converted
      trivial
    | _ => cases converted
  | query => cases converted

/-- From the runtime's request to the service's and to the message that the client sends,
and back. -/
def RuntimeRequest.RoundTrips (request : RuntimeRequest) : Prop :=
  ∃ sent message, request.toService = some (.ok sent) ∧ sent.message = .ok message ∧
    Service.Request.ofProto message = .ok sent ∧ RuntimeRequest.ofService sent = .ok request

theorem RuntimeRequest.Sendable.roundTrips {request : RuntimeRequest} (sendable : request.Sendable) :
    request.RoundTrips := by
  obtain ⟨sent, made, decoded⟩ := sendable.survives
  obtain ⟨message, encoded, read⟩ := (toService_sendable made).survives
  exact ⟨sent, message, made, encoded, read, decoded⟩

end Requests

/-! ## Sessions -/

/-- What a session stores goes into messages and comes back as it was, and the two encoders
agree on every value it stores. -/
structure CarriedExactly [Externals] (s : SessionState) : Prop where
  node : ∀ (id : Int) (node : StoredNode), s.store.nodes[id]? = some node →
    Survives protoStoredNode storedNodeFromProto node
  edge : ∀ (id : Int) (edge : StoredRel), s.store.rels[id]? = some edge →
    Survives protoStoredEdge storedEdgeFromProto edge
  nodeModel : ∀ name model, s.catalog.getNodeModel name = some model →
    Survives protoNodeModel runtimeNodeModelFromProto model
  edgeModel : ∀ name model, s.catalog.getRelModel name = some model →
    Survives protoEdgeModel runtimeEdgeModelFromProto model
  nodeValue : ∀ (id : Int) (node : StoredNode), s.store.nodes[id]? = some node →
    ∀ (key : String) (value : Value), node.props[key]? = some value → EncodersAgree value
  edgeValue : ∀ (id : Int) (edge : StoredRel), s.store.rels[id]? = some edge →
    ∀ (key : String) (value : Value), edge.props[key]? = some value → EncodersAgree value

section Sessions
variable [Externals]

theorem Declared.valid {fields : List RuntimeField} {props : Props} (declared : Declared fields props) :
    Props.Valid props := by
  intro key value found
  obtain ⟨field, -, valid⟩ := declared key value found
  exact ⟨field.valueType, valid⟩

theorem SessionState.Reachable.carriedExactly {s : SessionState} (h : s.Reachable) (checked : s.catalog.Checked) :
    CarriedExactly s := by
  have nodes : ∀ (id : Int) (node : StoredNode), s.store.nodes[id]? = some node → Props.Valid node.props := by
    intro id node found
    obtain ⟨-, -, label, model, -, -, conforms⟩ := h.conformant.node id node found
    exact conforms.declared.valid
  have edges : ∀ (id : Int) (edge : StoredRel), s.store.rels[id]? = some edge → Props.Valid edge.props := by
    intro id edge found
    obtain ⟨-, -, model, -, -, -, conforms⟩ := h.conformant.rel id edge found
    exact conforms.declared.valid
  exact {
    node := fun id node found => survives_storedNode (nodes id node found)
    edge := fun id edge found => survives_storedEdge (edges id edge found)
    nodeModel := fun name model registered => (checked.node name model registered).survives
    edgeModel := fun name model registered => (checked.rel name model registered).survives
    nodeValue := fun id node found key value stored => (nodes id node found key value stored).encodersAgree
    edgeValue := fun id edge found key value stored => (edges id edge found key value stored).encodersAgree }

/-- Whatever a run of requests stores is carried exactly, and so is every structured request
whose values are each valid for some kind. -/
theorem wire_round_trip :
    (∀ requests : List RuntimeRequest, CarriedExactly (SessionState.new.run requests)) ∧
      (∀ request : RuntimeRequest, request.Sendable → request.RoundTrips) ∧
      ∀ value : Value, value.Valid → EncodersAgree value :=
  ⟨fun requests => (SessionState.reachable_new.run requests).carriedExactly
      (SessionState.checked_run SessionState.reachable_new SessionState.checked_new requests),
    fun _ sendable => sendable.roundTrips, fun _ valid => valid.encodersAgree⟩

end Sessions

/-- Users with a name. -/
def namedUsers : List RuntimeRequest := [.schema (.defineNode ⟨"User", "uid", [⟨"name", .string, true⟩]⟩)]

/-- The creation of a user, whose name is a plain string. -/
def namedUser : RuntimeRequest := .node (.create "User" ((∅ : Props).insert "name" (.string "Ada")))

theorem wire_round_trip_user :
    letI := Externals.plainOnly
    CarriedExactly (SessionState.new.run namedUsers) ∧ namedUser.RoundTrips ∧ EncodersAgree (.string "Ada") := by
  let := Externals.plainOnly
  have sendable : namedUser.Sendable := by
    intro key value found
    rw [BTreeMap.get_insert] at found
    split at found
    · cases found
      exact ⟨.string, rfl⟩
    · simp at found
  exact ⟨wire_round_trip.1 namedUsers, wire_round_trip.2.1 namedUser sendable, wire_round_trip.2.2 _ ⟨.string, rfl⟩⟩
