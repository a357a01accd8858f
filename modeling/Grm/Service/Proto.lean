import Grm.Service.Api

/-!
# Protobuf messages

The messages of the service's proto files that requests, records and models travel in,
and their conversions from and to the service's own types. A message or a oneof field may
be absent, and an enum field holds any number.
-/

set_option autoImplicit false

namespace Proto

/-- The oneof of `PropertyValue`. -/
inductive Kind where
  | stringValue (value : String)
  | intValue (value : I64)
  | floatValue (bits : BitVec 64)
  | boolValue (value : Bool)
  | bytesValue (value : List UInt8)
  | decimalValue (value : String)
  | dateValue (value : String)
  | datetimeValue (value : String)
  | durationValue (value : String)
  | uuidValue (value : String)

structure PropertyValue where
  kind : Option Kind

structure Property where
  name : String
  value : Option PropertyValue

structure PropertyMap where
  properties : List Property

structure FieldSpec where
  name : String
  valueType : Int
  required : Bool

structure NodeModel where
  name : String
  label : String
  idFieldName : String
  idType : Int
  fields : List FieldSpec

structure EdgeModel where
  name : String
  relType : String
  fromModel : String
  toModel : String
  idFieldName : String
  idType : Int
  fields : List FieldSpec

structure StoredNode where
  id : Int
  labels : List String
  props : Option PropertyMap

structure StoredEdge where
  id : Int
  relType : String
  fromId : Int
  toId : Int
  props : Option PropertyMap

structure DefineNodeRequest where
  name : String
  idField : String
  fields : List FieldSpec

structure DefineEdgeRequest where
  name : String
  fromModel : String
  toModel : String
  idField : String
  fields : List FieldSpec

structure PropertyPredicate where
  field : String
  op : Int
  value : Option PropertyValue

structure OrderSpec where
  field : String
  direction : Int

structure TraversalStep where
  direction : Int
  edgeModel : Option String
  endModel : String

structure NodeCreateRequest where
  model : String
  props : Option PropertyMap

/-- `NodeUpdateRequest` and `EdgeUpdateRequest`. -/
structure UpdateRequest where
  model : String
  id : Int
  props : Option PropertyMap

/-- `NodeDeleteRequest` and `EdgeDeleteRequest`. -/
structure DeleteRequest where
  model : String
  id : Int

/-- `NodeFindRequest` and `NodeFindShape`, which have the same fields. -/
structure NodeFindShape where
  model : String
  predicates : List PropertyPredicate
  endPredicates : List PropertyPredicate
  edgePredicates : List PropertyPredicate
  traversals : List TraversalStep
  order : List OrderSpec
  limit : Option Nat
  offset : Option Nat
  id : Option Int
  returnMode : Option Int

structure EdgeCreateRequest where
  model : String
  fromId : Int
  toId : Int
  props : Option PropertyMap

/-- `EdgeFindRequest` and `EdgeFindShape`, which have the same fields. -/
structure EdgeFindShape where
  model : String
  predicates : List PropertyPredicate
  order : List OrderSpec
  limit : Option Nat
  offset : Option Nat
  id : Option Int
  fromId : Option Int
  toId : Option Int

structure TraversalRequest where
  root : Option NodeFindShape

/-- The oneof of `QueryRequest`. -/
inductive Query where
  | nodeFind (shape : NodeFindShape)
  | edgeFind (shape : EdgeFindShape)
  | traversal (request : TraversalRequest)

structure QueryRequest where
  query : Option Query

/-- `ExplainRequest` and `ProfileRequest`. -/
structure ExplainRequest where
  query : Option QueryRequest

/-- The oneof of `BatchEndpoint`. -/
inductive Endpoint where
  | id (id : Int)
  | localRef (localRef : String)

structure BatchEndpoint where
  endpoint : Option Endpoint

structure BatchNodeCreate where
  model : String
  props : Option PropertyMap
  localRef : Option String

structure BatchEdgeCreate where
  model : String
  fromEnd : Option BatchEndpoint
  toEnd : Option BatchEndpoint
  props : Option PropertyMap

/-- The oneof of `BatchOperation`. -/
inductive Op where
  | schemaDefineNode (request : DefineNodeRequest)
  | schemaDefineEdge (request : DefineEdgeRequest)
  | nodeCreate (request : BatchNodeCreate)
  | nodeUpdate (request : UpdateRequest)
  | nodeDelete (request : DeleteRequest)
  | edgeCreate (request : BatchEdgeCreate)
  | edgeUpdate (request : UpdateRequest)
  | edgeDelete (request : DeleteRequest)

structure BatchOperation where
  op : Option Op

structure BatchRequest where
  atomic : Bool
  allowDeletes : Bool
  responseMode : Int
  ops : List BatchOperation

/-- The oneof of `RuntimeRequest`, without the four snapshot requests. -/
inductive Request where
  | defineNode (request : DefineNodeRequest)
  | defineEdge (request : DefineEdgeRequest)
  | schemaList
  | createNode (request : NodeCreateRequest)
  | updateNode (request : UpdateRequest)
  | deleteNode (request : DeleteRequest)
  | findNodes (request : NodeFindShape)
  | createEdge (request : EdgeCreateRequest)
  | updateEdge (request : UpdateRequest)
  | deleteEdge (request : DeleteRequest)
  | findEdges (request : EdgeFindShape)
  | query (request : QueryRequest)
  | explain (request : ExplainRequest)
  | profile (request : ExplainRequest)
  | applyBatch (request : BatchRequest)
  | indexList
  | summary

structure RuntimeRequest where
  request : Option Request

end Proto

/-- `missing_proto_field`. -/
def missingProtoField (field : String) : GrmError :=
  .constraint ("missing required protobuf field '" ++ field ++ "'")

/-- `unknown_proto_enum`. -/
def unknownProtoEnum (enumName : String) (value : Int) : GrmError :=
  .constraint ("unknown " ++ enumName ++ " enum value " ++ toString value)

/-- A message field that must be present. -/
def Proto.required {α : Type} (field : String) : Option α → GrmResult α
  | some value => .ok value
  | none => .error (missingProtoField field)

namespace Service

/-! ## Enums -/

namespace FieldValueType

/-- `proto_field_value_type_from_service`. -/
def toProto : FieldValueType → GrmResult Int
  | unspecified => .error (.constraint "field value type must be specified")
  | string => .ok 1
  | int => .ok 2
  | float => .ok 3
  | bool => .ok 4
  | bytes => .ok 5
  | decimal => .ok 6
  | date => .ok 7
  | dateTime => .ok 8
  | duration => .ok 9
  | uuid => .ok 10

/-- `proto_field_value_type`. -/
def ofProto : Int → GrmResult FieldValueType
  | 0 => .ok unspecified
  | 1 => .ok string
  | 2 => .ok int
  | 3 => .ok float
  | 4 => .ok bool
  | 5 => .ok bytes
  | 6 => .ok decimal
  | 7 => .ok date
  | 8 => .ok dateTime
  | 9 => .ok duration
  | 10 => .ok uuid
  | value => .error (unknownProtoEnum "FieldValueType" value)

theorem survives {valueType : FieldValueType} (specified : valueType ≠ unspecified) :
    Survives toProto ofProto valueType := by
  cases valueType with
  | unspecified => exact absurd rfl specified
  | _ => exact ⟨_, rfl, rfl⟩

end FieldValueType

namespace PredicateOp

/-- `proto_predicate_op_from_service`. -/
def toProto : PredicateOp → Int
  | eq => 0
  | ne => 1
  | gt => 2
  | ge => 3
  | lt => 4
  | le => 5
  | contains => 6

/-- `proto_predicate_op`. -/
def ofProto : Int → GrmResult PredicateOp
  | 0 => .ok eq
  | 1 => .ok ne
  | 2 => .ok gt
  | 3 => .ok ge
  | 4 => .ok lt
  | 5 => .ok le
  | 6 => .ok contains
  | value => .error (unknownProtoEnum "PredicateOp" value)

theorem ofProto_toProto (op : PredicateOp) : ofProto op.toProto = .ok op := by
  cases op <;> rfl

end PredicateOp

namespace OrderDirection

/-- `proto_order_direction_from_service`. -/
def toProto : OrderDirection → Int
  | asc => 0
  | desc => 1

/-- `proto_order_direction`. -/
def ofProto : Int → GrmResult OrderDirection
  | 0 => .ok asc
  | 1 => .ok desc
  | value => .error (unknownProtoEnum "OrderDirection" value)

theorem ofProto_toProto (direction : OrderDirection) : ofProto direction.toProto = .ok direction := by
  cases direction <;> rfl

end OrderDirection

namespace TraversalDirection

/-- `proto_traversal_direction_from_service`. -/
def toProto : TraversalDirection → Int
  | out => 0
  | incoming => 1
  | both => 2

/-- `proto_traversal_direction`. -/
def ofProto : Int → GrmResult TraversalDirection
  | 0 => .ok out
  | 1 => .ok incoming
  | 2 => .ok both
  | value => .error (unknownProtoEnum "TraversalDirection" value)

theorem ofProto_toProto (direction : TraversalDirection) : ofProto direction.toProto = .ok direction := by
  cases direction <;> rfl

end TraversalDirection

namespace TraversalReturn

/-- `proto_traversal_return_from_service`. -/
def toProto : TraversalReturn → Int
  | endNode => 0
  | root => 1
  | edge => 2

/-- `proto_traversal_return`. -/
def ofProto : Int → GrmResult TraversalReturn
  | 0 => .ok endNode
  | 1 => .ok root
  | 2 => .ok edge
  | value => .error (unknownProtoEnum "TraversalReturn" value)

theorem ofProto_toProto (returnMode : TraversalReturn) : ofProto returnMode.toProto = .ok returnMode := by
  cases returnMode <;> rfl

end TraversalReturn

namespace BatchResponseMode

/-- `proto_batch_response_mode_from_service`. -/
def toProto : BatchResponseMode → Int
  | summary => 0
  | detailed => 1

/-- `proto_batch_response_mode`. -/
def ofProto : Int → GrmResult BatchResponseMode
  | 0 => .ok summary
  | 1 => .ok detailed
  | value => .error (unknownProtoEnum "BatchResponseMode" value)

theorem ofProto_toProto (mode : BatchResponseMode) : ofProto mode.toProto = .ok mode := by
  cases mode <;> rfl

end BatchResponseMode

/-! ## Schema requests -/

namespace FieldSpec

/-- `TryFrom<FieldSpec> for proto::FieldSpec`. -/
def toProto (field : FieldSpec) : GrmResult Proto.FieldSpec := do
  let valueType ← field.valueType.toProto
  return { name := field.name, valueType, required := field.required }

/-- `TryFrom<proto::FieldSpec> for FieldSpec`. -/
def ofProto (field : Proto.FieldSpec) : GrmResult FieldSpec := do
  let valueType ← FieldValueType.ofProto field.valueType
  return { name := field.name, valueType, required := field.required }

/-- The field's type is one of the ten. -/
def Specified (field : FieldSpec) : Prop := field.valueType ≠ .unspecified

theorem Specified.survives {field : FieldSpec} (specified : field.Specified) : Survives toProto ofProto field := by
  obtain ⟨code, encoded, decoded⟩ := FieldValueType.survives specified
  refine ⟨⟨field.name, code, field.required⟩, ?_, ?_⟩
  · rw [toProto, encoded]
    rfl
  · simp only [ofProto, decoded, Except.ok_bind]
    rfl

end FieldSpec

namespace DefineNodeRequest

/-- `TryFrom<DefineNodeRequest> for proto::DefineNodeRequest`. -/
def toProto (request : DefineNodeRequest) : GrmResult Proto.DefineNodeRequest := do
  let fields ← request.fields.mapM FieldSpec.toProto
  return { name := request.name, idField := request.idField, fields }

/-- `TryFrom<proto::DefineNodeRequest> for DefineNodeRequest`. -/
def ofProto (request : Proto.DefineNodeRequest) : GrmResult DefineNodeRequest := do
  let fields ← request.fields.mapM FieldSpec.ofProto
  return { name := request.name, idField := request.idField, fields }

theorem survives {request : DefineNodeRequest} (specified : ∀ field ∈ request.fields, field.Specified) :
    Survives toProto ofProto request := by
  obtain ⟨fields, encoded, decoded⟩ := Survives.list fun field member => (specified field member).survives
  refine ⟨⟨request.name, request.idField, fields⟩, ?_, ?_⟩
  · rw [toProto, encoded]
    rfl
  · simp only [ofProto, decoded, Except.ok_bind]
    rfl

end DefineNodeRequest

namespace DefineEdgeRequest

/-- `TryFrom<DefineEdgeRequest> for proto::DefineEdgeRequest`. -/
def toProto (request : DefineEdgeRequest) : GrmResult Proto.DefineEdgeRequest := do
  let fields ← request.fields.mapM FieldSpec.toProto
  return { name := request.name, fromModel := request.fromModel, toModel := request.toModel
           idField := request.idField, fields }

/-- `TryFrom<proto::DefineEdgeRequest> for DefineEdgeRequest`. -/
def ofProto (request : Proto.DefineEdgeRequest) : GrmResult DefineEdgeRequest := do
  let fields ← request.fields.mapM FieldSpec.ofProto
  return { name := request.name, fromModel := request.fromModel, toModel := request.toModel
           idField := request.idField, fields }

theorem survives {request : DefineEdgeRequest} (specified : ∀ field ∈ request.fields, field.Specified) :
    Survives toProto ofProto request := by
  obtain ⟨fields, encoded, decoded⟩ := Survives.list fun field member => (specified field member).survives
  refine ⟨⟨request.name, request.fromModel, request.toModel, request.idField, fields⟩, ?_, ?_⟩
  · rw [toProto, encoded]
    rfl
  · simp only [ofProto, decoded, Except.ok_bind]
    rfl

end DefineEdgeRequest

/-! ## Property maps -/

namespace PropertyValue

/-- `From<PropertyValue> for proto::PropertyValue`. -/
def toProto (value : PropertyValue) : Proto.PropertyValue where
  kind := some <| match value with
    | string value => .stringValue value
    | int value => .intValue value
    | float bits => .floatValue bits
    | bool value => .boolValue value
    | bytes value => .bytesValue value
    | decimal raw => .decimalValue raw
    | date raw => .dateValue raw
    | dateTime raw => .datetimeValue raw
    | duration raw => .durationValue raw
    | uuid raw => .uuidValue raw

/-- `TryFrom<proto::PropertyValue> for PropertyValue`. -/
def ofProto (value : Proto.PropertyValue) : GrmResult PropertyValue := do
  match ← Proto.required "PropertyValue.kind" value.kind with
  | .stringValue value => return string value
  | .intValue value => return int value
  | .floatValue bits => return float bits
  | .boolValue value => return bool value
  | .bytesValue value => return bytes value
  | .decimalValue raw => return decimal raw
  | .dateValue raw => return date raw
  | .datetimeValue raw => return dateTime raw
  | .durationValue raw => return duration raw
  | .uuidValue raw => return uuid raw

theorem ofProto_toProto (value : PropertyValue) : ofProto value.toProto = .ok value := by
  cases value <;> rfl

end PropertyValue

namespace Property

/-- `TryFrom<Property> for proto::Property`. -/
def toProto (property : Property) : GrmResult Proto.Property :=
  .ok { name := property.name, value := some property.value.toProto }

/-- `TryFrom<proto::Property> for Property`. -/
def ofProto (property : Proto.Property) : GrmResult Property := do
  let value ← Proto.required "Property.value" property.value
  let value ← PropertyValue.ofProto value
  return { name := property.name, value }

theorem survives (property : Property) : Survives toProto ofProto property := by
  refine ⟨_, rfl, ?_⟩
  simp only [ofProto, Proto.required, Except.ok_bind, PropertyValue.ofProto_toProto]
  rfl

end Property

namespace PropertyMap

/-- `TryFrom<PropertyMap> for proto::PropertyMap`. -/
def toProto (map : PropertyMap) : GrmResult Proto.PropertyMap := do
  let properties ← map.properties.mapM Property.toProto
  return { properties }

/-- `TryFrom<proto::PropertyMap> for PropertyMap`. -/
def ofProto (map : Proto.PropertyMap) : GrmResult PropertyMap := do
  let properties ← map.properties.mapM Property.ofProto
  return { properties }

/-- `proto_property_map_or_empty`. -/
def ofProtoOrEmpty : Option Proto.PropertyMap → GrmResult PropertyMap
  | some map => ofProto map
  | none => .ok { properties := [] }

theorem survives (map : PropertyMap) : Survives toProto ofProto map := by
  obtain ⟨properties, encoded, decoded⟩ := Survives.list (l := map.properties) fun property _ => property.survives
  refine ⟨⟨properties⟩, ?_, ?_⟩
  · rw [toProto, encoded]
    rfl
  · simp only [ofProto, decoded, Except.ok_bind]
    rfl

end PropertyMap

/-! ## Record requests -/

namespace NodeCreateRequest

/-- `TryFrom<NodeCreateRequest> for proto::NodeCreateRequest`. -/
def toProto (request : NodeCreateRequest) : GrmResult Proto.NodeCreateRequest := do
  let props ← request.props.toProto
  return { model := request.model, props := some props }

/-- `TryFrom<proto::NodeCreateRequest> for NodeCreateRequest`. -/
def ofProto (request : Proto.NodeCreateRequest) : GrmResult NodeCreateRequest := do
  let props ← PropertyMap.ofProtoOrEmpty request.props
  return { model := request.model, props }

theorem survives (request : NodeCreateRequest) : Survives toProto ofProto request := by
  obtain ⟨props, encoded, decoded⟩ := request.props.survives
  refine ⟨⟨request.model, some props⟩, ?_, ?_⟩
  · rw [toProto, encoded]
    rfl
  · simp only [ofProto, PropertyMap.ofProtoOrEmpty, decoded, Except.ok_bind]
    rfl

end NodeCreateRequest

namespace UpdateRequest

/-- `TryFrom<NodeUpdateRequest> for proto::NodeUpdateRequest`, and the same for edges. -/
def toProto (request : UpdateRequest) : GrmResult Proto.UpdateRequest := do
  let props ← request.props.toProto
  return { model := request.model, id := request.id, props := some props }

/-- `TryFrom<proto::NodeUpdateRequest> for NodeUpdateRequest`, and the same for edges. -/
def ofProto (request : Proto.UpdateRequest) : GrmResult UpdateRequest := do
  let props ← PropertyMap.ofProtoOrEmpty request.props
  return { model := request.model, id := request.id, props }

theorem survives (request : UpdateRequest) : Survives toProto ofProto request := by
  obtain ⟨props, encoded, decoded⟩ := request.props.survives
  refine ⟨⟨request.model, request.id, some props⟩, ?_, ?_⟩
  · rw [toProto, encoded]
    rfl
  · simp only [ofProto, PropertyMap.ofProtoOrEmpty, decoded, Except.ok_bind]
    rfl

end UpdateRequest

namespace DeleteRequest

/-- `From<NodeDeleteRequest> for proto::NodeDeleteRequest`, and the same for edges. -/
def toProto (request : DeleteRequest) : Proto.DeleteRequest := { model := request.model, id := request.id }

/-- `From<proto::NodeDeleteRequest> for NodeDeleteRequest`, and the same for edges. -/
def ofProto (request : Proto.DeleteRequest) : DeleteRequest := { model := request.model, id := request.id }

end DeleteRequest

namespace EdgeCreateRequest

/-- `TryFrom<EdgeCreateRequest> for proto::EdgeCreateRequest`. -/
def toProto (request : EdgeCreateRequest) : GrmResult Proto.EdgeCreateRequest := do
  let props ← request.props.toProto
  return { model := request.model, fromId := request.fromId, toId := request.toId, props := some props }

/-- `TryFrom<proto::EdgeCreateRequest> for EdgeCreateRequest`. -/
def ofProto (request : Proto.EdgeCreateRequest) : GrmResult EdgeCreateRequest := do
  let props ← PropertyMap.ofProtoOrEmpty request.props
  return { model := request.model, fromId := request.fromId, toId := request.toId, props }

theorem survives (request : EdgeCreateRequest) : Survives toProto ofProto request := by
  obtain ⟨props, encoded, decoded⟩ := request.props.survives
  refine ⟨⟨request.model, request.fromId, request.toId, some props⟩, ?_, ?_⟩
  · rw [toProto, encoded]
    rfl
  · simp only [ofProto, PropertyMap.ofProtoOrEmpty, decoded, Except.ok_bind]
    rfl

end EdgeCreateRequest

end Service
