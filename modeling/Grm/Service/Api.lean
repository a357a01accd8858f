import Grm.Lib.RoundTrip
import Grm.Runtime.Ops

/-!
# Service requests

The request types of `grm-service-api` and their conversions from and to the runtime's.
A service value tells the kinds of tagged objects apart, and a float is any double, the
infinities and NaNs included.
-/

set_option autoImplicit false

/-- `i64`. -/
abbrev I64 := { i : Int // i64Min ≤ i ∧ i ≤ i64Max }

namespace Service

inductive FieldValueType where
  | unspecified | string | int | float | bool | bytes | decimal | date | dateTime | duration | uuid
  deriving DecidableEq, Repr

structure FieldSpec where
  name : String
  valueType : FieldValueType
  required : Bool

structure DefineNodeRequest where
  name : String
  idField : String
  fields : List FieldSpec

structure DefineEdgeRequest where
  name : String
  fromModel : String
  toModel : String
  idField : String
  fields : List FieldSpec

inductive PropertyValue where
  | string (value : String)
  | int (value : I64)
  | float (bits : BitVec 64)
  | bool (value : Bool)
  | bytes (value : List UInt8)
  | decimal (raw : String)
  | date (raw : String)
  | dateTime (raw : String)
  | duration (raw : String)
  | uuid (raw : String)

structure Property where
  name : String
  value : PropertyValue

structure PropertyMap where
  properties : List Property

inductive PredicateOp where
  | eq | ne | gt | ge | lt | le | contains
  deriving DecidableEq, Repr

structure PropertyPredicate where
  field : String
  op : PredicateOp
  value : PropertyValue

inductive OrderDirection where
  | asc | desc
  deriving DecidableEq, Repr

structure OrderSpec where
  field : String
  direction : OrderDirection

/-- `incoming` is the source's `In`. -/
inductive TraversalDirection where
  | out | incoming | both
  deriving DecidableEq, Repr

structure TraversalStep where
  direction : TraversalDirection
  edgeModel : Option String
  endModel : String

/-- `endNode` is the source's `End`. -/
inductive TraversalReturn where
  | endNode | root | edge
  deriving DecidableEq, Repr

structure NodeCreateRequest where
  model : String
  props : PropertyMap

/-- `NodeUpdateRequest` and `EdgeUpdateRequest`. -/
structure UpdateRequest where
  model : String
  id : Int
  props : PropertyMap

/-- `NodeDeleteRequest` and `EdgeDeleteRequest`. -/
structure DeleteRequest where
  model : String
  id : Int

/-- `NodeFindRequest` and `NodeFindShape`, which have the same fields. -/
structure NodeFindShape where
  model : String
  predicates : List PropertyPredicate
  endPredicates : List PropertyPredicate
  edgePredicates : List PropertyPredicate
  traversals : List TraversalStep
  order : List OrderSpec
  limit : Option Nat
  offset : Option Nat
  id : Option Int
  returnMode : Option TraversalReturn

structure EdgeCreateRequest where
  model : String
  fromId : Int
  toId : Int
  props : PropertyMap

/-- `EdgeFindRequest` and `EdgeFindShape`, which have the same fields. -/
structure EdgeFindShape where
  model : String
  predicates : List PropertyPredicate
  order : List OrderSpec
  limit : Option Nat
  offset : Option Nat
  id : Option Int
  fromId : Option Int
  toId : Option Int

/-- `Query`, and `QueryRequest`, which holds one; a traversal request holds its root. -/
inductive QueryRequest where
  | nodeFind (shape : NodeFindShape)
  | edgeFind (shape : EdgeFindShape)
  | traversal (root : NodeFindShape)

inductive BatchResponseMode where
  | summary | detailed
  deriving DecidableEq, Repr

inductive BatchEndpoint where
  | id (id : Int)
  | localRef (localRef : String)

structure BatchNodeCreate where
  model : String
  props : PropertyMap
  localRef : Option String

structure BatchEdgeCreate where
  model : String
  fromEnd : BatchEndpoint
  toEnd : BatchEndpoint
  props : PropertyMap

inductive BatchOperation where
  | schemaDefineNode (request : DefineNodeRequest)
  | schemaDefineEdge (request : DefineEdgeRequest)
  | nodeCreate (request : BatchNodeCreate)
  | nodeUpdate (request : UpdateRequest)
  | nodeDelete (request : DeleteRequest)
  | edgeCreate (request : BatchEdgeCreate)
  | edgeUpdate (request : UpdateRequest)
  | edgeDelete (request : DeleteRequest)

structure BatchRequest where
  atomic : Bool
  allowDeletes : Bool
  responseMode : BatchResponseMode
  ops : List BatchOperation

/-- `ServiceRequest`; the four snapshot requests are without their handles and documents. -/
inductive Request where
  | defineNode (request : DefineNodeRequest)
  | defineEdge (request : DefineEdgeRequest)
  | schemaList
  | createNode (request : NodeCreateRequest)
  | updateNode (request : UpdateRequest)
  | deleteNode (request : DeleteRequest)
  | findNodes (request : NodeFindShape)
  | createEdge (request : EdgeCreateRequest)
  | updateEdge (request : UpdateRequest)
  | deleteEdge (request : DeleteRequest)
  | findEdges (request : EdgeFindShape)
  | query (request : QueryRequest)
  | explain (query : QueryRequest)
  | profile (query : QueryRequest)
  | applyBatch (request : BatchRequest)
  | indexList
  | summary
  | save | load | exportGraph | importGraph

end Service

/-! ## Field types -/

namespace PrimitiveKind

/-- `From<grm_rs::FieldValueType> for FieldValueType`. -/
def toService : PrimitiveKind → Service.FieldValueType
  | string => .string
  | int => .int
  | float => .float
  | bool => .bool
  | bytes => .bytes
  | decimal => .decimal
  | date => .date
  | dateTime => .dateTime
  | duration => .duration
  | uuid => .uuid

/-- `TryFrom<FieldValueType> for grm_rs::FieldValueType`. -/
def ofService : Service.FieldValueType → GrmResult PrimitiveKind
  | .unspecified => .error (.constraint "field value type must be specified")
  | .string => .ok string
  | .int => .ok int
  | .float => .ok float
  | .bool => .ok bool
  | .bytes => .ok bytes
  | .decimal => .ok decimal
  | .date => .ok date
  | .dateTime => .ok dateTime
  | .duration => .ok duration
  | .uuid => .ok uuid

theorem ofService_toService (kind : PrimitiveKind) : ofService kind.toService = .ok kind := by
  cases kind <;> rfl

end PrimitiveKind

/-- `field_value_type_keyword`. -/
def fieldValueTypeKeyword (valueType : Service.FieldValueType) : GrmResult String :=
  (PrimitiveKind.ofService valueType).map PrimitiveKind.keyword

/-- The keyword table of `batch_fields_to_service_fields`. -/
def fieldValueTypeOfKeyword : String → GrmResult Service.FieldValueType
  | "string" => .ok .string
  | "int" => .ok .int
  | "float" => .ok .float
  | "bool" => .ok .bool
  | "bytes" => .ok .bytes
  | "decimal" => .ok .decimal
  | "date" => .ok .date
  | "datetime" => .ok .dateTime
  | "duration" => .ok .duration
  | "uuid" => .ok .uuid
  | other => .error (.constraint ("unsupported field type '" ++ other ++
      "'; expected string, int, float, bool, bytes, decimal, date, datetime, duration, or uuid"))

theorem fieldValueTypeOfKeyword_keyword (kind : PrimitiveKind) :
    fieldValueTypeOfKeyword kind.keyword = .ok kind.toService := by
  cases kind <;> rfl

namespace RuntimeField

/-- `From<grm_rs::FieldSpec> for FieldSpec`. -/
def toService (field : RuntimeField) : Service.FieldSpec :=
  { name := field.name, valueType := field.valueType.toService, required := field.required }

/-- `TryFrom<FieldSpec> for grm_rs::FieldSpec`. -/
def ofService (field : Service.FieldSpec) : GrmResult RuntimeField := do
  let valueType ← PrimitiveKind.ofService field.valueType
  return { name := field.name, valueType, required := field.required }

theorem ofService_toService (field : RuntimeField) : ofService field.toService = .ok field := by
  rw [ofService, toService, PrimitiveKind.ofService_toService]
  rfl

end RuntimeField

/-- `convert_fields`. -/
def convertFields (fields : List Service.FieldSpec) : GrmResult (List RuntimeField) := fields.mapM RuntimeField.ofService

theorem convertFields_toService (fields : List RuntimeField) :
    convertFields (fields.map RuntimeField.toService) = .ok fields :=
  mapM_map_eq_ok fun field _ => field.ofService_toService

namespace DefineNodeRequest

/-- `From<grm_rs::DefineNodeRequest> for DefineNodeRequest`. -/
def toService (request : DefineNodeRequest) : Service.DefineNodeRequest :=
  { name := request.name, idField := request.idField, fields := request.fields.map RuntimeField.toService }

/-- `TryFrom<DefineNodeRequest> for grm_rs::DefineNodeRequest`. -/
def ofService (request : Service.DefineNodeRequest) : GrmResult DefineNodeRequest := do
  let fields ← convertFields request.fields
  return { name := request.name, idField := request.idField, fields }

theorem ofService_toService (request : DefineNodeRequest) : ofService request.toService = .ok request := by
  rw [ofService, toService, convertFields_toService]
  rfl

end DefineNodeRequest

namespace DefineEdgeRequest

/-- `From<grm_rs::DefineEdgeRequest> for DefineEdgeRequest`. -/
def toService (request : DefineEdgeRequest) : Service.DefineEdgeRequest :=
  { name := request.name, fromModel := request.fromModel, toModel := request.toModel, idField := request.idField
    fields := request.fields.map RuntimeField.toService }

/-- `TryFrom<DefineEdgeRequest> for grm_rs::DefineEdgeRequest`. -/
def ofService (request : Service.DefineEdgeRequest) : GrmResult DefineEdgeRequest := do
  let fields ← convertFields request.fields
  return { name := request.name, fromModel := request.fromModel, toModel := request.toModel
           idField := request.idField, fields }

theorem ofService_toService (request : DefineEdgeRequest) : ofService request.toService = .ok request := by
  rw [ofService, toService, convertFields_toService]
  rfl

end DefineEdgeRequest

namespace SessionBatchFieldParam

/-- The closure of `batch_fields_to_service_fields`. -/
def toService (field : SessionBatchFieldParam) : GrmResult Service.FieldSpec := do
  let valueType ← fieldValueTypeOfKeyword field.valueType
  return { name := field.name, valueType, required := field.required }

/-- The closure of `service_fields_to_batch_fields`. -/
def ofService (field : Service.FieldSpec) : GrmResult SessionBatchFieldParam := do
  let valueType ← fieldValueTypeKeyword field.valueType
  return { name := field.name, valueType, required := field.required }

end SessionBatchFieldParam

/-! ## Values -/

namespace Number

/-- `Number::as_u64`. -/
def asU64 : Number → Option Nat
  | int i => if 0 ≤ i.val then some i.val.toNat else none
  | float _ => none

/-- `Number::as_f64`: an integer is rounded to the nearest double. -/
def asDouble : Number → Option F64
  | int i => F64.ofRatio (i.val < 0) i.val.natAbs 1
  | float x => some x

/-- `Number::from_f64`: only a finite double is a number. -/
def fromF64 (bits : BitVec 64) : Option Number :=
  if h : bits.toNat / 2 ^ 52 % 2 ^ 11 ≠ 2047 then some (float ⟨bits, h⟩) else none

/-- `Number::as_i64`, with its range. -/
def asI64InRange (n : Number) : Option I64 :=
  n.asI64.bind fun i => if h : i64Min ≤ i ∧ i ≤ i64Max then some ⟨i, h⟩ else none

end Number

namespace Value
variable [Externals]

/-- `Value::from(i64)`. -/
def ofI64 (i : I64) : Value :=
  number (.int ⟨i.val, i.property.1, Int.lt_of_le_of_lt i.property.2 (by decide)⟩)

def invalidTypedBytes : GrmError := .constraint "invalid typed bytes property value"

/-- The payload of a value of the kind `bytes`, decoded. -/
def decodeBytes (raw : String) : GrmResult (List UInt8) :=
  match Externals.base64Decode raw with
  | some bytes => .ok bytes
  | none => .error invalidTypedBytes

def numericPropertyError : GrmError := .constraint "numeric property value cannot be represented in service proto"

/-- `TryFrom<Value> for PropertyValue`; an object's arm is chosen by its `typed_value_kind`. -/
def toService (value : Value) : GrmResult Service.PropertyValue :=
  match value with
  | string value => .ok (.string value)
  | bool value => .ok (.bool value)
  | number n => match n.asI64InRange with
    | some i => .ok (.int i)
    | none => match n.asU64 with
      -- an unsigned integer that is no `i64` does not fit one
      | some u => if h : i64Min ≤ (u : Int) ∧ (u : Int) ≤ i64Max then .ok (.int ⟨u, h⟩)
        else .error (.constraint "integer property value is too large for int64")
      | none => match n.asDouble with
        | some x => .ok (.float x.bits)
        | none => .error numericPropertyError
  | object fields => match (object fields).typedValueParts with
    | some ("bytes", raw) => (decodeBytes raw).map .bytes
    | some ("decimal", raw) => .ok (.decimal raw)
    | some ("date", raw) => .ok (.date raw)
    | some ("datetime", raw) => .ok (.dateTime raw)
    | some ("duration", raw) => .ok (.duration raw)
    | some ("uuid", raw) => .ok (.uuid raw)
    | _ => .error (.constraint "graph values must be strings, numbers, or booleans")
  | null | array _ => .error (.constraint "graph values must be strings, numbers, or booleans")

/-- `parse_typed_value`, with its error as the runtime's. -/
def parseTyped (kind : PrimitiveKind) (raw : String) : GrmResult Value :=
  (parseTypedValue kind raw).mapError .constraint

/-- `TryFrom<PropertyValue> for Value`. -/
def ofService : Service.PropertyValue → GrmResult Value
  | .string value => .ok (string value)
  | .int value => .ok (ofI64 value)
  | .float bits => match Number.fromF64 bits with
    | some n => .ok (number n)
    | none => .error (.constraint "float value must be finite")
  | .bool value => .ok (bool value)
  | .bytes value => parseTyped .bytes (Externals.base64Encode value)
  | .decimal raw => parseTyped .decimal raw
  | .date raw => parseTyped .date raw
  | .dateTime raw => parseTyped .dateTime raw
  | .duration raw => parseTyped .duration raw
  | .uuid raw => parseTyped .uuid raw

end Value
