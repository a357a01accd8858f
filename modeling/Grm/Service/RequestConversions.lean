import Grm.Runtime.TypedValues
import Grm.Service.Api

/-!
# From the runtime to the service and back

The conversions of requests and of the values in them, and that a request survives them
when each of its values is valid for some kind and each field type is a supported one.
-/

set_option autoImplicit false

/-! ## Values and property maps -/

section Values
variable [Externals]

/-- The value is valid for some kind. -/
def Value.Valid (value : Value) : Prop := ∃ kind, validateValueForKind kind value = true

theorem Value.survives_tagged {kind : PrimitiveKind} (isTagged : kind.isTagged = true) {raw : String}
    (canonical : canonicalText kind raw = .ok raw) :
    Survives Value.toService Value.ofService (Value.tagged kind raw) := by
  have parsed : Value.parseTyped kind raw = .ok (Value.tagged kind raw) := by
    rw [Value.parseTyped, parseTypedValue_tagged isTagged, canonical]
    rfl
  cases kind with
  | bytes =>
    have kept := keptReading_ok ((canonicalBytes_eq raw).symm.trans canonical)
    obtain ⟨same, bytes, decoded, encoded⟩ := kept
    rw [← same] at decoded encoded
    refine ⟨.bytes bytes, ?_, ?_⟩
    · show (Value.decodeBytes raw).map Service.PropertyValue.bytes = _
      rw [Value.decodeBytes, decoded]
      rfl
    · show Value.parseTyped .bytes (Externals.base64Encode bytes) = _
      rw [encoded, parsed]
  | decimal => exact ⟨.decimal raw, rfl, parsed⟩
  | date => exact ⟨.date raw, rfl, parsed⟩
  | dateTime => exact ⟨.dateTime raw, rfl, parsed⟩
  | duration => exact ⟨.duration raw, rfl, parsed⟩
  | uuid => exact ⟨.uuid raw, rfl, parsed⟩
  | string | int | float | bool => cases isTagged

omit [Externals] in
theorem Number.asI64InRange_int {i : JsonInt} (range : i.val < 2 ^ 63) :
    Number.asI64InRange (.int i) = some ⟨i.val, i.low, by unfold i64Max; omega⟩ := by
  have bounds : i64Min ≤ i.val ∧ i.val ≤ i64Max := ⟨i.low, by unfold i64Max; omega⟩
  rw [asI64InRange, asI64, if_pos range]
  exact dif_pos bounds

omit [Externals] in
theorem Number.asI64_some {n : Number} {i : Int} (read : n.asI64 = some i) :
    ∃ j : JsonInt, n = .int j ∧ j.val < 2 ^ 63 := by
  cases n with
  | int j =>
    refine ⟨j, rfl, ?_⟩
    apply Classical.byContradiction
    intro large
    rw [asI64, if_neg large] at read
    cases read
  | float x => cases read

/-- A valid value survives: the service keeps its kind and what it stands for. -/
theorem Value.Valid.survives {value : Value} (valid : value.Valid) : Survives Value.toService Value.ofService value := by
  obtain ⟨kind, valid⟩ := valid
  cases isTagged : kind.isTagged with
  | true =>
    obtain ⟨raw, rfl, canonical⟩ := (valid_tagged isTagged).1 valid
    exact Value.survives_tagged isTagged canonical
  | false => cases kind with
    | string =>
      obtain ⟨s, rfl⟩ := valid_string.1 valid
      exact ⟨.string s, rfl, rfl⟩
    | int =>
      obtain ⟨i, read⟩ := valid_int.1 valid
      cases value with
      | number n =>
        obtain ⟨j, rfl, range⟩ := Number.asI64_some read
        refine ⟨.int ⟨j.val, j.low, by unfold i64Max; omega⟩, ?_, rfl⟩
        rw [Value.toService, Number.asI64InRange_int range]
      | _ => cases read
    | float =>
      obtain ⟨x, rfl⟩ := valid_float.1 valid
      refine ⟨.float x.bits, rfl, ?_⟩
      rw [Value.ofService, Number.fromF64, dif_pos x.finite]
    | bool =>
      obtain ⟨b, rfl⟩ := valid_bool.1 valid
      exact ⟨.bool b, rfl, rfl⟩
    | _ => cases isTagged

namespace Props

/-- Every value of the map is valid for some kind. -/
def Valid (props : Props) : Prop := ∀ (key : String) (value : Value), props[key]? = some value → value.Valid

/-- An entry of a property map as the service has it. -/
def entryToService (entry : String × Value) : GrmResult Service.Property := do
  let value ← entry.2.toService
  return { name := entry.1, value }

/-- `TryFrom<BTreeMap<String, Value>> for PropertyMap`. -/
def toService (props : Props) : GrmResult Service.PropertyMap := do
  let properties ← props.toList.mapM entryToService
  return { properties }

/-- The loop of `TryFrom<PropertyMap> for BTreeMap<String, Value>`. -/
def collect (props : Props) : List Service.Property → GrmResult Props
  | [] => .ok props
  | property :: properties => do
    let value ← Value.ofService property.value
    if props.contains property.name then throw (.constraint ("duplicate property '" ++ property.name ++ "'"))
    collect (props.insert property.name value) properties

/-- `TryFrom<PropertyMap> for BTreeMap<String, Value>`. -/
def ofService (map : Service.PropertyMap) : GrmResult Props := collect ∅ map.properties

/-- Entries under ascending names are all collected. -/
theorem collect_entries (props : Props) (entries : List (String × Value))
    (valid : ∀ entry ∈ entries, entry.2.Valid) (distinct : entries.Pairwise fun a b => a.1 ≠ b.1)
    (fresh : ∀ entry ∈ entries, entry.1 ∉ props) :
    ∃ properties, entries.mapM entryToService = .ok properties ∧
      collect props properties = .ok (BTreeMap.insertAll props entries) := by
  induction entries generalizing props with
  | nil => exact ⟨[], rfl, rfl⟩
  | cons entry entries ih =>
    obtain ⟨first, rest⟩ := List.pairwise_cons.1 distinct
    obtain ⟨value, encoded, decoded⟩ := (valid entry List.mem_cons_self).survives
    have later : ∀ e ∈ entries, e.1 ∉ props.insert entry.1 entry.2 := by
      intro e member present
      rcases BTreeMap.mem_insert.1 present with same | before
      · exact first e member same
      · exact fresh e (List.mem_cons_of_mem _ member) before
    obtain ⟨properties, encodedAll, collected⟩ :=
      ih _ (fun e member => valid e (List.mem_cons_of_mem _ member)) rest later
    refine ⟨⟨entry.1, value⟩ :: properties, ?_, ?_⟩
    · rw [List.mapM_cons, entryToService, encoded, Except.ok_bind, encodedAll]
      rfl
    · have absent : props.contains entry.1 = false := BTreeMap.contains_eq_false.2 (fresh entry List.mem_cons_self)
      rw [collect, decoded, Except.ok_bind, absent, BTreeMap.insertAll_cons, ← collected]
      rfl

theorem Valid.survives {props : Props} (valid : props.Valid) : Survives toService ofService props := by
  obtain ⟨properties, encoded, collected⟩ := collect_entries ∅ props.toList
    (fun entry member => valid entry.1 entry.2 (Std.ExtTreeMap.mem_toList_iff_getElem?_eq_some.1 member))
    (BTreeMap.distinct_toList props) (fun _ _ => Std.ExtTreeMap.not_mem_empty)
  refine ⟨⟨properties⟩, ?_, ?_⟩
  · rw [toService, encoded]
    rfl
  · rw [ofService, collected, BTreeMap.insertAll_toList]

end Props

end Values

/-! ## Queries -/

namespace CompareOp

/-- `From<grm_rs::PredicateOp> for PredicateOp`. -/
def toService : CompareOp → Service.PredicateOp
  | eq => .eq
  | ne => .ne
  | gt => .gt
  | ge => .ge
  | lt => .lt
  | le => .le
  | contains => .contains

/-- `From<PredicateOp> for grm_rs::PredicateOp`. -/
def ofService : Service.PredicateOp → CompareOp
  | .eq => eq
  | .ne => ne
  | .gt => gt
  | .ge => ge
  | .lt => lt
  | .le => le
  | .contains => contains

theorem ofService_toService (op : CompareOp) : ofService op.toService = op := by
  cases op <;> rfl

end CompareOp

namespace SessionOrder

/-- `From<grm_rs::OrderDirection> for OrderDirection`. -/
def directionToService : SortDirection → Service.OrderDirection
  | .asc => .asc
  | .desc => .desc

/-- `From<OrderDirection> for grm_rs::OrderDirection`. -/
def directionOfService : Service.OrderDirection → SortDirection
  | .asc => .asc
  | .desc => .desc

/-- `From<grm_rs::OrderSpec> for OrderSpec`. -/
def toService (order : SessionOrder) : Service.OrderSpec :=
  { field := order.field, direction := directionToService order.direction }

/-- `From<OrderSpec> for grm_rs::OrderSpec`. -/
def ofService (order : Service.OrderSpec) : SessionOrder :=
  { field := order.field, direction := directionOfService order.direction }

theorem ofService_toService (order : SessionOrder) : ofService order.toService = order := by
  obtain ⟨field, direction⟩ := order
  cases direction <;> rfl

end SessionOrder

namespace SessionTraversalStep

/-- `From<grm_rs::TraversalDirection> for TraversalDirection`. -/
def directionToService : Direction → Service.TraversalDirection
  | .out => .out
  | .incoming => .incoming
  | .both => .both

/-- `From<TraversalDirection> for grm_rs::TraversalDirection`. -/
def directionOfService : Service.TraversalDirection → Direction
  | .out => .out
  | .incoming => .incoming
  | .both => .both

/-- `From<grm_rs::TraversalStepRequest> for TraversalStep`. -/
def toService (step : SessionTraversalStep) : Service.TraversalStep :=
  { direction := directionToService step.direction, edgeModel := step.relModelName, endModel := step.endModelName }

/-- `From<TraversalStep> for grm_rs::TraversalStepRequest`. -/
def ofService (step : Service.TraversalStep) : SessionTraversalStep :=
  { direction := directionOfService step.direction, relModelName := step.edgeModel, endModelName := step.endModel }

theorem ofService_toService (step : SessionTraversalStep) : ofService step.toService = step := by
  obtain ⟨direction, relModelName, endModelName⟩ := step
  cases direction <;> rfl

end SessionTraversalStep

namespace SessionTraversalReturn

/-- `From<grm_rs::TraversalReturn> for TraversalReturn`. -/
def toService : SessionTraversalReturn → Service.TraversalReturn
  | endNode => .endNode
  | root => .root
  | edge => .edge

/-- `From<TraversalReturn> for grm_rs::TraversalReturn`. -/
def ofService : Service.TraversalReturn → SessionTraversalReturn
  | .endNode => endNode
  | .root => root
  | .edge => edge

theorem ofService_toService (returnMode : SessionTraversalReturn) : ofService returnMode.toService = returnMode := by
  cases returnMode <;> rfl

end SessionTraversalReturn

/-- `usize_to_u64`. -/
def usizeToU64 (value : Nat) : GrmResult Nat :=
  if value ≤ u64Max then .ok value else .error (.constraint "value is too large for u64")

/-- `convert_u64_option_to_usize`. -/
def convertU64OptionToUsize (value : Option Nat) (field : String) : GrmResult (Option Nat) :=
  value.mapM fun value => if value ≤ u64Max then .ok value else .error (.constraint (field ++ " is too large"))

/-- The number is one of its type, `usize`. -/
def InUsize (value : Option Nat) : Prop := ∀ n, value = some n → n ≤ u64Max

theorem survives_limit {value : Option Nat} (range : InUsize value) (field : String) :
    ∃ sent, value.mapM usizeToU64 = .ok sent ∧ convertU64OptionToUsize sent field = .ok value :=
  Survives.option fun n given => ⟨n, if_pos (range n given), if_pos (range n given)⟩

namespace PropertyPredicate
variable [Externals]

/-- `TryFrom<grm_rs::PropertyPredicate> for PropertyPredicate`. -/
def toService (predicate : PropertyPredicate) : GrmResult Service.PropertyPredicate := do
  let value ← predicate.value.toService
  return { field := predicate.field, op := predicate.op.toService, value }

/-- `TryFrom<PropertyPredicate> for grm_rs::PropertyPredicate`. -/
def ofService (predicate : Service.PropertyPredicate) : GrmResult PropertyPredicate := do
  let value ← Value.ofService predicate.value
  return { field := predicate.field, op := CompareOp.ofService predicate.op, value }

theorem survives {predicate : PropertyPredicate} (valid : predicate.value.Valid) :
    Survives toService ofService predicate := by
  obtain ⟨value, encoded, decoded⟩ := valid.survives
  refine ⟨⟨predicate.field, predicate.op.toService, value⟩, ?_, ?_⟩
  · rw [toService, encoded]
    rfl
  · rw [ofService, decoded, Except.ok_bind, CompareOp.ofService_toService]
    rfl

end PropertyPredicate

/-- Every predicate has a value that is valid for some kind. -/
def ValidPredicates [Externals] (predicates : List PropertyPredicate) : Prop :=
  ∀ predicate ∈ predicates, predicate.value.Valid

namespace NodeFindRequest
variable [Externals]

/-- `node_find_shape_from_runtime`, and `TryFrom<grm_rs::NodeFindRequest> for NodeFindRequest`. -/
def toService (request : NodeFindRequest) : GrmResult Service.NodeFindShape := do
  let predicates ← request.predicates.mapM PropertyPredicate.toService
  let endPredicates ← request.endPredicates.mapM PropertyPredicate.toService
  let edgePredicates ← request.edgePredicates.mapM PropertyPredicate.toService
  let limit ← request.limit.mapM usizeToU64
  let offset ← request.offset.mapM usizeToU64
  return { model := request.model, predicates, endPredicates, edgePredicates
           traversals := request.traversals.map SessionTraversalStep.toService
           order := request.order.map SessionOrder.toService, limit, offset, id := request.id
           returnMode := request.returnMode.map SessionTraversalReturn.toService }

/-- `node_find_shape_to_runtime`, and `TryFrom<NodeFindRequest> for grm_rs::NodeFindRequest`. -/
def ofService (shape : Service.NodeFindShape) : GrmResult NodeFindRequest := do
  let predicates ← shape.predicates.mapM PropertyPredicate.ofService
  let endPredicates ← shape.endPredicates.mapM PropertyPredicate.ofService
  let edgePredicates ← shape.edgePredicates.mapM PropertyPredicate.ofService
  let limit ← convertU64OptionToUsize shape.limit "limit"
  let offset ← convertU64OptionToUsize shape.offset "offset"
  return { model := shape.model, predicates, endPredicates, edgePredicates
           traversals := shape.traversals.map SessionTraversalStep.ofService
           order := shape.order.map SessionOrder.ofService, limit, offset, id := shape.id
           returnMode := shape.returnMode.map SessionTraversalReturn.ofService }

/-- Every value of the request is valid for some kind. -/
structure Valid (request : NodeFindRequest) : Prop where
  predicates : ValidPredicates request.predicates
  endPredicates : ValidPredicates request.endPredicates
  edgePredicates : ValidPredicates request.edgePredicates
  limit : InUsize request.limit
  offset : InUsize request.offset

theorem Valid.survives {request : NodeFindRequest} (valid : request.Valid) : Survives toService ofService request := by
  obtain ⟨predicates, sent, read⟩ := Survives.list fun p member => PropertyPredicate.survives (valid.predicates p member)
  obtain ⟨ends, sentEnds, readEnds⟩ :=
    Survives.list fun p member => PropertyPredicate.survives (valid.endPredicates p member)
  obtain ⟨edges, sentEdges, readEdges⟩ :=
    Survives.list fun p member => PropertyPredicate.survives (valid.edgePredicates p member)
  obtain ⟨limit, sentLimit, readLimit⟩ := survives_limit valid.limit "limit"
  obtain ⟨offset, sentOffset, readOffset⟩ := survives_limit valid.offset "offset"
  have traversals := map_map_eq_self (l := request.traversals) SessionTraversalStep.ofService_toService
  have order := map_map_eq_self (l := request.order) SessionOrder.ofService_toService
  have returned : (request.returnMode.map SessionTraversalReturn.toService).map SessionTraversalReturn.ofService =
      request.returnMode := by
    cases request.returnMode with
    | none => rfl
    | some mode => exact congrArg some mode.ofService_toService
  refine ⟨{ model := request.model, predicates, endPredicates := ends, edgePredicates := edges
            traversals := request.traversals.map SessionTraversalStep.toService
            order := request.order.map SessionOrder.toService, limit, offset, id := request.id
            returnMode := request.returnMode.map SessionTraversalReturn.toService }, ?_, ?_⟩
  · simp only [toService, sent, sentEnds, sentEdges, sentLimit, sentOffset, Except.ok_bind]
    rfl
  · simp only [ofService, read, readEnds, readEdges, readLimit, readOffset, Except.ok_bind, traversals, order, returned]
    rfl

end NodeFindRequest

namespace EdgeFindRequest
variable [Externals]

/-- `edge_find_shape_from_runtime`, and `TryFrom<grm_rs::EdgeFindRequest> for EdgeFindRequest`. -/
def toService (request : EdgeFindRequest) : GrmResult Service.EdgeFindShape := do
  let predicates ← request.predicates.mapM PropertyPredicate.toService
  let limit ← request.limit.mapM usizeToU64
  let offset ← request.offset.mapM usizeToU64
  return { model := request.model, predicates, order := request.order.map SessionOrder.toService, limit, offset
           id := request.id, fromId := request.fromId, toId := request.toId }

/-- `edge_find_shape_to_runtime`, and `TryFrom<EdgeFindRequest> for grm_rs::EdgeFindRequest`. -/
def ofService (shape : Service.EdgeFindShape) : GrmResult EdgeFindRequest := do
  let predicates ← shape.predicates.mapM PropertyPredicate.ofService
  let limit ← convertU64OptionToUsize shape.limit "limit"
  let offset ← convertU64OptionToUsize shape.offset "offset"
  return { model := shape.model, predicates, order := shape.order.map SessionOrder.ofService, limit, offset
           id := shape.id, fromId := shape.fromId, toId := shape.toId }

/-- Every value of the request is valid for some kind. -/
structure Valid (request : EdgeFindRequest) : Prop where
  predicates : ValidPredicates request.predicates
  limit : InUsize request.limit
  offset : InUsize request.offset

theorem Valid.survives {request : EdgeFindRequest} (valid : request.Valid) : Survives toService ofService request := by
  obtain ⟨predicates, sent, read⟩ := Survives.list fun p member => PropertyPredicate.survives (valid.predicates p member)
  obtain ⟨limit, sentLimit, readLimit⟩ := survives_limit valid.limit "limit"
  obtain ⟨offset, sentOffset, readOffset⟩ := survives_limit valid.offset "offset"
  have order := map_map_eq_self (l := request.order) SessionOrder.ofService_toService
  refine ⟨{ model := request.model, predicates, order := request.order.map SessionOrder.toService, limit, offset
            id := request.id, fromId := request.fromId, toId := request.toId }, ?_, ?_⟩
  · simp only [toService, sent, sentLimit, sentOffset, Except.ok_bind]
    rfl
  · simp only [ofService, read, readLimit, readOffset, Except.ok_bind, order]
    rfl

end EdgeFindRequest

namespace QueryRequest
variable [Externals]

/-- `TryFrom<grm_rs::QueryRequest> for QueryRequest`. -/
def toService : QueryRequest → GrmResult Service.QueryRequest
  | nodeFind request => request.toService.map .nodeFind
  | edgeFind request => request.toService.map .edgeFind
  | traversal root => root.toService.map .traversal

/-- `TryFrom<QueryRequest> for grm_rs::QueryRequest`. -/
def ofService : Service.QueryRequest → GrmResult QueryRequest
  | .nodeFind shape => (NodeFindRequest.ofService shape).map nodeFind
  | .edgeFind shape => (EdgeFindRequest.ofService shape).map edgeFind
  | .traversal root => (NodeFindRequest.ofService root).map traversal

def Valid : QueryRequest → Prop
  | nodeFind request => request.Valid
  | edgeFind request => request.Valid
  | traversal root => root.Valid

theorem Valid.survives {query : QueryRequest} (valid : query.Valid) : Survives toService ofService query := by
  cases query with
  | nodeFind request => exact (NodeFindRequest.Valid.survives valid).wrap nodeFind .nodeFind (fun _ => rfl) fun _ => rfl
  | edgeFind request => exact (EdgeFindRequest.Valid.survives valid).wrap edgeFind .edgeFind (fun _ => rfl) fun _ => rfl
  | traversal root => exact (NodeFindRequest.Valid.survives valid).wrap traversal .traversal (fun _ => rfl) fun _ => rfl

end QueryRequest

/-! ## Batches -/

namespace SessionBatchResponse

/-- `From<grm_rs::SessionBatchResponse> for BatchResponseMode`. -/
def toService : SessionBatchResponse → Service.BatchResponseMode
  | summary => .summary
  | detailed => .detailed

/-- `From<BatchResponseMode> for grm_rs::SessionBatchResponse`. -/
def ofService : Service.BatchResponseMode → SessionBatchResponse
  | .summary => summary
  | .detailed => detailed

theorem ofService_toService (mode : SessionBatchResponse) : ofService mode.toService = mode := by
  cases mode <;> rfl

end SessionBatchResponse

namespace SessionBatchEndpoint

/-- `From<grm_rs::SessionBatchEndpoint> for BatchEndpoint`. -/
def toService : SessionBatchEndpoint → Service.BatchEndpoint
  | id value => .id value
  | ref localRef => .localRef localRef

/-- `From<BatchEndpoint> for grm_rs::SessionBatchEndpoint`. -/
def ofService : Service.BatchEndpoint → SessionBatchEndpoint
  | .id value => id value
  | .localRef localRef => ref localRef

theorem ofService_toService (endpoint : SessionBatchEndpoint) : ofService endpoint.toService = endpoint := by
  cases endpoint <;> rfl

end SessionBatchEndpoint

/-- Every field has the keyword of a supported type. -/
def SupportedFields (fields : List SessionBatchFieldParam) : Prop :=
  ∀ field ∈ fields, ∃ kind : PrimitiveKind, field.valueType = kind.keyword

/-- `batch_fields_to_service_fields`. -/
def batchFieldsToServiceFields (fields : List SessionBatchFieldParam) : GrmResult (List Service.FieldSpec) :=
  fields.mapM SessionBatchFieldParam.toService

/-- `service_fields_to_batch_fields`. -/
def serviceFieldsToBatchFields (fields : List Service.FieldSpec) : GrmResult (List SessionBatchFieldParam) :=
  fields.mapM SessionBatchFieldParam.ofService

theorem SupportedFields.survives {fields : List SessionBatchFieldParam} (supported : SupportedFields fields) :
    Survives batchFieldsToServiceFields serviceFieldsToBatchFields fields := by
  apply Survives.list
  intro field member
  obtain ⟨kind, named⟩ := supported field member
  obtain ⟨name, valueType, required⟩ := field
  obtain rfl : valueType = kind.keyword := named
  refine ⟨⟨name, kind.toService, required⟩, ?_, ?_⟩
  · rw [SessionBatchFieldParam.toService, fieldValueTypeOfKeyword_keyword]
    rfl
  · rw [SessionBatchFieldParam.ofService, fieldValueTypeKeyword, PrimitiveKind.ofService_toService]
    rfl

namespace SessionBatchOp
variable [Externals]

/-- `TryFrom<grm_rs::SessionBatchOp> for BatchOperation`. -/
def toService : SessionBatchOp → GrmResult Service.BatchOperation
  | schemaDefineNode name idField fields => do
    let fields ← batchFieldsToServiceFields fields
    return .schemaDefineNode { name, idField, fields }
  | schemaDefineEdge name fromModel toModel idField fields => do
    let fields ← batchFieldsToServiceFields fields
    return .schemaDefineEdge { name, fromModel, toModel, idField, fields }
  | nodeCreate model props localRef => do
    let props ← Props.toService props
    return .nodeCreate { model, props, localRef }
  | nodeUpdate model id props => do
    let props ← Props.toService props
    return .nodeUpdate { model, id, props }
  | nodeDelete model id => .ok (.nodeDelete { model, id })
  | edgeCreate model fromEnd toEnd props => do
    let props ← Props.toService props
    return .edgeCreate { model, fromEnd := fromEnd.toService, toEnd := toEnd.toService, props }
  | edgeUpdate model id props => do
    let props ← Props.toService props
    return .edgeUpdate { model, id, props }
  | edgeDelete model id => .ok (.edgeDelete { model, id })

/-- `TryFrom<BatchOperation> for grm_rs::SessionBatchOp`. -/
def ofService : Service.BatchOperation → GrmResult SessionBatchOp
  | .schemaDefineNode request => do
    let fields ← serviceFieldsToBatchFields request.fields
    return schemaDefineNode request.name request.idField fields
  | .schemaDefineEdge request => do
    let fields ← serviceFieldsToBatchFields request.fields
    return schemaDefineEdge request.name request.fromModel request.toModel request.idField fields
  | .nodeCreate request => do
    let props ← Props.ofService request.props
    return nodeCreate request.model props request.localRef
  | .nodeUpdate request => do
    let props ← Props.ofService request.props
    return nodeUpdate request.model request.id props
  | .nodeDelete request => .ok (nodeDelete request.model request.id)
  | .edgeCreate request => do
    let props ← Props.ofService request.props
    return edgeCreate request.model (.ofService request.fromEnd) (.ofService request.toEnd) props
  | .edgeUpdate request => do
    let props ← Props.ofService request.props
    return edgeUpdate request.model request.id props
  | .edgeDelete request => .ok (edgeDelete request.model request.id)

/-- Every property value is valid for some kind, and every field type is supported. -/
def Valid : SessionBatchOp → Prop
  | schemaDefineNode _ _ fields | schemaDefineEdge _ _ _ _ fields => SupportedFields fields
  | nodeCreate _ props _ | nodeUpdate _ _ props | edgeCreate _ _ _ props | edgeUpdate _ _ props => Props.Valid props
  | nodeDelete _ _ | edgeDelete _ _ => True

theorem Valid.survives {op : SessionBatchOp} (valid : op.Valid) : Survives toService ofService op := by
  cases op with
  | schemaDefineNode name idField fields =>
    obtain ⟨sent, encoded, decoded⟩ := SupportedFields.survives valid
    refine ⟨.schemaDefineNode ⟨name, idField, sent⟩, ?_, ?_⟩
    · simp only [toService, encoded, Except.ok_bind]
      rfl
    · simp only [ofService, decoded, Except.ok_bind]
      rfl
  | schemaDefineEdge name fromModel toModel idField fields =>
    obtain ⟨sent, encoded, decoded⟩ := SupportedFields.survives valid
    refine ⟨.schemaDefineEdge ⟨name, fromModel, toModel, idField, sent⟩, ?_, ?_⟩
    · simp only [toService, encoded, Except.ok_bind]
      rfl
    · simp only [ofService, decoded, Except.ok_bind]
      rfl
  | nodeCreate model props localRef =>
    obtain ⟨sent, encoded, decoded⟩ := Props.Valid.survives valid
    refine ⟨.nodeCreate ⟨model, sent, localRef⟩, ?_, ?_⟩
    · simp only [toService, encoded, Except.ok_bind]
      rfl
    · simp only [ofService, decoded, Except.ok_bind]
      rfl
  | nodeUpdate model id props =>
    obtain ⟨sent, encoded, decoded⟩ := Props.Valid.survives valid
    refine ⟨.nodeUpdate ⟨model, id, sent⟩, ?_, ?_⟩
    · simp only [toService, encoded, Except.ok_bind]
      rfl
    · simp only [ofService, decoded, Except.ok_bind]
      rfl
  | nodeDelete model id => exact ⟨_, rfl, rfl⟩
  | edgeCreate model fromEnd toEnd props =>
    obtain ⟨sent, encoded, decoded⟩ := Props.Valid.survives valid
    refine ⟨.edgeCreate ⟨model, fromEnd.toService, toEnd.toService, sent⟩, ?_, ?_⟩
    · simp only [toService, encoded, Except.ok_bind]
      rfl
    · simp only [ofService, decoded, Except.ok_bind, SessionBatchEndpoint.ofService_toService]
      rfl
  | edgeUpdate model id props =>
    obtain ⟨sent, encoded, decoded⟩ := Props.Valid.survives valid
    refine ⟨.edgeUpdate ⟨model, id, sent⟩, ?_, ?_⟩
    · simp only [toService, encoded, Except.ok_bind]
      rfl
    · simp only [ofService, decoded, Except.ok_bind]
      rfl
  | edgeDelete model id => exact ⟨_, rfl, rfl⟩

end SessionBatchOp

namespace SessionBatchParams
variable [Externals]

/-- `TryFrom<grm_rs::SessionBatchParams> for BatchRequest`. -/
def toService (params : SessionBatchParams) : GrmResult Service.BatchRequest := do
  let ops ← params.ops.mapM SessionBatchOp.toService
  return { atomic := params.atomic, allowDeletes := params.allowDeletes, responseMode := params.response.toService, ops }

/-- `TryFrom<BatchRequest> for grm_rs::BatchRequest`. -/
def ofService (request : Service.BatchRequest) : GrmResult SessionBatchParams := do
  let ops ← request.ops.mapM SessionBatchOp.ofService
  return { atomic := request.atomic, allowDeletes := request.allowDeletes
           response := .ofService request.responseMode, ops }

def Valid (params : SessionBatchParams) : Prop := ∀ op ∈ params.ops, op.Valid

theorem Valid.survives {params : SessionBatchParams} (valid : params.Valid) : Survives toService ofService params := by
  obtain ⟨ops, encoded, decoded⟩ := Survives.list fun op member => SessionBatchOp.Valid.survives (valid op member)
  refine ⟨⟨params.atomic, params.allowDeletes, params.response.toService, ops⟩, ?_, ?_⟩
  · rw [toService, encoded]
    rfl
  · simp only [ofService, decoded, Except.ok_bind, SessionBatchResponse.ofService_toService]
    rfl

end SessionBatchParams

/-! ## Requests -/

section Requests
variable [Externals]

/-- The service request the client makes of a schema request. -/
def SchemaRequest.toService : SchemaRequest → Service.Request
  | defineNode request => .defineNode request.toService
  | defineEdge request => .defineEdge request.toService
  | list => .schemaList

/-- The service request the client makes of a node request. -/
def NodeRequest.toService : NodeRequest → GrmResult Service.Request
  | create model props => do
    let props ← Props.toService props
    return .createNode { model, props }
  | update model id props => do
    let props ← Props.toService props
    return .updateNode { model, id, props }
  | delete model id => .ok (.deleteNode { model, id })
  | find request => request.toService.map .findNodes

/-- The service request the client makes of an edge request. -/
def EdgeRequest.toService : EdgeRequest → GrmResult Service.Request
  | create model fromId toId props => do
    let props ← Props.toService props
    return .createEdge { model, fromId, toId, props }
  | update model id props => do
    let props ← Props.toService props
    return .updateEdge { model, id, props }
  | delete model id => .ok (.deleteEdge { model, id })
  | find request => request.toService.map .findEdges

/-- The service request that a method of `GrpcWorkspaceClient` makes of a runtime request.
It has none for a query, nor for an admin request but the summary. -/
def RuntimeRequest.toService : RuntimeRequest → Option (GrmResult Service.Request)
  | schema request => some (.ok request.toService)
  | node request => some request.toService
  | edge request => some request.toService
  | explain request => some (request.toService.map .explain)
  | profile request => some (request.toService.map .profile)
  | batch params => some (params.toService.map .applyBatch)
  | admin .summary => some (.ok .summary)
  | query _ | admin _ => none

def snapshotRequestError : GrmError := .notSupported
  "service snapshot handle and document admin requests are not mapped to local runtime file operations"

/-- `TryFrom<ServiceRequest> for grm_rs::RuntimeRequest`. -/
def RuntimeRequest.ofService : Service.Request → GrmResult RuntimeRequest
  | .defineNode request => (DefineNodeRequest.ofService request).map fun request => schema (.defineNode request)
  | .defineEdge request => (DefineEdgeRequest.ofService request).map fun request => schema (.defineEdge request)
  | .schemaList => .ok (schema .list)
  | .createNode request => do
    let props ← Props.ofService request.props
    return node (.create request.model props)
  | .updateNode request => do
    let props ← Props.ofService request.props
    return node (.update request.model request.id props)
  | .deleteNode request => .ok (node (.delete request.model request.id))
  | .findNodes request => (NodeFindRequest.ofService request).map fun request => node (.find request)
  | .createEdge request => do
    let props ← Props.ofService request.props
    return edge (.create request.model request.fromId request.toId props)
  | .updateEdge request => do
    let props ← Props.ofService request.props
    return edge (.update request.model request.id props)
  | .deleteEdge request => .ok (edge (.delete request.model request.id))
  | .findEdges request => (EdgeFindRequest.ofService request).map fun request => edge (.find request)
  | .query request => (QueryRequest.ofService request).map query
  | .explain request => (QueryRequest.ofService request).map explain
  | .profile request => (QueryRequest.ofService request).map profile
  | .applyBatch request => (SessionBatchParams.ofService request).map batch
  | .indexList => .ok (admin .indexList)
  | .summary => .ok (admin .summary)
  | .save | .load | .exportGraph | .importGraph => .error snapshotRequestError

def NodeRequest.Valid : NodeRequest → Prop
  | create _ props | update _ _ props => Props.Valid props
  | delete _ _ => True
  | find request => request.Valid

def EdgeRequest.Valid : EdgeRequest → Prop
  | create _ _ _ props | update _ _ props => Props.Valid props
  | delete _ _ => True
  | find request => request.Valid

/-- A structured request whose values are each valid for some kind and whose field types
are supported ones. -/
def RuntimeRequest.Sendable : RuntimeRequest → Prop
  | schema _ => True
  | node request => request.Valid
  | edge request => request.Valid
  | explain request | profile request => request.Valid
  | batch params => params.Valid
  | admin .summary => True
  | query _ | admin _ => False

theorem NodeRequest.Valid.survives {request : NodeRequest} (valid : request.Valid) :
    ∃ sent, request.toService = .ok sent ∧ RuntimeRequest.ofService sent = .ok (.node request) := by
  cases request with
  | create model props =>
    obtain ⟨sent, encoded, decoded⟩ := Props.Valid.survives valid
    refine ⟨.createNode ⟨model, sent⟩, ?_, ?_⟩
    · simp only [toService, encoded, Except.ok_bind]
      rfl
    · simp only [RuntimeRequest.ofService, decoded, Except.ok_bind]
      rfl
  | update model id props =>
    obtain ⟨sent, encoded, decoded⟩ := Props.Valid.survives valid
    refine ⟨.updateNode ⟨model, id, sent⟩, ?_, ?_⟩
    · simp only [toService, encoded, Except.ok_bind]
      rfl
    · simp only [RuntimeRequest.ofService, decoded, Except.ok_bind]
      rfl
  | delete model id => exact ⟨_, rfl, rfl⟩
  | find request =>
    obtain ⟨sent, encoded, decoded⟩ := NodeFindRequest.Valid.survives valid
    refine ⟨.findNodes sent, ?_, ?_⟩
    · rw [toService, encoded]
      rfl
    · rw [RuntimeRequest.ofService, decoded]
      rfl

theorem EdgeRequest.Valid.survives {request : EdgeRequest} (valid : request.Valid) :
    ∃ sent, request.toService = .ok sent ∧ RuntimeRequest.ofService sent = .ok (.edge request) := by
  cases request with
  | create model fromId toId props =>
    obtain ⟨sent, encoded, decoded⟩ := Props.Valid.survives valid
    refine ⟨.createEdge ⟨model, fromId, toId, sent⟩, ?_, ?_⟩
    · simp only [toService, encoded, Except.ok_bind]
      rfl
    · simp only [RuntimeRequest.ofService, decoded, Except.ok_bind]
      rfl
  | update model id props =>
    obtain ⟨sent, encoded, decoded⟩ := Props.Valid.survives valid
    refine ⟨.updateEdge ⟨model, id, sent⟩, ?_, ?_⟩
    · simp only [toService, encoded, Except.ok_bind]
      rfl
    · simp only [RuntimeRequest.ofService, decoded, Except.ok_bind]
      rfl
  | delete model id => exact ⟨_, rfl, rfl⟩
  | find request =>
    obtain ⟨sent, encoded, decoded⟩ := EdgeFindRequest.Valid.survives valid
    refine ⟨.findEdges sent, ?_, ?_⟩
    · rw [toService, encoded]
      rfl
    · rw [RuntimeRequest.ofService, decoded]
      rfl

/-- The service request of a sendable request is the request again at the runtime. -/
theorem RuntimeRequest.Sendable.survives {request : RuntimeRequest} (sendable : request.Sendable) :
    ∃ sent, request.toService = some (.ok sent) ∧ ofService sent = .ok request := by
  cases request with
  | schema request => cases request with
    | defineNode request =>
      refine ⟨_, rfl, ?_⟩
      rw [SchemaRequest.toService, ofService, DefineNodeRequest.ofService_toService]
      rfl
    | defineEdge request =>
      refine ⟨_, rfl, ?_⟩
      rw [SchemaRequest.toService, ofService, DefineEdgeRequest.ofService_toService]
      rfl
    | list => exact ⟨_, rfl, rfl⟩
  | node request =>
    obtain ⟨sent, encoded, decoded⟩ := NodeRequest.Valid.survives sendable
    exact ⟨sent, congrArg some encoded, decoded⟩
  | edge request =>
    obtain ⟨sent, encoded, decoded⟩ := EdgeRequest.Valid.survives sendable
    exact ⟨sent, congrArg some encoded, decoded⟩
  | explain request =>
    obtain ⟨sent, encoded, decoded⟩ := QueryRequest.Valid.survives sendable
    refine ⟨.explain sent, ?_, ?_⟩
    · rw [toService, encoded]
      rfl
    · rw [ofService, decoded]
      rfl
  | profile request =>
    obtain ⟨sent, encoded, decoded⟩ := QueryRequest.Valid.survives sendable
    refine ⟨.profile sent, ?_, ?_⟩
    · rw [toService, encoded]
      rfl
    · rw [ofService, decoded]
      rfl
  | batch params =>
    obtain ⟨sent, encoded, decoded⟩ := SessionBatchParams.Valid.survives sendable
    refine ⟨.applyBatch sent, ?_, ?_⟩
    · rw [toService, encoded]
      rfl
    · rw [ofService, decoded]
      rfl
  | admin request => cases request with
    | summary => exact ⟨_, rfl, rfl⟩
    | _ => cases sendable
  | query request => cases sendable

end Requests
