import Grm.Service.Proto

/-!
# Requests in protobuf

The conversions of queries, batches and whole requests between the service's types and
the messages. A service request whose field types are all specified survives them, unless
it is one that the client does not send.
-/

set_option autoImplicit false

namespace Service

/-! ## Queries -/

namespace PropertyPredicate

/-- `TryFrom<PropertyPredicate> for proto::PropertyPredicate`. -/
def toProto (predicate : PropertyPredicate) : GrmResult Proto.PropertyPredicate :=
  .ok { field := predicate.field, op := predicate.op.toProto, value := some predicate.value.toProto }

/-- `TryFrom<proto::PropertyPredicate> for PropertyPredicate`. -/
def ofProto (predicate : Proto.PropertyPredicate) : GrmResult PropertyPredicate := do
  let op ← PredicateOp.ofProto predicate.op
  let value ← Proto.required "PropertyPredicate.value" predicate.value
  let value ← PropertyValue.ofProto value
  return { field := predicate.field, op, value }

theorem survives (predicate : PropertyPredicate) : Survives toProto ofProto predicate := by
  refine ⟨_, rfl, ?_⟩
  simp only [ofProto, Proto.required, PredicateOp.ofProto_toProto, Except.ok_bind, PropertyValue.ofProto_toProto]
  rfl

end PropertyPredicate

namespace OrderSpec

/-- `From<OrderSpec> for proto::OrderSpec`. -/
def toProto (order : OrderSpec) : Proto.OrderSpec :=
  { field := order.field, direction := order.direction.toProto }

/-- `TryFrom<proto::OrderSpec> for OrderSpec`. -/
def ofProto (order : Proto.OrderSpec) : GrmResult OrderSpec := do
  let direction ← OrderDirection.ofProto order.direction
  return { field := order.field, direction }

theorem ofProto_toProto (order : OrderSpec) : ofProto order.toProto = .ok order := by
  simp only [ofProto, toProto, OrderDirection.ofProto_toProto, Except.ok_bind]
  rfl

end OrderSpec

namespace TraversalStep

/-- `From<TraversalStep> for proto::TraversalStep`. -/
def toProto (step : TraversalStep) : Proto.TraversalStep :=
  { direction := step.direction.toProto, edgeModel := step.edgeModel, endModel := step.endModel }

/-- `TryFrom<proto::TraversalStep> for TraversalStep`. -/
def ofProto (step : Proto.TraversalStep) : GrmResult TraversalStep := do
  let direction ← TraversalDirection.ofProto step.direction
  return { direction, edgeModel := step.edgeModel, endModel := step.endModel }

theorem ofProto_toProto (step : TraversalStep) : ofProto step.toProto = .ok step := by
  simp only [ofProto, toProto, TraversalDirection.ofProto_toProto, Except.ok_bind]
  rfl

end TraversalStep

namespace NodeFindShape

/-- `TryFrom<NodeFindRequest> for proto::NodeFindRequest`, and the same for shapes. -/
def toProto (shape : NodeFindShape) : GrmResult Proto.NodeFindShape := do
  let predicates ← shape.predicates.mapM PropertyPredicate.toProto
  let endPredicates ← shape.endPredicates.mapM PropertyPredicate.toProto
  let edgePredicates ← shape.edgePredicates.mapM PropertyPredicate.toProto
  return { model := shape.model, predicates, endPredicates, edgePredicates
           traversals := shape.traversals.map TraversalStep.toProto, order := shape.order.map OrderSpec.toProto
           limit := shape.limit, offset := shape.offset, id := shape.id
           returnMode := shape.returnMode.map TraversalReturn.toProto }

/-- `TryFrom<proto::NodeFindRequest> for NodeFindRequest`, and the same for shapes. -/
def ofProto (shape : Proto.NodeFindShape) : GrmResult NodeFindShape := do
  let predicates ← shape.predicates.mapM PropertyPredicate.ofProto
  let endPredicates ← shape.endPredicates.mapM PropertyPredicate.ofProto
  let edgePredicates ← shape.edgePredicates.mapM PropertyPredicate.ofProto
  let traversals ← shape.traversals.mapM TraversalStep.ofProto
  let order ← shape.order.mapM OrderSpec.ofProto
  let returnMode ← shape.returnMode.mapM TraversalReturn.ofProto
  return { model := shape.model, predicates, endPredicates, edgePredicates, traversals, order, limit := shape.limit
           offset := shape.offset, id := shape.id, returnMode }

theorem survives (shape : NodeFindShape) : Survives toProto ofProto shape := by
  obtain ⟨predicates, sent, read⟩ := Survives.list (l := shape.predicates) fun p _ => p.survives
  obtain ⟨ends, sentEnds, readEnds⟩ := Survives.list (l := shape.endPredicates) fun p _ => p.survives
  obtain ⟨edges, sentEdges, readEdges⟩ := Survives.list (l := shape.edgePredicates) fun p _ => p.survives
  have traversals := mapM_map_eq_ok (l := shape.traversals) fun step _ => step.ofProto_toProto
  have order := mapM_map_eq_ok (l := shape.order) fun order _ => order.ofProto_toProto
  have returned : (shape.returnMode.map TraversalReturn.toProto).mapM TraversalReturn.ofProto = .ok shape.returnMode := by
    cases shape.returnMode with
    | none => rfl
    | some mode => cases mode <;> rfl
  refine ⟨{ model := shape.model, predicates, endPredicates := ends, edgePredicates := edges
            traversals := shape.traversals.map TraversalStep.toProto, order := shape.order.map OrderSpec.toProto
            limit := shape.limit, offset := shape.offset, id := shape.id
            returnMode := shape.returnMode.map TraversalReturn.toProto }, ?_, ?_⟩
  · simp only [toProto, sent, sentEnds, sentEdges, Except.ok_bind]
    rfl
  · simp only [ofProto, read, readEnds, readEdges, traversals, order, returned, Except.ok_bind]
    rfl

end NodeFindShape

namespace EdgeFindShape

/-- `TryFrom<EdgeFindRequest> for proto::EdgeFindRequest`, and the same for shapes. -/
def toProto (shape : EdgeFindShape) : GrmResult Proto.EdgeFindShape := do
  let predicates ← shape.predicates.mapM PropertyPredicate.toProto
  return { model := shape.model, predicates, order := shape.order.map OrderSpec.toProto, limit := shape.limit
           offset := shape.offset, id := shape.id, fromId := shape.fromId, toId := shape.toId }

/-- `TryFrom<proto::EdgeFindRequest> for EdgeFindRequest`, and the same for shapes. -/
def ofProto (shape : Proto.EdgeFindShape) : GrmResult EdgeFindShape := do
  let predicates ← shape.predicates.mapM PropertyPredicate.ofProto
  let order ← shape.order.mapM OrderSpec.ofProto
  return { model := shape.model, predicates, order, limit := shape.limit, offset := shape.offset, id := shape.id
           fromId := shape.fromId, toId := shape.toId }

theorem survives (shape : EdgeFindShape) : Survives toProto ofProto shape := by
  obtain ⟨predicates, sent, read⟩ := Survives.list (l := shape.predicates) fun p _ => p.survives
  have order := mapM_map_eq_ok (l := shape.order) fun order _ => order.ofProto_toProto
  refine ⟨{ model := shape.model, predicates, order := shape.order.map OrderSpec.toProto, limit := shape.limit
            offset := shape.offset, id := shape.id, fromId := shape.fromId, toId := shape.toId }, ?_, ?_⟩
  · simp only [toProto, sent, Except.ok_bind]
    rfl
  · simp only [ofProto, read, order, Except.ok_bind]
    rfl

end EdgeFindShape

namespace QueryRequest

/-- `TryFrom<TraversalRequest> for proto::TraversalRequest`, on the root that the request holds. -/
def traversalToProto (root : NodeFindShape) : GrmResult Proto.TraversalRequest := do
  let root ← root.toProto
  return { root := some root }

/-- `TryFrom<proto::TraversalRequest> for TraversalRequest`. -/
def traversalOfProto (request : Proto.TraversalRequest) : GrmResult NodeFindShape := do
  let root ← Proto.required "TraversalRequest.root" request.root
  NodeFindShape.ofProto root

/-- `TryFrom<QueryRequest> for proto::QueryRequest`. -/
def toProto (request : QueryRequest) : GrmResult Proto.QueryRequest := do
  let query ← match request with
    | nodeFind shape => shape.toProto.map .nodeFind
    | edgeFind shape => shape.toProto.map .edgeFind
    | traversal root => (traversalToProto root).map .traversal
  return { query := some query }

/-- `TryFrom<proto::QueryRequest> for QueryRequest`. -/
def ofProto (request : Proto.QueryRequest) : GrmResult QueryRequest := do
  match ← Proto.required "QueryRequest.query" request.query with
  | .nodeFind shape => (NodeFindShape.ofProto shape).map nodeFind
  | .edgeFind shape => (EdgeFindShape.ofProto shape).map edgeFind
  | .traversal request => (traversalOfProto request).map traversal

theorem survives (request : QueryRequest) : Survives toProto ofProto request := by
  cases request with
  | nodeFind shape =>
    obtain ⟨sent, encoded, decoded⟩ := shape.survives
    refine ⟨⟨some (.nodeFind sent)⟩, ?_, ?_⟩
    · simp only [toProto, encoded]
      rfl
    · simp only [ofProto, Proto.required, Except.ok_bind, decoded]
      rfl
  | edgeFind shape =>
    obtain ⟨sent, encoded, decoded⟩ := shape.survives
    refine ⟨⟨some (.edgeFind sent)⟩, ?_, ?_⟩
    · simp only [toProto, encoded]
      rfl
    · simp only [ofProto, Proto.required, Except.ok_bind, decoded]
      rfl
  | traversal root =>
    obtain ⟨sent, encoded, decoded⟩ := root.survives
    refine ⟨⟨some (.traversal ⟨some sent⟩)⟩, ?_, ?_⟩
    · simp only [toProto, traversalToProto, encoded]
      rfl
    · simp only [ofProto, traversalOfProto, Proto.required, Except.ok_bind, decoded]
      rfl

/-- `TryFrom<ExplainRequest> for proto::ExplainRequest`, on the query that the request holds,
and the same for profiles. -/
def explainToProto (query : QueryRequest) : GrmResult Proto.ExplainRequest := do
  let query ← query.toProto
  return { query := some query }

/-- `TryFrom<proto::ExplainRequest> for ExplainRequest`, and with the other message name
`TryFrom<proto::ProfileRequest> for ProfileRequest`. -/
def explainOfProto (message : String) (request : Proto.ExplainRequest) : GrmResult QueryRequest := do
  let query ← Proto.required (message ++ ".query") request.query
  ofProto query

theorem survives_explain (message : String) (query : QueryRequest) :
    Survives explainToProto (explainOfProto message) query := by
  obtain ⟨sent, encoded, decoded⟩ := query.survives
  refine ⟨⟨some sent⟩, ?_, ?_⟩
  · simp only [explainToProto, encoded, Except.ok_bind]
    rfl
  · simp only [explainOfProto, Proto.required, Except.ok_bind, decoded]

end QueryRequest

/-! ## Batches -/

namespace BatchEndpoint

/-- `From<BatchEndpoint> for proto::BatchEndpoint`. -/
def toProto (endpoint : BatchEndpoint) : Proto.BatchEndpoint where
  endpoint := some <| match endpoint with
    | id value => .id value
    | localRef value => .localRef value

/-- `TryFrom<proto::BatchEndpoint> for BatchEndpoint`. -/
def ofProto (endpoint : Proto.BatchEndpoint) : GrmResult BatchEndpoint := do
  match ← Proto.required "BatchEndpoint.endpoint" endpoint.endpoint with
  | .id value => return id value
  | .localRef value => return localRef value

theorem ofProto_toProto (endpoint : BatchEndpoint) : ofProto endpoint.toProto = .ok endpoint := by
  cases endpoint <;> rfl

end BatchEndpoint

namespace BatchNodeCreate

/-- `TryFrom<BatchNodeCreate> for proto::BatchNodeCreate`. -/
def toProto (request : BatchNodeCreate) : GrmResult Proto.BatchNodeCreate := do
  let props ← request.props.toProto
  return { model := request.model, props := some props, localRef := request.localRef }

/-- `TryFrom<proto::BatchNodeCreate> for BatchNodeCreate`. -/
def ofProto (request : Proto.BatchNodeCreate) : GrmResult BatchNodeCreate := do
  let props ← PropertyMap.ofProtoOrEmpty request.props
  return { model := request.model, props, localRef := request.localRef }

theorem survives (request : BatchNodeCreate) : Survives toProto ofProto request := by
  obtain ⟨props, encoded, decoded⟩ := request.props.survives
  refine ⟨⟨request.model, some props, request.localRef⟩, ?_, ?_⟩
  · rw [toProto, encoded]
    rfl
  · simp only [ofProto, PropertyMap.ofProtoOrEmpty, decoded, Except.ok_bind]
    rfl

end BatchNodeCreate

namespace BatchEdgeCreate

/-- `TryFrom<BatchEdgeCreate> for proto::BatchEdgeCreate`. -/
def toProto (request : BatchEdgeCreate) : GrmResult Proto.BatchEdgeCreate := do
  let props ← request.props.toProto
  return { model := request.model, fromEnd := some request.fromEnd.toProto, toEnd := some request.toEnd.toProto
           props := some props }

/-- `TryFrom<proto::BatchEdgeCreate> for BatchEdgeCreate`. -/
def ofProto (request : Proto.BatchEdgeCreate) : GrmResult BatchEdgeCreate := do
  let fromEnd ← Proto.required "BatchEdgeCreate.from" request.fromEnd
  let fromEnd ← BatchEndpoint.ofProto fromEnd
  let toEnd ← Proto.required "BatchEdgeCreate.to" request.toEnd
  let toEnd ← BatchEndpoint.ofProto toEnd
  let props ← PropertyMap.ofProtoOrEmpty request.props
  return { model := request.model, fromEnd, toEnd, props }

theorem survives (request : BatchEdgeCreate) : Survives toProto ofProto request := by
  obtain ⟨props, encoded, decoded⟩ := request.props.survives
  refine ⟨⟨request.model, some request.fromEnd.toProto, some request.toEnd.toProto, some props⟩, ?_, ?_⟩
  · rw [toProto, encoded]
    rfl
  · simp only [ofProto, Proto.required, BatchEndpoint.ofProto_toProto, PropertyMap.ofProtoOrEmpty, decoded,
      Except.ok_bind]
    rfl

end BatchEdgeCreate

namespace BatchOperation

/-- `TryFrom<BatchOperation> for proto::BatchOperation`. -/
def toProto (op : BatchOperation) : GrmResult Proto.BatchOperation := do
  let op ← match op with
    | schemaDefineNode request => request.toProto.map .schemaDefineNode
    | schemaDefineEdge request => request.toProto.map .schemaDefineEdge
    | nodeCreate request => request.toProto.map .nodeCreate
    | nodeUpdate request => request.toProto.map .nodeUpdate
    | nodeDelete request => .ok (.nodeDelete request.toProto)
    | edgeCreate request => request.toProto.map .edgeCreate
    | edgeUpdate request => request.toProto.map .edgeUpdate
    | edgeDelete request => .ok (.edgeDelete request.toProto)
  return { op := some op }

/-- `TryFrom<proto::BatchOperation> for BatchOperation`. -/
def ofProto (op : Proto.BatchOperation) : GrmResult BatchOperation := do
  match ← Proto.required "BatchOperation.op" op.op with
  | .schemaDefineNode request => (DefineNodeRequest.ofProto request).map schemaDefineNode
  | .schemaDefineEdge request => (DefineEdgeRequest.ofProto request).map schemaDefineEdge
  | .nodeCreate request => (BatchNodeCreate.ofProto request).map nodeCreate
  | .nodeUpdate request => (UpdateRequest.ofProto request).map nodeUpdate
  | .nodeDelete request => .ok (nodeDelete (.ofProto request))
  | .edgeCreate request => (BatchEdgeCreate.ofProto request).map edgeCreate
  | .edgeUpdate request => (UpdateRequest.ofProto request).map edgeUpdate
  | .edgeDelete request => .ok (edgeDelete (.ofProto request))

/-- Every field type is specified. -/
def Specified : BatchOperation → Prop
  | schemaDefineNode request => ∀ field ∈ request.fields, field.Specified
  | schemaDefineEdge request => ∀ field ∈ request.fields, field.Specified
  | _ => True

theorem Specified.survives {op : BatchOperation} (specified : op.Specified) : Survives toProto ofProto op := by
  cases op with
  | schemaDefineNode request =>
    exact (DefineNodeRequest.survives specified).wrap schemaDefineNode (fun sent => ⟨some (.schemaDefineNode sent)⟩)
      (fun _ => Except.map_bind_pure ..) fun _ => rfl
  | schemaDefineEdge request =>
    exact (DefineEdgeRequest.survives specified).wrap schemaDefineEdge (fun sent => ⟨some (.schemaDefineEdge sent)⟩)
      (fun _ => Except.map_bind_pure ..) fun _ => rfl
  | nodeCreate request =>
    exact request.survives.wrap nodeCreate (fun sent => ⟨some (.nodeCreate sent)⟩)
      (fun _ => Except.map_bind_pure ..) fun _ => rfl
  | nodeUpdate request =>
    exact request.survives.wrap nodeUpdate (fun sent => ⟨some (.nodeUpdate sent)⟩)
      (fun _ => Except.map_bind_pure ..) fun _ => rfl
  | nodeDelete request => exact ⟨_, rfl, rfl⟩
  | edgeCreate request =>
    exact request.survives.wrap edgeCreate (fun sent => ⟨some (.edgeCreate sent)⟩)
      (fun _ => Except.map_bind_pure ..) fun _ => rfl
  | edgeUpdate request =>
    exact request.survives.wrap edgeUpdate (fun sent => ⟨some (.edgeUpdate sent)⟩)
      (fun _ => Except.map_bind_pure ..) fun _ => rfl
  | edgeDelete request => exact ⟨_, rfl, rfl⟩

end BatchOperation

namespace BatchRequest

/-- `TryFrom<BatchRequest> for proto::BatchRequest`. -/
def toProto (request : BatchRequest) : GrmResult Proto.BatchRequest := do
  let ops ← request.ops.mapM BatchOperation.toProto
  return { atomic := request.atomic, allowDeletes := request.allowDeletes
           responseMode := request.responseMode.toProto, ops }

/-- `TryFrom<proto::BatchRequest> for BatchRequest`. -/
def ofProto (request : Proto.BatchRequest) : GrmResult BatchRequest := do
  let responseMode ← BatchResponseMode.ofProto request.responseMode
  let ops ← request.ops.mapM BatchOperation.ofProto
  return { atomic := request.atomic, allowDeletes := request.allowDeletes, responseMode, ops }

theorem survives {request : BatchRequest} (specified : ∀ op ∈ request.ops, op.Specified) :
    Survives toProto ofProto request := by
  obtain ⟨ops, encoded, decoded⟩ := Survives.list fun op member => (specified op member).survives
  refine ⟨⟨request.atomic, request.allowDeletes, request.responseMode.toProto, ops⟩, ?_, ?_⟩
  · rw [toProto, encoded]
    rfl
  · simp only [ofProto, BatchResponseMode.ofProto_toProto, decoded, Except.ok_bind]
    rfl

end BatchRequest

/-! ## Requests -/

namespace Request

def unsentRequestError : GrmError := .notSupported
  "GrpcWorkspaceClient ergonomic helpers currently support schema/CRUD/find/explain/profile/batch/summary through ExecuteWorkspace"

/-- `proto_runtime_request_from_service_request`. -/
def toProto : Request → GrmResult Proto.Request
  | defineNode request => request.toProto.map .defineNode
  | defineEdge request => request.toProto.map .defineEdge
  | schemaList => .ok .schemaList
  | createNode request => request.toProto.map .createNode
  | updateNode request => request.toProto.map .updateNode
  | deleteNode request => .ok (.deleteNode request.toProto)
  | findNodes request => request.toProto.map .findNodes
  | createEdge request => request.toProto.map .createEdge
  | updateEdge request => request.toProto.map .updateEdge
  | deleteEdge request => .ok (.deleteEdge request.toProto)
  | findEdges request => request.toProto.map .findEdges
  | explain request => request.explainToProto.map .explain
  | profile request => request.explainToProto.map .profile
  | applyBatch request => request.toProto.map .applyBatch
  | summary => .ok .summary
  | query _ | save | load | exportGraph | importGraph | indexList => .error unsentRequestError

/-- `TryFrom<proto::RuntimeRequest> for ServiceRequest`. -/
def ofProto (request : Proto.RuntimeRequest) : GrmResult Request := do
  match ← Proto.required "RuntimeRequest.request" request.request with
  | .defineNode request => (DefineNodeRequest.ofProto request).map defineNode
  | .defineEdge request => (DefineEdgeRequest.ofProto request).map defineEdge
  | .schemaList => return schemaList
  | .createNode request => (NodeCreateRequest.ofProto request).map createNode
  | .updateNode request => (UpdateRequest.ofProto request).map updateNode
  | .deleteNode request => return deleteNode (.ofProto request)
  | .findNodes request => (NodeFindShape.ofProto request).map findNodes
  | .createEdge request => (EdgeCreateRequest.ofProto request).map createEdge
  | .updateEdge request => (UpdateRequest.ofProto request).map updateEdge
  | .deleteEdge request => return deleteEdge (.ofProto request)
  | .findEdges request => (EdgeFindShape.ofProto request).map findEdges
  | .query request => (QueryRequest.ofProto request).map query
  | .explain request => (QueryRequest.explainOfProto "ExplainRequest" request).map explain
  | .profile request => (QueryRequest.explainOfProto "ProfileRequest" request).map profile
  | .applyBatch request => (BatchRequest.ofProto request).map applyBatch
  | .indexList => return indexList
  | .summary => return summary

/-- The message the client sends. -/
def message (request : Request) : GrmResult Proto.RuntimeRequest := do
  let request ← request.toProto
  return { request := some request }

/-- The client sends the request, and every field type in it is specified. -/
def Sendable : Request → Prop
  | defineNode request => ∀ field ∈ request.fields, field.Specified
  | defineEdge request => ∀ field ∈ request.fields, field.Specified
  | applyBatch request => ∀ op ∈ request.ops, op.Specified
  | query _ | save | load | exportGraph | importGraph | indexList => False
  | _ => True

theorem Sendable.survives {request : Request} (sendable : request.Sendable) : Survives message ofProto request := by
  cases request with
  | defineNode request =>
    exact (DefineNodeRequest.survives sendable).wrap defineNode (fun sent => ⟨some (.defineNode sent)⟩)
      (fun _ => Except.map_bind_pure ..) fun _ => rfl
  | defineEdge request =>
    exact (DefineEdgeRequest.survives sendable).wrap defineEdge (fun sent => ⟨some (.defineEdge sent)⟩)
      (fun _ => Except.map_bind_pure ..) fun _ => rfl
  | createNode request =>
    exact request.survives.wrap createNode (fun sent => ⟨some (.createNode sent)⟩)
      (fun _ => Except.map_bind_pure ..) fun _ => rfl
  | updateNode request =>
    exact request.survives.wrap updateNode (fun sent => ⟨some (.updateNode sent)⟩)
      (fun _ => Except.map_bind_pure ..) fun _ => rfl
  | findNodes request =>
    exact request.survives.wrap findNodes (fun sent => ⟨some (.findNodes sent)⟩)
      (fun _ => Except.map_bind_pure ..) fun _ => rfl
  | createEdge request =>
    exact request.survives.wrap createEdge (fun sent => ⟨some (.createEdge sent)⟩)
      (fun _ => Except.map_bind_pure ..) fun _ => rfl
  | updateEdge request =>
    exact request.survives.wrap updateEdge (fun sent => ⟨some (.updateEdge sent)⟩)
      (fun _ => Except.map_bind_pure ..) fun _ => rfl
  | findEdges request =>
    exact request.survives.wrap findEdges (fun sent => ⟨some (.findEdges sent)⟩)
      (fun _ => Except.map_bind_pure ..) fun _ => rfl
  | explain request =>
    exact (request.survives_explain "ExplainRequest").wrap explain (fun sent => ⟨some (.explain sent)⟩)
      (fun _ => Except.map_bind_pure ..) fun _ => rfl
  | profile request =>
    exact (request.survives_explain "ProfileRequest").wrap profile (fun sent => ⟨some (.profile sent)⟩)
      (fun _ => Except.map_bind_pure ..) fun _ => rfl
  | applyBatch request =>
    exact (BatchRequest.survives sendable).wrap applyBatch (fun sent => ⟨some (.applyBatch sent)⟩)
      (fun _ => Except.map_bind_pure ..) fun _ => rfl
  | schemaList | deleteNode | deleteEdge | summary => exact ⟨_, rfl, rfl⟩
  | query | save | load | exportGraph | importGraph | indexList => cases sendable

end Request

end Service
