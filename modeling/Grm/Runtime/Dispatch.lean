import Grm.Runtime.Batch

/-!
# The runtime dispatcher

`SessionState::execute_runtime`: one request, the session after it and its outcome. A
mutation reports the durable operations of what it did, a read reports none.
-/

set_option autoImplicit false

namespace SessionState
variable [Externals]

/-- `runtime_summary`. -/
def runtimeSummary (s : SessionState) : RuntimeSummaryResponse :=
  let nodeCounts := s.catalog.listNodeModels.map fun model => ⟨model.name, s.store.labelCount model.label⟩
  let edgeCounts := s.catalog.listRelModels.map fun model => ⟨model.name, s.store.typeCount model.relType⟩
  { nodeCount := s.store.nodes.size, edgeCount := s.store.rels.size, nodeModelCount := nodeCounts.length
    edgeModelCount := edgeCounts.length, backend := "in-memory", nodeCounts, edgeCounts }

/-- A mutation's outcome: on an error the session is the one before. -/
def mutation {α : Type} (s : SessionState) (result : GrmResult (SessionState × RuntimeOperationOutcome α))
    (response : α → RuntimeResponse) : SessionState × GrmResult RuntimeDispatchOutcome :=
  match result with
  | .ok (s, outcome) => (s, .ok { response := response outcome.value, durableOps := [outcome.durableOp] })
  | .error e => (s, .error e)

/-- A read's outcome. -/
def reading {α : Type} (read : SessionState × GrmResult α) (response : α → RuntimeResponse) :
    SessionState × GrmResult RuntimeDispatchOutcome :=
  (read.1, read.2.map fun value => { response := response value, durableOps := [] })

/-- `execute_schema_request`. -/
def executeSchemaRequest (s : SessionState) : SchemaRequest → SessionState × GrmResult RuntimeDispatchOutcome
  | .defineNode request => s.mutation (s.applyDefineNode request) .defineNode
  | .defineEdge request => s.mutation (s.applyDefineEdge request) .defineEdge
  | .list => reading (s, .ok ()) fun _ => .schemaList s.catalog.listNodeModels s.catalog.listRelModels idType

/-- `execute_node_request`. -/
def executeNodeRequest (s : SessionState) : NodeRequest → SessionState × GrmResult RuntimeDispatchOutcome
  | .create model props => s.mutation (s.applyNodeCreate model props) .nodeCreate
  | .update model id props => s.mutation (s.applyNodeUpdate model id props) .nodeUpdate
  | .delete model id => s.mutation (s.applyNodeDelete model id) fun deleted => .nodeDelete deleted.1 deleted.2
  | .find request => reading (s.nodeFind request) fun found => .nodeFind request.model found.1 found.2

/-- `execute_edge_request`. -/
def executeEdgeRequest (s : SessionState) : EdgeRequest → SessionState × GrmResult RuntimeDispatchOutcome
  | .create model fromId toId props => s.mutation (s.applyEdgeCreate model fromId toId props) .edgeCreate
  | .update model id props => s.mutation (s.applyEdgeUpdate model id props) .edgeUpdate
  | .delete model id => s.mutation (s.applyEdgeDelete model id) fun deleted => .edgeDelete deleted.1 deleted.2
  | .find request => reading (s, s.edgeFind request) (.edgeFind request.model)

/-- `execute_query_request`. -/
def executeQueryRequest (s : SessionState) : QueryRequest → SessionState × GrmResult RuntimeDispatchOutcome
  | .nodeFind request => s.executeNodeRequest (.find request)
  | .edgeFind request => s.executeEdgeRequest (.find request)
  | .traversal _ => (s, .error (.notSupported "runtime dispatcher does not support traversal query requests yet"))

/-- `execute_batch_request`. -/
def executeBatchRequest (s : SessionState) (params : SessionBatchParams) :
    SessionState × GrmResult RuntimeDispatchOutcome :=
  let (s, outcome) := applySessionBatch s params
  (s, .ok { response := .batch outcome.value outcome.shouldPersist, durableOps := outcome.durableOps })

/-- `execute_runtime`. -/
def executeRuntime (s : SessionState) : RuntimeRequest → SessionState × GrmResult RuntimeDispatchOutcome
  | .schema request => s.executeSchemaRequest request
  | .node request => s.executeNodeRequest request
  | .edge request => s.executeEdgeRequest request
  | .query request => s.executeQueryRequest request
  | .explain query => reading (s, s.explain query) id
  | .profile query => reading (s.profile query) id
  | .batch params => s.executeBatchRequest params
  | .admin .summary => reading (s, .ok ()) fun _ => .summary s.runtimeSummary
  | .admin _ => (s, .error (.notSupported "runtime dispatcher only supports session summary admin requests"))

/-- The session after a sequence of requests, failing ones included. -/
def run (s : SessionState) (requests : List RuntimeRequest) : SessionState :=
  requests.foldl (fun s request => (s.executeRuntime request).1) s

end SessionState
