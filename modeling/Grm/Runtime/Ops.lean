import Grm.Runtime.State

/-!
# Runtime requests and responses

`runtime/ops.rs` and the parameter types of `runtime/batch.rs`. Requests arrive
already decoded; identifiers are the numbers of the wire format.
-/

set_option autoImplicit false

/-- `DefineNodeRequest`. -/
structure DefineNodeRequest where
  name : String
  idField : String
  fields : List RuntimeField

/-- `DefineEdgeRequest`. -/
structure DefineEdgeRequest where
  name : String
  fromModel : String
  toModel : String
  idField : String
  fields : List RuntimeField

/-- `SchemaRequest`. -/
inductive SchemaRequest where
  | defineNode (request : DefineNodeRequest)
  | defineEdge (request : DefineEdgeRequest)
  | list

/-- `PropertyPredicate`; `PredicateOp` converts to `CompareOp` constructor by constructor. -/
structure PropertyPredicate where
  field : String
  op : CompareOp := .eq
  value : Value

/-- `OrderDirection` and `SortDirection`. -/
inductive SortDirection where
  | asc | desc
  deriving DecidableEq, Repr

/-- `OrderSpec` and `SessionOrder`. -/
structure SessionOrder where
  field : String
  direction : SortDirection

/-- `TraversalStepRequest` and `SessionTraversalStep`. -/
structure SessionTraversalStep where
  direction : Direction
  relModelName : Option String
  endModelName : String

/-- `TraversalReturn` and `SessionTraversalReturn`; `endNode` is the source's `End`. -/
inductive SessionTraversalReturn where
  | endNode | root | edge
  deriving DecidableEq, Repr

/-- `NodeFindRequest`. -/
structure NodeFindRequest where
  model : String
  predicates : List PropertyPredicate := []
  endPredicates : List PropertyPredicate := []
  edgePredicates : List PropertyPredicate := []
  traversals : List SessionTraversalStep := []
  order : List SessionOrder := []
  limit : Option Nat := none
  offset : Option Nat := none
  id : Option Int := none
  returnMode : Option SessionTraversalReturn := none

/-- `EdgeFindRequest`; `fromId` and `toId` are the source's `from` and `to`. -/
structure EdgeFindRequest where
  model : String
  predicates : List PropertyPredicate := []
  order : List SessionOrder := []
  limit : Option Nat := none
  offset : Option Nat := none
  id : Option Int := none
  fromId : Option Int := none
  toId : Option Int := none

/-- `NodeRequest`. -/
inductive NodeRequest where
  | create (model : String) (props : Props)
  | update (model : String) (id : Int) (props : Props)
  | delete (model : String) (id : Int)
  | find (request : NodeFindRequest)

/-- `EdgeRequest`. -/
inductive EdgeRequest where
  | create (model : String) (fromId toId : Int) (props : Props)
  | update (model : String) (id : Int) (props : Props)
  | delete (model : String) (id : Int)
  | find (request : EdgeFindRequest)

/-- `QueryRequest`; a traversal request holds its root find. -/
inductive QueryRequest where
  | nodeFind (request : NodeFindRequest)
  | edgeFind (request : EdgeFindRequest)
  | traversal (root : NodeFindRequest)

/-! ## Batches -/

/-- `SessionBatchFieldParam`: a field whose type is still a keyword. -/
structure SessionBatchFieldParam where
  name : String
  valueType : String
  required : Bool

/-- `SessionBatchEndpoint`. -/
inductive SessionBatchEndpoint where
  | id (id : Int)
  | ref (localRef : String)

/-- `SessionBatchOp`. -/
inductive SessionBatchOp where
  | schemaDefineNode (name idField : String) (fields : List SessionBatchFieldParam)
  | schemaDefineEdge (name fromModel toModel idField : String) (fields : List SessionBatchFieldParam)
  | nodeCreate (model : String) (props : Props) (localRef : Option String)
  | nodeUpdate (model : String) (id : Int) (props : Props)
  | nodeDelete (model : String) (id : Int)
  | edgeCreate (model : String) (fromEnd toEnd : SessionBatchEndpoint) (props : Props)
  | edgeUpdate (model : String) (id : Int) (props : Props)
  | edgeDelete (model : String) (id : Int)

namespace SessionBatchOp

/-- `op_name`. -/
def opName : SessionBatchOp → String
  | schemaDefineNode .. => "schema_define_node"
  | schemaDefineEdge .. => "schema_define_edge"
  | nodeCreate .. => "node_create"
  | nodeUpdate .. => "node_update"
  | nodeDelete .. => "node_delete"
  | edgeCreate .. => "edge_create"
  | edgeUpdate .. => "edge_update"
  | edgeDelete .. => "edge_delete"

/-- `is_delete`. -/
def isDelete : SessionBatchOp → Bool
  | nodeDelete .. | edgeDelete .. => true
  | _ => false

end SessionBatchOp

/-- `SessionBatchResponse`. -/
inductive SessionBatchResponse where
  | summary | detailed
  deriving DecidableEq, Repr

/-- `SessionBatchParams` and `BatchRequest`. -/
structure SessionBatchParams where
  atomic : Bool := true
  allowDeletes : Bool := false
  response : SessionBatchResponse := .summary
  ops : List SessionBatchOp

/-- An entry of the summary's `ids`. -/
structure BatchId where
  op : String
  model : String
  id : Int
  localRef : Option String

/-- An entry of the summary's `errors`; the recovery text is the same for all. -/
structure BatchError where
  index : Nat
  message : String

/-- `BatchSummary`, which the outcome's JSON value renders field by field. -/
structure BatchSummary where
  applied : Bool
  atomic : Bool
  detailed : Bool
  operationCount : Nat
  counts : BTreeMap String (BTreeMap String Nat)
  errors : List BatchError
  ids : List BatchId

/-- `SessionBatchOutcome`. -/
structure SessionBatchOutcome where
  value : BatchSummary
  shouldPersist : Bool
  durableOps : List DurableOperation

/-! ## The dispatcher's requests and responses -/

/-- `AdminRequest`, without the paths of the requests the dispatcher refuses. -/
inductive AdminRequest where
  | save | load | exportGraph | importGraph | schemaList | indexList | summary
  deriving DecidableEq, Repr

/-- `RuntimeRequest`. -/
inductive RuntimeRequest where
  | schema (request : SchemaRequest)
  | node (request : NodeRequest)
  | edge (request : EdgeRequest)
  | query (request : QueryRequest)
  | explain (query : QueryRequest)
  | profile (query : QueryRequest)
  | batch (params : SessionBatchParams)
  | admin (request : AdminRequest)

/-- `RuntimeModelCount`. -/
structure RuntimeModelCount where
  model : String
  count : Nat

/-- `RuntimeSummaryResponse`. -/
structure RuntimeSummaryResponse where
  nodeCount : Nat
  edgeCount : Nat
  nodeModelCount : Nat
  edgeModelCount : Nat
  backend : String
  nodeCounts : List RuntimeModelCount
  edgeCounts : List RuntimeModelCount

/-- `ReturnKind`. -/
inductive ReturnKind where
  | node | rel
  deriving DecidableEq, Repr

/-- `PlanStepKind` of `backend/plan.rs`. -/
inductive PlanStepKind where
  | nodeById (var : VarId) (labels : List String) (id : Int)
  | nodeLabelScan (var : VarId) (labels : List String)
  | nodePropertySeek (var : VarId) (labels : List String) (key : String)
  | nodeCheck (var : VarId) (labels : List String)
  | nodeFilter (var : VarId) (labels : List String) (id : Option Int) (keys : List String)
  | relationshipById (var : VarId) (relType : String) (id : Int)
  | relationshipTypeScan (var : VarId) (relType : String)
  | relationshipEndpointSeek (var : VarId) (relType : String) (fromId toId : Option Int)
  | relationshipFilter (var : VarId) (relType : String) (keys : List String)
  | expand (dir : Direction) (start rel endVar : VarId) (relType : Option String)
  | ret (var : VarId) (kind : ReturnKind)

/-- `RuntimeResponse`. A profile's timings are left out. -/
inductive RuntimeResponse where
  | defineNode (model : RuntimeNodeModel)
  | defineEdge (model : RuntimeRelModel)
  | schemaList (nodeModels : List RuntimeNodeModel) (edgeModels : List RuntimeRelModel) (idType : BackendIdType)
  | nodeCreate (node : StoredNode)
  | nodeUpdate (node : StoredNode)
  | nodeDelete (model : String) (id : Int)
  | nodeFind (model : String) (nodes : List StoredNode) (edges : List StoredRel)
  | edgeCreate (rel : StoredRel)
  | edgeUpdate (rel : StoredRel)
  | edgeDelete (model : String) (id : Int)
  | edgeFind (model : String) (edges : List StoredRel)
  | explain (command target : String) (plan : List PlanStepKind)
  | profile (command target : String) (plan : List PlanStepKind) (resultRows : Nat)
  | batch (value : BatchSummary) (shouldPersist : Bool)
  | summary (response : RuntimeSummaryResponse)

/-- `RuntimeDispatchOutcome`. -/
structure RuntimeDispatchOutcome where
  response : RuntimeResponse
  durableOps : List DurableOperation
