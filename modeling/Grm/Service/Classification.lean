import Grm.Service.Api
import Grm.Service.PermissionTable

/-!
# The classification of a request

`security_operations`: the actions and resources of a service request, which the policy
decides on and the audit records. The operations of a batch are classified once for each
action and resource, up to what one audit event can hold.
-/

set_option autoImplicit false

/-- `service_security_operation`. -/
def serviceSecurityOperation (action : SecurityAction) : SecurityOperation := ⟨action, "service", .service, none⟩

/-- `workspace_security_operation`. -/
def workspaceSecurityOperation (action : SecurityAction) (workspace : String) : SecurityOperation :=
  ⟨action, workspace, .workspace, none⟩

/-- `node_find_security_operations`. -/
def nodeFindSecurityOperations (rootModel : String) (traversals : List Service.TraversalStep) (workspace : String)
    (forceTraverse : Bool) : List SecurityOperation :=
  [⟨.nodeRead, workspace, .nodeModel, some rootModel⟩] ++
    (if forceTraverse || !traversals.isEmpty then [⟨.traverse, workspace, .operationFamily, none⟩] else []) ++
    traversals.flatMap fun traversal =>
      [⟨.edgeRead, workspace, .edgeModel, traversal.edgeModel⟩, ⟨.nodeRead, workspace, .nodeModel, some traversal.endModel⟩]

/-- `query_security_operations`. -/
def querySecurityOperations (query : Service.QueryRequest) (workspace : String) (wrapperAction : SecurityAction) :
    List SecurityOperation :=
  ⟨wrapperAction, workspace, .operationFamily, none⟩ ::
    match query with
    | .nodeFind shape => nodeFindSecurityOperations shape.model shape.traversals workspace false
    | .edgeFind shape => [⟨.edgeRead, workspace, .edgeModel, some shape.model⟩]
    | .traversal root => nodeFindSecurityOperations root.model root.traversals workspace true

/-- `batch_security_operation`. -/
def batchSecurityOperation (operation : Service.BatchOperation) (workspace : String) : SecurityOperation :=
  match operation with
  | .schemaDefineNode request => ⟨.schemaDefine, workspace, .nodeModel, some request.name⟩
  | .schemaDefineEdge request => ⟨.schemaDefine, workspace, .edgeModel, some request.name⟩
  | .nodeCreate request => ⟨.nodeCreate, workspace, .nodeModel, some request.model⟩
  | .nodeUpdate request => ⟨.nodeUpdate, workspace, .nodeModel, some request.model⟩
  | .nodeDelete request => ⟨.nodeDelete, workspace, .nodeModel, some request.model⟩
  | .edgeCreate request => ⟨.edgeCreate, workspace, .edgeModel, some request.model⟩
  | .edgeUpdate request => ⟨.edgeUpdate, workspace, .edgeModel, some request.model⟩
  | .edgeDelete request => ⟨.edgeDelete, workspace, .edgeModel, some request.model⟩

/-- The loop of `security_operations` over a batch: each operation at its first place, until
there are more than an audit event can hold. -/
def collectBatchOperations (workspace : String) : List Service.BatchOperation → List SecurityOperation → List SecurityOperation
  | [], operations => operations
  | batchOperation :: ops, operations =>
    let operation := batchSecurityOperation batchOperation workspace
    if operation ∈ operations then collectBatchOperations workspace ops operations
    else if securityAuditMaxOperations < (operations ++ [operation]).length then operations ++ [operation]
    else collectBatchOperations workspace ops (operations ++ [operation])

/-- `security_operations`. -/
def securityOperations (request : Service.Request) (workspace : String) : List SecurityOperation :=
  match request with
  | .defineNode request => [⟨.schemaDefine, workspace, .nodeModel, some request.name⟩]
  | .defineEdge request => [⟨.schemaDefine, workspace, .edgeModel, some request.name⟩]
  | .schemaList => [⟨.schemaInspect, workspace, .workspace, none⟩]
  | .createNode request => [⟨.nodeCreate, workspace, .nodeModel, some request.model⟩]
  | .updateNode request => [⟨.nodeUpdate, workspace, .nodeModel, some request.model⟩]
  | .deleteNode request => [⟨.nodeDelete, workspace, .nodeModel, some request.model⟩]
  | .findNodes request => nodeFindSecurityOperations request.model request.traversals workspace false
  | .createEdge request => [⟨.edgeCreate, workspace, .edgeModel, some request.model⟩]
  | .updateEdge request => [⟨.edgeUpdate, workspace, .edgeModel, some request.model⟩]
  | .deleteEdge request => [⟨.edgeDelete, workspace, .edgeModel, some request.model⟩]
  | .findEdges request => [⟨.edgeRead, workspace, .edgeModel, some request.model⟩]
  | .query request => querySecurityOperations request workspace .query
  | .explain query => querySecurityOperations query workspace .explain
  | .profile query => querySecurityOperations query workspace .profile
  | .applyBatch batch =>
    collectBatchOperations workspace batch.ops [⟨.batchApply, workspace, .operationFamily, none⟩]
  | .indexList => [⟨.indexInspect, workspace, .indexCatalog, none⟩]
  | .summary => [⟨.workspaceInspect, workspace, .workspace, none⟩]
  | .save => [⟨.workspaceSave, workspace, .workspaceArtifact, none⟩]
  | .load => [⟨.workspaceLoad, workspace, .workspaceArtifact, none⟩]
  | .exportGraph => [⟨.workspaceExport, workspace, .workspaceArtifact, none⟩]
  | .importGraph => [⟨.workspaceImport, workspace, .workspaceArtifact, none⟩]

/-! ## Scope and limits -/

/-- `query_traversals`. -/
def queryTraversals : Service.QueryRequest → Option (List Service.TraversalStep)
  | .nodeFind shape => some shape.traversals
  | .traversal root => some root.traversals
  | .edgeFind _ => none

/-- `validate_secured_operation_scope`: whether each traversal names its edge model. -/
def validateSecuredOperationScope (request : Service.Request) : Bool :=
  let traversals := match request with
    | .findNodes shape => some shape.traversals
    | .query query => queryTraversals query
    | .explain query => queryTraversals query
    | .profile query => queryTraversals query
    | _ => none
  !traversals.any fun steps => steps.any fun step => step.edgeModel.isNone

/-- `enforce_security_limits`. -/
def enforceSecurityLimits (request : Service.Request) (maxBatchOperations : Nat) : Bool :=
  match request with
  | .applyBatch batch => decide (batch.ops.length ≤ maxBatchOperations)
  | _ => true

/-! ## What a classified batch covers -/

section Batch
variable {workspace : String} {ops : List Service.BatchOperation} {operations : List SecurityOperation}

end Batch
