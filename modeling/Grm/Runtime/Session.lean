import Grm.Runtime.Explain

/-!
# Session mutations

`runtime/session.rs`: schema definitions and the creation, update and deletion of
nodes and edges. Each runs one transaction that commits at its end. Every check stands
before the first id is allocated, so a failed mutation leaves the session as it was:
it returns an error in place of a session.
-/

set_option autoImplicit false

/-- `RuntimeOperationOutcome`. -/
structure RuntimeOperationOutcome (α : Type) where
  value : α
  durableOp : DurableOperation

namespace SessionState

/-- `node_id_type` and `rel_id_type` of the in-memory backend. -/
def idType : BackendIdType := .int64

/-- `register_model`. -/
def registerModel (s : SessionState) (model : RuntimeNodeModel) : GrmResult SessionState :=
  (s.catalog.registerNodeModel model).map fun catalog => { s with catalog }

/-- `register_rel_model`: both endpoint models are registered before. -/
def registerRelModel (s : SessionState) (model : RuntimeRelModel) : GrmResult SessionState :=
  if (s.catalog.getNodeModel model.fromModel).isNone then
    .error (.constraint ("from model '" ++ model.fromModel ++ "' is not defined in this session"))
  else if (s.catalog.getNodeModel model.toModel).isNone then
    .error (.constraint ("to model '" ++ model.toModel ++ "' is not defined in this session"))
  else (s.catalog.registerRelModel model).map fun catalog => { s with catalog }

/-- `apply_define_node`. -/
def applyDefineNode (s : SessionState) (request : DefineNodeRequest) :
    GrmResult (SessionState × RuntimeOperationOutcome RuntimeNodeModel) := do
  let model ← RuntimeNodeModel.new request.name request.idField idType request.fields
  let s ← s.registerModel model
  return (s, { value := model, durableOp := .registerNodeModel model })

/-- `apply_define_edge`. -/
def applyDefineEdge (s : SessionState) (request : DefineEdgeRequest) :
    GrmResult (SessionState × RuntimeOperationOutcome RuntimeRelModel) := do
  let model ← RuntimeRelModel.new request.name request.fromModel request.toModel request.idField idType request.fields
  let s ← s.registerRelModel model
  return (s, { value := model, durableOp := .registerRelModel model })

section Mutations
variable [Externals]

/-- The session's transaction. -/
def transaction (s : SessionState) : InMemoryTx := InMemoryTx.new s.store

/-- The session after a transaction committed. -/
def committed (s : SessionState) (tx : InMemoryTx) : SessionState := { s with store := tx.commit }

/-- `create_instance_from_props`. -/
def createInstanceFromProps (s : SessionState) (modelName : String) (values : Props) :
    GrmResult (SessionState × StoredNode) := do
  let some model := s.catalog.getNodeModel modelName | throw .notFound
  let props ← model.validateInstanceProps values
  let (tx, created) := s.transaction.createNode [model.label] props
  return (s.committed tx, created)

/-- A node the transaction sees, with the label of a model; `subject` and `modelName` are
the words of the two errors. -/
def findLabelled (tx : InMemoryTx) (id : Int) (label subject modelName : String) : GrmResult StoredNode :=
  match tx.findNodeById id with
  | none => .error (.constraint (subject ++ " '" ++ toString id ++ "' was not found"))
  | some node =>
    if node.labels.any fun l => l == label then .ok node
    else .error (.constraint (subject ++ " '" ++ toString id ++ "' does not match model '" ++ modelName ++ "'"))

/-- `create_relationship_instance_from_props`. -/
def createRelationshipInstanceFromProps (s : SessionState) (modelName : String) (fromRaw toRaw : Int)
    (values : Props) : GrmResult (SessionState × StoredRel) := do
  let some model := s.catalog.getRelModel modelName | throw .notFound
  let props ← model.validateInstanceProps values
  let tx := s.transaction
  let _ ← findLabelled tx fromRaw model.fromModel "from node" model.fromModel
  let _ ← findLabelled tx toRaw model.toModel "to node" model.toModel
  let (tx, created) := tx.createRelationship fromRaw toRaw model.relType props
  return (s.committed tx, created)

/-- `update_node_instance_from_props`. -/
def updateNodeInstanceFromProps (s : SessionState) (modelName : String) (rawId : Int) (values : Props) :
    GrmResult (SessionState × StoredNode) := do
  let some model := s.catalog.getNodeModel modelName | throw .notFound
  let props ← validateUpdateProps "model" model.name model.fields values
  let tx := s.transaction
  let _ ← findLabelled tx rawId model.label "node" model.name
  match tx.updateNode rawId props with
  | (tx, some updated) => return (s.committed tx, updated)
  | (_, none) => throw (.constraint ("node '" ++ toString rawId ++ "' was not found"))

/-- `delete_node_instance`. -/
def deleteNodeInstance (s : SessionState) (modelName : String) (rawId : Int) : GrmResult SessionState := do
  let some model := s.catalog.getNodeModel modelName | throw .notFound
  let tx := s.transaction
  let _ ← findLabelled tx rawId model.label "node" model.name
  return s.committed (tx.deleteNode rawId)

/-- The edge of a model an update or a deletion addresses. -/
def findEdge (s : SessionState) (modelName : String) (rawId : Int) : GrmResult StoredRel := do
  match ← s.findRelationshipById modelName rawId with
  | some existing => return existing
  | none => throw (.constraint ("edge '" ++ toString rawId ++ "' was not found"))

/-- `update_relationship_instance_from_props`. -/
def updateRelationshipInstanceFromProps (s : SessionState) (modelName : String) (rawId : Int) (values : Props) :
    GrmResult (SessionState × StoredRel) := do
  let some model := s.catalog.getRelModel modelName | throw .notFound
  let props ← validateUpdateProps "relationship model" model.name model.fields values
  let existing ← s.findEdge modelName rawId
  match s.transaction.updateRelationship existing.id props with
  | (tx, some updated) => return (s.committed tx, updated)
  | (_, none) => throw (.constraint ("edge '" ++ toString rawId ++ "' was not found"))

/-- `delete_relationship_instance`. -/
def deleteRelationshipInstance (s : SessionState) (modelName : String) (rawId : Int) : GrmResult SessionState := do
  let existing ← s.findEdge modelName rawId
  return s.committed (s.transaction.deleteRelationship existing.id)

/-! ## Mutations with their durable operations -/

/-- `apply_node_create`. -/
def applyNodeCreate (s : SessionState) (model : String) (props : Props) :
    GrmResult (SessionState × RuntimeOperationOutcome StoredNode) := do
  let (s, node) ← s.createInstanceFromProps model props
  return (s, { value := node, durableOp := .upsertNode node })

/-- `apply_node_update`. -/
def applyNodeUpdate (s : SessionState) (model : String) (id : Int) (props : Props) :
    GrmResult (SessionState × RuntimeOperationOutcome StoredNode) := do
  let (s, node) ← s.updateNodeInstanceFromProps model id props
  return (s, { value := node, durableOp := .upsertNode node })

/-- `apply_node_delete`; the outcome's value is the request's model and id. -/
def applyNodeDelete (s : SessionState) (model : String) (id : Int) :
    GrmResult (SessionState × RuntimeOperationOutcome (String × Int)) := do
  let s ← s.deleteNodeInstance model id
  return (s, { value := (model, id), durableOp := .deleteNode id })

/-- `apply_edge_create`. -/
def applyEdgeCreate (s : SessionState) (model : String) (fromId toId : Int) (props : Props) :
    GrmResult (SessionState × RuntimeOperationOutcome StoredRel) := do
  let (s, edge) ← s.createRelationshipInstanceFromProps model fromId toId props
  return (s, { value := edge, durableOp := .upsertRel edge })

/-- `apply_edge_update`. -/
def applyEdgeUpdate (s : SessionState) (model : String) (id : Int) (props : Props) :
    GrmResult (SessionState × RuntimeOperationOutcome StoredRel) := do
  let (s, edge) ← s.updateRelationshipInstanceFromProps model id props
  return (s, { value := edge, durableOp := .upsertRel edge })

/-- `apply_edge_delete`; the durable operation has the request's id. -/
def applyEdgeDelete (s : SessionState) (model : String) (id : Int) :
    GrmResult (SessionState × RuntimeOperationOutcome (String × Int)) := do
  let s ← s.deleteRelationshipInstance model id
  return (s, { value := (model, id), durableOp := .deleteRel id })

end Mutations

end SessionState
