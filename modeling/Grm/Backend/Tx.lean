import Grm.Backend.StoreIndex
import Grm.Dsl.Graph
import Grm.Lib.FirstByKey

/-!
# Transactions of the in-memory backend

`backend/inmemory/graphtx.rs` and `inmemorytx.rs`. A transaction overlays the shared
store with a delta of written and deleted records; ids come straight from the
counters of the shared store, so they are spent even when the transaction is not
committed. Once a working copy is materialised every operation maintains it beside
the delta and reads go to it. `store` is the shared store as the transaction finds
it under the lock: with no other committer it changes by id allocation and by the
property lookups that rebuild its caches.
-/

open Std

set_option autoImplicit false

/-- `TxDelta`. -/
structure TxDelta where
  nodes : BTreeMap Int StoredNode := ∅
  deletedNodes : BTreeSet Int := ∅
  rels : BTreeMap Int StoredRel := ∅
  deletedRels : BTreeSet Int := ∅

/-- `InMemoryTx`. -/
structure InMemoryTx where
  store : GraphStore
  workingCopy : Option GraphStore := none
  delta : TxDelta := {}

namespace GraphStore

/-- The counter moved past an id, and `insert_node` under it. -/
def putNode (s : GraphStore) (id : Int) (node : StoredNode) : GraphStore :=
  { s with nextNodeId := max s.nextNodeId (id + 1) }.insertNode id node

/-- The counter moved past an id, and `insert_relationship` under it. -/
def putRel (s : GraphStore) (id : Int) (rel : StoredRel) : GraphStore :=
  { s with nextRelId := max s.nextRelId (id + 1) }.insertRelationship id rel

end GraphStore

/-- `for (k, v) in props { node.props.insert(k, v) }`. -/
def mergeProps (props updates : Props) : Props := BTreeMap.insertAll props updates.toList

namespace TxDelta

/-- The delta's account of a written node. -/
def writeNode (d : TxDelta) (id : Int) (node : StoredNode) : TxDelta :=
  { d with deletedNodes := d.deletedNodes.erase id, nodes := d.nodes.insert id node }

/-- The delta's account of a written relationship. -/
def writeRel (d : TxDelta) (id : Int) (rel : StoredRel) : TxDelta :=
  { d with deletedRels := d.deletedRels.erase id, rels := d.rels.insert id rel }

/-- A deleted node is taken out of the written ones, or else noted as deleted. -/
def dropNode (d : TxDelta) (id : Int) : TxDelta :=
  if id ∈ d.nodes then { d with nodes := d.nodes.erase id }
  else { d with deletedNodes := d.deletedNodes.insert id }

/-- A deleted relationship is taken out of the written ones, or else noted as deleted. -/
def dropRel (d : TxDelta) (id : Int) : TxDelta :=
  if id ∈ d.rels then { d with rels := d.rels.erase id }
  else { d with deletedRels := d.deletedRels.insert id }

/-- `apply_delta_to`. -/
def applyTo (d : TxDelta) (store : GraphStore) : GraphStore :=
  let store := d.deletedNodes.toList.foldl GraphStore.removeNode store
  let store := d.deletedRels.toList.foldl GraphStore.removeRelationship store
  let store := d.nodes.toList.foldl (fun store e => store.putNode e.1 e.2) store
  d.rels.toList.foldl (fun store e => store.putRel e.1 e.2) store

end TxDelta

/-- `rel_matches_neighbor`. -/
def relMatchesNeighbor (rel : StoredRel) (node : Int) (relType : Option String) (dir : Direction) : Bool :=
  if relType.any fun ty => rel.relType != ty then false
  else match dir with
    | .out => rel.fromId == node
    | .incoming => rel.toId == node
    | .both => rel.fromId == node || rel.toId == node

/-- `neighbor_id`. -/
def neighborId (rel : StoredRel) (node : Int) (dir : Direction) : Option Int :=
  match dir with
  | .out => if rel.fromId = node then some rel.toId else none
  | .incoming => if rel.toId = node then some rel.fromId else none
  | .both =>
    if rel.fromId = node then some rel.toId else if rel.toId = node then some rel.fromId else none

namespace GraphStore

/-- The adjacency list of a node in a direction. -/
def adjacentIds (s : GraphStore) (node : Int) (relType : Option String) (dir : Direction) : List Int :=
  match dir with
  | .out => s.outgoingRelationshipIds node relType
  | .incoming => s.incomingRelationshipIds node relType
  | .both => s.outgoingRelationshipIds node relType ++ s.incomingRelationshipIds node relType

/-- `materialized_neighbor_pairs`; an id seen before is skipped. -/
def materializedNeighborPairs (s : GraphStore) (node : Int) (relType : Option String) (dir : Direction) :
    List (StoredRel × StoredNode) :=
  (firstByKey some [] (s.adjacentIds node relType dir)).filterMap fun relId => do
    let rel ← s.rels[relId]?
    let neighbor ← (neighborId rel node dir).bind fun id => s.nodes[id]?
    return (rel, neighbor)

end GraphStore

namespace InMemoryTx

/-- `InMemoryTx::new`. -/
def new (store : GraphStore) : InMemoryTx := { store }

/-- `materialize_working_copy`. -/
def materializeWorkingCopy (tx : InMemoryTx) : InMemoryTx :=
  match tx.workingCopy with
  | some _ => tx
  | none => { tx with workingCopy := some (tx.delta.applyTo tx.store) }

/-- `allocate_node_id`. -/
def allocateNodeId (tx : InMemoryTx) : InMemoryTx × Int :=
  ({ tx with store := { tx.store with nextNodeId := tx.store.nextNodeId + 1 } }, tx.store.nextNodeId)

/-- `allocate_rel_id`. -/
def allocateRelId (tx : InMemoryTx) : InMemoryTx × Int :=
  ({ tx with store := { tx.store with nextRelId := tx.store.nextRelId + 1 } }, tx.store.nextRelId)

/-- `visible_node`. -/
def visibleNode (tx : InMemoryTx) (id : Int) : Option StoredNode :=
  match tx.workingCopy with
  | some store => store.nodes[id]?
  | none => if id ∈ tx.delta.deletedNodes then none else (tx.delta.nodes[id]?).or tx.store.nodes[id]?

/-- `visible_rel`: a relationship with a deleted endpoint is hidden. -/
def visibleRel (tx : InMemoryTx) (id : Int) : Option StoredRel :=
  match tx.workingCopy with
  | some store => store.rels[id]?
  | none =>
    if id ∈ tx.delta.deletedRels then none
    else ((tx.delta.rels[id]?).or tx.store.rels[id]?).filter fun rel =>
      !(tx.delta.deletedNodes.contains rel.fromId || tx.delta.deletedNodes.contains rel.toId)

/-- `visible_neighbor_pair`. -/
def visibleNeighborPair (tx : InMemoryTx) (node relId : Int) (dir : Direction) : Option (StoredRel × StoredNode) := do
  let rel ← tx.visibleRel relId
  let neighbor ← (neighborId rel node dir).bind tx.visibleNode
  return (rel, neighbor)

/-- `visible_neighbor_pairs`: the base store's adjacency first, then the written
relationships it did not list. -/
def visibleNeighborPairs (tx : InMemoryTx) (node : Int) (relType : Option String) (dir : Direction) :
    List (StoredRel × StoredNode) :=
  match tx.workingCopy with
  | some store => store.materializedNeighborPairs node relType dir
  | none =>
    if node ∈ tx.delta.deletedNodes then []
    else if node ∉ tx.delta.nodes ∧ node ∉ tx.store.nodes then []
    else
      let base := firstByKey some [] (tx.store.adjacentIds node relType dir)
      let written := firstByKey (fun rel => some rel.id) base
        (tx.delta.rels.vals.filter fun rel => relMatchesNeighbor rel node relType dir)
      base.filterMap (fun relId => tx.visibleNeighborPair node relId dir) ++
        written.filterMap fun rel =>
          ((neighborId rel node dir).bind tx.visibleNode).map fun neighbor => (rel, neighbor)

/-- `visible_related_rel_ids`. -/
def visibleRelatedRelIds (tx : InMemoryTx) (node : Int) : BTreeSet Int :=
  match tx.workingCopy with
  | some store => ExtTreeSet.ofList (store.touching node) compare
  | none =>
    if node ∈ tx.delta.deletedNodes then ∅
    else if node ∉ tx.delta.nodes ∧ node ∉ tx.store.nodes then ∅
    else
      let base := tx.store.outgoingRelationshipIds node none ++ tx.store.incomingRelationshipIds node none
      ExtTreeSet.ofList ((base.filter fun id => (tx.visibleRel id).isSome) ++
        (tx.delta.rels.vals.filter fun rel => rel.touches node).map StoredRel.id) compare

/-- `visible_nodes_by_property`, as `find_nodes_by_property` calls it. -/
def visibleNodesByProperty (tx : InMemoryTx) (key : String) (value : Value) : InMemoryTx × List StoredNode :=
  let holds (node : StoredNode) : Bool := (node.props[key]?).any fun v => v.eq value
  match tx.workingCopy with
  | some store => (tx, store.nodes.vals.filter holds)
  | none =>
    let (store, ids) := tx.store.nodeIdsByProperty key value
    let base := (ids.filterMap fun id => store.nodes[id]?).filter fun node =>
      !tx.delta.deletedNodes.contains node.id && !tx.delta.nodes.contains node.id && holds node
    ({ tx with store }, base ++ tx.delta.nodes.vals.filter holds)

/-- `create_node`. -/
def createNode (tx : InMemoryTx) (labels : List String) (props : Props) : InMemoryTx × StoredNode :=
  let (tx, id) := tx.allocateNodeId
  let node : StoredNode := { id, labels, props }
  ({ tx with
      workingCopy := tx.workingCopy.map fun store => store.putNode id node
      delta := tx.delta.writeNode id node }, node)

/-- `create_nodes`. -/
def createNodes (tx : InMemoryTx) : List (List String × Props) → InMemoryTx × List StoredNode
  | [] => (tx, [])
  | (labels, props) :: inserts =>
    let (tx, node) := tx.createNode labels props
    let (tx, nodes) := tx.createNodes inserts
    (tx, node :: nodes)

/-- `update_node`. -/
def updateNode (tx : InMemoryTx) (id : Int) (props : Props) : InMemoryTx × Option StoredNode :=
  match tx.workingCopy with
  | some store => match store.nodes[id]? with
    | some node =>
      let node := { node with props := mergeProps node.props props }
      ({ tx with workingCopy := some (store.insertNode id node), delta := tx.delta.writeNode id node }, some node)
    | none => (tx, none)
  | none =>
    if id ∈ tx.delta.deletedNodes then (tx, none)
    else match (tx.delta.nodes[id]?).or tx.store.nodes[id]? with
      | some node =>
        let node := { node with props := mergeProps node.props props }
        ({ tx with delta := { tx.delta with nodes := tx.delta.nodes.insert id node } }, some node)
      | none => (tx, none)

/-- `delete_node`. -/
def deleteNode (tx : InMemoryTx) (id : Int) : InMemoryTx :=
  let related := tx.visibleRelatedRelIds id
  { tx with
    workingCopy := tx.workingCopy.map fun store => store.removeNode id
    delta := related.toList.foldl TxDelta.dropRel (tx.delta.dropNode id) }

/-- `create_relationship`: the endpoints are not looked up. -/
def createRelationship (tx : InMemoryTx) (fromId toId : Int) (relType : String) (props : Props) :
    InMemoryTx × StoredRel :=
  let (tx, id) := tx.allocateRelId
  let rel : StoredRel := { id, relType, fromId, toId, props }
  ({ tx with
      workingCopy := tx.workingCopy.map fun store => store.putRel id rel
      delta := tx.delta.writeRel id rel }, rel)

/-- `update_relationship`; in a working copy the record is changed in place. -/
def updateRelationship (tx : InMemoryTx) (id : Int) (props : Props) : InMemoryTx × Option StoredRel :=
  match tx.workingCopy with
  | some store => match store.rels[id]? with
    | some rel =>
      let rel := { rel with props := mergeProps rel.props props }
      ({ tx with workingCopy := some { store with rels := store.rels.insert id rel },
                 delta := tx.delta.writeRel id rel }, some rel)
    | none => (tx, none)
  | none =>
    if id ∈ tx.delta.deletedRels then (tx, none)
    else match (tx.delta.rels[id]?).or tx.store.rels[id]? with
      | some rel =>
        let rel := { rel with props := mergeProps rel.props props }
        ({ tx with delta := { tx.delta with rels := tx.delta.rels.insert id rel } }, some rel)
      | none => (tx, none)

/-- `delete_relationship`. -/
def deleteRelationship (tx : InMemoryTx) (id : Int) : InMemoryTx :=
  { tx with
    workingCopy := tx.workingCopy.map fun store => store.removeRelationship id
    delta := tx.delta.dropRel id }

/-- `find_node_by_id`, whose body is that of `visible_node`. -/
def findNodeById (tx : InMemoryTx) (id : Int) : Option StoredNode := tx.visibleNode id

/-- `outgoing`. -/
def outgoing (tx : InMemoryTx) (fromId : Int) (relType : Option String) : List (StoredRel × StoredNode) :=
  tx.visibleNeighborPairs fromId relType .out

/-- `incoming`. -/
def incoming (tx : InMemoryTx) (toId : Int) (relType : Option String) : List (StoredRel × StoredNode) :=
  tx.visibleNeighborPairs toId relType .incoming

/-- `both`. -/
def both (tx : InMemoryTx) (node : Int) (relType : Option String) : List (StoredRel × StoredNode) :=
  tx.visibleNeighborPairs node relType .both

/-- `commit`: the shared store afterwards. -/
def commit (tx : InMemoryTx) : GraphStore := tx.delta.applyTo tx.store

end InMemoryTx
