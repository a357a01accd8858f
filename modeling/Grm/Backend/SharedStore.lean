import Grm.Backend.Rollback

/-!
# Transactions that share a backend

Any number of transactions on one `InMemoryBackend`: each is begun, makes its calls on
the store as the others have left it, and ends in a commit or a rollback. The history
beside the store says what each call did to a record. A delta is determined by what its
transaction did, ids are never given out twice, and every transaction stays `Valid`
however the others move.
-/

open Std

set_option autoImplicit false

/-- What a call did to a record. -/
inductive RecordChange where
  | createdNode (node : StoredNode)
  | updatedNode (node : StoredNode) (updates : Props)
  | deletedNode (id : Int)
  | createdRel (rel : StoredRel)
  | updatedRel (rel : StoredRel) (updates : Props)
  | deletedRel (id : Int)

namespace RecordChange

/-- The node a change writes. -/
def writtenNode? : RecordChange → Option StoredNode
  | .createdNode node | .updatedNode node _ => some node
  | _ => none

/-- The relationship a change writes. -/
def writtenRel? : RecordChange → Option StoredRel
  | .createdRel rel | .updatedRel rel _ => some rel
  | _ => none

/-- The node a change writes or deletes. -/
def node? : RecordChange → Option Int
  | .createdNode node | .updatedNode node _ => some node.id
  | .deletedNode id => some id
  | _ => none

/-- The relationship a change writes or deletes. -/
def rel? : RecordChange → Option Int
  | .createdRel rel | .updatedRel rel _ => some rel.id
  | .deletedRel id => some id
  | _ => none

end RecordChange

/-- A change noted in the delta of its transaction. -/
def TxDelta.note (d : TxDelta) : RecordChange → TxDelta
  | .createdNode node | .updatedNode node _ => d.writeNode node.id node
  | .deletedNode id => d.dropNode id
  | .createdRel rel | .updatedRel rel _ => d.writeRel rel.id rel
  | .deletedRel id => d.dropRel id

namespace InMemoryTx

/-- What a call does to the records: nothing for a read or for an update that finds no
record; the deletion of a node takes the relationships the transaction sees at it. -/
def changes (tx : InMemoryTx) : TxOp → List RecordChange
  | .createNode labels props => [.createdNode (tx.createNode labels props).2]
  | .createNodes inserts => (tx.createNodes inserts).2.map .createdNode
  | .updateNode id props => ((tx.updateNode id props).2.map (.updatedNode · props)).toList
  | .deleteNode id => .deletedNode id :: (tx.visibleRelatedRelIds id).toList.map .deletedRel
  | .createRelationship fromId toId relType props =>
    [.createdRel (tx.createRelationship fromId toId relType props).2]
  | .updateRelationship id props => ((tx.updateRelationship id props).2.map (.updatedRel · props)).toList
  | .deleteRelationship id => [.deletedRel id]
  | .findNodeById _ | .findNodesByProperty _ _ | .neighbors _ _ _ | .executeGraph _ => []

/-- What a step does to the records. -/
def changesOf (tx : InMemoryTx) : TxStep → List RecordChange
  | .call op => tx.changes op
  | .materializeWorkingCopy => []

theorem ReadOf.delta {tx tx' : InMemoryTx} (read : tx.ReadOf tx') : tx'.delta = tx.delta := by
  rcases read with rfl | rfl <;> rfl

theorem ReadOf.workingCopy {tx tx' : InMemoryTx} (read : tx.ReadOf tx') : tx'.workingCopy = tx.workingCopy := by
  rcases read with rfl | rfl <;> rfl

theorem createNodes_delta (tx : InMemoryTx) (inserts : List (List String × Props)) :
    (tx.createNodes inserts).1.delta =
      ((tx.createNodes inserts).2.map RecordChange.createdNode).foldl TxDelta.note tx.delta := by
  induction inserts generalizing tx with
  | nil => rfl
  | cons insert inserts ih => exact ih (tx.createNode insert.1 insert.2).1

/-- The delta after a call is the delta before it with the changes of the call. -/
theorem Valid.step_delta {tx : InMemoryTx} (h : tx.Valid) (op : TxOp) :
    (tx.step op).delta = (tx.changes op).foldl TxDelta.note tx.delta := by
  cases op with
  | createNode labels props => rfl
  | createNodes inserts => exact tx.createNodes_delta inserts
  | updateNode id props =>
    simp only [InMemoryTx.step, changes, updateNode_eq]
    cases seen : tx.visibleNode id with
    | none => rfl
    | some node =>
      have own : node.id = id := h.visibleNode_id seen
      simp [TxDelta.note, own]
  | deleteNode id =>
    simp only [InMemoryTx.step, InMemoryTx.deleteNode, changes, List.foldl_cons, List.foldl_map, TxDelta.note]
  | createRelationship fromId toId relType props => rfl
  | updateRelationship id props =>
    simp only [InMemoryTx.step, changes, updateRelationship_eq]
    cases held : tx.updatableRel id with
    | none => rfl
    | some rel =>
      have own : rel.id = id := (h.updatableRel held).1
      simp [TxDelta.note, own]
  | deleteRelationship id => rfl
  | findNodeById id => rfl
  | findNodesByProperty key value => exact (tx.visibleNodesByProperty_read key value).delta
  | neighbors node relType dir => rfl
  | executeGraph q => exact (tx.executeGraph_read q).delta

theorem Valid.advance_delta {tx : InMemoryTx} (h : tx.Valid) (step : TxStep) :
    (tx.advance step).delta = (tx.changesOf step).foldl TxDelta.note tx.delta := by
  cases step with
  | call op => exact h.step_delta op
  | materializeWorkingCopy =>
    simp only [InMemoryTx.advance, changesOf, InMemoryTx.materializeWorkingCopy, List.foldl_nil]
    split <;> rfl

theorem Valid.advance {tx : InMemoryTx} (h : tx.Valid) (step : TxStep) : (tx.advance step).Valid := by
  cases step with
  | call op => exact h.step op
  | materializeWorkingCopy => exact h.materializeWorkingCopy

end InMemoryTx

/-- Where a transaction stands: its value is consumed by `commit` and `rollback`. -/
inductive TxStatus where
  | notBegun
  | opened (workingCopy : Option GraphStore) (delta : TxDelta)
  | committed
  | rolledBack

/-- `InMemoryBackend` with its transactions, and what they have done so far. -/
structure SharedBackend where
  store : GraphStore
  txs : Nat → TxStatus
  history : List (Nat × RecordChange)

/-- What happens to the transaction of a number. -/
inductive TxEvent where
  | begin
  | step (step : TxStep)
  | commit
  | rollback

namespace SharedBackend

/-- A backend on which no transaction has begun. -/
def new (store : GraphStore) : SharedBackend := { store, txs := fun _ => .notBegun, history := [] }

/-- An open transaction, with the shared store as it finds it. -/
def tx? (b : SharedBackend) (i : Nat) : Option InMemoryTx :=
  match b.txs i with
  | .opened workingCopy delta => some { store := b.store, workingCopy, delta }
  | _ => none

/-- One event. A transaction begins once, and one that is not open has no calls. -/
def apply (b : SharedBackend) : Nat × TxEvent → SharedBackend
  | (i, .begin) =>
    match b.txs i with
    | .notBegun => { b with txs := Function.update b.txs i (.opened none {}) }
    | _ => b
  | (i, .step step) =>
    match b.tx? i with
    | some tx =>
      { store := (tx.advance step).store
        txs := Function.update b.txs i (.opened (tx.advance step).workingCopy (tx.advance step).delta)
        history := b.history ++ (tx.changesOf step).map (i, ·) }
    | none => b
  | (i, .commit) =>
    match b.tx? i with
    | some tx => { b with store := tx.commit, txs := Function.update b.txs i .committed }
    | none => b
  | (i, .rollback) =>
    match b.tx? i with
    | some tx => { b with store := tx.rollback, txs := Function.update b.txs i .rolledBack }
    | none => b

/-- Any interleaving of the transactions. -/
def run (b : SharedBackend) (events : List (Nat × TxEvent)) : SharedBackend := events.foldl apply b

end SharedBackend
