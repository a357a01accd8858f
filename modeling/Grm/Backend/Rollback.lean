import Grm.Backend.TxRun

/-!
# Transactions that are rolled back

An open transaction touches the shared store in two places only: it takes ids from the
counters, and a lookup may rebuild the property caches. Neither changes a record, an index
or what a lookup answers.
-/

open Std

set_option autoImplicit false

namespace GraphStore

theorem rebuildNodePropertyIndex_counters (s : GraphStore) (nextNodeId nextRelId : Int) :
    { s with nextNodeId := nextNodeId, nextRelId := nextRelId }.rebuildNodePropertyIndex =
      { s.rebuildNodePropertyIndex with nextNodeId := nextNodeId, nextRelId := nextRelId } := by
  rw [rebuildNodePropertyIndex_eq, rebuildNodePropertyIndex_eq]

theorem freshProps_counters (s : GraphStore) (nextNodeId nextRelId : Int) :
    { s with nextNodeId := nextNodeId, nextRelId := nextRelId }.freshProps =
      { s.freshProps with nextNodeId := nextNodeId, nextRelId := nextRelId } := by
  unfold freshProps
  dsimp only
  split
  · exact rebuildNodePropertyIndex_counters s nextNodeId nextRelId
  · rfl

theorem freshProps_of_clean {s : GraphStore} (clean : s.nodePropsDirty = false) : s.freshProps = s := by
  unfold freshProps
  rw [clean]
  rfl

@[simp] theorem freshProps_freshProps (s : GraphStore) : s.freshProps.freshProps = s.freshProps :=
  freshProps_of_clean s.freshProps_clean

/-- `s'` has the records, indexes and lookups of `s`; its counters may have grown. -/
structure Unchanged (s s' : GraphStore) : Prop where
  nodes : s'.nodes = s.nodes
  rels : s'.rels = s.rels
  labels : s'.nodesByLabel = s.nodesByLabel
  types : s'.relsByType = s.relsByType
  outgoing : s'.outgoing = s.outgoing
  incoming : s'.incoming = s.incoming
  outgoingAny : s'.outgoingAny = s.outgoingAny
  incomingAny : s'.incomingAny = s.incomingAny
  byLabelProperty : ∀ label key value,
    (s'.nodeIdsByLabelProperty label key value).2 = (s.nodeIdsByLabelProperty label key value).2
  byProperty : ∀ key value, (s'.nodeIdsByProperty key value).2 = (s.nodeIdsByProperty key value).2
  nextNodeId : s.nextNodeId ≤ s'.nextNodeId
  nextRelId : s.nextRelId ≤ s'.nextRelId

theorem Unchanged.refl (s : GraphStore) : s.Unchanged s :=
  ⟨rfl, rfl, rfl, rfl, rfl, rfl, rfl, rfl, fun _ _ _ => rfl, fun _ _ => rfl, Int.le_refl _, Int.le_refl _⟩

theorem Unchanged.trans {s t u : GraphStore} (first : s.Unchanged t) (second : t.Unchanged u) : s.Unchanged u where
  nodes := second.nodes.trans first.nodes
  rels := second.rels.trans first.rels
  labels := second.labels.trans first.labels
  types := second.types.trans first.types
  outgoing := second.outgoing.trans first.outgoing
  incoming := second.incoming.trans first.incoming
  outgoingAny := second.outgoingAny.trans first.outgoingAny
  incomingAny := second.incomingAny.trans first.incomingAny
  byLabelProperty label key value := (second.byLabelProperty label key value).trans (first.byLabelProperty label key value)
  byProperty key value := (second.byProperty key value).trans (first.byProperty key value)
  nextNodeId := Int.le_trans first.nextNodeId second.nextNodeId
  nextRelId := Int.le_trans first.nextRelId second.nextRelId

/-- Taking ids. -/
theorem unchanged_counters (s : GraphStore) {nextNodeId nextRelId : Int} (nodes : s.nextNodeId ≤ nextNodeId)
    (rels : s.nextRelId ≤ nextRelId) :
    s.Unchanged { s with nextNodeId := nextNodeId, nextRelId := nextRelId } := by
  refine ⟨rfl, rfl, rfl, rfl, rfl, rfl, rfl, rfl, fun label key value => ?_, fun key value => ?_, nodes, rels⟩
  · unfold nodeIdsByLabelProperty
    dsimp only
    rw [freshProps_counters]
  · unfold nodeIdsByProperty
    dsimp only
    rw [freshProps_counters]

/-- Rebuilding the property caches, as a lookup does. -/
theorem unchanged_freshProps (s : GraphStore) : s.Unchanged s.freshProps := by
  have others : s.freshProps.nodesByLabel = s.nodesByLabel ∧ s.freshProps.relsByType = s.relsByType ∧
      s.freshProps.outgoing = s.outgoing ∧ s.freshProps.incoming = s.incoming ∧
      s.freshProps.outgoingAny = s.outgoingAny ∧ s.freshProps.incomingAny = s.incomingAny := by
    unfold freshProps
    split
    · rw [rebuildNodePropertyIndex_eq]
      exact ⟨rfl, rfl, rfl, rfl, rfl, rfl⟩
    · exact ⟨rfl, rfl, rfl, rfl, rfl, rfl⟩
  obtain ⟨labels, types, outgoing, incoming, outgoingAny, incomingAny⟩ := others
  refine ⟨s.freshProps_nodes, s.freshProps_rels, labels, types, outgoing, incoming, outgoingAny, incomingAny,
    fun label key value => ?_, fun key value => ?_, ?_, ?_⟩
  · unfold nodeIdsByLabelProperty
    rw [freshProps_freshProps]
  · unfold nodeIdsByProperty
    rw [freshProps_freshProps]
  · exact Int.le_of_eq s.freshProps_nextNodeId.symm
  · exact Int.le_of_eq s.freshProps_nextRelId.symm

end GraphStore

/-- What is done to an open transaction: a call of the trait, or its working copy made. -/
inductive TxStep where
  | call (op : TxOp)
  | materializeWorkingCopy

namespace InMemoryTx

/-- The transaction after such a step. -/
def advance (tx : InMemoryTx) : TxStep → InMemoryTx
  | .call op => tx.step op
  | .materializeWorkingCopy => tx.materializeWorkingCopy

/-- `rollback`, and the drop of a transaction: the shared store afterwards. -/
def rollback (tx : InMemoryTx) : GraphStore := tx.store

theorem ReadOf.unchanged {tx tx' : InMemoryTx} (read : tx.ReadOf tx') : tx.store.Unchanged tx'.store := by
  rcases read with rfl | rfl
  · exact .refl tx'.store
  · exact GraphStore.unchanged_freshProps tx.store

theorem createNode_unchanged (tx : InMemoryTx) (labels : List String) (props : Props) :
    tx.store.Unchanged (tx.createNode labels props).1.store := by
  refine GraphStore.unchanged_counters tx.store ?_ (Int.le_refl _)
  omega

theorem createNodes_unchanged (tx : InMemoryTx) (inserts : List (List String × Props)) :
    tx.store.Unchanged (tx.createNodes inserts).1.store := by
  induction inserts generalizing tx with
  | nil => exact .refl tx.store
  | cons insert inserts ih =>
    obtain ⟨labels, props⟩ := insert
    exact (tx.createNode_unchanged labels props).trans (ih (tx.createNode labels props).1)

/-- One call changes no record and no answer of the shared store. -/
theorem step_unchanged (tx : InMemoryTx) (op : TxOp) : tx.store.Unchanged (tx.step op).store := by
  cases op with
  | createNode labels props => exact tx.createNode_unchanged labels props
  | createNodes inserts => exact tx.createNodes_unchanged inserts
  | updateNode id props =>
    have same : (tx.updateNode id props).1.store = tx.store := by
      unfold updateNode
      split
      · split <;> rfl
      · split
        · rfl
        · split <;> rfl
    exact same ▸ .refl tx.store
  | deleteNode id => exact .refl tx.store
  | createRelationship fromId toId relType props =>
    refine GraphStore.unchanged_counters tx.store (Int.le_refl _) ?_
    omega
  | updateRelationship id props =>
    have same : (tx.updateRelationship id props).1.store = tx.store := by
      unfold updateRelationship
      split
      · split <;> rfl
      · split
        · rfl
        · split <;> rfl
    exact same ▸ .refl tx.store
  | deleteRelationship id => exact .refl tx.store
  | findNodeById id => exact .refl tx.store
  | findNodesByProperty key value => exact (tx.visibleNodesByProperty_read key value).unchanged
  | neighbors node relType dir => exact .refl tx.store
  | executeGraph q => exact (tx.executeGraph_read q).unchanged

theorem advance_unchanged (tx : InMemoryTx) (step : TxStep) : tx.store.Unchanged (tx.advance step).store := by
  cases step with
  | call op => exact tx.step_unchanged op
  | materializeWorkingCopy =>
    have same : tx.materializeWorkingCopy.store = tx.store := by
      unfold materializeWorkingCopy
      split <;> rfl
    exact same ▸ .refl tx.store

end InMemoryTx
