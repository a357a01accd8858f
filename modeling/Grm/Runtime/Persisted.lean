import Grm.Backend.TxSpec
import Grm.Runtime.State

/-!
# The durable part of a session

What a checkpoint holds: records, id counters and catalog, without the indexes. On it a
log entry has a meaning of its own, `PersistedSession.replay`, which
`apply_session_log_entry` on a store with indexes refines.
-/

open Std

set_option autoImplicit false

/-- `PersistedGraphStore`. -/
@[ext]
structure PersistedGraphStore where
  nextNodeId : Int
  nextRelId : Int
  nodes : BTreeMap Int StoredNode
  rels : BTreeMap Int StoredRel

/-- `PersistedSession`. -/
@[ext]
structure PersistedSession where
  graph : PersistedGraphStore
  catalog : SessionModelCatalog

/-- `GraphStore::to_persisted`. -/
def GraphStore.toPersisted (s : GraphStore) : PersistedGraphStore where
  nextNodeId := s.nextNodeId
  nextRelId := s.nextRelId
  nodes := s.nodes
  rels := s.rels

/-- `GraphStore::from_persisted`. -/
def GraphStore.fromPersisted (g : PersistedGraphStore) : GraphStore :=
  { GraphStore.empty with
    nextNodeId := g.nextNodeId, nextRelId := g.nextRelId, nodes := g.nodes, rels := g.rels }.rebuildLoadIndexes

/-- `persisted_session`. -/
def SessionState.persistedSession (s : SessionState) : PersistedSession := ⟨s.store.toPersisted, s.catalog⟩

/-- `apply_persisted_session`. -/
def SessionState.ofPersisted (d : PersistedSession) : SessionState := ⟨GraphStore.fromPersisted d.graph, d.catalog⟩

namespace GraphStore

theorem rebuildLoadIndexes_toPersisted (s : GraphStore) : s.rebuildLoadIndexes.toPersisted = s.toPersisted := by
  simp only [rebuildLoadIndexes, foldl_indexNodeLabels, foldl_indexRelationship, clearIndexes, toPersisted]

theorem fromPersisted_toPersisted (g : PersistedGraphStore) : (fromPersisted g).toPersisted = g :=
  rebuildLoadIndexes_toPersisted _

end GraphStore

theorem SessionState.ofPersisted_persistedSession (d : PersistedSession) : (ofPersisted d).persistedSession = d := by
  unfold SessionState.persistedSession ofPersisted
  rw [GraphStore.fromPersisted_toPersisted]

/-! ## Log entries on the durable part -/

namespace PersistedGraphStore

/-- A node written under its own id; the counter moves past it. -/
def putNode (g : PersistedGraphStore) (node : StoredNode) : PersistedGraphStore :=
  { g with nextNodeId := max g.nextNodeId (node.id + 1), nodes := g.nodes.insert node.id node }

/-- A relationship written under its own id; the counter moves past it. -/
def putRel (g : PersistedGraphStore) (rel : StoredRel) : PersistedGraphStore :=
  { g with nextRelId := max g.nextRelId (rel.id + 1), rels := g.rels.insert rel.id rel }

/-- An existing node removed with every relationship that touches it. -/
def dropNode (g : PersistedGraphStore) (id : Int) : PersistedGraphStore :=
  if id ∈ g.nodes then { g with nodes := g.nodes.erase id, rels := g.rels.filter fun _ rel => !rel.touches id } else g

/-- A relationship removed, when it exists. -/
def dropRel (g : PersistedGraphStore) (id : Int) : PersistedGraphStore := { g with rels := g.rels.erase id }

section DropNode
variable (g : PersistedGraphStore) (id k : Int)

@[simp] theorem dropNode_nextNodeId : (g.dropNode id).nextNodeId = g.nextNodeId := by
  unfold dropNode; split <;> rfl

@[simp] theorem dropNode_nextRelId : (g.dropNode id).nextRelId = g.nextRelId := by
  unfold dropNode; split <;> rfl

@[simp] theorem dropNode_nodes : (g.dropNode id).nodes = g.nodes.erase id := by
  unfold dropNode
  split
  case isTrue => rfl
  case isFalse absent =>
    apply BTreeMap.ext_get
    intro k
    rw [BTreeMap.get_erase]
    split
    case isTrue same => rw [← same]; exact BTreeMap.not_mem_iff_get.1 absent
    case isFalse => rfl

theorem dropNode_rels :
    (g.dropNode id).rels[k]? = if id ∈ g.nodes then (g.rels[k]?).filter (fun rel => !rel.touches id) else g.rels[k]? := by
  unfold dropNode
  split
  · exact ExtTreeMap.getElem?_filter'
  · rfl

end DropNode

/-- Every record is under its own id. -/
structure Own (g : PersistedGraphStore) : Prop where
  node : ∀ (k : Int) (n : StoredNode), g.nodes[k]? = some n → n.id = k
  rel : ∀ (k : Int) (r : StoredRel), g.rels[k]? = some r → r.id = k

/-- A store loaded from records under their own ids is indexed. -/
theorem Own.indexed {g : PersistedGraphStore} (own : g.Own) : (GraphStore.fromPersisted g).Indexed :=
  GraphStore.indexed_rebuildLoadIndexes own.node own.rel

end PersistedGraphStore

namespace PersistedSession

mutual

/-- The meaning of a log entry. -/
def replay (d : PersistedSession) : DurableOperation → GrmResult PersistedSession
  | .registerNodeModel model =>
    (d.catalog.ensureNodeModel model).map fun catalog => { d with catalog }
  | .registerRelModel model =>
    (d.catalog.ensureRelModel model).map fun catalog => { d with catalog }
  | .upsertNode node => .ok { d with graph := d.graph.putNode node }
  | .deleteNode id => .ok { d with graph := d.graph.dropNode id }
  | .upsertRel rel => .ok { d with graph := d.graph.putRel rel }
  | .deleteRel id => .ok { d with graph := d.graph.dropRel id }
  | .batch ops => replayAll d ops

/-- The meaning of a log. -/
def replayAll (d : PersistedSession) : List DurableOperation → GrmResult PersistedSession
  | [] => .ok d
  | op :: ops => (replay d op).bind fun d => replayAll d ops

end

theorem replayAll_append (d : PersistedSession) (ops more : List DurableOperation) :
    d.replayAll (ops ++ more) = (d.replayAll ops).bind fun d => d.replayAll more := by
  induction ops generalizing d with
  | nil => rfl
  | cons op ops ih =>
    simp only [List.cons_append, replayAll]
    cases d.replay op with
    | error e => rfl
    | ok d' => exact ih d'

theorem replayAll_singleton (d : PersistedSession) (op : DurableOperation) : d.replayAll [op] = d.replay op := by
  simp only [replayAll]
  cases d.replay op <;> rfl

end PersistedSession

mutual

/-- The entry with its batches opened. -/
def DurableOperation.opened : DurableOperation → List DurableOperation
  | .batch ops => openedAll ops
  | .registerNodeModel model => [.registerNodeModel model]
  | .registerRelModel model => [.registerRelModel model]
  | .upsertNode node => [.upsertNode node]
  | .deleteNode id => [.deleteNode id]
  | .upsertRel rel => [.upsertRel rel]
  | .deleteRel id => [.deleteRel id]

/-- The log with its batches opened. -/
def DurableOperation.openedAll : List DurableOperation → List DurableOperation
  | [] => []
  | op :: ops => op.opened ++ openedAll ops

end

theorem DurableOperation.openedAll_append (ops more : List DurableOperation) :
    openedAll (ops ++ more) = openedAll ops ++ openedAll more := by
  induction ops with
  | nil => rfl
  | cons op ops ih => simp only [List.cons_append, openedAll, ih, List.append_assoc]

namespace PersistedSession

mutual

/-- Opening a batch does not change the meaning of an entry. -/
theorem replayAll_opened (d : PersistedSession) : ∀ op : DurableOperation, d.replayAll op.opened = d.replay op
  | .batch ops => by
    rw [DurableOperation.opened, replay]
    exact replayAll_openedAll d ops
  | .registerNodeModel model => replayAll_singleton d _
  | .registerRelModel model => replayAll_singleton d _
  | .upsertNode node => replayAll_singleton d _
  | .deleteNode id => replayAll_singleton d _
  | .upsertRel rel => replayAll_singleton d _
  | .deleteRel id => replayAll_singleton d _

theorem replayAll_openedAll (d : PersistedSession) : ∀ ops : List DurableOperation,
    d.replayAll (DurableOperation.openedAll ops) = d.replayAll ops
  | [] => rfl
  | op :: ops => by
    rw [DurableOperation.openedAll, replayAll_append, replayAll_opened d op, replayAll]
    cases d.replay op with
    | error e => rfl
    | ok d' => exact replayAll_openedAll d' ops

end

end PersistedSession

/-! ## The store refines it -/

namespace GraphStore

theorem putNode_toPersisted (s : GraphStore) (node : StoredNode) :
    (s.putNode node.id node).toPersisted = s.toPersisted.putNode node := by
  simp [toPersisted, PersistedGraphStore.putNode, putNode]

theorem putRel_toPersisted (s : GraphStore) (rel : StoredRel) :
    (s.putRel rel.id rel).toPersisted = s.toPersisted.putRel rel := by
  simp [toPersisted, PersistedGraphStore.putRel, putRel]

theorem removeRelationship_toPersisted (s : GraphStore) (id : Int) :
    (s.removeRelationship id).toPersisted = s.toPersisted.dropRel id := by
  simp [toPersisted, PersistedGraphStore.dropRel]

theorem removeNode_toPersisted {s : GraphStore} (h : s.Indexed) (id : Int) :
    (s.removeNode id).toPersisted = s.toPersisted.dropNode id := by
  have counters := removeNodes_counters [id] s
  apply PersistedGraphStore.ext
  · rw [PersistedGraphStore.dropNode_nextNodeId]
    exact counters.1
  · rw [PersistedGraphStore.dropNode_nextRelId]
    exact counters.2
  · rw [PersistedGraphStore.dropNode_nodes]
    exact removeNode_nodes s id
  · apply BTreeMap.ext_get
    intro k
    rw [PersistedGraphStore.dropNode_rels]
    refine (removeNode_rels h.relId id k).trans ?_
    by_cases present : id ∈ s.nodes
    · rw [if_pos (ExtTreeMap.mem_iff_isSome_getElem?.1 present)]
      exact (if_pos present).symm
    · rw [if_neg fun some => present (ExtTreeMap.mem_iff_isSome_getElem?.2 some)]
      exact (if_neg present).symm

end GraphStore

namespace SessionState

mutual

/-- A log entry on an indexed store does what it means on the durable part, and keeps the
indexes. -/
theorem applySessionLogEntry_refines {s : SessionState} (h : s.store.Indexed) : ∀ op : DurableOperation,
    (applySessionLogEntry s op).map persistedSession = s.persistedSession.replay op ∧
      ∀ s', applySessionLogEntry s op = .ok s' → s'.store.Indexed
  | .registerNodeModel model => by
    simp only [applySessionLogEntry, PersistedSession.replay, persistedSession]
    cases s.catalog.ensureNodeModel model with
    | error e => exact ⟨rfl, nofun⟩
    | ok catalog => exact ⟨rfl, by rintro s' ⟨⟩; exact h⟩
  | .registerRelModel model => by
    simp only [applySessionLogEntry, PersistedSession.replay, persistedSession]
    cases s.catalog.ensureRelModel model with
    | error e => exact ⟨rfl, nofun⟩
    | ok catalog => exact ⟨rfl, by rintro s' ⟨⟩; exact h⟩
  | .upsertNode node => by
    simp only [applySessionLogEntry, PersistedSession.replay, persistedSession]
    refine ⟨?_, by rintro s' ⟨⟩; exact h.putNode rfl⟩
    rw [← GraphStore.putNode_toPersisted]; rfl
  | .deleteNode id => by
    simp only [applySessionLogEntry, PersistedSession.replay, persistedSession]
    refine ⟨?_, by rintro s' ⟨⟩; exact h.removeNode id⟩
    rw [← GraphStore.removeNode_toPersisted h]; rfl
  | .upsertRel rel => by
    simp only [applySessionLogEntry, PersistedSession.replay, persistedSession]
    refine ⟨?_, by rintro s' ⟨⟩; exact h.putRel rfl⟩
    rw [← GraphStore.putRel_toPersisted]; rfl
  | .deleteRel id => by
    simp only [applySessionLogEntry, PersistedSession.replay, persistedSession]
    refine ⟨?_, by rintro s' ⟨⟩; exact h.removeRelationship id⟩
    rw [← GraphStore.removeRelationship_toPersisted]; rfl
  | .batch ops => by
    simp only [applySessionLogEntry, PersistedSession.replay]
    exact applySessionLogEntries_refines h ops

/-- A log on an indexed store does what it means on the durable part. -/
theorem applySessionLogEntries_refines {s : SessionState} (h : s.store.Indexed) : ∀ ops : List DurableOperation,
    (applySessionLogEntries s ops).map persistedSession = s.persistedSession.replayAll ops ∧
      ∀ s', applySessionLogEntries s ops = .ok s' → s'.store.Indexed
  | [] => by
    simp only [applySessionLogEntries, PersistedSession.replayAll]
    exact ⟨rfl, by rintro s' ⟨⟩; exact h⟩
  | op :: ops => by
    obtain ⟨first, indexed⟩ := applySessionLogEntry_refines h op
    simp only [applySessionLogEntries, PersistedSession.replayAll]
    rw [← first]
    cases applied : applySessionLogEntry s op with
    | error e => exact ⟨rfl, nofun⟩
    | ok s' => exact applySessionLogEntries_refines (indexed s' applied) ops

end

end SessionState
