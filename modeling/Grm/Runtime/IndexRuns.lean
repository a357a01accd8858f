import Grm.Backend.RelationshipLookup
import Grm.Runtime.Codecs

/-!
# Indexes over whole runs of store operations

Whatever operations a store has been through, its label, type and adjacency indexes are
those `rebuild_indexes` computes from its records, and so are the property indexes while
they are not dirty.
-/

open Std

set_option autoImplicit false

namespace GraphStore

/-! ## Recomputing -/

theorem foldl_indexNode (l : List StoredNode) (s : GraphStore) :
    l.foldl (fun s node => (s.indexNodeLabels node).indexNodeProps node) s =
      { s with
        nodesByLabel := l.foldl (fun m n => Index.addAll m n.labels n.id) s.nodesByLabel
        nodePropsAny := l.foldl (fun m n => Index.addAll m (anyKeys n) n.id) s.nodePropsAny
        nodeProps := l.foldl (fun m n => Index.addAll m (labelKeys n) n.id) s.nodeProps } := by
  induction l generalizing s with
  | nil => rfl
  | cons n l ih => rw [List.foldl_cons, ih]; rfl

theorem rebuildIndexes_records (s : GraphStore) :
    s.rebuildIndexes.nodes = s.nodes ∧ s.rebuildIndexes.rels = s.rels ∧ s.rebuildIndexes.nodePropsDirty = false := by
  unfold rebuildIndexes
  dsimp only
  rw [foldl_indexNode, foldl_indexRelationship]
  exact ⟨rfl, rfl, rfl⟩

theorem indexed_rebuildIndexes {s : GraphStore}
    (nodeId : ∀ (k : Int) (n : StoredNode), s.nodes[k]? = some n → n.id = k)
    (relId : ∀ (k : Int) (r : StoredRel), s.rels[k]? = some r → r.id = k) : s.rebuildIndexes.Indexed := by
  unfold rebuildIndexes
  dsimp only
  rw [foldl_indexNode, foldl_indexRelationship]
  exact ⟨nodeId, relId, Index.files_rebuild s.nodes _ StoredNode.id nodeId,
    Index.files_rebuild s.rels _ StoredRel.id relId, Index.files_rebuild s.rels _ StoredRel.id relId,
    Index.files_rebuild s.rels _ StoredRel.id relId, Index.files_rebuild s.rels _ StoredRel.id relId,
    Index.files_rebuild s.rels _ StoredRel.id relId, fun _ => Index.files_rebuild s.nodes _ StoredNode.id nodeId,
    fun _ => Index.files_rebuild s.nodes _ StoredNode.id nodeId⟩

/-- An index is the recomputed one and has no key without ids. -/
def IndexIs {K : Type} [Ord K] [TransOrd K] (index recomputed : BTreeMap K (BTreeSet Int)) : Prop :=
  index = recomputed ∧ ∀ (k : K) (ids : BTreeSet Int), index[k]? = some ids → ids ≠ ∅

/-- The indexes are those `rebuild_indexes` computes from the records, the property
indexes while they are not dirty. -/
structure AsRecomputed (s : GraphStore) : Prop where
  labels : IndexIs s.nodesByLabel s.rebuildIndexes.nodesByLabel
  types : IndexIs s.relsByType s.rebuildIndexes.relsByType
  outgoing : IndexIs s.outgoing s.rebuildIndexes.outgoing
  incoming : IndexIs s.incoming s.rebuildIndexes.incoming
  outgoingAny : IndexIs s.outgoingAny s.rebuildIndexes.outgoingAny
  incomingAny : IndexIs s.incomingAny s.rebuildIndexes.incomingAny
  props : s.nodePropsDirty = false → IndexIs s.nodeProps s.rebuildIndexes.nodeProps
  propsAny : s.nodePropsDirty = false → IndexIs s.nodePropsAny s.rebuildIndexes.nodePropsAny

theorem indexIs_of_files {K R : Type} [Ord K] [TransOrd K] [LawfulEqOrd K] {index recomputed : BTreeMap K (BTreeSet Int)}
    {recs recs' : BTreeMap Int R} {keys : R → List K} (kept : Index.Files index recs keys)
    (rebuilt : Index.Files recomputed recs' keys) (same : recs' = recs) : IndexIs index recomputed := by
  subst same
  exact ⟨Index.Represents.unique kept rebuilt, kept.nonempty⟩

theorem Indexed.asRecomputed {s : GraphStore} (h : s.Indexed) : s.AsRecomputed := by
  obtain ⟨nodes, rels, clean⟩ := s.rebuildIndexes_records
  have rebuilt := indexed_rebuildIndexes h.nodeId h.relId
  exact {
    labels := indexIs_of_files h.labels rebuilt.labels nodes
    types := indexIs_of_files h.types rebuilt.types rels
    outgoing := indexIs_of_files h.outgoing rebuilt.outgoing rels
    incoming := indexIs_of_files h.incoming rebuilt.incoming rels
    outgoingAny := indexIs_of_files h.outgoingAny rebuilt.outgoingAny rels
    incomingAny := indexIs_of_files h.incomingAny rebuilt.incomingAny rels
    props := fun fresh => indexIs_of_files (h.props fresh) (rebuilt.props clean) nodes
    propsAny := fun fresh => indexIs_of_files (h.propsAny fresh) (rebuilt.propsAny clean) nodes }

end GraphStore

/-! ## Runs -/

/-- An operation on a store. A load puts the store of a persisted form in place; a reload
does so with the store's own. -/
inductive StoreOp where
  | insertNode (id : Int) (node : StoredNode)
  | insertNodeDeferredPropertyIndex (id : Int) (node : StoredNode)
  | removeNode (id : Int)
  | insertRelationship (id : Int) (rel : StoredRel)
  | removeRelationship (id : Int)
  | rebuildIndexes
  | rebuildNodePropertyIndex
  | nodeIdsByLabelProperty (label key : String) (value : Value)
  | nodeIdsByProperty (key : String) (value : Value)
  | fromPersisted (graph : PersistedGraphStore)
  | fromBinaryPersisted (graph : BinaryPersistedGraphStore)
  | reload
  | reloadBinary

/-- Every record is under its own id. -/
structure BinaryPersistedGraphStore.Own (g : BinaryPersistedGraphStore) : Prop where
  node : ∀ (k : Int) (n : BinaryStoredNode), g.nodes[k]? = some n → n.id = k
  rel : ∀ (k : Int) (r : BinaryStoredRel), g.rels[k]? = some r → r.id = k

/-- The records the operation brings are under their own ids. -/
def StoreOp.OwnIds : StoreOp → Prop
  | insertNode id node | insertNodeDeferredPropertyIndex id node => node.id = id
  | insertRelationship id rel => rel.id = id
  | fromPersisted graph => graph.Own
  | fromBinaryPersisted graph => graph.Own
  | removeNode _ | removeRelationship _ | rebuildIndexes | rebuildNodePropertyIndex | nodeIdsByLabelProperty _ _ _
  | nodeIdsByProperty _ _ | reload | reloadBinary => True

namespace GraphStore
variable [Codecs]

/-- The store after an operation; a binary form that does not decode leaves it. -/
def perform (s : GraphStore) : StoreOp → GraphStore
  | .insertNode id node => s.insertNode id node
  | .insertNodeDeferredPropertyIndex id node => s.insertNode id node
  | .removeNode id => s.removeNode id
  | .insertRelationship id rel => s.insertRelationship id rel
  | .removeRelationship id => s.removeRelationship id
  | .rebuildIndexes => s.rebuildIndexes
  | .rebuildNodePropertyIndex => s.rebuildNodePropertyIndex
  | .nodeIdsByLabelProperty label key value => (s.nodeIdsByLabelProperty label key value).1
  | .nodeIdsByProperty key value => (s.nodeIdsByProperty key value).1
  | .fromPersisted graph => fromPersisted graph
  | .fromBinaryPersisted graph => (fromBinaryPersisted graph).toOption.getD s
  | .reload => fromPersisted s.toPersisted
  | .reloadBinary => (s.toBinaryPersisted.bind fromBinaryPersisted).toOption.getD s

theorem indexed_fromBinaryPersisted {graph : BinaryPersistedGraphStore} (own : graph.Own) {s : GraphStore}
    (ok : fromBinaryPersisted graph = .ok s) : s.Indexed := by
  obtain ⟨nodes, nodesDone, ok⟩ := GrmResult.bind_eq_ok.1 ok
  obtain ⟨rels, relsDone, ok⟩ := GrmResult.bind_eq_ok.1 ok
  cases ok
  refine PersistedGraphStore.Own.indexed ⟨fun k n found => ?_, fun k r found => ?_⟩
  · obtain ⟨binary, stored, converted⟩ := BTreeMap.tryMap_source nodesDone found
    obtain ⟨props, -, rfl⟩ := GrmResult.map_eq_ok.1 converted
    exact own.node k binary stored
  · obtain ⟨binary, stored, converted⟩ := BTreeMap.tryMap_source relsDone found
    obtain ⟨props, -, rfl⟩ := GrmResult.map_eq_ok.1 converted
    exact own.rel k binary stored

theorem Indexed.toBinary_own {s : GraphStore} (h : s.Indexed) {graph : BinaryPersistedGraphStore}
    (ok : s.toBinaryPersisted = .ok graph) : graph.Own := by
  obtain ⟨nodes, nodesDone, ok⟩ := GrmResult.bind_eq_ok.1 ok
  obtain ⟨rels, relsDone, ok⟩ := GrmResult.bind_eq_ok.1 ok
  cases ok
  refine ⟨fun k n found => ?_, fun k r found => ?_⟩
  · obtain ⟨node, stored, converted⟩ := BTreeMap.tryMap_source nodesDone found
    obtain ⟨props, -, rfl⟩ := GrmResult.map_eq_ok.1 converted
    exact h.nodeId k node stored
  · obtain ⟨rel, stored, converted⟩ := BTreeMap.tryMap_source relsDone found
    obtain ⟨props, -, rfl⟩ := GrmResult.map_eq_ok.1 converted
    exact h.relId k rel stored

/-- Every operation keeps the indexes. -/
theorem Indexed.perform {s : GraphStore} (h : s.Indexed) {op : StoreOp} (own : op.OwnIds) : (s.perform op).Indexed := by
  cases op with
  | insertNode id node => exact h.insertNode own
  | insertNodeDeferredPropertyIndex id node => exact h.insertNode own
  | removeNode id => exact h.removeNode id
  | insertRelationship id rel => exact h.insertRelationship own
  | removeRelationship id => exact h.removeRelationship id
  | rebuildIndexes => exact indexed_rebuildIndexes h.nodeId h.relId
  | rebuildNodePropertyIndex => exact h.rebuildNodePropertyIndex
  | nodeIdsByLabelProperty label key value => exact h.freshProps
  | nodeIdsByProperty key value => exact h.freshProps
  | fromPersisted graph => exact PersistedGraphStore.Own.indexed own
  | fromBinaryPersisted graph =>
    show ((GraphStore.fromBinaryPersisted graph).toOption.getD s).Indexed
    cases decoded : GraphStore.fromBinaryPersisted graph with
    | error e => exact h
    | ok loaded => exact indexed_fromBinaryPersisted own decoded
  | reload => exact PersistedGraphStore.Own.indexed ⟨h.nodeId, h.relId⟩
  | reloadBinary =>
    show ((s.toBinaryPersisted.bind GraphStore.fromBinaryPersisted).toOption.getD s).Indexed
    cases encoded : s.toBinaryPersisted with
    | error e => exact h
    | ok graph =>
      dsimp only [Except.bind]
      cases decoded : GraphStore.fromBinaryPersisted graph with
      | error e => exact h
      | ok loaded => exact indexed_fromBinaryPersisted (h.toBinary_own encoded) decoded

theorem Indexed.performAll {s : GraphStore} (h : s.Indexed) {ops : List StoreOp} (own : ∀ op ∈ ops, op.OwnIds) :
    (ops.foldl GraphStore.perform s).Indexed := by
  induction ops generalizing s with
  | nil => exact h
  | cons op ops ih =>
    apply ih (h.perform (own op List.mem_cons_self))
    intro later member
    exact own later (List.mem_cons_of_mem op member)

/-- After any sequence of operations on a new store the indexes are the recomputed ones. -/
theorem every_run_asRecomputed {ops : List StoreOp} (own : ∀ op ∈ ops, op.OwnIds) :
    (ops.foldl GraphStore.perform empty).AsRecomputed :=
  (indexed_empty.performAll own).asRecomputed

/-- After any sequence of operations on a new store a relationship lookup gives the relationships
that are asked for, by ascending id. -/
theorem every_run_lookup_is_scan {ops : List StoreOp} (own : ∀ op ∈ ops, op.OwnIds) (relType : String)
    (id fromId toId : Option Int) :
    (ops.foldl GraphStore.perform empty).snapshotRelationshipsFiltered relType id fromId toId =
        ((ops.foldl GraphStore.perform empty).rels.vals.filter fun rel => decide (Asked relType id fromId toId rel)) ∧
      ((ops.foldl GraphStore.perform empty).snapshotRelationshipsFiltered relType id fromId toId).Pairwise
        fun a b => a.id < b.id := by
  have indexed := indexed_empty.performAll own
  exact ⟨indexed.snapshotRelationshipsFiltered_eq relType id fromId toId,
    indexed.ascending_snapshotRelationshipsFiltered relType id fromId toId⟩

end GraphStore

/-- A node relabelled in place, a lookup, and the removal of the end of a relationship. -/
theorem relabelled_asRecomputed :
    letI := Codecs.listed [] []
    ([.insertNode 1 ⟨1, ["User"], ∅⟩, .insertRelationship 1 ⟨1, "KNOWS", 1, 1, ∅⟩, .insertNode 1 ⟨1, ["Admin"], ∅⟩,
      .nodeIdsByProperty "name" .null, .removeNode 1] : List StoreOp).foldl GraphStore.perform GraphStore.empty
      |>.AsRecomputed := by
  let := Codecs.listed [] []
  refine GraphStore.every_run_asRecomputed fun op member => ?_
  simp only [List.mem_cons, List.not_mem_nil, or_false] at member
  rcases member with rfl | rfl | rfl | rfl | rfl <;> trivial

/-- A self loop next to another relationship of its node, asked for by both ends. -/
theorem self_loop_lookup_is_scan :
    letI := Codecs.listed [] []
    let s := ([.insertNode 1 ⟨1, ["User"], ∅⟩, .insertRelationship 2 ⟨2, "KNOWS", 1, 1, ∅⟩,
      .insertRelationship 1 ⟨1, "KNOWS", 1, 3, ∅⟩] : List StoreOp).foldl GraphStore.perform GraphStore.empty
    s.snapshotRelationshipsFiltered "KNOWS" none (some 1) (some 1) =
        (s.rels.vals.filter fun rel => decide (GraphStore.Asked "KNOWS" none (some 1) (some 1) rel)) ∧
      (s.snapshotRelationshipsFiltered "KNOWS" none (some 1) (some 1)).Pairwise fun a b => a.id < b.id := by
  let := Codecs.listed [] []
  refine GraphStore.every_run_lookup_is_scan (fun op member => ?_) "KNOWS" none (some 1) (some 1)
  simp only [List.mem_cons, List.not_mem_nil, or_false] at member
  rcases member with rfl | rfl | rfl <;> trivial
