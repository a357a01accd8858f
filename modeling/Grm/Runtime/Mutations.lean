import Grm.Backend.Overlay
import Grm.Backend.TxRun
import Grm.Runtime.Conformance
import Grm.Runtime.Session

/-!
# What a mutation does

Each mutation of a session runs one transaction on the shared store. On the durable
part it does exactly what its own durable operation means, the operation is
admissible, and the store stays sound.
-/

open Std

set_option autoImplicit false

namespace InMemoryTx
variable {s : GraphStore}

/-- The durable part of a store after a delta was applied, lookup by lookup. -/
theorem applyTo_toPersisted {d : TxDelta} {g : PersistedGraphStore} (h : s.Indexed)
    (nodesBelow : ∀ k ∈ d.nodes, k < s.nextNodeId) (relsBelow : ∀ k ∈ d.rels, k < s.nextRelId)
    (nextNode : s.nextNodeId = g.nextNodeId) (nextRel : s.nextRelId = g.nextRelId)
    (nodes : ∀ k : Int, (d.nodes[k]?).or (if k ∈ d.deletedNodes then none else s.nodes[k]?) = g.nodes[k]?)
    (rels : ∀ k : Int, (d.rels[k]?).or
      (if k ∈ d.deletedRels then none else (s.rels[k]?).filter fun r => !d.severs s r) = g.rels[k]?) :
    (d.applyTo s).toPersisted = g := by
  obtain ⟨nodeCounter, relCounter⟩ := d.applyTo_counters nodesBelow relsBelow
  apply PersistedGraphStore.ext
  · exact nodeCounter.trans nextNode
  · exact relCounter.trans nextRel
  · apply BTreeMap.ext_get
    intro k
    exact (d.applyTo_nodes s k).trans (nodes k)
  · apply BTreeMap.ext_get
    intro k
    exact (d.applyTo_rels h k).trans (rels k)

theorem filter_not_severs {d : TxDelta} (none_deleted : d.deletedNodes = ∅) (found : Option StoredRel) :
    (found.filter fun r => !d.severs s r) = found := by
  cases found <;> simp [TxDelta.severs, none_deleted]

/-- A node created alone in a transaction gets the next id. -/
theorem createNode_commit (h : s.Sound) (labels : List String) (props : Props) :
    ((new s).createNode labels props).2 = { id := s.nextNodeId, labels, props } ∧
      ((new s).createNode labels props).1.commit.toPersisted =
        s.toPersisted.putNode { id := s.nextNodeId, labels, props } := by
  refine ⟨rfl, ?_⟩
  apply applyTo_toPersisted (h.indexed.counters _ _)
  · intro k member
    have here : s.nextNodeId = k := by
      simpa [createNode, new, allocateNodeId, TxDelta.writeNode] using member
    show k < s.nextNodeId + 1
    omega
  · intro k member
    simp [createNode, new, allocateNodeId, TxDelta.writeNode] at member
  · show s.nextNodeId + 1 = max s.nextNodeId (s.nextNodeId + 1)
    omega
  · rfl
  · intro k
    simp only [createNode, new, allocateNodeId, TxDelta.writeNode, PersistedGraphStore.putNode, GraphStore.toPersisted]
    rw [BTreeMap.get_insert, BTreeMap.get_insert]
    split <;> simp
  · intro k
    rw [filter_not_severs (by simp [createNode, new, allocateNodeId, TxDelta.writeNode])]
    simp [createNode, new, allocateNodeId, TxDelta.writeNode, PersistedGraphStore.putNode, GraphStore.toPersisted]

/-- A relationship created alone in a transaction gets the next id. -/
theorem createRelationship_commit (h : s.Sound) (fromId toId : Int) (relType : String) (props : Props) :
    ((new s).createRelationship fromId toId relType props).2 = { id := s.nextRelId, relType, fromId, toId, props } ∧
      ((new s).createRelationship fromId toId relType props).1.commit.toPersisted =
        s.toPersisted.putRel { id := s.nextRelId, relType, fromId, toId, props } := by
  refine ⟨rfl, ?_⟩
  apply applyTo_toPersisted (h.indexed.counters _ _)
  · intro k member
    simp [createRelationship, new, allocateRelId, TxDelta.writeRel] at member
  · intro k member
    have here : s.nextRelId = k := by
      simpa [createRelationship, new, allocateRelId, TxDelta.writeRel] using member
    show k < s.nextRelId + 1
    omega
  · rfl
  · show s.nextRelId + 1 = max s.nextRelId (s.nextRelId + 1)
    omega
  · intro k
    simp [createRelationship, new, allocateRelId, TxDelta.writeRel, PersistedGraphStore.putRel, GraphStore.toPersisted]
  · intro k
    rw [filter_not_severs (by simp [createRelationship, new, allocateRelId, TxDelta.writeRel])]
    simp only [createRelationship, new, allocateRelId, TxDelta.writeRel, PersistedGraphStore.putRel,
      GraphStore.toPersisted]
    rw [BTreeMap.get_insert, BTreeMap.get_insert]
    split <;> simp

@[simp] theorem visibleNode_new (s : GraphStore) (id : Int) : (new s).visibleNode id = s.nodes[id]? := by
  simp [visibleNode, new]

@[simp] theorem updatableRel_new (s : GraphStore) (id : Int) : (new s).updatableRel id = s.rels[id]? := by
  simp [updatableRel, new]

/-- A node updated alone in a transaction. -/
theorem updateNode_commit (h : s.Sound) {node : StoredNode} (stored : s.nodes[node.id]? = some node) (props : Props) :
    ((new s).updateNode node.id props).2 = some { node with props := mergeProps node.props props } ∧
      ((new s).updateNode node.id props).1.commit.toPersisted =
        s.toPersisted.putNode { node with props := mergeProps node.props props } := by
  have below : node.id < s.nextNodeId := h.nodeBelow node.id (BTreeMap.mem_iff_get.2 ⟨node, stored⟩)
  rw [updateNode_eq, visibleNode_new, stored]
  refine ⟨rfl, ?_⟩
  apply applyTo_toPersisted h.indexed
  · intro k member
    have here : node.id = k := by simpa [new, TxDelta.writeNode] using member
    exact here ▸ below
  · intro k member
    simp [new, TxDelta.writeNode] at member
  · show s.nextNodeId = max s.nextNodeId (node.id + 1)
    omega
  · rfl
  · intro k
    simp only [new, TxDelta.writeNode, PersistedGraphStore.putNode, GraphStore.toPersisted]
    rw [BTreeMap.get_insert, BTreeMap.get_insert]
    split <;> simp
  · intro k
    rw [filter_not_severs (by simp [new, TxDelta.writeNode])]
    simp [new, TxDelta.writeNode, PersistedGraphStore.putNode, GraphStore.toPersisted]

/-- A relationship updated alone in a transaction. -/
theorem updateRelationship_commit (h : s.Sound) {rel : StoredRel} (stored : s.rels[rel.id]? = some rel) (props : Props) :
    ((new s).updateRelationship rel.id props).2 = some { rel with props := mergeProps rel.props props } ∧
      ((new s).updateRelationship rel.id props).1.commit.toPersisted =
        s.toPersisted.putRel { rel with props := mergeProps rel.props props } := by
  have below : rel.id < s.nextRelId := h.relBelow rel.id (BTreeMap.mem_iff_get.2 ⟨rel, stored⟩)
  rw [updateRelationship_eq, updatableRel_new, stored]
  refine ⟨rfl, ?_⟩
  apply applyTo_toPersisted h.indexed
  · intro k member
    simp [new, TxDelta.writeRel] at member
  · intro k member
    have here : rel.id = k := by simpa [new, TxDelta.writeRel] using member
    exact here ▸ below
  · rfl
  · show s.nextRelId = max s.nextRelId (rel.id + 1)
    omega
  · intro k
    simp [new, TxDelta.writeRel, PersistedGraphStore.putRel, GraphStore.toPersisted]
  · intro k
    rw [filter_not_severs (by simp [new, TxDelta.writeRel])]
    simp only [new, TxDelta.writeRel, PersistedGraphStore.putRel, GraphStore.toPersisted]
    rw [BTreeMap.get_insert, BTreeMap.get_insert]
    split <;> simp

@[simp] theorem visibleRel_new (s : GraphStore) (id : Int) : (new s).visibleRel id = s.rels[id]? := by
  cases found : s.rels[id]? <;> simp [visibleRel, new, found]

section DeleteNode
variable {id : Int}

theorem deleteNode_new_nodes : ((new s).deleteNode id).delta.nodes = ∅ := by
  have dropped := (TxDelta.dropRels ((new s).delta.dropNode id) _
    (BTreeSet.nodup_toList ((new s).visibleRelatedRelIds id))).2.2.1
  refine dropped.trans ?_
  simp [TxDelta.dropNode, new]

theorem deleteNode_new_rels (k : Int) : ((new s).deleteNode id).delta.rels[k]? = none := by
  rw [deleteNode_deltaRels]
  split <;> simp [new]

theorem mem_deleteNode_new_deletedNodes (k : Int) : k ∈ ((new s).deleteNode id).delta.deletedNodes ↔ id = k := by
  rw [mem_deleteNode_deletedNodes]
  simp [new]

theorem mem_deleteNode_new_deletedRels (h : s.Sound) (stored : id ∈ s.nodes) (k : Int) :
    k ∈ ((new s).deleteNode id).delta.deletedRels ↔ ∃ r, s.rels[k]? = some r ∧ r.touches id = true := by
  have seen : ((new s).visibleNode id).isSome := by
    rw [visibleNode_new]
    exact ExtTreeMap.mem_iff_isSome_getElem?.1 stored
  have base : (new s).delta.rel (new s).store k = s.rels[k]? := by simp [TxDelta.rel, new]
  rw [mem_deleteNode_deletedRels, (valid_new h).mem_visibleRelatedRelIds rfl seen, visibleRel_new, base]
  constructor
  · rintro (⟨⟨r, found, touches, -⟩, -⟩ | member)
    · exact ⟨r, found, touches⟩
    · simp [new] at member
  · rintro ⟨r, found, touches⟩
    exact .inl ⟨⟨r, found, touches, .inr (by rw [found]; rfl)⟩, by simp [new]⟩

theorem deleteNode_new_severs (stored : id ∈ s.nodes) (r : StoredRel) :
    ((new s).deleteNode id).delta.severs s r = r.touches id := by
  rw [Bool.eq_iff_iff]
  simp only [TxDelta.severs, StoredRel.touches, Bool.or_eq_true, Bool.and_eq_true, ExtTreeSet.contains_iff_mem,
    ExtTreeMap.contains_iff_mem, mem_deleteNode_new_deletedNodes, beq_iff_eq]
  constructor
  · rintro (⟨same, -⟩ | ⟨same, -⟩)
    · exact .inl same.symm
    · exact .inr same.symm
  · rintro (same | same)
    · exact .inl ⟨same.symm, same ▸ stored⟩
    · exact .inr ⟨same.symm, same ▸ stored⟩

/-- A stored node deleted alone in a transaction goes with the relationships at it. -/
theorem deleteNode_commit (h : s.Sound) (stored : id ∈ s.nodes) :
    ((new s).deleteNode id).commit.toPersisted = s.toPersisted.dropNode id := by
  apply applyTo_toPersisted h.indexed
  · intro k member
    rw [deleteNode_new_nodes] at member
    simp at member
  · intro k member
    rw [BTreeMap.mem_iff_get, deleteNode_new_rels] at member
    obtain ⟨r, found⟩ := member
    cases found
  · rw [PersistedGraphStore.dropNode_nextNodeId]; rfl
  · rw [PersistedGraphStore.dropNode_nextRelId]; rfl
  · intro k
    rw [deleteNode_new_nodes, PersistedGraphStore.dropNode_nodes, BTreeMap.get_erase]
    simp only [mem_deleteNode_new_deletedNodes, ExtTreeMap.getElem?_empty, Option.none_or]
    rfl
  · intro k
    rw [deleteNode_new_rels, Option.none_or]
    refine Eq.trans ?_ ((PersistedGraphStore.dropNode_rels _ _ _).trans (if_pos stored)).symm
    show _ = (s.rels[k]?).filter _
    simp only [deleteNode_new_severs stored]
    split
    case isTrue member =>
      obtain ⟨r, found, touches⟩ := (mem_deleteNode_new_deletedRels h stored k).1 member
      rw [found, Option.filter_some, if_neg (by simp [touches])]
    case isFalse => rfl

end DeleteNode

/-- A relationship deleted alone in a transaction. -/
theorem deleteRelationship_commit (h : s.Sound) (id : Int) :
    ((new s).deleteRelationship id).commit.toPersisted = s.toPersisted.dropRel id := by
  apply applyTo_toPersisted h.indexed
  · intro k member
    simp [deleteRelationship, new, TxDelta.dropRel] at member
  · intro k member
    simp [deleteRelationship, new, TxDelta.dropRel] at member
  · rfl
  · rfl
  · intro k
    simp [deleteRelationship, new, TxDelta.dropRel, PersistedGraphStore.dropRel, GraphStore.toPersisted]
  · intro k
    rw [filter_not_severs (by simp [deleteRelationship, new, TxDelta.dropRel])]
    simp only [PersistedGraphStore.dropRel, GraphStore.toPersisted, BTreeMap.get_erase]
    simp [deleteRelationship, new, TxDelta.dropRel]

end InMemoryTx

/-! ## The session's mutations -/

namespace SessionState
variable [Externals] {s s' : SessionState}

/-- A mutation did what its durable operation means, in a state where the operation is
admissible. -/
structure Logged (s : SessionState) (op : DurableOperation) (s' : SessionState) : Prop where
  admissible : Admissible s.persistedSession op
  replays : s.persistedSession.replay op = .ok s'.persistedSession
  sound : s'.store.Sound

theorem registerModel_logged (h : s.store.Sound) {model : RuntimeNodeModel} (checked : model.Checked)
    (ok : s.registerModel model = .ok s') : Logged s (.registerNodeModel model) s' := by
  unfold registerModel SessionModelCatalog.registerNodeModel at ok
  split at ok
  · cases ok
  case isFalse free =>
    cases ok
    have fresh : s.catalog.taken model.name = false := by simpa using free
    refine ⟨.defineNode checked fresh, ?_, h⟩
    show (s.catalog.ensureNodeModel model).map _ = _
    rw [SessionModelCatalog.ensureNodeModel_fresh fresh]
    rfl

theorem registerRelModel_logged (h : s.store.Sound) {model : RuntimeRelModel} (checked : model.Checked)
    (ok : s.registerRelModel model = .ok s') : Logged s (.registerRelModel model) s' := by
  unfold registerRelModel at ok
  split at ok
  · cases ok
  case isFalse source =>
    split at ok
    · cases ok
    case isFalse target =>
      unfold SessionModelCatalog.registerRelModel at ok
      split at ok
      · cases ok
      case isFalse free =>
        cases ok
        have fresh : s.catalog.taken model.name = false := by simpa using free
        refine ⟨.defineEdge checked ?_ ?_ fresh, ?_, h⟩
        · exact SessionModelCatalog.mem_nodeModels.2 source
        · exact SessionModelCatalog.mem_nodeModels.2 target
        · show (s.catalog.ensureRelModel model).map _ = _
          rw [SessionModelCatalog.ensureRelModel_fresh fresh]
          rfl

theorem applyDefineNode_logged (h : s.store.Sound) {request : DefineNodeRequest}
    {outcome : RuntimeOperationOutcome RuntimeNodeModel} (ok : s.applyDefineNode request = .ok (s', outcome)) :
    Logged s outcome.durableOp s' := by
  obtain ⟨model, new, ok⟩ := GrmResult.bind_eq_ok.1 ok
  obtain ⟨s'', registered, ok⟩ := GrmResult.bind_eq_ok.1 ok
  cases ok
  have made := RuntimeNodeModel.new_ok new
  have checked : model.Checked := by
    rw [made] at new ⊢
    exact new
  exact registerModel_logged h checked registered

theorem applyDefineEdge_logged (h : s.store.Sound) {request : DefineEdgeRequest}
    {outcome : RuntimeOperationOutcome RuntimeRelModel} (ok : s.applyDefineEdge request = .ok (s', outcome)) :
    Logged s outcome.durableOp s' := by
  obtain ⟨model, new, ok⟩ := GrmResult.bind_eq_ok.1 ok
  obtain ⟨s'', registered, ok⟩ := GrmResult.bind_eq_ok.1 ok
  cases ok
  have made := RuntimeRelModel.new_ok new
  have checked : model.Checked := by
    rw [made] at new ⊢
    exact new
  exact registerRelModel_logged h checked registered

theorem applyNodeCreate_logged (h : s.store.Sound) {model : String} {values : Props}
    {outcome : RuntimeOperationOutcome StoredNode} (ok : s.applyNodeCreate model values = .ok (s', outcome)) :
    Logged s outcome.durableOp s' := by
  obtain ⟨⟨after, node⟩, created, ok⟩ := GrmResult.bind_eq_ok.1 ok
  cases ok
  unfold createInstanceFromProps at created
  split at created
  case h_1 m registered =>
    obtain ⟨props, valid, created⟩ := GrmResult.bind_eq_ok.1 created
    cases created
    obtain ⟨-, conforms⟩ := validatePropsForFields_ok valid
    obtain ⟨made, committed⟩ := InMemoryTx.createNode_commit h [m.label] props
    refine ⟨.createNode registered rfl rfl conforms, ?_, ((InMemoryTx.valid_new h).createNode _ _).commit⟩
    exact congrArg (fun graph => Except.ok (PersistedSession.mk graph s.catalog)) committed.symm
  case h_2 => cases created

omit [Externals] in
theorem findLabelled_ok {tx : InMemoryTx} {id : Int} {label subject name : String} {node : StoredNode}
    (ok : findLabelled tx id label subject name = .ok node) : tx.visibleNode id = some node ∧ label ∈ node.labels := by
  unfold findLabelled at ok
  split at ok
  · cases ok
  case h_2 found seen =>
    split at ok
    case isTrue labelled =>
      cases ok
      exact ⟨seen, by simpa using labelled⟩
    · cases ok

omit [Externals] in
theorem findLabelled_labelled {id : Int} {label subject name : String} {node : StoredNode}
    (ok : findLabelled s.transaction id label subject name = .ok node) :
    s.store.nodes[id]? = some node ∧ label ∈ node.labels := by
  obtain ⟨seen, labelled⟩ := findLabelled_ok ok
  exact ⟨(InMemoryTx.visibleNode_new _ _).symm.trans seen, labelled⟩

theorem applyNodeUpdate_logged (h : s.store.Sound) {model : String} {id : Int} {values : Props}
    {outcome : RuntimeOperationOutcome StoredNode} (ok : s.applyNodeUpdate model id values = .ok (s', outcome)) :
    Logged s outcome.durableOp s' := by
  obtain ⟨⟨after, node⟩, updated, ok⟩ := GrmResult.bind_eq_ok.1 ok
  cases ok
  unfold updateNodeInstanceFromProps at updated
  split at updated
  case h_1 m registered =>
    obtain ⟨props, valid, updated⟩ := GrmResult.bind_eq_ok.1 updated
    obtain ⟨old, found, updated⟩ := GrmResult.bind_eq_ok.1 updated
    obtain ⟨-, declared⟩ := validateUpdateProps_ok valid
    obtain ⟨stored, labelled⟩ := findLabelled_labelled found
    obtain rfl := h.indexed.nodeId id old stored
    obtain ⟨result, committed⟩ := InMemoryTx.updateNode_commit h stored props
    have valid := (InMemoryTx.valid_new h).updateNode old.id props
    split at updated
    case h_1 tx new done =>
      cases updated
      have step : s.transaction.updateNode old.id props = (InMemoryTx.new s.store).updateNode old.id props := rfl
      rw [← step, done] at result committed valid
      cases result
      refine ⟨.updateNode registered stored labelled declared, ?_, valid.commit⟩
      exact congrArg (fun graph => Except.ok (PersistedSession.mk graph s.catalog)) committed.symm
    case h_2 => cases updated
  case h_2 => cases updated

theorem applyNodeDelete_logged (h : s.store.Sound) {model : String} {id : Int}
    {outcome : RuntimeOperationOutcome (String × Int)} (ok : s.applyNodeDelete model id = .ok (s', outcome)) :
    Logged s outcome.durableOp s' := by
  obtain ⟨after, deleted, ok⟩ := GrmResult.bind_eq_ok.1 ok
  cases ok
  unfold deleteNodeInstance at deleted
  split at deleted
  case h_1 m registered =>
    obtain ⟨old, found, deleted⟩ := GrmResult.bind_eq_ok.1 deleted
    cases deleted
    have stored : id ∈ s.store.nodes := BTreeMap.mem_iff_get.2 ⟨old, (findLabelled_labelled found).1⟩
    refine ⟨.deleteNode stored, ?_, ((InMemoryTx.valid_new h).deleteNode id).commit⟩
    exact congrArg (fun graph => Except.ok (PersistedSession.mk graph s.catalog))
      (InMemoryTx.deleteNode_commit h stored).symm
  case h_2 => cases deleted

theorem applyEdgeCreate_logged (h : s.store.Sound) {model : String} {fromId toId : Int} {values : Props}
    {outcome : RuntimeOperationOutcome StoredRel} (ok : s.applyEdgeCreate model fromId toId values = .ok (s', outcome)) :
    Logged s outcome.durableOp s' := by
  obtain ⟨⟨after, rel⟩, created, ok⟩ := GrmResult.bind_eq_ok.1 ok
  cases ok
  unfold createRelationshipInstanceFromProps at created
  split at created
  case h_1 m registered =>
    obtain ⟨props, valid, created⟩ := GrmResult.bind_eq_ok.1 created
    obtain ⟨source, foundSource, created⟩ := GrmResult.bind_eq_ok.1 created
    obtain ⟨target, foundTarget, created⟩ := GrmResult.bind_eq_ok.1 created
    cases created
    obtain ⟨-, conforms⟩ := validatePropsForFields_ok valid
    obtain ⟨made, committed⟩ := InMemoryTx.createRelationship_commit h fromId toId m.relType props
    refine ⟨.createRel registered rfl rfl ⟨source, findLabelled_labelled foundSource⟩
      ⟨target, findLabelled_labelled foundTarget⟩ conforms, ?_,
      ((InMemoryTx.valid_new h).createRelationship _ _ _ _).commit⟩
    exact congrArg (fun graph => Except.ok (PersistedSession.mk graph s.catalog)) committed.symm
  case h_2 => cases created

omit [Externals] in
theorem applyOffsetLimit_none {α : Type} (items : List α) : applyOffsetLimit items none none = items := by
  unfold applyOffsetLimit
  cases items <;> simp

/-- A lookup by id alone is a lookup in the store. -/
theorem findRelationshipById_eq {model : String} {m : RuntimeRelModel} (registered : s.catalog.getRelModel model = some m)
    (id : Int) :
    s.findRelationshipById model id = .ok ((s.store.rels[id]?).filter (GraphStore.relSelected m.relType none none)) := by
  have found : s.findRelationshipsWithQuery model { idFilter := some id } =
      .ok ((s.store.rels[id]?).filter (GraphStore.relSelected m.relType none none)).toList := by
    simp only [findRelationshipsWithQuery, registered]
    show Except.ok (applyOffsetLimit (List.filter (fun rel => matchesPredicates rel.props []) _) none none) = _
    rw [applyOffsetLimit_none]
    exact congrArg Except.ok (List.filter_eq_self.2 fun rel _ => rfl)
  rw [findRelationshipById, found]
  cases (s.store.rels[id]?).filter (GraphStore.relSelected m.relType none none) <;> rfl

/-- The edge an update or a deletion addresses is stored and has the model's type. -/
theorem findEdge_ok {model : String} {id : Int} {rel : StoredRel} (ok : s.findEdge model id = .ok rel) :
    ∃ m, s.catalog.getRelModel model = some m ∧ s.store.rels[id]? = some rel ∧ rel.relType = m.relType := by
  obtain ⟨found, looked, ok⟩ := GrmResult.bind_eq_ok.1 ok
  cases registered : s.catalog.getRelModel model with
  | none =>
    simp only [findRelationshipById, findRelationshipsWithQuery, registered] at looked
    cases looked
  | some m =>
    rw [findRelationshipById_eq registered] at looked
    cases found with
    | none => cases ok
    | some rel' =>
      cases ok
      obtain ⟨stored, selected⟩ := Option.filter_eq_some_iff.1 (Except.ok.inj looked)
      refine ⟨m, rfl, stored, ?_⟩
      simpa [GraphStore.relSelected] using selected

theorem applyEdgeUpdate_logged (h : s.store.Sound) {model : String} {id : Int} {values : Props}
    {outcome : RuntimeOperationOutcome StoredRel} (ok : s.applyEdgeUpdate model id values = .ok (s', outcome)) :
    Logged s outcome.durableOp s' := by
  obtain ⟨⟨after, rel⟩, updated, ok⟩ := GrmResult.bind_eq_ok.1 ok
  cases ok
  unfold updateRelationshipInstanceFromProps at updated
  split at updated
  case h_1 m registered =>
    obtain ⟨props, valid, updated⟩ := GrmResult.bind_eq_ok.1 updated
    obtain ⟨old, found, updated⟩ := GrmResult.bind_eq_ok.1 updated
    obtain ⟨-, declared⟩ := validateUpdateProps_ok valid
    obtain ⟨m', again, stored, type⟩ := findEdge_ok found
    rw [registered] at again
    cases again
    obtain rfl := h.indexed.relId id old stored
    obtain ⟨result, committed⟩ := InMemoryTx.updateRelationship_commit h stored props
    have valid := (InMemoryTx.valid_new h).updateRelationship old.id props
    split at updated
    case h_1 tx new done =>
      cases updated
      have step : s.transaction.updateRelationship old.id props =
        (InMemoryTx.new s.store).updateRelationship old.id props := rfl
      rw [← step, done] at result committed valid
      cases result
      refine ⟨.updateRel registered stored type declared, ?_, valid.commit⟩
      exact congrArg (fun graph => Except.ok (PersistedSession.mk graph s.catalog)) committed.symm
    case h_2 => cases updated
  case h_2 => cases updated

theorem applyEdgeDelete_logged (h : s.store.Sound) {model : String} {id : Int}
    {outcome : RuntimeOperationOutcome (String × Int)} (ok : s.applyEdgeDelete model id = .ok (s', outcome)) :
    Logged s outcome.durableOp s' := by
  obtain ⟨after, deleted, ok⟩ := GrmResult.bind_eq_ok.1 ok
  cases ok
  obtain ⟨old, found, deleted⟩ := GrmResult.bind_eq_ok.1 deleted
  cases deleted
  obtain ⟨m, -, stored, -⟩ := findEdge_ok found
  obtain rfl := h.indexed.relId id old stored
  refine ⟨.deleteRel (BTreeMap.mem_iff_get.2 ⟨old, stored⟩), ?_,
    ((InMemoryTx.valid_new h).deleteRelationship old.id).commit⟩
  exact congrArg (fun graph => Except.ok (PersistedSession.mk graph s.catalog))
    (InMemoryTx.deleteRelationship_commit h old.id).symm

end SessionState
