import Grm.Backend.TxView
import Grm.Runtime.Interchange
import Grm.Runtime.Persisted

/-!
# Id counters in fixed width

The counters of a store are `i64`. A log entry moves a counter to the id's successor, here
with the successor as a parameter: exact, as the rest of the development has it, or in
`i64`. Replay and import compute the same counters both ways but where an id is the greatest
of the type.
-/

open Std

set_option autoImplicit false

/-! ## Replay -/

mutual

/-- `apply_session_log_entry`, with the successor of an id as a parameter. -/
def applySessionLogEntryWith (succ : Int → Int) (s : SessionState) : DurableOperation → GrmResult SessionState
  | .registerNodeModel model =>
    (s.catalog.ensureNodeModel model).map fun catalog => { s with catalog }
  | .registerRelModel model =>
    (s.catalog.ensureRelModel model).map fun catalog => { s with catalog }
  | .upsertNode node =>
    .ok { s with store :=
      { s.store with nextNodeId := max s.store.nextNodeId (succ node.id) }.insertNode node.id node }
  | .deleteNode id => .ok { s with store := s.store.removeNode id }
  | .upsertRel rel =>
    .ok { s with store :=
      { s.store with nextRelId := max s.store.nextRelId (succ rel.id) }.insertRelationship rel.id rel }
  | .deleteRel id => .ok { s with store := s.store.removeRelationship id }
  | .batch ops => applySessionLogEntriesWith succ s ops

/-- The entries of a log, or of a batch, one after the other. -/
def applySessionLogEntriesWith (succ : Int → Int) (s : SessionState) : List DurableOperation → GrmResult SessionState
  | [] => .ok s
  | entry :: entries =>
    (applySessionLogEntryWith succ s entry).bind fun s => applySessionLogEntriesWith succ s entries

end

mutual

/-- The written node and relationship ids of the entry meet the conditions. -/
def DurableOperation.IdsMeet (node rel : Int → Prop) : DurableOperation → Prop
  | .upsertNode written => node written.id
  | .upsertRel written => rel written.id
  | .batch ops => DurableOperation.AllMeet node rel ops
  | _ => True

/-- The written ids of the entries meet the conditions. -/
def DurableOperation.AllMeet (node rel : Int → Prop) : List DurableOperation → Prop
  | [] => True
  | entry :: entries => entry.IdsMeet node rel ∧ DurableOperation.AllMeet node rel entries

end

namespace DurableOperation

mutual

theorem IdsMeet.imp {node node' rel rel' : Int → Prop} (nodes : ∀ id, node id → node' id) (rels : ∀ id, rel id → rel' id) :
    ∀ {op : DurableOperation}, op.IdsMeet node rel → op.IdsMeet node' rel'
  | .upsertNode _, meets => nodes _ meets
  | .upsertRel _, meets => rels _ meets
  | .batch _, meets => AllMeet.imp nodes rels meets
  | .registerNodeModel _, _ => trivial
  | .registerRelModel _, _ => trivial
  | .deleteNode _, _ => trivial
  | .deleteRel _, _ => trivial

theorem AllMeet.imp {node node' rel rel' : Int → Prop} (nodes : ∀ id, node id → node' id) (rels : ∀ id, rel id → rel' id) :
    ∀ {ops : List DurableOperation}, AllMeet node rel ops → AllMeet node' rel' ops
  | [], _ => trivial
  | _ :: _, meets => ⟨meets.1.imp nodes rels, AllMeet.imp nodes rels meets.2⟩

end

end DurableOperation

open DurableOperation

namespace SessionState

mutual

theorem applySessionLogEntryWith_exact (s : SessionState) : ∀ op : DurableOperation,
    applySessionLogEntryWith (· + 1) s op = applySessionLogEntry s op
  | .registerNodeModel _ => by rw [applySessionLogEntryWith, applySessionLogEntry]
  | .registerRelModel _ => by rw [applySessionLogEntryWith, applySessionLogEntry]
  | .upsertNode _ => by rw [applySessionLogEntryWith, applySessionLogEntry, GraphStore.putNode]
  | .deleteNode _ => by rw [applySessionLogEntryWith, applySessionLogEntry]
  | .upsertRel _ => by rw [applySessionLogEntryWith, applySessionLogEntry, GraphStore.putRel]
  | .deleteRel _ => by rw [applySessionLogEntryWith, applySessionLogEntry]
  | .batch ops => by
    rw [applySessionLogEntryWith, applySessionLogEntry]
    exact applySessionLogEntriesWith_exact s ops

/-- With the exact successor a log is replayed as everywhere else. -/
theorem applySessionLogEntriesWith_exact (s : SessionState) : ∀ ops : List DurableOperation,
    applySessionLogEntriesWith (· + 1) s ops = applySessionLogEntries s ops
  | [] => by rw [applySessionLogEntriesWith, applySessionLogEntries]
  | op :: ops => by
    rw [applySessionLogEntriesWith, applySessionLogEntries, applySessionLogEntryWith_exact s op]
    congr 1
    funext s'
    exact applySessionLogEntriesWith_exact s' ops

end

mutual

theorem applySessionLogEntryWith_congr {f g : Int → Int} (s : SessionState) : ∀ {op : DurableOperation},
    op.IdsMeet (fun id => f id = g id) (fun id => f id = g id) →
      applySessionLogEntryWith f s op = applySessionLogEntryWith g s op
  | .registerNodeModel _, _ => by rw [applySessionLogEntryWith, applySessionLogEntryWith]
  | .registerRelModel _, _ => by rw [applySessionLogEntryWith, applySessionLogEntryWith]
  | .upsertNode node, same => by
    have successor : f node.id = g node.id := same
    rw [applySessionLogEntryWith, applySessionLogEntryWith, successor]
  | .deleteNode _, _ => by rw [applySessionLogEntryWith, applySessionLogEntryWith]
  | .upsertRel rel, same => by
    have successor : f rel.id = g rel.id := same
    rw [applySessionLogEntryWith, applySessionLogEntryWith, successor]
  | .deleteRel _, _ => by rw [applySessionLogEntryWith, applySessionLogEntryWith]
  | .batch ops, same => by
    rw [applySessionLogEntryWith, applySessionLogEntryWith]
    exact applySessionLogEntriesWith_congr s same

/-- Successors that agree on the written ids replay a log alike. -/
theorem applySessionLogEntriesWith_congr {f g : Int → Int} (s : SessionState) : ∀ {ops : List DurableOperation},
    AllMeet (fun id => f id = g id) (fun id => f id = g id) ops →
      applySessionLogEntriesWith f s ops = applySessionLogEntriesWith g s ops
  | [], _ => by rw [applySessionLogEntriesWith, applySessionLogEntriesWith]
  | op :: ops, same => by
    rw [applySessionLogEntriesWith, applySessionLogEntriesWith, applySessionLogEntryWith_congr s same.1]
    congr 1
    funext s'
    exact applySessionLogEntriesWith_congr s' same.2

end

mutual

theorem applySessionLogEntryWith_counters {succ : Int → Int} {s s' : SessionState} (a b : Int) :
    ∀ {op : DurableOperation}, applySessionLogEntryWith succ s op = .ok s' →
      (s'.store.nextNodeId ≤ a ∧ s'.store.nextRelId ≤ b ↔
        (s.store.nextNodeId ≤ a ∧ s.store.nextRelId ≤ b) ∧ op.IdsMeet (fun id => succ id ≤ a) (fun id => succ id ≤ b))
  | .registerNodeModel _, ok => by
    rw [applySessionLogEntryWith] at ok
    obtain ⟨_, -, rfl⟩ := GrmResult.map_eq_ok.1 ok
    simp [IdsMeet]
  | .registerRelModel _, ok => by
    rw [applySessionLogEntryWith] at ok
    obtain ⟨_, -, rfl⟩ := GrmResult.map_eq_ok.1 ok
    simp [IdsMeet]
  | .upsertNode node, ok => by
    rw [applySessionLogEntryWith] at ok
    cases ok
    simp only [GraphStore.insertNode_nextNodeId, GraphStore.insertNode_nextRelId, IdsMeet]
    omega
  | .deleteNode id, ok => by
    rw [applySessionLogEntryWith] at ok
    cases ok
    simp [IdsMeet]
  | .upsertRel rel, ok => by
    rw [applySessionLogEntryWith] at ok
    cases ok
    simp only [GraphStore.insertRelationship_nextNodeId, GraphStore.insertRelationship_nextRelId, IdsMeet]
    omega
  | .deleteRel id, ok => by
    rw [applySessionLogEntryWith] at ok
    cases ok
    simp [IdsMeet]
  | .batch ops, ok => by
    rw [applySessionLogEntryWith] at ok
    exact applySessionLogEntriesWith_counters a b ok

/-- The counters after a log are the least that are above those before and the successors of the
written ids. -/
theorem applySessionLogEntriesWith_counters {succ : Int → Int} {s s' : SessionState} (a b : Int) :
    ∀ {ops : List DurableOperation}, applySessionLogEntriesWith succ s ops = .ok s' →
      (s'.store.nextNodeId ≤ a ∧ s'.store.nextRelId ≤ b ↔
        (s.store.nextNodeId ≤ a ∧ s.store.nextRelId ≤ b) ∧ AllMeet (fun id => succ id ≤ a) (fun id => succ id ≤ b) ops)
  | [], ok => by
    rw [applySessionLogEntriesWith] at ok
    cases ok
    simp [AllMeet]
  | op :: ops, ok => by
    rw [applySessionLogEntriesWith] at ok
    obtain ⟨next, first, rest⟩ := GrmResult.bind_eq_ok.1 ok
    rw [applySessionLogEntriesWith_counters a b rest, applySessionLogEntryWith_counters a b first, and_assoc]
    rfl

end

end SessionState

theorem i64Succ_eq {id : Int} : i64Succ id = id + 1 ↔ id ≠ i64Max := by
  unfold i64Succ i64Min
  split
  next same => simp only [same, i64Max]; omega
  next apart => simp [apart]

theorem i64Succ_le {id : Int} (range : id ≤ i64Max) : i64Succ id ≤ i64Max := by
  unfold i64Succ i64Min
  split
  · decide
  · omega

namespace GraphStore

/-- The counters are above the ids, and the ids that the next transaction allocates are unused. -/
structure LeavesRoom (s : GraphStore) : Prop where
  nodes : ∀ k ∈ s.nodes, k < s.nextNodeId
  rels : ∀ k ∈ s.rels, k < s.nextRelId
  freshNode : (InMemoryTx.new s).allocateNodeId.2 ∉ s.nodes
  freshRel : (InMemoryTx.new s).allocateRelId.2 ∉ s.rels

theorem leavesRoom_of_below {s : GraphStore} (nodes : ∀ k ∈ s.nodes, k < s.nextNodeId)
    (rels : ∀ k ∈ s.rels, k < s.nextRelId) : s.LeavesRoom where
  nodes := nodes
  rels := rels
  freshNode used := Int.lt_irrefl _ (nodes _ used)
  freshRel used := Int.lt_irrefl _ (rels _ used)

theorem Sound.putNode {s : GraphStore} (h : s.Sound) {node : StoredNode} : (s.putNode node.id node).Sound where
  indexed := h.indexed.putNode rfl
  nodeBelow k member := by
    simp only [GraphStore.putNode, insertNode_nodes, insertNode_nextNodeId, BTreeMap.mem_insert] at member ⊢
    rcases member with rfl | earlier
    · omega
    · have below := h.nodeBelow k earlier
      omega
  relBelow k member := by
    simp only [GraphStore.putNode, insertNode_rels, insertNode_nextRelId] at member ⊢
    exact h.relBelow k member

theorem Sound.putRel {s : GraphStore} (h : s.Sound) {rel : StoredRel} : (s.putRel rel.id rel).Sound where
  indexed := h.indexed.putRel rfl
  nodeBelow k member := by
    simp only [GraphStore.putRel, insertRelationship_nodes, insertRelationship_nextNodeId] at member ⊢
    exact h.nodeBelow k member
  relBelow k member := by
    simp only [GraphStore.putRel, insertRelationship_rels, insertRelationship_nextRelId, BTreeMap.mem_insert] at member ⊢
    rcases member with rfl | earlier
    · omega
    · have below := h.relBelow k earlier
      omega

theorem Sound.removeRelationship {s : GraphStore} (h : s.Sound) (id : Int) : (s.removeRelationship id).Sound where
  indexed := h.indexed.removeRelationship id
  nodeBelow k member := by
    simp only [removeRelationship_nodes, removeRelationship_nextNodeId] at member ⊢
    exact h.nodeBelow k member
  relBelow k member := by
    simp only [removeRelationship_rels, removeRelationship_nextRelId, BTreeMap.mem_erase] at member ⊢
    exact h.relBelow k member.2

theorem Sound.removeNode {s : GraphStore} (h : s.Sound) (id : Int) : (s.removeNode id).Sound where
  indexed := h.indexed.removeNode id
  nodeBelow k member := by
    simp only [removeNode_nodes, removeNode_nextNodeId, BTreeMap.mem_erase] at member ⊢
    exact h.nodeBelow k member.2
  relBelow k member := by
    rw [removeNode_nextRelId]
    apply h.relBelow k
    rw [BTreeMap.mem_iff_get] at member ⊢
    obtain ⟨rel, found⟩ := member
    rw [removeNode_rels h.indexed.relId] at found
    split at found
    · exact ⟨rel, (Option.filter_eq_some_iff.1 found).1⟩
    · exact ⟨rel, found⟩

end GraphStore

namespace SessionState

mutual

theorem applySessionLogEntry_sound {s s' : SessionState} (h : s.store.Sound) : ∀ {op : DurableOperation},
    applySessionLogEntry s op = .ok s' → s'.store.Sound
  | .registerNodeModel _, ok => by
    rw [applySessionLogEntry] at ok
    obtain ⟨_, -, rfl⟩ := GrmResult.map_eq_ok.1 ok
    exact h
  | .registerRelModel _, ok => by
    rw [applySessionLogEntry] at ok
    obtain ⟨_, -, rfl⟩ := GrmResult.map_eq_ok.1 ok
    exact h
  | .upsertNode _, ok => by
    rw [applySessionLogEntry] at ok
    cases ok
    exact h.putNode
  | .deleteNode id, ok => by
    rw [applySessionLogEntry] at ok
    cases ok
    exact h.removeNode id
  | .upsertRel _, ok => by
    rw [applySessionLogEntry] at ok
    cases ok
    exact h.putRel
  | .deleteRel id, ok => by
    rw [applySessionLogEntry] at ok
    cases ok
    exact h.removeRelationship id
  | .batch ops, ok => by
    rw [applySessionLogEntry] at ok
    exact applySessionLogEntries_sound h ok

/-- A log replayed exactly keeps every id below its counter. -/
theorem applySessionLogEntries_sound {s s' : SessionState} (h : s.store.Sound) : ∀ {ops : List DurableOperation},
    applySessionLogEntries s ops = .ok s' → s'.store.Sound
  | [], ok => by
    rw [applySessionLogEntries] at ok
    cases ok
    exact h
  | op :: ops, ok => by
    rw [applySessionLogEntries] at ok
    obtain ⟨next, first, rest⟩ := GrmResult.bind_eq_ok.1 ok
    exact applySessionLogEntries_sound (applySessionLogEntry_sound h first) rest

end

/-- A log of `i64` ids is replayed as with exact counters, with room left, if and only if it writes
no record under the greatest id. -/
theorem replayed_ids_leave_room {s s' : SessionState} (h : s.store.Sound) (range : s.store.nextNodeId ≤ i64Max ∧
    s.store.nextRelId ≤ i64Max) {ops : List DurableOperation} (ids : AllMeet (· ≤ i64Max) (· ≤ i64Max) ops)
    (ok : applySessionLogEntriesWith i64Succ s ops = .ok s') :
    (applySessionLogEntries s ops = .ok s' ∧ s'.store.LeavesRoom) ↔ AllMeet (· ≠ i64Max) (· ≠ i64Max) ops := by
  constructor
  · intro ⟨exactly, _⟩
    rw [← applySessionLogEntriesWith_exact] at exactly
    have bounded : AllMeet (fun id => i64Succ id ≤ i64Max) (fun id => i64Succ id ≤ i64Max) ops :=
      ids.imp (fun _ => i64Succ_le) fun _ => i64Succ_le
    have inside := (applySessionLogEntriesWith_counters i64Max i64Max ok).2 ⟨range, bounded⟩
    have below := ((applySessionLogEntriesWith_counters i64Max i64Max exactly).1 inside).2
    have apart : ∀ id : Int, id + 1 ≤ i64Max → id ≠ i64Max := by
      intro id least same
      omega
    exact below.imp apart apart
  · intro apart
    have same : AllMeet (fun id => i64Succ id = id + 1) (fun id => i64Succ id = id + 1) ops :=
      apart.imp (fun _ => i64Succ_eq.2) fun _ => i64Succ_eq.2
    rw [applySessionLogEntriesWith_congr s same, applySessionLogEntriesWith_exact] at ok
    have sound := applySessionLogEntries_sound h ok
    exact ⟨ok, GraphStore.leavesRoom_of_below sound.nodeBelow sound.relBelow⟩

end SessionState

/-! ## Import -/

/-- The greatest of the ids, zero when there is none above it. -/
def greatestId (ids : List Int) : Int := ids.foldl max 0

theorem foldl_max_bounds (ids : List Int) (start : Int) :
    start ≤ ids.foldl max start ∧ (∀ id ∈ ids, id ≤ ids.foldl max start) ∧
      (ids.foldl max start = start ∨ ids.foldl max start ∈ ids) := by
  induction ids generalizing start with
  | nil => simp
  | cons id ids ih =>
    obtain ⟨least, bounds, source⟩ := ih (max start id)
    rw [List.foldl_cons]
    refine ⟨by omega, ?_, ?_⟩
    · rw [List.forall_mem_cons]
      exact ⟨by omega, bounds⟩
    · rcases source with same | later
      · rcases Int.le_total start id with above | below
        · right
          rw [same, max_eq_right above]
          exact List.mem_cons_self
        · left
          rw [same, max_eq_left below]
      · exact .inr (List.mem_cons_of_mem id later)

/-- The greatest id is that of the type only when one of the ids is. -/
theorem greatestId_ne {ids : List Int} (range : ∀ id ∈ ids, id ≤ i64Max) :
    greatestId ids ≠ i64Max ↔ ∀ id ∈ ids, id ≠ i64Max := by
  obtain ⟨-, bounds, source⟩ := foldl_max_bounds ids 0
  unfold greatestId
  constructor
  · intro apart id listed same
    have bound := bounds id listed
    rcases source with zero | later
    · rw [zero, same] at bound
      exact absurd bound (by decide)
    · have top := range _ later
      omega
  · intro apart same
    rcases source with zero | later
    · rw [zero] at same
      exact absurd same (by decide)
    · exact apart _ later same

section Import
variable [Externals]

theorem importNode_ok {catalog : SessionModelCatalog} {state state' : GraphStore × Int} {node : InterchangeNode}
    (ok : importNode catalog state node = .ok state') :
    (∃ stored, state'.1.nodes = state.1.nodes.insert node.id stored) ∧ state'.1.rels = state.1.rels ∧
      state'.2 = max state.2 node.id := by
  obtain ⟨_, -, ok⟩ := GrmResult.bind_eq_ok.1 ok
  obtain ⟨model, -, ok⟩ := GrmResult.bind_eq_ok.1 ok
  obtain ⟨_, -, ok⟩ := GrmResult.bind_eq_ok.1 ok
  obtain ⟨_, -, ok⟩ := GrmResult.bind_eq_ok.1 ok
  cases ok
  exact ⟨⟨_, GraphStore.insertNode_nodes _ _ _⟩, GraphStore.insertNode_rels _ _ _, rfl⟩

theorem importEdge_ok {catalog : SessionModelCatalog} {state state' : GraphStore × Int} {edge : InterchangeEdge}
    (ok : importEdge catalog state edge = .ok state') :
    state'.1.nodes = state.1.nodes ∧ (∃ stored, state'.1.rels = state.1.rels.insert edge.id stored) ∧
      state'.2 = max state.2 edge.id := by
  obtain ⟨_, -, ok⟩ := GrmResult.bind_eq_ok.1 ok
  obtain ⟨model, -, ok⟩ := GrmResult.bind_eq_ok.1 ok
  obtain ⟨_, -, ok⟩ := GrmResult.bind_eq_ok.1 ok
  obtain ⟨source, -, ok⟩ := GrmResult.bind_eq_ok.1 ok
  obtain ⟨target, -, ok⟩ := GrmResult.bind_eq_ok.1 ok
  obtain ⟨_, -, ok⟩ := GrmResult.bind_eq_ok.1 ok
  obtain ⟨_, -, ok⟩ := GrmResult.bind_eq_ok.1 ok
  obtain ⟨_, -, ok⟩ := GrmResult.bind_eq_ok.1 ok
  cases ok
  exact ⟨GraphStore.insertRelationship_nodes _ _ _, ⟨_, GraphStore.insertRelationship_rels _ _ _⟩, rfl⟩

/-- The nodes of a document are read into the store under their ids, and the greatest is kept. -/
theorem importNodes_ok {catalog : SessionModelCatalog} {nodes : List InterchangeNode} {state state' : GraphStore × Int}
    (ok : nodes.foldlM (importNode catalog) state = .ok state') :
    (∀ k, k ∈ state'.1.nodes ↔ k ∈ state.1.nodes ∨ k ∈ nodes.map InterchangeNode.id) ∧ state'.1.rels = state.1.rels ∧
      state'.2 = (nodes.map InterchangeNode.id).foldl max state.2 := by
  induction nodes generalizing state with
  | nil => cases ok; simp
  | cons node nodes ih =>
    rw [List.foldlM_cons] at ok
    obtain ⟨next, first, rest⟩ := GrmResult.bind_eq_ok.1 ok
    obtain ⟨⟨stored, inserted⟩, rels, greatest⟩ := importNode_ok first
    obtain ⟨members, sameRels, last⟩ := ih rest
    refine ⟨fun k => ?_, sameRels.trans rels, ?_⟩
    · rw [members k, inserted, BTreeMap.mem_insert, List.map_cons, List.mem_cons, eq_comm (a := node.id), or_assoc,
        or_left_comm]
    · rw [last, greatest, List.map_cons, List.foldl_cons]

/-- The edges of a document are read into the store under their ids, and the greatest is kept. -/
theorem importEdges_ok {catalog : SessionModelCatalog} {edges : List InterchangeEdge} {state state' : GraphStore × Int}
    (ok : edges.foldlM (importEdge catalog) state = .ok state') :
    state'.1.nodes = state.1.nodes ∧ (∀ k, k ∈ state'.1.rels ↔ k ∈ state.1.rels ∨ k ∈ edges.map InterchangeEdge.id) ∧
      state'.2 = (edges.map InterchangeEdge.id).foldl max state.2 := by
  induction edges generalizing state with
  | nil => cases ok; simp
  | cons edge edges ih =>
    rw [List.foldlM_cons] at ok
    obtain ⟨next, first, rest⟩ := GrmResult.bind_eq_ok.1 ok
    obtain ⟨nodes, ⟨stored, inserted⟩, greatest⟩ := importEdge_ok first
    obtain ⟨sameNodes, members, last⟩ := ih rest
    refine ⟨sameNodes.trans nodes, fun k => ?_, ?_⟩
    · rw [members k, inserted, BTreeMap.mem_insert, List.map_cons, List.mem_cons, eq_comm (a := edge.id), or_assoc,
        or_left_comm]
    · rw [last, greatest, List.map_cons, List.foldl_cons]

/-- The ids and the counters of an imported store. -/
theorem buildImportedInterchange_ids {document : InterchangeDocument} {catalog : SessionModelCatalog} {store : GraphStore}
    (ok : buildImportedInterchange document = .ok (catalog, store)) :
    (∀ k, k ∈ store.nodes ↔ k ∈ document.data.nodes.map InterchangeNode.id) ∧
      (∀ k, k ∈ store.rels ↔ k ∈ document.data.edges.map InterchangeEdge.id) ∧
      store.nextNodeId = i64Succ (greatestId (document.data.nodes.map InterchangeNode.id)) ∧
      store.nextRelId = i64Succ (greatestId (document.data.edges.map InterchangeEdge.id)) := by
  obtain ⟨_, -, ok⟩ := GrmResult.bind_eq_ok.1 ok
  obtain ⟨nodeModels, -, ok⟩ := GrmResult.bind_eq_ok.1 ok
  obtain ⟨edgeModels, -, ok⟩ := GrmResult.bind_eq_ok.1 ok
  obtain ⟨nodes, nodesRead, ok⟩ := GrmResult.bind_eq_ok.1 ok
  obtain ⟨edges, edgesRead, ok⟩ := GrmResult.bind_eq_ok.1 ok
  cases ok
  obtain ⟨nodeMembers, noRels, greatestNode⟩ := importNodes_ok nodesRead
  obtain ⟨sameNodes, relMembers, greatestRel⟩ := importEdges_ok edgesRead
  refine ⟨fun k => ?_, fun k => ?_, ?_, ?_⟩
  · rw [show k ∈ ({ edges.1 with nextNodeId := i64Succ nodes.2, nextRelId := i64Succ edges.2 } : GraphStore).nodes ↔
      k ∈ edges.1.nodes from Iff.rfl, sameNodes, nodeMembers k]
    simp [GraphStore.empty]
  · rw [show k ∈ ({ edges.1 with nextNodeId := i64Succ nodes.2, nextRelId := i64Succ edges.2 } : GraphStore).rels ↔
      k ∈ edges.1.rels from Iff.rfl, relMembers k]
    simp [noRels, GraphStore.empty]
  · exact congrArg i64Succ greatestNode
  · exact congrArg i64Succ greatestRel

/-- An imported document of `i64` ids has its counters one past the greatest ids, with room left, if
and only if no record has the greatest id of the type. -/
theorem imported_ids_leave_room {document : InterchangeDocument} {catalog : SessionModelCatalog} {store : GraphStore}
    (nodeIds : ∀ id ∈ document.data.nodes.map InterchangeNode.id, id ≤ i64Max)
    (edgeIds : ∀ id ∈ document.data.edges.map InterchangeEdge.id, id ≤ i64Max)
    (ok : buildImportedInterchange document = .ok (catalog, store)) :
    (store.nextNodeId = greatestId (document.data.nodes.map InterchangeNode.id) + 1 ∧
        store.nextRelId = greatestId (document.data.edges.map InterchangeEdge.id) + 1 ∧ store.LeavesRoom) ↔
      (∀ id ∈ document.data.nodes.map InterchangeNode.id, id ≠ i64Max) ∧
        ∀ id ∈ document.data.edges.map InterchangeEdge.id, id ≠ i64Max := by
  obtain ⟨nodes, rels, nextNode, nextRel⟩ := buildImportedInterchange_ids ok
  rw [nextNode, nextRel, i64Succ_eq, i64Succ_eq, greatestId_ne nodeIds, greatestId_ne edgeIds]
  constructor
  · intro ⟨nodesApart, edgesApart, _⟩
    exact ⟨nodesApart, edgesApart⟩
  · intro ⟨nodesApart, edgesApart⟩
    refine ⟨nodesApart, edgesApart, GraphStore.leavesRoom_of_below ?_ ?_⟩
    · intro k member
      have bound := (foldl_max_bounds (document.data.nodes.map InterchangeNode.id) 0).2.1 k ((nodes k).1 member)
      rw [nextNode, i64Succ_eq.2 ((greatestId_ne nodeIds).2 nodesApart)]
      exact Int.lt_add_one_of_le bound
    · intro k member
      have bound := (foldl_max_bounds (document.data.edges.map InterchangeEdge.id) 0).2.1 k ((rels k).1 member)
      rw [nextRel, i64Succ_eq.2 ((greatestId_ne edgeIds).2 edgesApart)]
      exact Int.lt_add_one_of_le bound

end Import

/-- Imported and replayed counters are exact and above every id, and the next record gets an unused
one, if and only if no record is written under the greatest id of the type. -/
theorem ids_leave_room_iff [Externals] :
    (∀ document catalog store, (∀ id ∈ document.data.nodes.map InterchangeNode.id, id ≤ i64Max) →
      (∀ id ∈ document.data.edges.map InterchangeEdge.id, id ≤ i64Max) →
      buildImportedInterchange document = .ok (catalog, store) →
      ((store.nextNodeId = greatestId (document.data.nodes.map InterchangeNode.id) + 1 ∧
          store.nextRelId = greatestId (document.data.edges.map InterchangeEdge.id) + 1 ∧ store.LeavesRoom) ↔
        (∀ id ∈ document.data.nodes.map InterchangeNode.id, id ≠ i64Max) ∧
          ∀ id ∈ document.data.edges.map InterchangeEdge.id, id ≠ i64Max)) ∧
    ∀ (s s' : SessionState) (ops : List DurableOperation), s.store.Sound → s.store.nextNodeId ≤ i64Max →
      s.store.nextRelId ≤ i64Max → AllMeet (· ≤ i64Max) (· ≤ i64Max) ops →
      applySessionLogEntriesWith i64Succ s ops = .ok s' →
      ((applySessionLogEntries s ops = .ok s' ∧ s'.store.LeavesRoom) ↔ AllMeet (· ≠ i64Max) (· ≠ i64Max) ops) := by
  constructor
  · intro document catalog store nodeIds edgeIds ok
    exact imported_ids_leave_room nodeIds edgeIds ok
  · intro s s' ops sound nodeRange relRange ids ok
    exact SessionState.replayed_ids_leave_room sound ⟨nodeRange, relRange⟩ ids ok

/-- A document of one user. -/
def userDocument (id : Int) : InterchangeDocument where
  format := "grm.interchange"
  version := 1
  kind := "graph"
  identity := ⟨"int", "int"⟩
  schema := ⟨[⟨"User", "uid", "int", []⟩], []⟩
  data := ⟨[⟨id, "User", ∅⟩], []⟩

/-- The log of one user. -/
def userLog : List DurableOperation := [.batch [.upsertNode ⟨7, ["User"], ∅⟩]]

theorem ids_leave_room_iff_user :
    letI := Externals.plainOnly
    (∃ catalog store, buildImportedInterchange (userDocument 7) = .ok (catalog, store) ∧ store.nextNodeId = 8 ∧
      store.LeavesRoom) ∧
    ∃ s', applySessionLogEntriesWith i64Succ .new userLog = .ok s' ∧ applySessionLogEntries .new userLog = .ok s' ∧
      s'.store.LeavesRoom := by
  let := Externals.plainOnly
  obtain ⟨imported, replayed⟩ := ids_leave_room_iff
  constructor
  · have accepted : (buildImportedInterchange (userDocument 7)).isOk = true := by decide +kernel
    cases built : buildImportedInterchange (userDocument 7) with
    | error e => rw [built] at accepted; cases accepted
    | ok result =>
      obtain ⟨next, -, room⟩ := (imported (userDocument 7) result.1 result.2 (by decide) (by decide) built).2
        ⟨by decide, by decide⟩
      exact ⟨result.1, result.2, rfl, next, room⟩
  · have written : applySessionLogEntriesWith i64Succ SessionState.new userLog =
        .ok ⟨GraphStore.empty.putNode 7 ⟨7, ["User"], ∅⟩, {}⟩ := rfl
    obtain ⟨exactly, room⟩ := (replayed .new _ userLog GraphStore.sound_empty (by decide) (by decide)
      ⟨⟨(by decide : (7 : Int) ≤ i64Max), trivial⟩, trivial⟩ written).2
      ⟨⟨(by decide : (7 : Int) ≠ i64Max), trivial⟩, trivial⟩
    exact ⟨_, written, exactly, room⟩

/-- The user with the greatest id is imported, and the counter wraps below it. -/
theorem greatest_id_wraps :
    letI := Externals.plainOnly
    ∃ catalog store, buildImportedInterchange (userDocument i64Max) = .ok (catalog, store) ∧
      store.nextNodeId = i64Min ∧ ¬ store.LeavesRoom := by
  let := Externals.plainOnly
  have accepted : (buildImportedInterchange (userDocument i64Max)).isOk = true := by decide +kernel
  cases built : buildImportedInterchange (userDocument i64Max) with
  | error e => rw [built] at accepted; cases accepted
  | ok result =>
    obtain ⟨catalog, store⟩ := result
    obtain ⟨nodes, -, next, -⟩ := buildImportedInterchange_ids built
    have wrapped : store.nextNodeId = i64Min := by
      rw [next]
      decide
    refine ⟨catalog, store, rfl, wrapped, fun room => ?_⟩
    have below := room.nodes i64Max ((nodes i64Max).2 List.mem_cons_self)
    rw [wrapped] at below
    exact absurd below (by decide)
