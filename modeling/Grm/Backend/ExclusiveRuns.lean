import Grm.Backend.MergingCommits
import Grm.Lib.Replay

/-!
# No update is lost under exclusive access

A call is exclusive when what it does conflicts with nothing that another transaction,
still open, has done. In a run of exclusive calls the store is what the calls of the
committed transactions make of it one after the other, in the order in which they were
made: an update adds its properties to the record as it stands then, and what was deleted
stays deleted. An open transaction sees its own calls on top of that.
-/

open Std Replay

set_option autoImplicit false

/-- The place of a record. -/
inductive RecordKey where
  | node (id : Int)
  | rel (id : Int)
  deriving DecidableEq

/-- A node or a relationship. -/
inductive GraphRecord where
  | node (node : StoredNode)
  | rel (rel : StoredRel)

/-- The record with properties merged into it. -/
def GraphRecord.update (updates : Props) : GraphRecord → GraphRecord
  | .node n => .node { n with props := mergeProps n.props updates }
  | .rel r => .rel { r with props := mergeProps r.props updates }

namespace RecordChange

/-- The place of the record a change is about. -/
def key : RecordChange → RecordKey
  | .createdNode node | .updatedNode node _ => .node node.id
  | .deletedNode id => .node id
  | .createdRel rel | .updatedRel rel _ => .rel rel.id
  | .deletedRel id => .rel id

/-- A change made once more, on the record as it stands: an update only adds its
properties. -/
def redo (before : Option GraphRecord) : RecordChange → Option GraphRecord
  | .createdNode node => some (.node node)
  | .createdRel rel => some (.rel rel)
  | .updatedNode _ updates | .updatedRel _ updates => before.map (.update updates)
  | .deletedNode _ | .deletedRel _ => none

/-- The record at a place after a change. -/
def redoAt (key : RecordKey) (before : Option GraphRecord) (c : RecordChange) : Option GraphRecord :=
  if c.key = key then c.redo before else before

theorem conflicts_of_key {c d : RecordChange} (same : c.key = d.key) : c.Conflicts d := by
  cases c <;> cases d <;> simp_all [key, Conflicts, node?, rel?]

end RecordChange

/-- The record at a place. -/
def GraphStore.record (s : GraphStore) : RecordKey → Option GraphRecord
  | .node id => (s.nodes[id]?).map .node
  | .rel id => (s.rels[id]?).map .rel

/-- The record a transaction sees at a place. -/
def InMemoryTx.record (tx : InMemoryTx) : RecordKey → Option GraphRecord
  | .node id => (tx.visibleNode id).map .node
  | .rel id => (tx.visibleRel id).map .rel

namespace InMemoryTx
variable {tx : InMemoryTx}

/-- A call of an agreeing transaction acts on what the transaction sees. -/
structure Acts (tx tx' : InMemoryTx) (cs : List RecordChange) : Prop where
  agrees : tx'.Agrees
  seen : ∀ key, tx'.record key = cs.foldl (RecordChange.redoAt key) (tx.record key)

theorem Acts.none {tx' : InMemoryTx} (agrees : tx'.Agrees)
    (nodes : ∀ k, tx'.visibleNode k = tx.visibleNode k) (rels : ∀ k, tx'.visibleRel k = tx.visibleRel k) :
    tx.Acts tx' [] := by
  refine ⟨agrees, fun key => ?_⟩
  cases key with
  | node k => simp only [record, nodes, List.foldl_nil]
  | rel k => simp only [record, rels, List.foldl_nil]

/-- One record is written or deleted and the others stay. -/
theorem Acts.one {tx' : InMemoryTx} {c : RecordChange} (agrees : tx'.Agrees)
    (here : tx'.record c.key = c.redo (tx.record c.key))
    (others : ∀ key, key ≠ c.key → tx'.record key = tx.record key) : tx.Acts tx' [c] := by
  refine ⟨agrees, fun key => ?_⟩
  rw [List.foldl_cons, List.foldl_nil, RecordChange.redoAt]
  split
  case isTrue same => exact same ▸ here
  case isFalse ne => exact others key (Ne.symm ne)

theorem Agrees.createNode_acts (h : tx.Agrees) (labels : List String) (props : Props) :
    tx.Acts (tx.createNode labels props).1 [.createdNode (tx.createNode labels props).2] := by
  obtain ⟨agrees, nodes, rels⟩ := h.createNode labels props
  refine Acts.one agrees ?_ ?_
  · show ((tx.createNode labels props).1.visibleNode tx.store.nextNodeId).map _ = _
    rw [nodes, if_pos rfl]
    rfl
  · intro key ne
    cases key with
    | node k =>
      have other : tx.store.nextNodeId ≠ k := fun same => ne (by rw [← same]; rfl)
      simp only [record, nodes, if_neg other]
    | rel k => simp only [record, rels]

theorem Agrees.createNodes_acts (h : tx.Agrees) (inserts : List (List String × Props)) :
    tx.Acts (tx.createNodes inserts).1 ((tx.createNodes inserts).2.map .createdNode) := by
  induction inserts generalizing tx with
  | nil => exact ⟨h, fun _ => rfl⟩
  | cons insert inserts ih =>
    have one := h.createNode_acts insert.1 insert.2
    have rest := ih one.agrees
    refine ⟨rest.agrees, fun key => (rest.seen key).trans ?_⟩
    rw [one.seen key]
    rfl

theorem Agrees.updateNode_acts (h : tx.Agrees) (id : Int) (props : Props) :
    tx.Acts (tx.updateNode id props).1 (((tx.updateNode id props).2.map (.updatedNode · props)).toList) := by
  have valid := h.valid.updateNode id props
  rw [updateNode_eq] at valid ⊢
  cases seen : tx.visibleNode id with
  | none => exact .none h (fun _ => rfl) fun _ => rfl
  | some node =>
    simp only [seen] at valid
    have own : node.id = id := h.valid.visibleNode_id seen
    obtain ⟨agrees, nodes, rels⟩ := h.writeNode valid (by rw [h.plain, Option.map_none]) rfl rfl rfl
      fun deleted => absurd deleted (not_deleted_of_visible h.plain (by rw [seen]; rfl))
    refine Acts.one agrees ?_ ?_
    · have place : (RecordChange.updatedNode { node with props := mergeProps node.props props } props).key =
        .node id := congrArg RecordKey.node own
      rw [place]
      simp only [record, nodes, if_true, RecordChange.redo, seen, Option.map_some, GraphRecord.update]
    · intro key ne
      cases key with
      | node k =>
        have other : id ≠ k := fun same => ne (by rw [← same, ← own]; rfl)
        simp only [record, nodes, if_neg other]
      | rel k => simp only [record, rels]

theorem Agrees.createRelationship_acts (h : tx.Agrees) {fromId toId : Int} {relType : String} {props : Props}
    (agreeable : tx.Agreeable (.createRelationship fromId toId relType props)) :
    tx.Acts (tx.createRelationship fromId toId relType props).1
      [.createdRel (tx.createRelationship fromId toId relType props).2] := by
  have shown : tx.delta.hides ⟨tx.store.nextRelId, relType, fromId, toId, props⟩ = false := by
    rw [TxDelta.hides, Bool.or_eq_false_iff, BTreeSet.contains_eq_false, BTreeSet.contains_eq_false]
    exact agreeable
  obtain ⟨agrees, nodes, rels⟩ := h.writeRel (h.valid.createRelationship fromId toId relType props)
    (by simp [InMemoryTx.createRelationship, allocateRelId, h.plain]) rfl rfl rfl shown
  refine Acts.one agrees ?_ ?_
  · show ((tx.createRelationship fromId toId relType props).1.visibleRel tx.store.nextRelId).map _ = _
    rw [rels, if_pos rfl]
    rfl
  · intro key ne
    cases key with
    | node k => simp only [record, nodes]
    | rel k =>
      have other : tx.store.nextRelId ≠ k := fun same => ne (by rw [← same]; rfl)
      simp only [record, rels, if_neg other]

/-- An agreeable update starts from the visible relationship. -/
theorem Agrees.updatableRel_visible (h : tx.Agrees) {id : Int} {props : Props}
    (agreeable : tx.Agreeable (.updateRelationship id props)) : tx.updatableRel id = tx.visibleRel id := by
  rw [updatableRel_overlay h.plain, visibleRel_hides h.plain]
  cases held : tx.delta.rel tx.store id with
  | none => rfl
  | some r => rw [Option.filter_some, agreeable r held]; rfl

theorem Agrees.updateRelationship_acts (h : tx.Agrees) {id : Int} {props : Props}
    (agreeable : tx.Agreeable (.updateRelationship id props)) :
    tx.Acts (tx.updateRelationship id props).1
      (((tx.updateRelationship id props).2.map (.updatedRel · props)).toList) := by
  have start := h.updatableRel_visible agreeable
  have valid := h.valid.updateRelationship id props
  rw [updateRelationship_eq, start] at valid ⊢
  cases seen : tx.visibleRel id with
  | none => exact .none h (fun _ => rfl) fun _ => rfl
  | some rel =>
    simp only [seen] at valid
    have own : rel.id = id := h.valid.visibleRel_id seen
    have shown : tx.delta.hides { rel with props := mergeProps rel.props props } = false :=
      agreeable rel (by rw [← updatableRel_overlay h.plain, start, seen])
    obtain ⟨agrees, nodes, rels⟩ := h.writeRel valid (by rw [h.plain, Option.map_none]) rfl rfl rfl shown
    refine Acts.one agrees ?_ ?_
    · have place : (RecordChange.updatedRel { rel with props := mergeProps rel.props props } props).key =
        .rel id := congrArg RecordKey.rel own
      rw [place]
      simp only [record, rels, if_true, RecordChange.redo, seen, Option.map_some, GraphRecord.update]
    · intro key ne
      cases key with
      | node k => simp only [record, nodes]
      | rel k =>
        have other : id ≠ k := fun same => ne (by rw [← same, ← own]; rfl)
        simp only [record, rels, if_neg other]

theorem Agrees.deleteRelationship_acts (h : tx.Agrees) {id : Int} (agreeable : tx.Agreeable (.deleteRelationship id)) :
    tx.Acts (tx.deleteRelationship id) [.deletedRel id] := by
  obtain ⟨agrees, nodes, rels⟩ := h.deleteRelationship agreeable
  refine Acts.one agrees ?_ ?_
  · simp only [RecordChange.key, record, rels, if_true, RecordChange.redo, Option.map_none]
  · intro key ne
    cases key with
    | node k => simp only [record, nodes]
    | rel k =>
      have other : id ≠ k := fun same => ne (by rw [← same]; rfl)
      simp only [record, rels, if_neg other]

/-- Deleting some relationships one after the other. -/
theorem redoAt_deletedRels (l : List Int) (key : RecordKey) (before : Option GraphRecord) :
    (l.map RecordChange.deletedRel).foldl (RecordChange.redoAt key) before =
      if ∃ k ∈ l, key = .rel k then none else before := by
  induction l generalizing before with
  | nil => simp
  | cons k l ih =>
    rw [List.map_cons, List.foldl_cons, ih]
    by_cases later : ∃ k' ∈ l, key = .rel k'
    · rw [if_pos later, if_pos (later.imp fun k' there => ⟨List.mem_cons_of_mem _ there.1, there.2⟩)]
    · rw [if_neg later, RecordChange.redoAt]
      by_cases same : key = .rel k
      · subst same
        simp [RecordChange.key, RecordChange.redo]
      · have apart : ¬∃ k' ∈ k :: l, key = .rel k' := by
          rintro ⟨k', member, here⟩
          rcases List.mem_cons.1 member with rfl | member
          · exact same here
          · exact later ⟨k', member, here⟩
        rw [if_neg apart, if_neg fun here => same here.symm]

theorem Agrees.deleteNode_acts (h : tx.Agrees) {id : Int} (agreeable : tx.Agreeable (.deleteNode id)) :
    tx.Acts (tx.deleteNode id) (.deletedNode id :: (tx.visibleRelatedRelIds id).toList.map .deletedRel) := by
  obtain ⟨agrees, nodes, rels⟩ := h.deleteNode agreeable
  refine ⟨agrees, fun key => ?_⟩
  rw [List.foldl_cons, redoAt_deletedRels]
  cases key with
  | node k =>
    simp only [record, nodes, reduceCtorEq, and_false, exists_false, if_false, RecordChange.redoAt, RecordChange.key,
      RecordKey.node.injEq, RecordChange.redo]
    split <;> rfl
  | rel k =>
    simp only [record, rels, RecordKey.rel.injEq, exists_eq_right', ExtTreeSet.mem_toList, RecordChange.redoAt,
      RecordChange.key, reduceCtorEq, if_false]
    have related := h.mem_related agreeable k
    cases seen : tx.visibleRel k with
    | none => simp
    | some r =>
      rw [seen] at related
      by_cases touches : r.touches id = true
      · rw [if_pos (related.2 ⟨r, rfl, touches⟩), Option.filter_some, touches]
        rfl
      · have outside : k ∉ tx.visibleRelatedRelIds id := by
          rw [related]
          rintro ⟨r', same, touches'⟩
          cases same
          exact touches touches'
        rw [if_neg outside, Option.filter_some]
        simp [touches]

/-- One agreeable call. -/
theorem Agrees.step_acts (h : tx.Agrees) {op : TxOp} (agreeable : tx.Agreeable op) :
    tx.Acts (tx.step op) (tx.changes op) := by
  cases op with
  | createNode labels props => exact h.createNode_acts labels props
  | createNodes inserts => exact h.createNodes_acts inserts
  | updateNode id props => exact h.updateNode_acts id props
  | deleteNode id => exact h.deleteNode_acts agreeable
  | createRelationship fromId toId relType props => exact h.createRelationship_acts agreeable
  | updateRelationship id props => exact h.updateRelationship_acts agreeable
  | deleteRelationship id => exact h.deleteRelationship_acts agreeable
  | findNodeById id => exact .none h (fun _ => rfl) fun _ => rfl
  | findNodesByProperty key value =>
    obtain ⟨agrees, nodes, rels⟩ := h.read (tx.visibleNodesByProperty_read key value)
    exact .none agrees nodes rels
  | neighbors node relType dir => exact .none h (fun _ => rfl) fun _ => rfl
  | executeGraph q =>
    obtain ⟨agrees, nodes, rels⟩ := h.read (tx.executeGraph_read q)
    exact .none agrees nodes rels

end InMemoryTx

theorem RecordChange.key_of_node? {c : RecordChange} {k : Int} (here : c.node? = some k) : c.key = .node k := by
  cases c <;> simp_all [node?, key]

theorem RecordChange.key_of_rel? {c : RecordChange} {k : Int} (here : c.rel? = some k) : c.key = .rel k := by
  cases c <;> simp_all [rel?, key]

theorem RecordChange.redoAt_of_ne {c : RecordChange} {key : RecordKey} (ne : c.key ≠ key)
    (before : Option GraphRecord) : RecordChange.redoAt key before c = before := if_neg ne

theorem GraphStore.record_node {s s' : GraphStore} {k : Int} :
    s.record (.node k) = s'.record (.node k) ↔ s.nodes[k]? = s'.nodes[k]? := by
  constructor
  · intro same
    exact Option.map_injective (fun _ _ eq => GraphRecord.node.inj eq) same
  · intro same
    simp only [record, same]

theorem GraphStore.record_rel {s s' : GraphStore} {k : Int} :
    s.record (.rel k) = s'.record (.rel k) ↔ s.rels[k]? = s'.rels[k]? := by
  constructor
  · intro same
    exact Option.map_injective (fun _ _ eq => GraphRecord.rel.inj eq) same
  · intro same
    simp only [record, same]

/-- An agreeing transaction publishes what it sees. -/
theorem InMemoryTx.Agrees.commit_record {tx : InMemoryTx} (h : tx.Agrees) (key : RecordKey) :
    tx.commit.record key = tx.record key := by
  cases key with
  | node k => simp only [GraphStore.record, InMemoryTx.record, h.commit_nodes]
  | rel k => simp only [GraphStore.record, InMemoryTx.record, h.commit_rels]

/-- The transaction has committed. -/
def TxStatus.isCommitted : TxStatus → Bool
  | .committed => true
  | _ => false

/-- A transaction that has done nothing sees the store. -/
theorem InMemoryTx.new_record (s : GraphStore) (key : RecordKey) : (new s).record key = s.record key := by
  cases key with
  | node k => simp [record, new, visibleNode, GraphStore.record]
  | rel k =>
    simp only [record, GraphStore.record]
    rw [visibleRel_hides rfl]
    cases found : s.rels[k]? <;> simp [new, TxDelta.rel, TxDelta.hides, found, Option.filter_some]

namespace SharedBackend
variable {base : GraphStore} {b : SharedBackend} {i j : Nat}

/-- The transactions that have committed. -/
def published (b : SharedBackend) (i : Nat) : Bool := (b.txs i).isCommitted

/-- A call that may be made: agreeable to its transaction, and in conflict with nothing
another open transaction has done. Working copies are not made. -/
def Exclusive (b : SharedBackend) : Nat × TxEvent → Prop
  | (i, .step (.call op)) => ∀ tx, b.tx? i = some tx → tx.Agreeable op ∧
      ∀ j tx', b.tx? j = some tx' → i ≠ j → ∀ c ∈ tx.changes op, ∀ d, (j, d) ∈ b.history →
        ¬c.Conflicts d ∧ ¬d.Conflicts c
  | (_, .step .materializeWorkingCopy) => False
  | (_, .begin) | (_, .commit) | (_, .rollback) => True

/-- Every call of a run is exclusive in the state before it. -/
def ExclusiveRun : SharedBackend → List (Nat × TxEvent) → Prop
  | _, [] => True
  | b, e :: events => b.Exclusive e ∧ ExclusiveRun (b.apply e) events

/-- The calls replayed at a place, of the transactions that count. -/
abbrev replayAt (b : SharedBackend) (counts : Nat → Bool) (key : RecordKey) (s : Option GraphRecord) :
    Option GraphRecord :=
  replay (RecordChange.redoAt key) counts b.history s

/-- One transaction alone. -/
def alone (i : Nat) : Nat → Bool := fun j => decide (j = i)

/-- The transactions that have committed, and one more. -/
def publishedWith (b : SharedBackend) (i : Nat) : Nat → Bool := fun j => b.published j || alone i j

/-- The store is the replay of the committed transactions, and an open transaction sees
its own calls on top of it, all of which come after those it rests on. -/
structure Serial (base : GraphStore) (b : SharedBackend) : Prop where
  orderly : b.Orderly
  agrees : ∀ i tx, b.tx? i = some tx → tx.Agrees
  apart : ∀ i j tx tx', b.tx? i = some tx → b.tx? j = some tx' → i ≠ j → ∀ c d, (i, c) ∈ b.history →
    (j, d) ∈ b.history → ¬c.Conflicts d
  stored : ∀ key, b.store.record key = b.replayAt b.published key (base.record key)
  seen : ∀ i tx, b.tx? i = some tx → ∀ key, tx.record key = b.replayAt (alone i) key (b.store.record key)
  last : ∀ i tx, b.tx? i = some tx → ∀ key, b.replayAt (b.publishedWith i) key (base.record key) =
    b.replayAt (alone i) key (b.replayAt b.published key (base.record key))

/-- A place no call of the transaction is about. -/
def Untouched (b : SharedBackend) (i : Nat) (key : RecordKey) : Prop := ∀ c, (i, c) ∈ b.history → c.key ≠ key

theorem Untouched.replay_alone {key : RecordKey} (untouched : b.Untouched i key) (s : Option GraphRecord) :
    b.replayAt (alone i) key s = s := by
  refine replay_idle ?_ s
  rintro ⟨j, c⟩ member counted s
  have same : j = i := by simpa [alone] using counted
  exact RecordChange.redoAt_of_ne (untouched c (same ▸ member)) s

/-- Whether a transaction counts does not matter where it has not been. -/
theorem Untouched.replay_congr {counts counts' : Nat → Bool} {key : RecordKey} (untouched : b.Untouched i key)
    (same : ∀ j, j ≠ i → counts j = counts' j) (s : Option GraphRecord) :
    b.replayAt counts key s = b.replayAt counts' key s := by
  refine Replay.replay_congr ?_ s
  rintro ⟨j, c⟩ member
  by_cases own : j = i
  · exact .inr (RecordChange.redoAt_of_ne (untouched c (own ▸ member)))
  · exact .inl (same j own)

theorem Untouched.node {k : Int} (untouched : b.Untouched i (.node k)) : ¬(b.deltaOf i).TouchesNode k := by
  intro touched
  obtain ⟨c, member, here⟩ := deltaBy_touchesNode touched
  exact untouched c member (RecordChange.key_of_node? here)

theorem Untouched.rel {k : Int} (untouched : b.Untouched i (.rel k)) : ¬(b.deltaOf i).TouchesRel k := by
  intro touched
  obtain ⟨c, member, here⟩ := deltaBy_touchesRel touched
  exact untouched c member (RecordChange.key_of_rel? here)

section Commit
variable {tx tx' : InMemoryTx} (h : Serial base b) (opened : b.tx? i = some tx) (opened' : b.tx? j = some tx')
  (ne : i ≠ j)
include h opened

/-- A commit leaves the places its transaction has not been at. -/
theorem Serial.commit_untouched {key : RecordKey} (untouched : b.Untouched i key) :
    tx.commit.record key = b.store.record key := by
  rw [(h.agrees i tx opened).commit_record, h.seen i tx opened, untouched.replay_alone]

include opened' ne

/-- Two open transactions have not been at the same place. -/
theorem Serial.untouched_or (key : RecordKey) : b.Untouched i key ∨ b.Untouched j key := by
  by_contra both
  obtain ⟨left, right⟩ := not_or.1 both
  unfold Untouched at left right
  push Not at left right
  obtain ⟨c, member, here⟩ := left
  obtain ⟨d, member', here'⟩ := right
  exact h.apart i j tx tx' opened opened' ne c d member member' (RecordChange.conflicts_of_key (here.trans here'.symm))

/-- What one open transaction has written, another does not hide. -/
theorem Serial.shown {k : Int} {r : StoredRel} (written : tx.delta.rels[k]? = some r) : tx'.delta.hides r = false := by
  apply Bool.eq_false_iff.2
  intro hidden
  obtain ⟨e, touches, deleted⟩ := TxDelta.hides_iff.1 hidden
  rw [h.orderly.delta i tx opened] at written
  rw [h.orderly.delta j tx' opened'] at deleted
  obtain ⟨c, member, here, -⟩ := deltaBy_writtenRel written
  exact h.apart j i tx' tx opened' opened ne.symm _ c (deltaBy_deletedNode deleted) member
    (.inr (.inr ⟨e, r, rfl, here, touches⟩))

/-- A transaction still agrees after the commit of another. -/
theorem Serial.agrees_moved (valid : InMemoryTx.Valid { tx' with store := tx.commit }) :
    InMemoryTx.Agrees { tx' with store := tx.commit } := by
  have agrees := h.agrees j tx' opened'
  refine ⟨valid, agrees.plain, agrees.written, fun k r found kept unwritten hidden => ?_⟩
  rcases commit_rels_source (h.agrees i tx opened).valid found with written | stored
  · rw [h.shown opened opened' ne written] at hidden
    cases hidden
  · rw [tx?_store opened, ← tx?_store opened'] at stored
    obtain ⟨e, touches, deleted, present⟩ := TxDelta.severs_iff.1 (agrees.stored k r stored kept unwritten hidden)
    refine TxDelta.severs_iff.2 ⟨e, touches, deleted, ?_⟩
    have member : (j, .deletedNode e) ∈ b.history := deltaBy_deletedNode (h.orderly.delta j tx' opened' ▸ deleted)
    have away : b.Untouched i (.node e) :=
      (h.untouched_or opened opened' ne (.node e)).resolve_right fun untouched => untouched _ member rfl
    have same := GraphStore.record_node.1 (h.commit_untouched opened away)
    rw [tx?_store opened', BTreeMap.mem_iff_get, ← same] at present
    exact BTreeMap.mem_iff_get.2 present

/-- What a transaction sees after the commit of another. -/
theorem Serial.seen_moved (key : RecordKey) :
    InMemoryTx.record { tx' with store := tx.commit } key = b.replayAt (alone j) key (tx.commit.record key) := by
  have agrees := h.agrees j tx' opened'
  have there := tx?_store opened'
  rcases h.untouched_or opened opened' ne key with away | away
  · have same := h.commit_untouched opened away
    rw [same, ← h.seen j tx' opened']
    cases key with
    | node k =>
      have stored := GraphStore.record_node.1 same
      simp only [InMemoryTx.record, InMemoryTx.visibleNode_overlay agrees.plain, TxDelta.node]
      rw [@InMemoryTx.visibleNode_overlay { tx' with store := tx.commit } agrees.plain, TxDelta.node, stored, there]
    | rel k =>
      have stored := GraphStore.record_rel.1 same
      simp only [InMemoryTx.record, InMemoryTx.visibleRel_hides agrees.plain, TxDelta.rel]
      rw [@InMemoryTx.visibleRel_hides { tx' with store := tx.commit } agrees.plain, TxDelta.rel, stored, there]
  · rw [away.replay_alone]
    have delta : tx'.delta = b.deltaOf j := h.orderly.delta j tx' opened'
    cases key with
    | node k =>
      obtain ⟨unwritten, kept⟩ := not_or.1 away.node
      rw [← delta] at unwritten kept
      simp only [InMemoryTx.record, GraphStore.record]
      rw [@InMemoryTx.visibleNode_overlay { tx' with store := tx.commit } agrees.plain, TxDelta.node,
        if_neg kept, BTreeMap.not_mem_iff_get.1 unwritten, Option.none_or]
    | rel k =>
      obtain ⟨unwritten, kept⟩ := not_or.1 away.rel
      rw [← delta] at unwritten kept
      simp only [InMemoryTx.record, GraphStore.record]
      rw [@InMemoryTx.visibleRel_hides { tx' with store := tx.commit } agrees.plain, TxDelta.rel,
        if_neg kept, BTreeMap.not_mem_iff_get.1 unwritten, Option.none_or]
      cases found : tx.commit.rels[k]? with
      | none => rfl
      | some r =>
        have shown : tx'.delta.hides r = false := by
          rcases commit_rels_source (h.agrees i tx opened).valid found with written | stored
          · exact h.shown opened opened' ne written
          · have view := h.seen j tx' opened' (.rel k)
            rw [tx?_store opened] at stored
            rw [away.replay_alone, GraphStore.record, stored, InMemoryTx.record] at view
            obtain ⟨r', visible, same⟩ := Option.map_eq_some_iff.1 view
            cases same
            rw [InMemoryTx.visibleRel_hides agrees.plain, Option.filter_eq_some_iff] at visible
            simpa using visible.2
        rw [Option.filter_some, shown]
        rfl

end Commit

/-! ### One event -/

theorem published_update {b' : SharedBackend} {status : TxStatus} (txs : b'.txs = Function.update b.txs i status)
    (j : Nat) : b'.published j = if j = i then status.isCommitted else b.published j := by
  unfold published
  rw [txs, Function.update_apply]
  split <;> rfl

theorem published_of_opened {tx : InMemoryTx} (opened : b.tx? i = some tx) : b.published i = false := by
  unfold published
  unfold tx? at opened
  split at opened
  case h_1 status => rw [status]; rfl
  case h_2 => cases opened

/-- An event that leaves the store, the history and what is published. -/
theorem Serial.opens (h : Serial base b) (i : Nat) (fresh : b.txs i = .notBegun)
    (orderly : Orderly { b with txs := Function.update b.txs i (.opened none {}) }) :
    Serial base { b with txs := Function.update b.txs i (.opened none {}) } := by
  have published : published { b with txs := Function.update b.txs i (.opened none {}) } = b.published := by
    funext j
    rw [@published_update b i _ (.opened none {}) rfl]
    split
    case isTrue same =>
      rw [SharedBackend.published, same, fresh]
      rfl
    case isFalse => rfl
  have silent : ∀ c, (i, c) ∉ b.history := by
    intro c member
    have entry := mem_changesBy.2 member
    rw [h.orderly.begun i fresh] at entry
    cases entry
  have untouched : ∀ key, b.Untouched i key := fun key c member => absurd member (silent c)
  have before : ∀ j tx, tx? { b with txs := Function.update b.txs i (.opened none {}) } j = some tx →
      (j = i ∧ tx = .new b.store) ∨ b.tx? j = some tx := by
    intro j tx opened
    by_cases same : j = i
    · rw [same] at opened
      obtain ⟨copy, delta, ⟨⟩, rfl⟩ := tx?_own (b := b) rfl opened
      exact .inl ⟨same, rfl⟩
    · rw [tx?_other (b := b) rfl same] at opened
      obtain ⟨tx', was, rfl⟩ := Option.map_eq_some_iff.1 opened
      refine .inr (was.trans ?_)
      rw [← tx?_store was]
  refine ⟨orderly, ?_, ?_, ?_, ?_, ?_⟩
  · intro j tx opened
    rcases before j tx opened with ⟨-, rfl⟩ | was
    · exact InMemoryTx.agrees_new h.orderly.store
    · exact h.agrees j tx was
  · intro j j' tx tx' opened opened' ne c d left right
    rcases before j tx opened with ⟨rfl, -⟩ | was
    · exact absurd left (silent c)
    · rcases before j' tx' opened' with ⟨rfl, -⟩ | was'
      · exact absurd right (silent d)
      · exact h.apart j j' tx tx' was was' ne c d left right
  · intro key
    rw [published]
    exact h.stored key
  · intro j tx opened key
    rcases before j tx opened with ⟨rfl, rfl⟩ | was
    · exact (InMemoryTx.new_record b.store key).trans ((untouched key).replay_alone _).symm
    · exact h.seen j tx was key
  · intro j tx opened key
    have with_j : publishedWith { b with txs := Function.update b.txs i (.opened none {}) } j = b.publishedWith j := by
      unfold publishedWith
      rw [published]
    rw [with_j, published]
    rcases before j tx opened with ⟨rfl, -⟩ | was
    · rw [(untouched key).replay_alone]
      refine (untouched key).replay_congr (fun k ne => ?_) _
      simp [publishedWith, alone, ne]
    · exact h.last j tx was key

/-- A transaction on a store with the same records. -/
theorem agrees_unchanged {tx : InMemoryTx} (agrees : tx.Agrees) {s : GraphStore} (nodes : s.nodes = tx.store.nodes)
    (rels : s.rels = tx.store.rels) (valid : InMemoryTx.Valid { tx with store := s }) :
    InMemoryTx.Agrees { tx with store := s } ∧ ∀ key, InMemoryTx.record { tx with store := s } key = tx.record key := by
  have severs : ∀ r, tx.delta.severs s r = tx.delta.severs tx.store r := fun r => by rw [TxDelta.severs, TxDelta.severs, nodes]
  refine ⟨⟨valid, agrees.plain, agrees.written, fun k r stored kept unwritten hidden => ?_⟩, fun key => ?_⟩
  · exact (severs r).trans (agrees.stored k r (rels ▸ stored) kept unwritten hidden)
  · cases key with
    | node k => simp only [InMemoryTx.record, InMemoryTx.visibleNode, nodes]
    | rel k => simp only [InMemoryTx.record, InMemoryTx.visibleRel, rels]

/-- The replay after a call. -/
theorem replayAt_call {b' : SharedBackend} {cs : List RecordChange} (history : b'.history = b.history ++ cs.map (i, ·))
    (counts : Nat → Bool) (key : RecordKey) (s : Option GraphRecord) :
    b'.replayAt counts key s =
      if counts i then cs.foldl (RecordChange.redoAt key) (b.replayAt counts key s) else b.replayAt counts key s := by
  rw [replayAt, history, replay_append, replay_own]

theorem Serial.call (h : Serial base b) {tx : InMemoryTx} {op : TxOp} (opened : b.tx? i = some tx)
    (exclusive : b.Exclusive (i, .step (.call op))) (orderly : (b.apply (i, .step (.call op))).Orderly)
    (after : b.apply (i, .step (.call op)) =
      { store := (tx.step op).store
        txs := Function.update b.txs i (.opened (tx.step op).workingCopy (tx.step op).delta)
        history := b.history ++ (tx.changes op).map (i, ·) }) : Serial base (b.apply (i, .step (.call op))) := by
  obtain ⟨agreeable, free⟩ := exclusive tx opened
  have acts := (h.agrees i tx opened).step_acts agreeable
  have unchanged := tx.step_unchanged op
  rw [tx?_store opened] at unchanged
  have txs : (b.apply (i, .step (.call op))).txs =
      Function.update b.txs i (.opened (tx.step op).workingCopy (tx.step op).delta) := by rw [after]
  have history : (b.apply (i, .step (.call op))).history = b.history ++ (tx.changes op).map (i, ·) := by rw [after]
  have store : (b.apply (i, .step (.call op))).store = (tx.step op).store := by rw [after]
  have records : ∀ key, (b.apply (i, .step (.call op))).store.record key = b.store.record key := by
    intro key
    rw [store]
    cases key with
    | node k => exact GraphStore.record_node.2 (by rw [unchanged.nodes])
    | rel k => exact GraphStore.record_rel.2 (by rw [unchanged.rels])
  have published : (b.apply (i, .step (.call op))).published = b.published := by
    funext j
    rw [published_update txs]
    split
    case isTrue same => rw [same, published_of_opened opened]; rfl
    case isFalse => rfl
  have own : ∀ tx', (b.apply (i, .step (.call op))).tx? i = some tx' → tx' = tx.step op := by
    intro tx' opened'
    obtain ⟨copy, delta, same, rfl⟩ := tx?_own txs opened'
    cases same
    rw [store]
  have other : ∀ j tx', j ≠ i → (b.apply (i, .step (.call op))).tx? j = some tx' →
      ∃ was, b.tx? j = some was ∧ tx' = { was with store := (tx.step op).store } := by
    intro j tx' ne opened'
    rw [tx?_other txs ne, store] at opened'
    obtain ⟨was, before, rfl⟩ := Option.map_eq_some_iff.1 opened'
    exact ⟨was, before, rfl⟩
  have moved : ∀ j tx', j ≠ i → (b.apply (i, .step (.call op))).tx? j = some tx' →
      ∃ was, b.tx? j = some was ∧ tx'.Agrees ∧ ∀ key, tx'.record key = was.record key := by
    intro j tx' ne opened'
    obtain ⟨was, before, rfl⟩ := other j tx' ne opened'
    have there := tx?_store before
    exact ⟨was, before, agrees_unchanged (h.agrees j was before) (by rw [unchanged.nodes, there])
      (by rw [unchanged.rels, there]) (orderly.valid j _ opened')⟩
  refine ⟨orderly, ?_, ?_, ?_, ?_, ?_⟩
  · intro j tx' opened'
    by_cases same : j = i
    · rw [same] at opened'
      exact own tx' opened' ▸ acts.agrees
    · exact (moved j tx' same opened').elim fun _ was => was.2.1
  · intro j j' t t' opened' opened'' ne c d left right
    have was : ∀ j t, (b.apply (i, .step (.call op))).tx? j = some t → ∃ t, b.tx? j = some t := by
      intro j t here
      by_cases same : j = i
      · exact ⟨tx, same ▸ opened⟩
      · exact (moved j t same here).imp fun _ was => was.1
    obtain ⟨s, before⟩ := was j t opened'
    obtain ⟨s', before'⟩ := was j' t' opened''
    rw [history, List.mem_append, List.mem_map] at left right
    rcases left with left | ⟨c', made, same⟩ <;> rcases right with right | ⟨d', made', same'⟩
    · exact h.apart j j' s s' before before' ne c d left right
    · cases same'
      exact (free j s before ne.symm d made' c left).2
    · cases same
      exact (free j' s' before' ne c made d right).1
    · cases same
      cases same'
      exact absurd rfl ne
  · intro key
    rw [records, published, replayAt_call history, published_of_opened opened]
    exact h.stored key
  · intro j tx' opened' key
    rw [records, replayAt_call history]
    by_cases same : j = i
    · rw [same] at opened' ⊢
      rw [own tx' opened', acts.seen key, h.seen i tx opened]
      simp [alone]
    · obtain ⟨was, before, -, view⟩ := moved j tx' same opened'
      rw [view, h.seen j was before]
      simp [alone, Ne.symm same]
  · intro j tx' opened' key
    have counted : publishedWith (b.apply (i, .step (.call op))) j = b.publishedWith j := by
      unfold publishedWith
      rw [published]
    rw [counted, published, replayAt_call history, replayAt_call history, replayAt_call history,
      published_of_opened opened]
    by_cases same : j = i
    · rw [same]
      have last := h.last i tx opened key
      simp [publishedWith, alone, last]
    · obtain ⟨was, before, -, -⟩ := moved j tx' same opened'
      have last := h.last j was before key
      simp [publishedWith, alone, published_of_opened opened, Ne.symm same, last]

theorem Serial.commit (h : Serial base b) {tx : InMemoryTx} (opened : b.tx? i = some tx)
    (orderly : Orderly { b with store := tx.commit, txs := Function.update b.txs i .committed }) :
    Serial base { b with store := tx.commit, txs := Function.update b.txs i .committed } := by
  have published : ∀ j, SharedBackend.published { b with store := tx.commit, txs := Function.update b.txs i .committed } j =
      b.publishedWith i j := by
    intro j
    rw [@published_update b i _ (.committed) rfl]
    by_cases same : j = i <;> simp [publishedWith, alone, same, TxStatus.isCommitted]
  have publishes : ∀ key, tx.commit.record key = b.replayAt (b.publishedWith i) key (base.record key) := by
    intro key
    rw [(h.agrees i tx opened).commit_record, h.seen i tx opened, h.stored, h.last i tx opened]
  have others : ∀ j tx', tx? { b with store := tx.commit, txs := Function.update b.txs i .committed } j = some tx' →
      i ≠ j ∧ ∃ was, b.tx? j = some was ∧ tx' = { was with store := tx.commit } := by
    intro j tx' opened'
    have ne : j ≠ i := by
      rintro rfl
      obtain ⟨copy, delta, ⟨⟩, -⟩ := tx?_own (b := b) rfl opened'
    rw [tx?_other (b := b) rfl ne] at opened'
    obtain ⟨was, before, rfl⟩ := Option.map_eq_some_iff.1 opened'
    exact ⟨ne.symm, was, before, rfl⟩
  refine ⟨orderly, ?_, ?_, ?_, ?_, ?_⟩
  · intro j tx' opened'
    obtain ⟨ne, was, before, rfl⟩ := others j tx' opened'
    exact h.agrees_moved opened before ne (orderly.valid j _ opened')
  · intro j j' t t' opened' opened'' ne
    obtain ⟨-, was, before, -⟩ := others j t opened'
    obtain ⟨-, was', before', -⟩ := others j' t' opened''
    exact h.apart j j' was was' before before' ne
  · intro key
    rw [funext published]
    exact publishes key
  · intro j tx' opened' key
    obtain ⟨ne, was, before, rfl⟩ := others j tx' opened'
    exact h.seen_moved opened before ne key
  · intro j tx' opened' key
    obtain ⟨ne, was, before, rfl⟩ := others j tx' opened'
    have counted : publishedWith { b with store := tx.commit, txs := Function.update b.txs i .committed } j =
        fun k => b.publishedWith i k || alone j k := by
      unfold publishedWith
      rw [funext published]
      rfl
    rw [counted, funext published]
    show b.replayAt _ key _ = b.replayAt _ key (b.replayAt _ key _)
    rcases h.untouched_or opened before ne key with away | away
    · -- the transaction that commits has not been here: its calls may be left out
      have early : b.replayAt (fun k => b.publishedWith i k || alone j k) key (base.record key) =
          b.replayAt (b.publishedWith j) key (base.record key) :=
        away.replay_congr (fun k other => by simp [publishedWith, alone, other]) _
      have rest : b.replayAt (b.publishedWith i) key (base.record key) = b.replayAt b.published key (base.record key) :=
        away.replay_congr (fun k other => by simp [publishedWith, alone, other]) _
      rw [early, rest, h.last j was before]
    · rw [away.replay_alone]
      exact away.replay_congr (fun k other => by simp [alone, other]) _

theorem Serial.rollback (h : Serial base b) {tx : InMemoryTx} (opened : b.tx? i = some tx)
    (orderly : Orderly { b with txs := Function.update b.txs i .rolledBack }) :
    Serial base { b with txs := Function.update b.txs i .rolledBack } := by
  have published : published { b with txs := Function.update b.txs i .rolledBack } = b.published := by
    funext j
    rw [@published_update b i _ (.rolledBack) rfl]
    split
    case isTrue same => rw [same, published_of_opened opened]; rfl
    case isFalse => rfl
  have before : ∀ j tx', tx? { b with txs := Function.update b.txs i .rolledBack } j = some tx' → b.tx? j = some tx' := by
    intro j tx' opened'
    have ne : j ≠ i := by
      rintro rfl
      obtain ⟨copy, delta, ⟨⟩, -⟩ := tx?_own (b := b) rfl opened'
    rw [tx?_other (b := b) rfl ne] at opened'
    obtain ⟨was, there, rfl⟩ := Option.map_eq_some_iff.1 opened'
    refine there.trans ?_
    rw [← tx?_store there]
  refine ⟨orderly, fun j tx' here => h.agrees j tx' (before j tx' here), ?_, ?_, ?_, ?_⟩
  · exact fun j j' t t' here here' => h.apart j j' t t' (before j t here) (before j' t' here')
  · intro key
    rw [published]
    exact h.stored key
  · exact fun j tx' here => h.seen j tx' (before j tx' here)
  · intro j tx' here key
    have counted : publishedWith { b with txs := Function.update b.txs i .rolledBack } j = b.publishedWith j := by
      unfold publishedWith
      rw [published]
    rw [counted, published]
    exact h.last j tx' (before j tx' here) key

/-- Every event keeps a serial backend serial, when its call is exclusive. -/
theorem Serial.apply (h : Serial base b) (i : Nat) (e : TxEvent) (exclusive : b.Exclusive (i, e)) :
    Serial base (b.apply (i, e)) := by
  have orderly := h.orderly.apply i e
  rcases b.apply_cases i e with same | ⟨-, fresh, after⟩ | ⟨tx, opened, ⟨step, rfl, after⟩ | ⟨-, after⟩ | ⟨-, after⟩⟩
  · rw [same]
    exact h
  · rw [after] at orderly ⊢
    exact h.opens i fresh orderly
  · cases step with
    | call op => exact h.call opened exclusive orderly after
    | materializeWorkingCopy => exact absurd exclusive id
  · rw [after] at orderly ⊢
    exact h.commit opened orderly
  · have there : tx.rollback = b.store := tx?_store opened
    rw [after, there] at orderly
    rw [after, there]
    exact h.rollback opened orderly

theorem Serial.run (h : Serial base b) {events : List (Nat × TxEvent)} (exclusive : b.ExclusiveRun events) :
    Serial base (b.run events) := by
  induction events generalizing b with
  | nil => exact h
  | cons e events ih => exact ih (h.apply e.1 e.2 exclusive.1) exclusive.2

end SharedBackend
