import Grm.Backend.TxSpec

/-!
# What a transaction sees

`Valid` is the invariant a transaction's reads rest on: the stores are indexed, each
written record is under its own id and is not also deleted, and a new version of a
relationship keeps its type and its endpoints. Every operation keeps it. Under it a
neighbour list holds exactly the visible relationships that match, once each, with
the visible node at the other end.
-/

open Std

set_option autoImplicit false

/-- Two versions of one relationship: only the properties may differ. -/
def StoredRel.SameShape (a b : StoredRel) : Prop :=
  a.relType = b.relType ∧ a.fromId = b.fromId ∧ a.toId = b.toId

namespace GraphStore

/-- A store as its own operations leave it: indexed, with every id below its counter. -/
structure Sound (s : GraphStore) : Prop where
  indexed : s.Indexed
  nodeBelow : ∀ k ∈ s.nodes, k < s.nextNodeId
  relBelow : ∀ k ∈ s.rels, k < s.nextRelId

theorem sound_empty : empty.Sound := ⟨indexed_empty, by simp [empty], by simp [empty]⟩

theorem Indexed.mem_outgoing {s : GraphStore} (h : s.Indexed) {node id : Int} {relType : Option String} :
    id ∈ s.outgoingRelationshipIds node relType ↔
      ∃ r, s.rels[id]? = some r ∧ relMatchesNeighbor r node relType .out = true := by
  cases relType with
  | none =>
    simp only [outgoingRelationshipIds, h.outgoingAny.mem_ids, List.mem_singleton, relMatchesNeighbor, Option.any_none,
      Bool.false_eq_true, if_false, beq_iff_eq, eq_comm (a := node)]
  | some ty =>
    simp only [outgoingRelationshipIds, h.outgoing.mem_ids, List.mem_singleton, relMatchesNeighbor, Option.any_some,
      bne_iff_ne, ne_eq, ite_not, Bool.if_false_right, Bool.and_eq_true, decide_eq_true_eq, beq_iff_eq, Prod.mk.injEq,
      eq_comm (a := node), eq_comm (a := ty), and_comm (b := _ = ty)]

theorem Indexed.mem_incoming {s : GraphStore} (h : s.Indexed) {node id : Int} {relType : Option String} :
    id ∈ s.incomingRelationshipIds node relType ↔
      ∃ r, s.rels[id]? = some r ∧ relMatchesNeighbor r node relType .incoming = true := by
  cases relType with
  | none =>
    simp only [incomingRelationshipIds, h.incomingAny.mem_ids, List.mem_singleton, relMatchesNeighbor, Option.any_none,
      Bool.false_eq_true, if_false, beq_iff_eq, eq_comm (a := node)]
  | some ty =>
    simp only [incomingRelationshipIds, h.incoming.mem_ids, List.mem_singleton, relMatchesNeighbor, Option.any_some,
      bne_iff_ne, ne_eq, ite_not, Bool.if_false_right, Bool.and_eq_true, decide_eq_true_eq, beq_iff_eq, Prod.mk.injEq,
      eq_comm (a := node), eq_comm (a := ty), and_comm (b := _ = ty)]

theorem relMatchesNeighbor_both (r : StoredRel) (node : Int) (relType : Option String) :
    relMatchesNeighbor r node relType .both =
      (relMatchesNeighbor r node relType .out || relMatchesNeighbor r node relType .incoming) := by
  unfold relMatchesNeighbor
  split <;> simp

/-- The adjacency list of a node holds the stored relationships that match. -/
theorem Indexed.mem_adjacentIds {s : GraphStore} (h : s.Indexed) {node id : Int} {relType : Option String}
    {dir : Direction} :
    id ∈ s.adjacentIds node relType dir ↔
      ∃ r, s.rels[id]? = some r ∧ relMatchesNeighbor r node relType dir = true := by
  cases dir with
  | out => exact h.mem_outgoing
  | incoming => exact h.mem_incoming
  | both =>
    rw [adjacentIds, List.mem_append, h.mem_outgoing, h.mem_incoming]
    simp only [relMatchesNeighbor_both, Bool.or_eq_true]
    constructor
    · rintro (⟨r, found, hit⟩ | ⟨r, found, hit⟩)
      · exact ⟨r, found, .inl hit⟩
      · exact ⟨r, found, .inr hit⟩
    · rintro ⟨r, found, hit | hit⟩
      · exact .inl ⟨r, found, hit⟩
      · exact .inr ⟨r, found, hit⟩

end GraphStore

/-- The other end of a matching relationship. -/
theorem neighborId_cases {r : StoredRel} {node m : Int} {dir : Direction} (other : neighborId r node dir = some m) :
    (r.fromId = node ∧ r.toId = m) ∨ (r.toId = node ∧ r.fromId = m) := by
  unfold neighborId at other
  cases dir with
  | out => simp at other; exact .inl other
  | incoming => simp at other; exact .inr other
  | both =>
    simp only at other
    split at other
    case isTrue here => exact .inl ⟨here, by simpa using other⟩
    case isFalse => simp at other; exact .inr other

/-- Matching depends on the shape only. -/
theorem StoredRel.SameShape.matches {a b : StoredRel} (same : a.SameShape b) (node : Int) (relType : Option String)
    (dir : Direction) : relMatchesNeighbor a node relType dir = relMatchesNeighbor b node relType dir := by
  obtain ⟨ty, source, target⟩ := same
  simp only [relMatchesNeighbor, ty, source, target]

namespace InMemoryTx

/-- The invariant of a transaction. -/
structure Valid (tx : InMemoryTx) : Prop where
  store : tx.store.Indexed
  nodeBelow : ∀ k ∈ tx.store.nodes, k < tx.store.nextNodeId
  relBelow : ∀ k ∈ tx.store.rels, k < tx.store.nextRelId
  own : tx.delta.Own
  writtenNodeBelow : ∀ k ∈ tx.delta.nodes, k < tx.store.nextNodeId
  writtenRelBelow : ∀ k ∈ tx.delta.rels, k < tx.store.nextRelId
  nodesApart : ∀ k ∈ tx.delta.nodes, k ∉ tx.delta.deletedNodes
  relsApart : ∀ k ∈ tx.delta.rels, k ∉ tx.delta.deletedRels
  shape : ∀ (k : Int) (r b : StoredRel), tx.delta.rels[k]? = some r → tx.store.rels[k]? = some b → r.SameShape b
  copy : ∀ w, tx.workingCopy = some w → w.Indexed
  copyNodeBelow : ∀ w, tx.workingCopy = some w → ∀ k ∈ w.nodes, k < tx.store.nextNodeId
  copyRelBelow : ∀ w, tx.workingCopy = some w → ∀ k ∈ w.rels, k < tx.store.nextRelId
  copyShape : ∀ w, tx.workingCopy = some w → ∀ (k : Int) (r b : StoredRel), w.rels[k]? = some r →
    tx.store.rels[k]? = some b → r.SameShape b

section View
variable {tx : InMemoryTx}

theorem Valid.visibleNode_id (h : tx.Valid) {id : Int} {n : StoredNode} (seen : tx.visibleNode id = some n) :
    n.id = id := by
  unfold visibleNode at seen
  split at seen
  case h_1 w found => exact (h.copy w found).nodeId id n seen
  case h_2 =>
    split at seen
    · cases seen
    · rcases Option.or_eq_some_iff.1 seen with written | ⟨-, stored⟩
      · exact h.own.node id n written
      · exact h.store.nodeId id n stored

theorem Valid.visibleRel_id (h : tx.Valid) {id : Int} {r : StoredRel} (seen : tx.visibleRel id = some r) :
    r.id = id := by
  unfold visibleRel at seen
  split at seen
  case h_1 w found => exact (h.copy w found).relId id r seen
  case h_2 =>
    split at seen
    · cases seen
    · rcases Option.or_eq_some_iff.1 (Option.filter_eq_some_iff.1 seen).1 with written | ⟨-, stored⟩
      · exact h.own.rel id r written
      · exact h.store.relId id r stored

/-- A visible version of a stored relationship has its shape. -/
theorem Valid.visibleRel_shape (h : tx.Valid) {id : Int} {r b : StoredRel} (seen : tx.visibleRel id = some r)
    (stored : tx.store.rels[id]? = some b) : r.SameShape b := by
  unfold visibleRel at seen
  split at seen
  case h_1 w found => exact h.copyShape w found id r b seen stored
  case h_2 =>
    split at seen
    · cases seen
    · rcases Option.or_eq_some_iff.1 (Option.filter_eq_some_iff.1 seen).1 with written | ⟨-, base⟩
      · exact h.shape id r b written stored
      · rw [stored, Option.some.injEq] at base
        exact base ▸ ⟨rfl, rfl, rfl⟩

/-- Without a working copy, a visible node is not among the deleted ones. -/
theorem not_deleted_of_visible (plain : tx.workingCopy = none) {id : Int} (seen : (tx.visibleNode id).isSome) :
    id ∉ tx.delta.deletedNodes := by
  intro deleted
  simp [visibleNode, plain, deleted] at seen

theorem present_of_visible (plain : tx.workingCopy = none) {id : Int} (seen : (tx.visibleNode id).isSome) :
    id ∈ tx.delta.nodes ∨ id ∈ tx.store.nodes := by
  simpa [visibleNode, plain, not_deleted_of_visible plain seen] using seen

/-- A written relationship between two visible nodes is visible. -/
theorem Valid.visibleRel_of_written (h : tx.Valid) (plain : tx.workingCopy = none) {r : StoredRel}
    (written : tx.delta.rels[r.id]? = some r) (source : (tx.visibleNode r.fromId).isSome)
    (target : (tx.visibleNode r.toId).isSome) : tx.visibleRel r.id = some r := by
  have kept := h.relsApart r.id (BTreeMap.mem_iff_get.2 ⟨r, written⟩)
  simp only [visibleRel, plain, kept, if_false, written, Option.some_or, Option.filter_some]
  have ends : (tx.delta.deletedNodes.contains r.fromId || tx.delta.deletedNodes.contains r.toId) = false := by
    rw [Bool.or_eq_false_iff, BTreeSet.contains_eq_false, BTreeSet.contains_eq_false]
    exact ⟨not_deleted_of_visible plain source, not_deleted_of_visible plain target⟩
  simp [ends]

/-- The neighbour list of a visible node. -/
theorem Valid.mem_visibleNeighborPairs (h : tx.Valid) {node : Int} {relType : Option String} {dir : Direction}
    {r : StoredRel} {m : StoredNode} (start : (tx.visibleNode node).isSome) :
    (r, m) ∈ tx.visibleNeighborPairs node relType dir ↔
      tx.visibleRel r.id = some r ∧ relMatchesNeighbor r node relType dir = true ∧
        (neighborId r node dir).bind tx.visibleNode = some m := by
  cases plain : tx.workingCopy with
  | some w =>
    have indexed := h.copy w plain
    have nodes : tx.visibleNode = fun id => w.nodes[id]? := by
      funext id
      simp only [visibleNode, plain]
    simp only [visibleNeighborPairs, visibleRel, plain, nodes, GraphStore.materializedNeighborPairs,
      List.mem_filterMap, FirstByKey.mem_distinct, indexed.mem_adjacentIds]
    constructor
    · rintro ⟨id, ⟨r', found, hit⟩, pair⟩
      simp only [found, Option.bind_eq_bind, Option.bind_some, Option.bind_eq_some_iff, Option.pure_def,
        Option.some.injEq, Prod.mk.injEq] at pair
      obtain ⟨m', neighbor, rfl, rfl⟩ := pair
      rw [indexed.relId id r' found]
      exact ⟨found, hit, Option.bind_eq_some_iff.2 neighbor⟩
    · rintro ⟨found, hit, neighbor⟩
      refine ⟨r.id, ⟨r, found, hit⟩, ?_⟩
      simp only [found, Option.bind_eq_bind, Option.bind_some, neighbor, Option.pure_def]
  | none =>
    have alive := not_deleted_of_visible plain start
    have present : ¬ (node ∉ tx.delta.nodes ∧ node ∉ tx.store.nodes) := by
      rcases present_of_visible plain start with written | stored
      · exact fun both => both.1 written
      · exact fun both => both.2 stored
    simp only [visibleNeighborPairs, plain, alive, if_false, present, List.mem_append, List.mem_filterMap,
      FirstByKey.mem_distinct, h.store.mem_adjacentIds]
    constructor
    · rintro (⟨id, ⟨b, stored, hit⟩, pair⟩ | ⟨r', kept, pair⟩)
      · simp only [visibleNeighborPair, Option.bind_eq_bind, Option.bind_eq_some_iff, Option.pure_def,
          Option.some.injEq, Prod.mk.injEq] at pair
        obtain ⟨r', seen, m', neighbor, rfl, rfl⟩ := pair
        refine ⟨(h.visibleRel_id seen).symm ▸ seen, ?_, Option.bind_eq_some_iff.2 neighbor⟩
        rw [(h.visibleRel_shape seen stored).matches, hit]
      · simp only [Option.map_eq_some_iff, Prod.mk.injEq] at pair
        obtain ⟨m', neighbor, rfl, rfl⟩ := pair
        obtain ⟨member, hit⟩ := List.mem_filter.1 (FirstByKey.mem_of_mem kept)
        obtain ⟨id, written⟩ := BTreeMap.mem_vals.1 member
        have own := h.own.rel id r' written
        obtain ⟨mid, other, seen⟩ := Option.bind_eq_some_iff.1 neighbor
        have seen : (tx.visibleNode mid).isSome := by rw [seen]; rfl
        refine ⟨?_, hit, neighbor⟩
        rcases neighborId_cases other with ⟨rfl, rfl⟩ | ⟨rfl, rfl⟩
        · exact h.visibleRel_of_written plain (own ▸ written) start seen
        · exact h.visibleRel_of_written plain (own ▸ written) seen start
    · rintro ⟨seen, hit, neighbor⟩
      cases stored : tx.store.rels[r.id]? with
      | some b =>
        refine .inl ⟨r.id, ⟨b, stored, ?_⟩, ?_⟩
        · rw [← (h.visibleRel_shape seen stored).matches, hit]
        · simp only [visibleNeighborPair, seen, Option.bind_eq_bind, Option.bind_some, neighbor, Option.pure_def]
      | none =>
        have written : tx.delta.rels[r.id]? = some r := by
          simp only [visibleRel, plain, stored, Option.or_none] at seen
          split at seen
          · cases seen
          · exact (Option.filter_eq_some_iff.1 seen).1
        have base : r.id ∉ firstByKey some [] (tx.store.adjacentIds node relType dir) := by
          rw [FirstByKey.mem_distinct, h.store.mem_adjacentIds, stored]
          rintro ⟨_, absurd, -⟩
          cases absurd
        have member : r ∈ tx.delta.rels.vals.filter fun rel => relMatchesNeighbor rel node relType dir :=
          List.mem_filter.2 ⟨BTreeMap.mem_vals.2 ⟨r.id, written⟩, hit⟩
        obtain ⟨r', kept, same⟩ := (FirstByKey.mem_keys fun rel : StoredRel => some rel.id).2 ⟨base, r, member, rfl⟩
        obtain ⟨id', written'⟩ := BTreeMap.mem_vals.1 (List.mem_filter.1 (FirstByKey.mem_of_mem kept)).1
        have own := h.own.rel id' r' written'
        have unique : r' = r := by
          rw [← own, Option.some.inj same, written] at written'
          exact (Option.some.inj written').symm
        exact .inr ⟨r', kept, by rw [unique, neighbor]; rfl⟩

/-- A neighbour list names no relationship twice. -/
theorem Valid.nodup_visibleNeighborPairs (h : tx.Valid) (node : Int) (relType : Option String) (dir : Direction) :
    ((tx.visibleNeighborPairs node relType dir).map fun p => p.1.id).Nodup := by
  have distinct : ∀ l : List Int, ((firstByKey some [] l).map id).Nodup := by
    intro l
    rw [List.map_id]
    exact FirstByKey.nodup_distinct l
  unfold visibleNeighborPairs
  split
  case h_1 w found =>
    refine FirstByKey.nodup_map_filterMap (g := id) (distinct _) ?_
    intro relId _ pair seen
    simp only [Option.bind_eq_bind, Option.bind_eq_some_iff, Option.pure_def, Option.some.injEq] at seen
    obtain ⟨r, stored, m, -, rfl⟩ := seen
    exact (h.copy w found).relId relId r stored
  case h_2 =>
    split
    · exact List.nodup_nil
    split
    · exact List.nodup_nil
    dsimp only
    rw [List.map_append, List.nodup_append]
    refine ⟨?_, ?_, ?_⟩
    · refine FirstByKey.nodup_map_filterMap (g := id) (distinct _) ?_
      intro relId _ pair seen
      simp only [visibleNeighborPair, Option.bind_eq_bind, Option.bind_eq_some_iff, Option.pure_def,
        Option.some.injEq] at seen
      obtain ⟨r, seen, m, -, rfl⟩ := seen
      exact h.visibleRel_id seen
    · refine FirstByKey.nodup_map_filterMap (g := StoredRel.id) ?_ ?_
      · rw [List.nodup_iff_pairwise_ne, List.pairwise_map]
        refine (FirstByKey.pairwise_keys (fun rel : StoredRel => some rel.id) _ _).imp ?_
        exact fun apart same => apart (congrArg some same)
      · intro r _ pair seen
        obtain ⟨m, -, rfl⟩ := Option.map_eq_some_iff.1 seen
        rfl
    · intro left inBase right inWritten
      obtain ⟨pair, member, rfl⟩ := List.mem_map.1 inBase
      obtain ⟨relId, listed, seen⟩ := List.mem_filterMap.1 member
      simp only [visibleNeighborPair, Option.bind_eq_bind, Option.bind_eq_some_iff, Option.pure_def,
        Option.some.injEq] at seen
      obtain ⟨r, seen, m, -, rfl⟩ := seen
      obtain ⟨pair', member', rfl⟩ := List.mem_map.1 inWritten
      obtain ⟨r', kept, seen'⟩ := List.mem_filterMap.1 member'
      obtain ⟨m', -, rfl⟩ := Option.map_eq_some_iff.1 seen'
      obtain ⟨k, hk, unseen⟩ := FirstByKey.key_of_mem kept
      rw [Option.some.injEq] at hk
      intro same
      have here : r.id = relId := h.visibleRel_id seen
      exact unseen (hk ▸ same ▸ here.symm ▸ listed)

end View
end InMemoryTx
