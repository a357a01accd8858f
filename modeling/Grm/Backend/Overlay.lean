import Grm.Backend.PlainGraph

/-!
# The overlay of a delta on a store

`TxDelta.node` and `TxDelta.rel` are the records a delta and a store give together,
before relationships are hidden for a deleted endpoint. Each operation of a
transaction without a working copy is described by what it does to them.
-/

open Std

set_option autoImplicit false

namespace TxDelta
variable (d : TxDelta) (s : GraphStore)

/-- The node under an id. -/
def node (id : Int) : Option StoredNode :=
  if id ∈ d.deletedNodes then none else (d.nodes[id]?).or s.nodes[id]?

/-- The relationship under an id, whatever became of its endpoints. -/
def rel (id : Int) : Option StoredRel :=
  if id ∈ d.deletedRels then none else (d.rels[id]?).or s.rels[id]?

theorem node_writeNode (id k : Int) (n : StoredNode) :
    (d.writeNode id n).node s k = if id = k then some n else d.node s k := by
  unfold node
  simp only [writeNode, BTreeSet.mem_erase, BTreeMap.get_insert]
  by_cases same : id = k <;> simp [same]

theorem rel_writeRel (id k : Int) (r : StoredRel) :
    (d.writeRel id r).rel s k = if id = k then some r else d.rel s k := by
  unfold rel
  simp only [writeRel, BTreeSet.mem_erase, BTreeMap.get_insert]
  by_cases same : id = k <;> simp [same]

/-- Dropping a node hides it, unless it is a written version of a stored node. -/
theorem node_dropNode {id : Int} (clean : id ∈ d.nodes → id ∉ s.nodes) (k : Int) :
    (d.dropNode id).node s k = if id = k then none else d.node s k := by
  unfold node
  rw [dropNode_nodes]
  simp only [mem_dropNode_deletedNodes]
  by_cases same : id = k
  · subst same
    by_cases written : id ∈ d.nodes
    · simp [written, BTreeMap.not_mem_iff_get.1 (clean written)]
    · simp [written]
  · simp [same]

/-- Dropping a relationship hides it, unless it is a written version of a stored one. -/
theorem rel_dropRel {id : Int} (clean : id ∈ d.rels → id ∉ s.rels) (k : Int) :
    (d.dropRel id).rel s k = if id = k then none else d.rel s k := by
  unfold rel
  rw [dropRel_rels]
  simp only [mem_dropRel_deletedRels]
  by_cases same : id = k
  · subst same
    by_cases written : id ∈ d.rels
    · simp [written, BTreeMap.not_mem_iff_get.1 (clean written)]
    · simp [written]
  · simp [same]

/-- Dropping a list of relationships uncovers the stored version of a written one. -/
theorem rel_dropRels (apart : ∀ k ∈ d.rels, k ∉ d.deletedRels) {l : List Int} (distinct : l.Nodup) (k : Int) :
    (l.foldl dropRel d).rel s k =
      if k ∈ l then if k ∈ d.rels then s.rels[k]? else none else d.rel s k := by
  obtain ⟨rels, deleted, -, -⟩ := d.dropRels l distinct
  unfold rel
  rw [rels]
  simp only [deleted]
  by_cases listed : k ∈ l
  · by_cases written : k ∈ d.rels
    · simp [listed, written, apart k written]
    · simp [listed, written]
  · simp [listed]

variable {s}

theorem node_congr {s' : GraphStore} (same : s'.nodes = s.nodes) (k : Int) : d.node s' k = d.node s k := by
  rw [node, node, same]

theorem rel_congr {s' : GraphStore} (same : s'.rels = s.rels) (k : Int) : d.rel s' k = d.rel s k := by
  rw [rel, rel, same]

end TxDelta

namespace InMemoryTx
variable {tx : InMemoryTx}

theorem visibleNode_overlay (plain : tx.workingCopy = none) (id : Int) : tx.visibleNode id = tx.delta.node tx.store id := by
  simp only [visibleNode, plain, TxDelta.node]

theorem updatableRel_overlay (plain : tx.workingCopy = none) (id : Int) :
    tx.updatableRel id = tx.delta.rel tx.store id := by
  simp only [updatableRel, plain, TxDelta.rel]

theorem visibleRel_overlay (plain : tx.workingCopy = none) (id : Int) :
    tx.visibleRel id = (tx.delta.rel tx.store id).filter fun rel =>
      !(tx.delta.deletedNodes.contains rel.fromId || tx.delta.deletedNodes.contains rel.toId) := by
  simp only [visibleRel, plain, TxDelta.rel]
  split <;> rfl

/-- The ids a node deletion cascades to, when the node is visible. -/
theorem Valid.mem_visibleRelatedRelIds (h : tx.Valid) (plain : tx.workingCopy = none) {id k : Int}
    (seen : (tx.visibleNode id).isSome) :
    k ∈ tx.visibleRelatedRelIds id ↔
      ∃ r, tx.delta.rel tx.store k = some r ∧ r.touches id = true ∧ (k ∈ tx.delta.rels ∨ (tx.visibleRel k).isSome) := by
  have alive := not_deleted_of_visible plain seen
  have present : ¬ (id ∉ tx.delta.nodes ∧ id ∉ tx.store.nodes) := by
    rcases present_of_visible plain seen with written | stored
    · exact fun both => both.1 written
    · exact fun both => both.2 stored
  have held : ∀ {r : StoredRel}, tx.delta.rels[k]? = some r → tx.delta.rel tx.store k = some r := by
    intro r written
    simp [TxDelta.rel, written, h.relsApart k (BTreeMap.mem_iff_get.2 ⟨r, written⟩)]
  have adjacent : (k ∈ tx.store.outgoingRelationshipIds id none ∨ k ∈ tx.store.incomingRelationshipIds id none) ↔
      ∃ b, tx.store.rels[k]? = some b ∧ b.touches id = true := by
    rw [h.store.mem_outgoing, h.store.mem_incoming]
    simp only [relMatchesNeighbor, Option.any_none, Bool.false_eq_true, if_false, StoredRel.touches, Bool.or_eq_true]
    constructor
    · rintro (⟨b, stored, hit⟩ | ⟨b, stored, hit⟩)
      · exact ⟨b, stored, .inl hit⟩
      · exact ⟨b, stored, .inr hit⟩
    · rintro ⟨b, stored, hit | hit⟩
      · exact .inl ⟨b, stored, hit⟩
      · exact .inr ⟨b, stored, hit⟩
  simp only [visibleRelatedRelIds, plain, alive, if_false, present, ExtTreeSet.mem_ofList, List.contains_iff_mem,
    List.mem_append, List.mem_filter, adjacent, List.mem_map, BTreeMap.mem_vals]
  constructor
  · rintro (⟨⟨b, stored, hit⟩, visible⟩ | ⟨r, ⟨⟨j, written⟩, hit⟩, rfl⟩)
    · obtain ⟨r, found⟩ := Option.isSome_iff_exists.1 visible
      have shape := h.visibleRel_shape found stored
      rw [visibleRel_overlay plain] at found
      refine ⟨r, (Option.filter_eq_some_iff.1 found).1, ?_, .inr visible⟩
      simpa only [StoredRel.touches, shape.2.1, shape.2.2] using hit
    · have own := h.own.rel j r written
      subst own
      exact ⟨r, held written, hit, .inl (BTreeMap.mem_iff_get.2 ⟨r, written⟩)⟩
  · rintro ⟨r, found, hit, written | visible⟩
    · obtain ⟨w, written⟩ := BTreeMap.mem_iff_get.1 written
      rw [held written, Option.some.injEq] at found
      subst found
      exact .inr ⟨w, ⟨⟨k, written⟩, hit⟩, h.own.rel k w written⟩
    · by_cases written : k ∈ tx.delta.rels
      · obtain ⟨w, written⟩ := BTreeMap.mem_iff_get.1 written
        rw [held written, Option.some.injEq] at found
        subst found
        exact .inr ⟨w, ⟨⟨k, written⟩, hit⟩, h.own.rel k w written⟩
      · have stored : tx.store.rels[k]? = some r := by
          unfold TxDelta.rel at found
          split at found
          · cases found
          · rwa [BTreeMap.not_mem_iff_get.1 written, Option.none_or] at found
        exact .inl ⟨⟨r, stored, hit⟩, visible⟩

/-- Deleting an invisible node cascades to nothing. -/
theorem visibleRelatedRelIds_of_missing (h : tx.Valid) (plain : tx.workingCopy = none) {id : Int}
    (unseen : tx.visibleNode id = none) : tx.visibleRelatedRelIds id = ∅ ∧ id ∉ tx.delta.nodes := by
  rw [visibleNode_overlay plain, TxDelta.node] at unseen
  by_cases deleted : id ∈ tx.delta.deletedNodes
  · exact ⟨by simp [visibleRelatedRelIds, plain, deleted], fun written => h.nodesApart id written deleted⟩
  · rw [if_neg deleted, Option.or_eq_none_iff] at unseen
    have written := BTreeMap.not_mem_iff_get.2 unseen.1
    have stored := BTreeMap.not_mem_iff_get.2 unseen.2
    exact ⟨by simp [visibleRelatedRelIds, plain, deleted, written, stored], written⟩

section DeleteNode
variable (tx : InMemoryTx) (id k : Int)

theorem mem_deleteNode_deletedNodes :
    k ∈ (tx.deleteNode id).delta.deletedNodes ↔ (id = k ∧ id ∉ tx.delta.nodes) ∨ k ∈ tx.delta.deletedNodes := by
  obtain ⟨-, -, -, kept⟩ :=
    (tx.delta.dropNode id).dropRels (tx.visibleRelatedRelIds id).toList (BTreeSet.nodup_toList _)
  rw [deleteNode, kept, TxDelta.mem_dropNode_deletedNodes]

theorem deleteNode_deltaRels :
    (tx.deleteNode id).delta.rels[k]? = if k ∈ tx.visibleRelatedRelIds id then none else tx.delta.rels[k]? := by
  obtain ⟨rels, -, -, -⟩ :=
    (tx.delta.dropNode id).dropRels (tx.visibleRelatedRelIds id).toList (BTreeSet.nodup_toList _)
  rw [deleteNode, rels, TxDelta.dropNode_rels]
  by_cases inside : k ∈ tx.visibleRelatedRelIds id <;> simp [inside]

theorem mem_deleteNode_deletedRels :
    k ∈ (tx.deleteNode id).delta.deletedRels ↔
      (k ∈ tx.visibleRelatedRelIds id ∧ k ∉ tx.delta.rels) ∨ k ∈ tx.delta.deletedRels := by
  obtain ⟨-, deleted, -, -⟩ :=
    (tx.delta.dropNode id).dropRels (tx.visibleRelatedRelIds id).toList (BTreeSet.nodup_toList _)
  rw [deleteNode, deleted]
  simp

variable {tx id}

theorem deleteNode_node (clean : ¬ (id ∈ tx.delta.nodes ∧ id ∈ tx.store.nodes)) :
    (tx.deleteNode id).delta.node tx.store k = if id = k then none else tx.delta.node tx.store k := by
  obtain ⟨-, -, keptNodes, keptDeleted⟩ :=
    (tx.delta.dropNode id).dropRels (tx.visibleRelatedRelIds id).toList (BTreeSet.nodup_toList _)
  have dropped := tx.delta.node_dropNode tx.store (fun written stored => clean ⟨written, stored⟩) k
  simpa only [deleteNode, TxDelta.node, keptNodes, keptDeleted] using dropped

/-- The cascade uncovers the stored version of a written relationship. -/
theorem Valid.deleteNode_rel (h : tx.Valid) :
    (tx.deleteNode id).delta.rel tx.store k =
      if k ∈ tx.visibleRelatedRelIds id then if k ∈ tx.delta.rels then tx.store.rels[k]? else none
      else tx.delta.rel tx.store k := by
  have apart : ∀ k ∈ (tx.delta.dropNode id).rels, k ∉ (tx.delta.dropNode id).deletedRels := by
    simpa using h.relsApart
  refine ((tx.delta.dropNode id).rel_dropRels tx.store apart
    (BTreeSet.nodup_toList (tx.visibleRelatedRelIds id)) k).trans ?_
  by_cases inside : k ∈ tx.visibleRelatedRelIds id
  · simp [inside]
  · simp [inside, TxDelta.rel]

end DeleteNode

end InMemoryTx
