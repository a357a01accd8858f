import Grm.Backend.TxView
import Grm.Backend.TxQuery

/-!
# Runs of a transaction

The operations of the `GraphTx` trait as one step function, and the invariant
`Valid` over whole runs. Reads are steps too: a property lookup or a graph query may
rebuild the caches of the shared store.
-/

open Std

set_option autoImplicit false

namespace TxDelta
variable (d : TxDelta) (id k : Int)

theorem dropNode_nodes : (d.dropNode id).nodes[k]? = if id = k then none else d.nodes[k]? := by
  unfold dropNode
  split
  · exact BTreeMap.get_erase d.nodes id k
  case isFalse absent =>
    split
    case isTrue same => exact same ▸ BTreeMap.not_mem_iff_get.1 absent
    case isFalse => rfl

theorem mem_dropNode_deletedNodes :
    k ∈ (d.dropNode id).deletedNodes ↔ (id = k ∧ id ∉ d.nodes) ∨ k ∈ d.deletedNodes := by
  unfold dropNode
  split
  case isTrue written => simp [written]
  case isFalse absent => simp [absent]

@[simp] theorem dropNode_rels : (d.dropNode id).rels = d.rels := by unfold dropNode; split <;> rfl

@[simp] theorem dropNode_deletedRels : (d.dropNode id).deletedRels = d.deletedRels := by
  unfold dropNode; split <;> rfl

theorem dropRel_rels : (d.dropRel id).rels[k]? = if id = k then none else d.rels[k]? := by
  unfold dropRel
  split
  · exact BTreeMap.get_erase d.rels id k
  case isFalse absent =>
    split
    case isTrue same => exact same ▸ BTreeMap.not_mem_iff_get.1 absent
    case isFalse => rfl

theorem mem_dropRel_deletedRels :
    k ∈ (d.dropRel id).deletedRels ↔ (id = k ∧ id ∉ d.rels) ∨ k ∈ d.deletedRels := by
  unfold dropRel
  split
  case isTrue written => simp [written]
  case isFalse absent => simp [absent]

@[simp] theorem dropRel_nodes : (d.dropRel id).nodes = d.nodes := by unfold dropRel; split <;> rfl

@[simp] theorem dropRel_deletedNodes : (d.dropRel id).deletedNodes = d.deletedNodes := by
  unfold dropRel; split <;> rfl

theorem mem_dropRel_rels : k ∈ (d.dropRel id).rels ↔ id ≠ k ∧ k ∈ d.rels := by
  simp only [BTreeMap.mem_iff_get, dropRel_rels]
  by_cases same : id = k <;> simp [same]

/-- Dropping a set of relationships: the written ones among them are taken out, the
others noted as deleted. -/
theorem dropRels (l : List Int) (distinct : l.Nodup) :
    (∀ k, (l.foldl dropRel d).rels[k]? = if k ∈ l then none else d.rels[k]?) ∧
      (∀ k, k ∈ (l.foldl dropRel d).deletedRels ↔ (k ∈ l ∧ k ∉ d.rels) ∨ k ∈ d.deletedRels) ∧
      (l.foldl dropRel d).nodes = d.nodes ∧ (l.foldl dropRel d).deletedNodes = d.deletedNodes := by
  induction l generalizing d with
  | nil => simp
  | cons id l ih =>
    obtain ⟨fresh, rest⟩ := List.nodup_cons.1 distinct
    obtain ⟨rels, deleted, nodes, deletedNodes⟩ := ih (d.dropRel id) rest
    refine ⟨fun k => ?_, fun k => ?_, ?_, ?_⟩
    · rw [List.foldl_cons, rels, dropRel_rels]
      by_cases later : k ∈ l
      · simp [later]
      · by_cases same : id = k
        · simp [same]
        · simp [later, same, Ne.symm same]
    · rw [List.foldl_cons, deleted, mem_dropRel_deletedRels, mem_dropRel_rels, List.mem_cons]
      by_cases same : id = k
      · subst same
        simp [fresh]
      · simp [same, Ne.symm same]
    · rw [List.foldl_cons, nodes, dropRel_nodes]
    · rw [List.foldl_cons, deletedNodes, dropRel_deletedNodes]

end TxDelta

namespace InMemoryTx
variable {tx : InMemoryTx}

theorem valid_new {s : GraphStore} (h : s.Sound) : (new s).Valid where
  store := h.indexed
  nodeBelow := h.nodeBelow
  relBelow := h.relBelow
  own := ⟨by simp [new], by simp [new]⟩
  writtenNodeBelow := by simp [new]
  writtenRelBelow := by simp [new]
  nodesApart := by simp [new]
  relsApart := by simp [new]
  shape := by simp [new]
  copy := by simp [new]
  copyNodeBelow := by simp [new]
  copyRelBelow := by simp [new]
  copyShape := by simp [new]

/-- The shared store may change its counters upwards and its caches, not its records. -/
theorem Valid.withStore (h : tx.Valid) {s : GraphStore} (indexed : s.Indexed) (nodes : s.nodes = tx.store.nodes)
    (rels : s.rels = tx.store.rels) (nextNode : tx.store.nextNodeId ≤ s.nextNodeId)
    (nextRel : tx.store.nextRelId ≤ s.nextRelId) : { tx with store := s }.Valid where
  store := indexed
  nodeBelow k member := Int.lt_of_lt_of_le (h.nodeBelow k (nodes ▸ member)) nextNode
  relBelow k member := Int.lt_of_lt_of_le (h.relBelow k (rels ▸ member)) nextRel
  own := h.own
  writtenNodeBelow k member := Int.lt_of_lt_of_le (h.writtenNodeBelow k member) nextNode
  writtenRelBelow k member := Int.lt_of_lt_of_le (h.writtenRelBelow k member) nextRel
  nodesApart := h.nodesApart
  relsApart := h.relsApart
  shape k r b written stored := h.shape k r b written (rels ▸ stored)
  copy := h.copy
  copyNodeBelow w found k member := Int.lt_of_lt_of_le (h.copyNodeBelow w found k member) nextNode
  copyRelBelow w found k member := Int.lt_of_lt_of_le (h.copyRelBelow w found k member) nextRel
  copyShape w found k r b seen stored := h.copyShape w found k r b seen (rels ▸ stored)

theorem Valid.allocateNodeId (h : tx.Valid) : tx.allocateNodeId.1.Valid :=
  h.withStore (h.store.counters _ _) rfl rfl (Int.le_of_lt (Int.lt_succ _)) (Int.le_refl _)

theorem Valid.allocateRelId (h : tx.Valid) : tx.allocateRelId.1.Valid :=
  h.withStore (h.store.counters _ _) rfl rfl (Int.le_refl _) (Int.le_of_lt (Int.lt_succ _))

theorem Valid.freshProps (h : tx.Valid) : { tx with store := tx.store.freshProps }.Valid :=
  h.withStore h.store.freshProps (by simp) (by simp) (by simp) (by simp)

/-- A node written to the delta, and to the working copy when there is one. -/
theorem Valid.writeNode (h : tx.Valid) (id : Int) (node : StoredNode) (own : node.id = id)
    (below : id < tx.store.nextNodeId) {copy : Option GraphStore}
    (copies : ∀ w', copy = some w' → ∃ w, tx.workingCopy = some w ∧ w'.Indexed ∧
      w'.nodes = w.nodes.insert id node ∧ w'.rels = w.rels) :
    { tx with workingCopy := copy, delta := tx.delta.writeNode id node }.Valid where
  store := h.store
  nodeBelow := h.nodeBelow
  relBelow := h.relBelow
  own := by
    refine ⟨fun k n found => ?_, h.own.rel⟩
    rw [TxDelta.writeNode, BTreeMap.get_insert] at found
    split at found
    case isTrue same => cases found; rw [own, same]
    case isFalse => exact h.own.node k n found
  writtenNodeBelow := by
    intro k member
    rcases BTreeMap.mem_insert.1 member with rfl | before
    · exact below
    · exact h.writtenNodeBelow k before
  writtenRelBelow := h.writtenRelBelow
  nodesApart := by
    intro k member deleted
    obtain ⟨ne, before⟩ := BTreeSet.mem_erase.1 deleted
    exact h.nodesApart k ((BTreeMap.mem_insert.1 member).resolve_left ne) before
  relsApart := h.relsApart
  shape := h.shape
  copy := fun w' found => (copies w' found).elim fun _ p => p.2.1
  copyNodeBelow := by
    intro w' found k member
    obtain ⟨w, before, -, nodes, -⟩ := copies w' found
    rw [nodes, BTreeMap.mem_insert] at member
    rcases member with rfl | member
    · exact below
    · exact h.copyNodeBelow w before k member
  copyRelBelow := by
    intro w' found k member
    obtain ⟨w, before, -, -, rels⟩ := copies w' found
    exact h.copyRelBelow w before k (rels ▸ member)
  copyShape := by
    intro w' found k r b seen stored
    obtain ⟨w, before, -, -, rels⟩ := copies w' found
    exact h.copyShape w before k r b (rels ▸ seen) stored

/-- A relationship written to the delta, and to the working copy when there is one. -/
theorem Valid.writeRel (h : tx.Valid) (id : Int) (rel : StoredRel) (own : rel.id = id)
    (below : id < tx.store.nextRelId) (same : ∀ b, tx.store.rels[id]? = some b → rel.SameShape b)
    {copy : Option GraphStore}
    (copies : ∀ w', copy = some w' → ∃ w, tx.workingCopy = some w ∧ w'.Indexed ∧
      w'.rels = w.rels.insert id rel ∧ w'.nodes = w.nodes) :
    { tx with workingCopy := copy, delta := tx.delta.writeRel id rel }.Valid where
  store := h.store
  nodeBelow := h.nodeBelow
  relBelow := h.relBelow
  own := by
    refine ⟨h.own.node, fun k r found => ?_⟩
    rw [TxDelta.writeRel, BTreeMap.get_insert] at found
    split at found
    case isTrue same => cases found; rw [own, same]
    case isFalse => exact h.own.rel k r found
  writtenNodeBelow := h.writtenNodeBelow
  writtenRelBelow := by
    intro k member
    rcases BTreeMap.mem_insert.1 member with rfl | before
    · exact below
    · exact h.writtenRelBelow k before
  nodesApart := h.nodesApart
  relsApart := by
    intro k member deleted
    obtain ⟨ne, before⟩ := BTreeSet.mem_erase.1 deleted
    exact h.relsApart k ((BTreeMap.mem_insert.1 member).resolve_left ne) before
  shape := by
    intro k r b written stored
    rw [TxDelta.writeRel, BTreeMap.get_insert] at written
    split at written
    case isTrue here => cases written; exact same b (here ▸ stored)
    case isFalse => exact h.shape k r b written stored
  copy := fun w' found => (copies w' found).elim fun _ p => p.2.1
  copyNodeBelow := by
    intro w' found k member
    obtain ⟨w, before, -, -, nodes⟩ := copies w' found
    exact h.copyNodeBelow w before k (nodes ▸ member)
  copyRelBelow := by
    intro w' found k member
    obtain ⟨w, before, -, rels, -⟩ := copies w' found
    rw [rels, BTreeMap.mem_insert] at member
    rcases member with rfl | member
    · exact below
    · exact h.copyRelBelow w before k member
  copyShape := by
    intro w' found k r b seen stored
    obtain ⟨w, before, -, rels, -⟩ := copies w' found
    rw [rels, BTreeMap.get_insert] at seen
    split at seen
    case isTrue here => cases seen; exact same b (here ▸ stored)
    case isFalse => exact h.copyShape w before k r b seen stored

/-- Records dropped from the delta, and removed from the working copy when there is one. -/
theorem Valid.drop (h : tx.Valid) {d : TxDelta} {copy : Option GraphStore}
    (nodes : ∀ (k : Int) (n : StoredNode), d.nodes[k]? = some n → tx.delta.nodes[k]? = some n ∧ k ∉ d.deletedNodes)
    (rels : ∀ (k : Int) (r : StoredRel), d.rels[k]? = some r → tx.delta.rels[k]? = some r ∧ k ∉ d.deletedRels)
    (copies : ∀ w', copy = some w' → ∃ w, tx.workingCopy = some w ∧ w'.Indexed ∧ (∀ k ∈ w'.nodes, k ∈ w.nodes) ∧
      ∀ (k : Int) (r : StoredRel), w'.rels[k]? = some r → w.rels[k]? = some r) :
    { tx with workingCopy := copy, delta := d }.Valid where
  store := h.store
  nodeBelow := h.nodeBelow
  relBelow := h.relBelow
  own := ⟨fun k n found => h.own.node k n (nodes k n found).1, fun k r found => h.own.rel k r (rels k r found).1⟩
  writtenNodeBelow := by
    intro k member
    obtain ⟨n, found⟩ := BTreeMap.mem_iff_get.1 member
    exact h.writtenNodeBelow k (BTreeMap.mem_iff_get.2 ⟨n, (nodes k n found).1⟩)
  writtenRelBelow := by
    intro k member
    obtain ⟨r, found⟩ := BTreeMap.mem_iff_get.1 member
    exact h.writtenRelBelow k (BTreeMap.mem_iff_get.2 ⟨r, (rels k r found).1⟩)
  nodesApart := by
    intro k member
    obtain ⟨n, found⟩ := BTreeMap.mem_iff_get.1 member
    exact (nodes k n found).2
  relsApart := by
    intro k member
    obtain ⟨r, found⟩ := BTreeMap.mem_iff_get.1 member
    exact (rels k r found).2
  shape := fun k r b written stored => h.shape k r b (rels k r written).1 stored
  copy := fun w' found => (copies w' found).elim fun _ p => p.2.1
  copyNodeBelow := by
    intro w' found k member
    obtain ⟨w, before, -, sub, -⟩ := copies w' found
    exact h.copyNodeBelow w before k (sub k member)
  copyRelBelow := by
    intro w' found k member
    obtain ⟨w, before, -, -, sub⟩ := copies w' found
    obtain ⟨r, seen⟩ := BTreeMap.mem_iff_get.1 member
    exact h.copyRelBelow w before k (BTreeMap.mem_iff_get.2 ⟨r, sub k r seen⟩)
  copyShape := by
    intro w' found k r b seen stored
    obtain ⟨w, before, -, -, sub⟩ := copies w' found
    exact h.copyShape w before k r b (sub k r seen) stored

/-! ## One step -/

theorem erase_of_not_mem {s : BTreeSet Int} {k : Int} (absent : k ∉ s) : s.erase k = s := by
  apply ExtTreeSet.ext_mem
  intro a
  rw [BTreeSet.mem_erase]
  exact ⟨And.right, fun member => ⟨fun same => absent (same ▸ member), member⟩⟩

/-- An update rewrites the visible node, in the delta and in the working copy. -/
theorem updateNode_eq (tx : InMemoryTx) (id : Int) (props : Props) :
    tx.updateNode id props = match tx.visibleNode id with
      | some node =>
        let node := { node with props := mergeProps node.props props }
        ({ tx with
            workingCopy := tx.workingCopy.map fun store => store.insertNode id node
            delta := tx.delta.writeNode id node }, some node)
      | none => (tx, none) := by
  unfold updateNode visibleNode
  cases plain : tx.workingCopy with
  | some w => cases found : w.nodes[id]? <;> simp only [found, Option.map_some]
  | none =>
    by_cases deleted : id ∈ tx.delta.deletedNodes
    · simp [deleted]
    · simp only [deleted, if_false]
      cases (tx.delta.nodes[id]?).or tx.store.nodes[id]? with
      | none => rfl
      | some node => simp [TxDelta.writeNode, erase_of_not_mem deleted]

/-- The version of a relationship an update starts from: without a working copy, the
deleted endpoints are not looked at. -/
def updatableRel (tx : InMemoryTx) (id : Int) : Option StoredRel :=
  match tx.workingCopy with
  | some store => store.rels[id]?
  | none => if id ∈ tx.delta.deletedRels then none else (tx.delta.rels[id]?).or tx.store.rels[id]?

theorem updateRelationship_eq (tx : InMemoryTx) (id : Int) (props : Props) :
    tx.updateRelationship id props = match tx.updatableRel id with
      | some rel =>
        let rel := { rel with props := mergeProps rel.props props }
        ({ tx with
            workingCopy := tx.workingCopy.map fun store => { store with rels := store.rels.insert id rel }
            delta := tx.delta.writeRel id rel }, some rel)
      | none => (tx, none) := by
  unfold updateRelationship updatableRel
  cases plain : tx.workingCopy with
  | some w => cases found : w.rels[id]? <;> simp only [found, Option.map_some]
  | none =>
    by_cases deleted : id ∈ tx.delta.deletedRels
    · simp [deleted]
    · simp only [deleted, if_false]
      cases (tx.delta.rels[id]?).or tx.store.rels[id]? with
      | none => rfl
      | some rel => simp [TxDelta.writeRel, erase_of_not_mem deleted]

theorem Valid.createNode (h : tx.Valid) (labels : List String) (props : Props) :
    (tx.createNode labels props).1.Valid := by
  refine h.allocateNodeId.writeNode tx.store.nextNodeId _ rfl (Int.lt_succ _) ?_
  intro w' found
  obtain ⟨w, before, rfl⟩ := Option.map_eq_some_iff.1 found
  exact ⟨w, before, (h.copy w before).putNode rfl, by simp, by simp⟩

theorem Valid.createNodes (h : tx.Valid) (inserts : List (List String × Props)) :
    (tx.createNodes inserts).1.Valid := by
  induction inserts generalizing tx with
  | nil => exact h
  | cons insert inserts ih => exact ih (h.createNode insert.1 insert.2)

theorem Valid.visibleNode_below (h : tx.Valid) {id : Int} {n : StoredNode} (seen : tx.visibleNode id = some n) :
    id < tx.store.nextNodeId := by
  unfold visibleNode at seen
  split at seen
  case h_1 w found => exact h.copyNodeBelow w found id (BTreeMap.mem_iff_get.2 ⟨n, seen⟩)
  case h_2 =>
    split at seen
    · cases seen
    · rcases Option.or_eq_some_iff.1 seen with written | ⟨-, stored⟩
      · exact h.writtenNodeBelow id (BTreeMap.mem_iff_get.2 ⟨n, written⟩)
      · exact h.nodeBelow id (BTreeMap.mem_iff_get.2 ⟨n, stored⟩)

theorem Valid.updateNode (h : tx.Valid) (id : Int) (props : Props) : (tx.updateNode id props).1.Valid := by
  rw [updateNode_eq]
  cases seen : tx.visibleNode id with
  | none => exact h
  | some node =>
    have own := h.visibleNode_id seen
    refine h.writeNode id { node with props := mergeProps node.props props } own (h.visibleNode_below seen) ?_
    intro w' found
    obtain ⟨w, before, rfl⟩ := Option.map_eq_some_iff.1 found
    exact ⟨w, before, (h.copy w before).insertNode own, by simp, by simp⟩

theorem Valid.createRelationship (h : tx.Valid) (fromId toId : Int) (relType : String) (props : Props) :
    (tx.createRelationship fromId toId relType props).1.Valid := by
  refine h.allocateRelId.writeRel tx.store.nextRelId _ rfl (Int.lt_succ _) ?_ ?_
  · intro b stored
    exact absurd (h.relBelow _ (BTreeMap.mem_iff_get.2 ⟨b, stored⟩)) (Int.lt_irrefl _)
  · intro w' found
    obtain ⟨w, before, rfl⟩ := Option.map_eq_some_iff.1 found
    exact ⟨w, before, (h.copy w before).putRel rfl, by simp, by simp⟩

/-- What an update starts from: a record under its own id, below the counter, in the
stored shape. -/
theorem Valid.updatableRel (h : tx.Valid) {id : Int} {r : StoredRel} (held : tx.updatableRel id = some r) :
    r.id = id ∧ id < tx.store.nextRelId ∧ ∀ b, tx.store.rels[id]? = some b → r.SameShape b := by
  unfold InMemoryTx.updatableRel at held
  split at held
  case h_1 w found =>
    exact ⟨(h.copy w found).relId id r held, h.copyRelBelow w found id (BTreeMap.mem_iff_get.2 ⟨r, held⟩),
      fun b stored => h.copyShape w found id r b held stored⟩
  case h_2 =>
    split at held
    · cases held
    · rcases Option.or_eq_some_iff.1 held with written | ⟨-, base⟩
      · exact ⟨h.own.rel id r written, h.writtenRelBelow id (BTreeMap.mem_iff_get.2 ⟨r, written⟩),
          fun b stored => h.shape id r b written stored⟩
      · refine ⟨h.store.relId id r base, h.relBelow id (BTreeMap.mem_iff_get.2 ⟨r, base⟩), fun b stored => ?_⟩
        rw [base, Option.some.injEq] at stored
        exact stored ▸ ⟨rfl, rfl, rfl⟩

theorem Valid.updateRelationship (h : tx.Valid) (id : Int) (props : Props) :
    (tx.updateRelationship id props).1.Valid := by
  rw [updateRelationship_eq]
  cases held : tx.updatableRel id with
  | none => exact h
  | some rel =>
    obtain ⟨own, below, shape⟩ := h.updatableRel held
    refine h.writeRel id { rel with props := mergeProps rel.props props } own below shape ?_
    intro w' found
    obtain ⟨w, before, rfl⟩ := Option.map_eq_some_iff.1 found
    have stored : w.rels[id]? = some rel := by
      simpa [InMemoryTx.updatableRel, before] using held
    exact ⟨w, before, (h.copy w before).replaceRel stored rfl rfl rfl rfl, rfl, rfl⟩

theorem Valid.deleteRelationship (h : tx.Valid) (id : Int) : (tx.deleteRelationship id).Valid := by
  refine h.drop ?_ ?_ ?_
  · intro k n found
    rw [TxDelta.dropRel_nodes] at found
    rw [TxDelta.dropRel_deletedNodes]
    exact ⟨found, h.nodesApart k (BTreeMap.mem_iff_get.2 ⟨n, found⟩)⟩
  · intro k r found
    rw [TxDelta.dropRel_rels] at found
    split at found
    · cases found
    case isFalse ne =>
      rw [TxDelta.mem_dropRel_deletedRels]
      refine ⟨found, ?_⟩
      rintro (⟨same, -⟩ | deleted)
      · exact ne same
      · exact h.relsApart k (BTreeMap.mem_iff_get.2 ⟨r, found⟩) deleted
  · intro w' found
    obtain ⟨w, before, rfl⟩ := Option.map_eq_some_iff.1 found
    refine ⟨w, before, (h.copy w before).removeRelationship id, by simp, ?_⟩
    intro k r seen
    rw [GraphStore.removeRelationship_rels, BTreeMap.get_erase] at seen
    split at seen
    · cases seen
    · exact seen

theorem Valid.deleteNode (h : tx.Valid) (id : Int) : (tx.deleteNode id).Valid := by
  obtain ⟨rels, deletedRels, nodes, deletedNodes⟩ :=
    (tx.delta.dropNode id).dropRels (tx.visibleRelatedRelIds id).toList (BTreeSet.nodup_toList _)
  refine h.drop ?_ ?_ ?_
  · intro k n found
    rw [nodes, TxDelta.dropNode_nodes] at found
    rw [deletedNodes, TxDelta.mem_dropNode_deletedNodes]
    split at found
    · cases found
    case isFalse ne =>
      refine ⟨found, ?_⟩
      rintro (⟨same, -⟩ | deleted)
      · exact ne same
      · exact h.nodesApart k (BTreeMap.mem_iff_get.2 ⟨n, found⟩) deleted
  · intro k r found
    rw [rels] at found
    rw [deletedRels]
    split at found
    · cases found
    case isFalse outside =>
      rw [TxDelta.dropNode_rels] at found
      refine ⟨found, ?_⟩
      rintro (⟨member, -⟩ | deleted)
      · exact outside member
      · exact h.relsApart k (BTreeMap.mem_iff_get.2 ⟨r, found⟩) (by simpa using deleted)
  · intro w' found
    obtain ⟨w, before, rfl⟩ := Option.map_eq_some_iff.1 found
    refine ⟨w, before, (h.copy w before).removeNode id, ?_, ?_⟩
    · intro k member
      rw [GraphStore.removeNode_nodes] at member
      exact (BTreeMap.mem_erase.1 member).2
    · intro k r seen
      rw [GraphStore.removeNode_rels (h.copy w before).relId] at seen
      split at seen
      · exact (Option.filter_eq_some_iff.1 seen).1
      · exact seen

theorem Valid.materializeWorkingCopy (h : tx.Valid) : tx.materializeWorkingCopy.Valid := by
  unfold InMemoryTx.materializeWorkingCopy
  cases plain : tx.workingCopy with
  | some w => exact h
  | none =>
    have nodes : ∀ k ∈ (tx.delta.applyTo tx.store).nodes, k < tx.store.nextNodeId := by
      intro k member
      obtain ⟨n, found⟩ := BTreeMap.mem_iff_get.1 member
      rw [TxDelta.applyTo_nodes] at found
      rcases Option.or_eq_some_iff.1 found with written | ⟨-, stored⟩
      · exact h.writtenNodeBelow k (BTreeMap.mem_iff_get.2 ⟨n, written⟩)
      · split at stored
        · cases stored
        · exact h.nodeBelow k (BTreeMap.mem_iff_get.2 ⟨n, stored⟩)
    have rels : ∀ (k : Int) (r : StoredRel), (tx.delta.applyTo tx.store).rels[k]? = some r →
        tx.delta.rels[k]? = some r ∨ tx.store.rels[k]? = some r := by
      intro k r found
      rw [TxDelta.applyTo_rels _ h.store] at found
      rcases Option.or_eq_some_iff.1 found with written | ⟨-, stored⟩
      · exact .inl written
      · split at stored
        · cases stored
        · exact .inr (Option.filter_eq_some_iff.1 stored).1
    refine { h with copy := ?_, copyNodeBelow := ?_, copyRelBelow := ?_, copyShape := ?_ }
    · rintro w ⟨⟩
      exact h.own.applyTo h.store
    · rintro w ⟨⟩
      exact nodes
    · rintro w ⟨⟩ k member
      obtain ⟨r, found⟩ := BTreeMap.mem_iff_get.1 member
      rcases rels k r found with written | stored
      · exact h.writtenRelBelow k (BTreeMap.mem_iff_get.2 ⟨r, written⟩)
      · exact h.relBelow k (BTreeMap.mem_iff_get.2 ⟨r, stored⟩)
    · rintro w ⟨⟩ k r b found base
      rcases rels k r found with written | stored
      · exact h.shape k r b written base
      · rw [base, Option.some.injEq] at stored
        exact stored ▸ ⟨rfl, rfl, rfl⟩

/-! ## Reads -/

/-- The transaction after a read: the same, or with the property caches rebuilt. -/
def ReadOf (tx tx' : InMemoryTx) : Prop := tx' = tx ∨ tx' = { tx with store := tx.store.freshProps }

theorem visibleNodesByProperty_read (tx : InMemoryTx) (key : String) (value : Value) :
    tx.ReadOf (tx.visibleNodesByProperty key value).1 := by
  unfold visibleNodesByProperty
  dsimp only
  split
  · exact .inl rfl
  · exact .inr rfl

theorem visibleNodesMatching_read (tx : InMemoryTx) (labels : List String) (filters : List PropertyFilter) :
    tx.ReadOf (tx.visibleNodesMatching labels filters).1 := by
  unfold visibleNodesMatching baseNodesMatching GraphStore.baseNodeCandidateIds
  dsimp only
  split
  · exact .inl rfl
  · dsimp only
    split
    · exact .inl rfl
    · exact .inr rfl

theorem seedRoots_read (tx : InMemoryTx) (rootNm : NodeMatch) : tx.ReadOf (tx.seedRoots rootNm).1 := by
  unfold seedRoots
  cases rootNm.idFilter with
  | some id => exact .inl rfl
  | none => exact tx.visibleNodesMatching_read rootNm.labels rootNm.propertyFilters

/-- `execute_graph` as a step; a query the executor rejects changes nothing. -/
def executeGraph (tx : InMemoryTx) (q : GraphQuery) : InMemoryTx :=
  match tx.executeGraphQuery q with
  | .ok (tx', _) => tx'
  | .error _ => tx

theorem executeGraph_read (tx : InMemoryTx) (q : GraphQuery) : tx.ReadOf (tx.executeGraph q) := by
  unfold executeGraph executeGraphQuery selectedBindings
  cases ExecCtx.build q with
  | error e => exact .inl rfl
  | ok ctx => exact tx.seedRoots_read ctx.rootNm

theorem ReadOf.valid {tx' : InMemoryTx} (read : tx.ReadOf tx') (h : tx.Valid) : tx'.Valid := by
  rcases read with rfl | rfl
  · exact h
  · exact h.freshProps

end InMemoryTx

/-! ## Whole runs -/

/-- The calls of the `GraphTx` trait on an open transaction. -/
inductive TxOp where
  | createNode (labels : List String) (props : Props)
  | createNodes (inserts : List (List String × Props))
  | updateNode (id : Int) (props : Props)
  | deleteNode (id : Int)
  | createRelationship (fromId toId : Int) (relType : String) (props : Props)
  | updateRelationship (id : Int) (props : Props)
  | deleteRelationship (id : Int)
  | findNodeById (id : Int)
  | findNodesByProperty (key : String) (value : Value)
  | neighbors (node : Int) (relType : Option String) (dir : Direction)
  | executeGraph (q : GraphQuery)

/-- The transaction after one call. -/
def InMemoryTx.step (tx : InMemoryTx) : TxOp → InMemoryTx
  | .createNode labels props => (tx.createNode labels props).1
  | .createNodes inserts => (tx.createNodes inserts).1
  | .updateNode id props => (tx.updateNode id props).1
  | .deleteNode id => tx.deleteNode id
  | .createRelationship fromId toId relType props => (tx.createRelationship fromId toId relType props).1
  | .updateRelationship id props => (tx.updateRelationship id props).1
  | .deleteRelationship id => tx.deleteRelationship id
  | .findNodeById _ => tx
  | .findNodesByProperty key value => (tx.visibleNodesByProperty key value).1
  | .neighbors _ _ _ => tx
  | .executeGraph q => tx.executeGraph q

/-- The transaction after a sequence of calls. -/
def InMemoryTx.run (tx : InMemoryTx) (ops : List TxOp) : InMemoryTx := ops.foldl InMemoryTx.step tx

namespace InMemoryTx
variable {tx : InMemoryTx}

theorem Valid.step (h : tx.Valid) (op : TxOp) : (tx.step op).Valid := by
  cases op with
  | createNode labels props => exact h.createNode labels props
  | createNodes inserts => exact h.createNodes inserts
  | updateNode id props => exact h.updateNode id props
  | deleteNode id => exact h.deleteNode id
  | createRelationship fromId toId relType props => exact h.createRelationship fromId toId relType props
  | updateRelationship id props => exact h.updateRelationship id props
  | deleteRelationship id => exact h.deleteRelationship id
  | findNodeById _ => exact h
  | findNodesByProperty key value => exact (tx.visibleNodesByProperty_read key value).valid h
  | neighbors _ _ _ => exact h
  | executeGraph q => exact (tx.executeGraph_read q).valid h

theorem Valid.run (h : tx.Valid) (ops : List TxOp) : (tx.run ops).Valid := by
  induction ops generalizing tx with
  | nil => exact h
  | cons op ops ih => exact ih (h.step op)

/-- A store committed from a valid transaction is sound. -/
theorem Valid.commit (h : tx.Valid) : tx.commit.Sound := by
  obtain ⟨nextNode, nextRel⟩ := tx.delta.applyTo_counters h.writtenNodeBelow h.writtenRelBelow
  refine ⟨h.own.applyTo h.store, ?_, ?_⟩
  · intro k member
    obtain ⟨n, found⟩ := BTreeMap.mem_iff_get.1 member
    rw [InMemoryTx.commit, nextNode]
    rw [InMemoryTx.commit, TxDelta.applyTo_nodes] at found
    rcases Option.or_eq_some_iff.1 found with written | ⟨-, stored⟩
    · exact h.writtenNodeBelow k (BTreeMap.mem_iff_get.2 ⟨n, written⟩)
    · split at stored
      · cases stored
      · exact h.nodeBelow k (BTreeMap.mem_iff_get.2 ⟨n, stored⟩)
  · intro k member
    obtain ⟨r, found⟩ := BTreeMap.mem_iff_get.1 member
    rw [InMemoryTx.commit, nextRel]
    rw [InMemoryTx.commit, TxDelta.applyTo_rels _ h.store] at found
    rcases Option.or_eq_some_iff.1 found with written | ⟨-, stored⟩
    · exact h.writtenRelBelow k (BTreeMap.mem_iff_get.2 ⟨r, written⟩)
    · split at stored
      · cases stored
      · exact h.relBelow k (BTreeMap.mem_iff_get.2 ⟨r, (Option.filter_eq_some_iff.1 stored).1⟩)

end InMemoryTx
