import Grm.Backend.Tx

/-!
# What a delta does to a store, and what a transaction sees

Lookup equations for `apply_delta_to` and membership in the neighbour lists of a
transaction, in terms of single records. `Valid` is the invariant these need: every
record is under its own id, a record is not both written and deleted, a written
version of a stored relationship keeps its type and its endpoints, and the stores
are indexed. Every operation of a transaction keeps it.
-/

open Std

set_option autoImplicit false

namespace GraphStore

theorem removeNodes_nodes (l : List Int) (s : GraphStore) :
    (l.foldl removeNode s).nodes = BTreeMap.eraseAll s.nodes l := by
  induction l generalizing s with
  | nil => rfl
  | cons id l ih => rw [List.foldl_cons, ih, removeNode_nodes, BTreeMap.eraseAll_cons]

theorem removeNodes_counters (l : List Int) (s : GraphStore) :
    (l.foldl removeNode s).nextNodeId = s.nextNodeId ∧ (l.foldl removeNode s).nextRelId = s.nextRelId := by
  induction l generalizing s with
  | nil => exact ⟨rfl, rfl⟩
  | cons id l ih => simpa using ih (s.removeNode id)

theorem Indexed.removeNodes {s : GraphStore} (h : s.Indexed) (l : List Int) :
    (l.foldl GraphStore.removeNode s).Indexed := by
  induction l generalizing s with
  | nil => exact h
  | cons id l ih => exact ih (h.removeNode id)

/-- Removing nodes in turn removes the relationships that touch one that existed. -/
theorem removeNodes_rels {s : GraphStore} (h : s.Indexed) (l : List Int) (k : Int) :
    (l.foldl removeNode s).rels[k]? =
      (s.rels[k]?).filter fun r => !l.any fun id => (s.nodes[id]?).isSome && r.touches id := by
  induction l generalizing s with
  | nil => cases found : s.rels[k]? <;> simp only [List.foldl_nil, List.any_nil, Bool.not_false, found, Option.filter_none, Option.filter_some, if_true]
  | cons id l ih =>
    rw [List.foldl_cons, ih (h.removeNode id), removeNode_rels h.relId, removeNode_nodes]
    cases found : s.rels[k]? with
    | none => simp
    | some r =>
      -- a later occurrence of `id` finds the node gone, and the head has already judged it
      have later : (r.touches id = false ∨ (s.nodes[id]?).isSome = false) →
          (l.any fun j => ((s.nodes.erase id)[j]?).isSome && r.touches j) =
            l.any fun j => (s.nodes[j]?).isSome && r.touches j := by
        intro spared
        congr 1
        funext j
        by_cases same : id = j
        · subst same
          rw [BTreeMap.get_erase_self]
          rcases spared with free | missing
          · simp [free]
          · simp [missing]
        · rw [BTreeMap.get_erase_ne _ same]
      cases present : (s.nodes[id]?).isSome with
      | false => simp only [Option.filter_some, List.any_cons, present, later (.inr present), Bool.false_and,
          Bool.false_or, Bool.false_eq_true, if_false]
      | true =>
        cases touched : r.touches id with
        | true => simp only [Option.filter_some, Option.filter_none, List.any_cons, present, touched, Bool.true_and,
            Bool.true_or, Bool.not_true, Bool.false_eq_true, if_true, if_false]
        | false => simp only [Option.filter_some, List.any_cons, present, touched, later (.inl touched), Bool.true_and,
            Bool.false_or, Bool.not_false, if_true]

@[simp] theorem putNode_nodes (s : GraphStore) (id : Int) (node : StoredNode) :
    (s.putNode id node).nodes = s.nodes.insert id node := by simp [putNode]

@[simp] theorem putNode_rels (s : GraphStore) (id : Int) (node : StoredNode) :
    (s.putNode id node).rels = s.rels := by simp [putNode]

@[simp] theorem putNode_nextNodeId (s : GraphStore) (id : Int) (node : StoredNode) :
    (s.putNode id node).nextNodeId = max s.nextNodeId (id + 1) := by simp [putNode]

@[simp] theorem putNode_nextRelId (s : GraphStore) (id : Int) (node : StoredNode) :
    (s.putNode id node).nextRelId = s.nextRelId := by simp [putNode]

@[simp] theorem putRel_nodes (s : GraphStore) (id : Int) (rel : StoredRel) :
    (s.putRel id rel).nodes = s.nodes := by simp [putRel]

@[simp] theorem putRel_rels (s : GraphStore) (id : Int) (rel : StoredRel) :
    (s.putRel id rel).rels = s.rels.insert id rel := by simp [putRel]

@[simp] theorem putRel_nextNodeId (s : GraphStore) (id : Int) (rel : StoredRel) :
    (s.putRel id rel).nextNodeId = s.nextNodeId := by simp [putRel]

@[simp] theorem putRel_nextRelId (s : GraphStore) (id : Int) (rel : StoredRel) :
    (s.putRel id rel).nextRelId = max s.nextRelId (id + 1) := by simp [putRel]

theorem Indexed.putNode {s : GraphStore} (h : s.Indexed) {id : Int} {node : StoredNode} (own : node.id = id) :
    (s.putNode id node).Indexed :=
  (h.counters (max s.nextNodeId (id + 1)) s.nextRelId).insertNode own

theorem Indexed.putRel {s : GraphStore} (h : s.Indexed) {id : Int} {rel : StoredRel} (own : rel.id = id) :
    (s.putRel id rel).Indexed :=
  (h.counters s.nextNodeId (max s.nextRelId (id + 1))).insertRelationship own

section PutAll
variable (s : GraphStore)

theorem putNodes_nodes (l : List (Int × StoredNode)) :
    (l.foldl (fun s e => s.putNode e.1 e.2) s).nodes = BTreeMap.insertAll s.nodes l := by
  induction l generalizing s with
  | nil => rfl
  | cons e l ih => rw [List.foldl_cons, ih, putNode_nodes, BTreeMap.insertAll_cons]

theorem putNodes_rels (l : List (Int × StoredNode)) :
    (l.foldl (fun s e => s.putNode e.1 e.2) s).rels = s.rels ∧
      (l.foldl (fun s e => s.putNode e.1 e.2) s).nextRelId = s.nextRelId := by
  induction l generalizing s with
  | nil => exact ⟨rfl, rfl⟩
  | cons e l ih => simpa using ih (s.putNode e.1 e.2)

theorem putRels_rels (l : List (Int × StoredRel)) :
    (l.foldl (fun s e => s.putRel e.1 e.2) s).rels = BTreeMap.insertAll s.rels l := by
  induction l generalizing s with
  | nil => rfl
  | cons e l ih => rw [List.foldl_cons, ih, putRel_rels, BTreeMap.insertAll_cons]

theorem putRels_nodes (l : List (Int × StoredRel)) :
    (l.foldl (fun s e => s.putRel e.1 e.2) s).nodes = s.nodes ∧
      (l.foldl (fun s e => s.putRel e.1 e.2) s).nextNodeId = s.nextNodeId := by
  induction l generalizing s with
  | nil => exact ⟨rfl, rfl⟩
  | cons e l ih => simpa using ih (s.putRel e.1 e.2)

/-- Writing nodes below the counter leaves the counter. -/
theorem putNodes_nextNodeId {l : List (Int × StoredNode)} (below : ∀ e ∈ l, e.1 < s.nextNodeId) :
    (l.foldl (fun s e => s.putNode e.1 e.2) s).nextNodeId = s.nextNodeId := by
  induction l generalizing s with
  | nil => rfl
  | cons e l ih =>
    have first := below e List.mem_cons_self
    have stays : (s.putNode e.1 e.2).nextNodeId = s.nextNodeId := by
      rw [putNode_nextNodeId]; omega
    rw [List.foldl_cons, ih (s.putNode e.1 e.2), stays]
    intro e' member
    rw [stays]
    exact below e' (List.mem_cons_of_mem _ member)

/-- Writing relationships below the counter leaves the counter. -/
theorem putRels_nextRelId {l : List (Int × StoredRel)} (below : ∀ e ∈ l, e.1 < s.nextRelId) :
    (l.foldl (fun s e => s.putRel e.1 e.2) s).nextRelId = s.nextRelId := by
  induction l generalizing s with
  | nil => rfl
  | cons e l ih =>
    have first := below e List.mem_cons_self
    have stays : (s.putRel e.1 e.2).nextRelId = s.nextRelId := by
      rw [putRel_nextRelId]; omega
    rw [List.foldl_cons, ih (s.putRel e.1 e.2), stays]
    intro e' member
    rw [stays]
    exact below e' (List.mem_cons_of_mem _ member)

variable {s}

theorem Indexed.putNodes (h : s.Indexed) {l : List (Int × StoredNode)} (own : ∀ e ∈ l, e.2.id = e.1) :
    (l.foldl (fun s e => s.putNode e.1 e.2) s).Indexed := by
  induction l generalizing s with
  | nil => exact h
  | cons e l ih =>
    exact ih (h.putNode (own e List.mem_cons_self)) fun e' member => own e' (List.mem_cons_of_mem _ member)

theorem Indexed.putRels (h : s.Indexed) {l : List (Int × StoredRel)} (own : ∀ e ∈ l, e.2.id = e.1) :
    (l.foldl (fun s e => s.putRel e.1 e.2) s).Indexed := by
  induction l generalizing s with
  | nil => exact h
  | cons e l ih =>
    exact ih (h.putRel (own e List.mem_cons_self)) fun e' member => own e' (List.mem_cons_of_mem _ member)

end PutAll

end GraphStore

namespace TxDelta

/-- Every written record is under its own id. -/
structure Own (d : TxDelta) : Prop where
  node : ∀ (k : Int) (n : StoredNode), d.nodes[k]? = some n → n.id = k
  rel : ∀ (k : Int) (r : StoredRel), d.rels[k]? = some r → r.id = k

/-- The nodes of a store after `apply_delta_to`. -/
theorem applyTo_nodes (d : TxDelta) (s : GraphStore) (k : Int) :
    (d.applyTo s).nodes[k]? = (d.nodes[k]?).or (if k ∈ d.deletedNodes then none else s.nodes[k]?) := by
  unfold applyTo
  rw [(GraphStore.putRels_nodes _ _).1, GraphStore.putNodes_nodes, BTreeMap.get_insertAll_toList,
    (GraphStore.removeRelationships_others _ _).1, GraphStore.removeNodes_nodes]
  congr 1
  split
  case isTrue member => exact BTreeMap.get_eraseAll_of_mem (ExtTreeSet.mem_toList.2 member)
  case isFalse absent => exact BTreeMap.get_eraseAll_of_not_mem fun member => absent (ExtTreeSet.mem_toList.1 member)

/-- The relationship loses an endpoint that the store has when the delta is applied. -/
def severs (d : TxDelta) (s : GraphStore) (r : StoredRel) : Bool :=
  (d.deletedNodes.contains r.fromId && s.nodes.contains r.fromId) ||
    (d.deletedNodes.contains r.toId && s.nodes.contains r.toId)

/-- The relationships of a store after `apply_delta_to`. -/
theorem applyTo_rels (d : TxDelta) {s : GraphStore} (h : s.Indexed) (k : Int) :
    (d.applyTo s).rels[k]? =
      (d.rels[k]?).or (if k ∈ d.deletedRels then none else (s.rels[k]?).filter fun r => !d.severs s r) := by
  unfold applyTo
  rw [GraphStore.putRels_rels, BTreeMap.get_insertAll_toList, (GraphStore.putNodes_rels _ _).1,
    GraphStore.removeRelationships_rels]
  congr 1
  split
  case isTrue member => exact BTreeMap.get_eraseAll_of_mem (ExtTreeSet.mem_toList.2 member)
  case isFalse absent =>
    rw [BTreeMap.get_eraseAll_of_not_mem fun member => absent (ExtTreeSet.mem_toList.1 member),
      GraphStore.removeNodes_rels h]
    congr 1
    funext r
    congr 1
    rw [Bool.eq_iff_iff]
    simp only [severs, List.any_eq_true, ExtTreeSet.mem_toList, Bool.and_eq_true, Bool.or_eq_true,
      ExtTreeSet.contains_iff_mem, ExtTreeMap.contains_iff_mem, ← ExtTreeMap.mem_iff_isSome_getElem?,
      StoredRel.touches, beq_iff_eq]
    constructor
    · rintro ⟨id, deleted, present, rfl | rfl⟩
      · exact .inl ⟨deleted, present⟩
      · exact .inr ⟨deleted, present⟩
    · rintro (⟨deleted, present⟩ | ⟨deleted, present⟩)
      · exact ⟨r.fromId, deleted, present, .inl rfl⟩
      · exact ⟨r.toId, deleted, present, .inr rfl⟩

theorem Own.applyTo {d : TxDelta} (own : d.Own) {s : GraphStore} (h : s.Indexed) : (d.applyTo s).Indexed := by
  unfold TxDelta.applyTo
  apply GraphStore.Indexed.putRels
  · apply GraphStore.Indexed.putNodes
    · exact (h.removeNodes _).removeRelationships _
    · exact fun e member => own.node e.1 e.2 (ExtTreeMap.mem_toList_iff_getElem?_eq_some.1 member)
  · exact fun e member => own.rel e.1 e.2 (ExtTreeMap.mem_toList_iff_getElem?_eq_some.1 member)

/-- Applying a delta whose ids are below the counters leaves the counters. -/
theorem applyTo_counters (d : TxDelta) {s : GraphStore} (nodes : ∀ k ∈ d.nodes, k < s.nextNodeId)
    (rels : ∀ k ∈ d.rels, k < s.nextRelId) :
    (d.applyTo s).nextNodeId = s.nextNodeId ∧ (d.applyTo s).nextRelId = s.nextRelId := by
  have nodes' : ∀ e ∈ d.nodes.toList, e.1 < s.nextNodeId := fun e member =>
    nodes e.1 (BTreeMap.mem_iff_get.2 ⟨e.2, ExtTreeMap.mem_toList_iff_getElem?_eq_some.1 member⟩)
  have rels' : ∀ e ∈ d.rels.toList, e.1 < s.nextRelId := fun e member =>
    rels e.1 (BTreeMap.mem_iff_get.2 ⟨e.2, ExtTreeMap.mem_toList_iff_getElem?_eq_some.1 member⟩)
  unfold applyTo
  dsimp only
  constructor
  · rw [(GraphStore.putRels_nodes _ _).2, GraphStore.putNodes_nextNodeId]
    · rw [(GraphStore.removeRelationships_others _ _).2.1, (GraphStore.removeNodes_counters _ _).1]
    · rw [(GraphStore.removeRelationships_others _ _).2.1, (GraphStore.removeNodes_counters _ _).1]
      exact nodes'
  · rw [GraphStore.putRels_nextRelId]
    · rw [(GraphStore.putNodes_rels _ _).2, (GraphStore.removeRelationships_others _ _).2.2,
        (GraphStore.removeNodes_counters _ _).2]
    · rw [(GraphStore.putNodes_rels _ _).2, (GraphStore.removeRelationships_others _ _).2.2,
        (GraphStore.removeNodes_counters _ _).2]
      exact rels'

end TxDelta
