import Grm.Backend.Store

/-!
# The store's indexes

`Indexed` is the representation invariant of a store: each record is under its own
id, and every index files exactly the records that exist, the property caches only
while they are not dirty. Every store operation keeps it; what an operation does to
the records is stated as a lookup equation, and later modules use only those.
-/

open Std

namespace GraphStore
set_option autoImplicit false

/-- The representation invariant of a store. -/
structure Indexed (s : GraphStore) : Prop where
  nodeId : ∀ (k : Int) (n : StoredNode), s.nodes[k]? = some n → n.id = k
  relId : ∀ (k : Int) (r : StoredRel), s.rels[k]? = some r → r.id = k
  labels : Index.Files s.nodesByLabel s.nodes StoredNode.labels
  types : Index.Files s.relsByType s.rels fun r => [r.relType]
  outgoing : Index.Files s.outgoing s.rels fun r => [(r.fromId, r.relType)]
  incoming : Index.Files s.incoming s.rels fun r => [(r.toId, r.relType)]
  outgoingAny : Index.Files s.outgoingAny s.rels fun r => [r.fromId]
  incomingAny : Index.Files s.incomingAny s.rels fun r => [r.toId]
  props : s.nodePropsDirty = false → Index.Files s.nodeProps s.nodes labelKeys
  propsAny : s.nodePropsDirty = false → Index.Files s.nodePropsAny s.nodes anyKeys

theorem indexed_empty : empty.Indexed where
  nodeId := by simp [empty]
  relId := by simp [empty]
  labels := Index.files_empty _
  types := Index.files_empty _
  outgoing := Index.files_empty _
  incoming := Index.files_empty _
  outgoingAny := Index.files_empty _
  incomingAny := Index.files_empty _
  props _ := Index.files_empty _
  propsAny _ := Index.files_empty _

/-! ## Records after an operation -/

section Fields
variable (s : GraphStore)

@[simp] theorem insertNode_nodes (id : Int) (node : StoredNode) :
    (s.insertNode id node).nodes = s.nodes.insert id node := by
  unfold insertNode; cases s.nodes[id]? <;> rfl

@[simp] theorem insertNode_rels (id : Int) (node : StoredNode) : (s.insertNode id node).rels = s.rels := by
  unfold insertNode; cases s.nodes[id]? <;> rfl

@[simp] theorem insertNode_nextNodeId (id : Int) (node : StoredNode) :
    (s.insertNode id node).nextNodeId = s.nextNodeId := by
  unfold insertNode; cases s.nodes[id]? <;> rfl

@[simp] theorem insertNode_nextRelId (id : Int) (node : StoredNode) :
    (s.insertNode id node).nextRelId = s.nextRelId := by
  unfold insertNode; cases s.nodes[id]? <;> rfl

@[simp] theorem insertRelationship_nodes (id : Int) (rel : StoredRel) :
    (s.insertRelationship id rel).nodes = s.nodes := by
  unfold insertRelationship; cases s.rels[id]? <;> rfl

@[simp] theorem insertRelationship_rels (id : Int) (rel : StoredRel) :
    (s.insertRelationship id rel).rels = s.rels.insert id rel := by
  unfold insertRelationship; cases s.rels[id]? <;> rfl

@[simp] theorem insertRelationship_nextNodeId (id : Int) (rel : StoredRel) :
    (s.insertRelationship id rel).nextNodeId = s.nextNodeId := by
  unfold insertRelationship; cases s.rels[id]? <;> rfl

@[simp] theorem insertRelationship_nextRelId (id : Int) (rel : StoredRel) :
    (s.insertRelationship id rel).nextRelId = s.nextRelId := by
  unfold insertRelationship; cases s.rels[id]? <;> rfl

@[simp] theorem removeRelationship_nodes (id : Int) : (s.removeRelationship id).nodes = s.nodes := by
  unfold removeRelationship; split <;> rfl

@[simp] theorem removeRelationship_rels (id : Int) : (s.removeRelationship id).rels = s.rels.erase id := by
  unfold removeRelationship
  split
  · rfl
  case h_2 missing =>
    apply BTreeMap.ext_get
    intro k
    by_cases here : id = k
    · subst here
      rw [BTreeMap.get_erase_self, missing]
    · rw [BTreeMap.get_erase_ne _ here]

@[simp] theorem removeRelationship_nextNodeId (id : Int) :
    (s.removeRelationship id).nextNodeId = s.nextNodeId := by
  unfold removeRelationship; split <;> rfl

@[simp] theorem removeRelationship_nextRelId (id : Int) :
    (s.removeRelationship id).nextRelId = s.nextRelId := by
  unfold removeRelationship; split <;> rfl

theorem removeRelationships_rels (l : List Int) :
    (l.foldl removeRelationship s).rels = BTreeMap.eraseAll s.rels l := by
  induction l generalizing s with
  | nil => rfl
  | cons id l ih => rw [List.foldl_cons, ih, removeRelationship_rels, BTreeMap.eraseAll_cons]

theorem removeRelationships_others (l : List Int) :
    (l.foldl removeRelationship s).nodes = s.nodes ∧
      (l.foldl removeRelationship s).nextNodeId = s.nextNodeId ∧
      (l.foldl removeRelationship s).nextRelId = s.nextRelId := by
  induction l generalizing s with
  | nil => exact ⟨rfl, rfl, rfl⟩
  | cons id l ih => simpa using ih (s.removeRelationship id)

@[simp] theorem removeNode_nodes (id : Int) : (s.removeNode id).nodes = s.nodes.erase id := by
  unfold removeNode
  split
  · exact (removeRelationships_others _ _).1
  case h_2 missing =>
    apply BTreeMap.ext_get
    intro k
    by_cases here : id = k
    · subst here
      rw [BTreeMap.get_erase_self, missing]
    · rw [BTreeMap.get_erase_ne _ here]

@[simp] theorem removeNode_nextNodeId (id : Int) : (s.removeNode id).nextNodeId = s.nextNodeId := by
  unfold removeNode
  split
  · exact (removeRelationships_others _ _).2.1
  · rfl

@[simp] theorem removeNode_nextRelId (id : Int) : (s.removeNode id).nextRelId = s.nextRelId := by
  unfold removeNode
  split
  · exact (removeRelationships_others _ _).2.2
  · rfl

end Fields

/-- Removing an existing node removes exactly the relationships that touch it;
removing a missing one removes nothing. -/
theorem removeNode_rels {s : GraphStore} (own : ∀ (k : Int) (r : StoredRel), s.rels[k]? = some r → r.id = k)
    (id k : Int) :
    (s.removeNode id).rels[k]? =
      if (s.nodes[id]?).isSome then (s.rels[k]?).filter (fun r => !r.touches id) else s.rels[k]? := by
  unfold removeNode
  cases found : s.nodes[id]? with
  | none => simp
  | some node =>
    simp only [Option.isSome_some, if_true]
    rw [removeRelationships_rels]
    show (BTreeMap.eraseAll s.rels (s.touching id))[k]? = _
    have member : k ∈ s.touching id ↔ ∃ r, s.rels[k]? = some r ∧ r.touches id = true := by
      simp only [touching, List.mem_map, List.mem_filter, BTreeMap.mem_vals]
      constructor
      · rintro ⟨r, ⟨⟨j, hj⟩, ht⟩, rfl⟩
        exact ⟨r, own j r hj ▸ hj, ht⟩
      · rintro ⟨r, hr, ht⟩
        exact ⟨r, ⟨⟨k, hr⟩, ht⟩, own k r hr⟩
    by_cases touched : k ∈ s.touching id
    · obtain ⟨r, hr, ht⟩ := member.1 touched
      simp [BTreeMap.get_eraseAll_of_mem touched, hr, ht, Option.filter]
    · rw [BTreeMap.get_eraseAll_of_not_mem touched]
      cases hr : s.rels[k]? with
      | none => rfl
      | some r =>
        have free : r.touches id = false := by
          by_contra other
          exact touched (member.2 ⟨r, hr, by simpa using other⟩)
        simp [Option.filter, free]

/-! ## Every operation keeps the indexes -/

theorem Indexed.insertNode {s : GraphStore} (h : s.Indexed) {id : Int} {node : StoredNode}
    (own : node.id = id) : (s.insertNode id node).Indexed := by
  subst own
  have filed := h.labels.insert node.id node
  refine ⟨?_, ?_, ?_, ?_, ?_, ?_, ?_, ?_, ?_, ?_⟩
  · intro k n found
    rw [insertNode_nodes, BTreeMap.get_insert] at found
    split at found
    case isTrue same => cases found; exact same
    case isFalse => exact h.nodeId k n found
  · simpa using h.relId
  · rw [insertNode_nodes]
    unfold GraphStore.insertNode
    cases found : s.nodes[node.id]? with
    | none =>
      simp only [found] at filed
      exact filed
    | some p =>
      simp only [found] at filed
      have same : Index.removeAll s.nodesByLabel p.labels node.id = Index.removeAll s.nodesByLabel p.labels p.id := by
        rw [h.nodeId _ p found]
      rw [same] at filed
      exact filed
  all_goals
    first
    | (simp only [insertNode_rels]
       unfold GraphStore.insertNode
       cases s.nodes[node.id]? <;>
         first | exact h.types | exact h.outgoing | exact h.incoming | exact h.outgoingAny | exact h.incomingAny)
    | (intro clean
       unfold GraphStore.insertNode at clean
       cases s.nodes[node.id]? <;> cases clean)

theorem Indexed.insertRelationship {s : GraphStore} (h : s.Indexed) {id : Int} {rel : StoredRel}
    (own : rel.id = id) : (s.insertRelationship id rel).Indexed := by
  subst own
  have types := h.types.insert rel.id rel
  have outgoing := h.outgoing.insert rel.id rel
  have incoming := h.incoming.insert rel.id rel
  have outgoingAny := h.outgoingAny.insert rel.id rel
  have incomingAny := h.incomingAny.insert rel.id rel
  have relId : ∀ (k : Int) (r : StoredRel), (s.rels.insert rel.id rel)[k]? = some r → r.id = k := by
    intro k r found
    rw [BTreeMap.get_insert] at found
    split at found
    case isTrue same => cases found; exact same
    case isFalse => exact h.relId k r found
  unfold GraphStore.insertRelationship
  cases found : s.rels[rel.id]? with
  | none =>
    simp only [found] at types outgoing incoming outgoingAny incomingAny
    exact ⟨h.nodeId, relId, h.labels, types, outgoing, incoming, outgoingAny, incomingAny, h.props, h.propsAny⟩
  | some p =>
    have same : ∀ {K : Type} [Ord K] [TransOrd K] (m : BTreeMap K (BTreeSet Int)) (keys : List K),
        Index.removeAll m keys rel.id = Index.removeAll m keys p.id := by
      intro K _ _ m keys
      rw [h.relId _ p found]
    simp only [found, same] at types outgoing incoming outgoingAny incomingAny
    exact ⟨h.nodeId, relId, h.labels, types, outgoing, incoming, outgoingAny, incomingAny, h.props, h.propsAny⟩

theorem Indexed.removeRelationship {s : GraphStore} (h : s.Indexed) (id : Int) :
    (s.removeRelationship id).Indexed := by
  unfold GraphStore.removeRelationship
  split
  case h_1 rel found =>
    have own := h.relId id rel found
    subst own
    refine ⟨h.nodeId, ?_, h.labels, h.types.erase found, h.outgoing.erase found, h.incoming.erase found,
      h.outgoingAny.erase found, h.incomingAny.erase found, h.props, h.propsAny⟩
    intro k r present
    have present : (s.rels.erase rel.id)[k]? = some r := present
    rw [BTreeMap.get_erase] at present
    split at present
    · cases present
    · exact h.relId k r present
  case h_2 => exact h

theorem Indexed.removeRelationships {s : GraphStore} (h : s.Indexed) (l : List Int) :
    (l.foldl GraphStore.removeRelationship s).Indexed := by
  induction l generalizing s with
  | nil => exact h
  | cons id l ih => exact ih (h.removeRelationship id)

theorem Indexed.removeNode {s : GraphStore} (h : s.Indexed) (id : Int) : (s.removeNode id).Indexed := by
  unfold GraphStore.removeNode
  split
  case h_1 node found =>
    have own := h.nodeId id node found
    subst own
    apply Indexed.removeRelationships
    refine ⟨?_, h.relId, h.labels.erase found, h.types, h.outgoing, h.incoming, h.outgoingAny, h.incomingAny,
      (fun clean => by cases clean), (fun clean => by cases clean)⟩
    intro k n present
    have present : (s.nodes.erase node.id)[k]? = some n := present
    rw [BTreeMap.get_erase] at present
    split at present
    · cases present
    · exact h.nodeId k n present
  case h_2 => exact h

/-- The counters take no part in the invariant. -/
theorem Indexed.counters {s : GraphStore} (h : s.Indexed) (nextNodeId nextRelId : Int) :
    { s with nextNodeId := nextNodeId, nextRelId := nextRelId }.Indexed :=
  ⟨h.nodeId, h.relId, h.labels, h.types, h.outgoing, h.incoming, h.outgoingAny, h.incomingAny, h.props, h.propsAny⟩

/-- A relationship whose properties change in place stays filed where it was. -/
theorem Indexed.replaceRel {s : GraphStore} (h : s.Indexed) {id : Int} {old rel : StoredRel}
    (found : s.rels[id]? = some old) (sameId : rel.id = old.id) (sameType : rel.relType = old.relType)
    (sameFrom : rel.fromId = old.fromId) (sameTo : rel.toId = old.toId) :
    { s with rels := s.rels.insert id rel }.Indexed := by
  have lookup : ∀ k, (s.rels.insert id rel)[k]? = if id = k then some rel else s.rels[k]? :=
    fun k => BTreeMap.get_insert s.rels id k rel
  have files : ∀ {K : Type} [Ord K] [TransOrd K] {m : BTreeMap K (BTreeSet Int)} {keys : StoredRel → List K},
      keys rel = keys old → Index.Files m s.rels keys → Index.Files m (s.rels.insert id rel) keys := by
    intro K _ _ m keys same filed
    refine filed.congr fun k i => ?_
    rw [lookup]
    by_cases here : id = i
    · subst here
      simp [found, same]
    · simp [here]
  refine ⟨h.nodeId, ?_, h.labels, files (by rw [sameType]) h.types, files (by rw [sameFrom, sameType]) h.outgoing,
    files (by rw [sameTo, sameType]) h.incoming, files (by rw [sameFrom]) h.outgoingAny,
    files (by rw [sameTo]) h.incomingAny, h.props, h.propsAny⟩
  intro k r present
  rw [lookup] at present
  split at present
  case isTrue same =>
    cases present
    rw [sameId, h.relId id old found, same]
  case isFalse => exact h.relId k r present

/-! ## Rebuilding -/

theorem foldl_indexNodeProps (l : List StoredNode) (s : GraphStore) :
    l.foldl indexNodeProps s =
      { s with
        nodePropsAny := l.foldl (fun m n => Index.addAll m (anyKeys n) n.id) s.nodePropsAny
        nodeProps := l.foldl (fun m n => Index.addAll m (labelKeys n) n.id) s.nodeProps } := by
  induction l generalizing s with
  | nil => rfl
  | cons n l ih => rw [List.foldl_cons, ih]; rfl

theorem foldl_indexNodeLabels (l : List StoredNode) (s : GraphStore) :
    l.foldl indexNodeLabels s =
      { s with nodesByLabel := l.foldl (fun m n => Index.addAll m n.labels n.id) s.nodesByLabel } := by
  induction l generalizing s with
  | nil => rfl
  | cons n l ih => rw [List.foldl_cons, ih]; rfl

theorem foldl_indexRelationship (l : List StoredRel) (s : GraphStore) :
    l.foldl indexRelationship s =
      { s with
        relsByType := l.foldl (fun m r => Index.addAll m [r.relType] r.id) s.relsByType
        outgoing := l.foldl (fun m r => Index.addAll m [(r.fromId, r.relType)] r.id) s.outgoing
        incoming := l.foldl (fun m r => Index.addAll m [(r.toId, r.relType)] r.id) s.incoming
        outgoingAny := l.foldl (fun m r => Index.addAll m [r.fromId] r.id) s.outgoingAny
        incomingAny := l.foldl (fun m r => Index.addAll m [r.toId] r.id) s.incomingAny } := by
  induction l generalizing s with
  | nil => rfl
  | cons r l ih => rw [List.foldl_cons, ih]; rfl

/-- Rebuilding the property caches changes nothing but the caches. -/
theorem rebuildNodePropertyIndex_eq (s : GraphStore) :
    s.rebuildNodePropertyIndex =
      { s with
        nodePropsAny := s.nodes.vals.foldl (fun m n => Index.addAll m (anyKeys n) n.id) ∅
        nodeProps := s.nodes.vals.foldl (fun m n => Index.addAll m (labelKeys n) n.id) ∅
        nodePropsDirty := false } := by
  rw [rebuildNodePropertyIndex, foldl_indexNodeProps]

theorem Indexed.rebuildNodePropertyIndex {s : GraphStore} (h : s.Indexed) :
    s.rebuildNodePropertyIndex.Indexed := by
  rw [rebuildNodePropertyIndex_eq]
  exact ⟨h.nodeId, h.relId, h.labels, h.types, h.outgoing, h.incoming, h.outgoingAny, h.incomingAny,
    fun _ => Index.files_rebuild s.nodes labelKeys StoredNode.id h.nodeId,
    fun _ => Index.files_rebuild s.nodes anyKeys StoredNode.id h.nodeId⟩

theorem Indexed.freshProps {s : GraphStore} (h : s.Indexed) : s.freshProps.Indexed := by
  unfold GraphStore.freshProps
  split
  · exact h.rebuildNodePropertyIndex
  · exact h

@[simp] theorem freshProps_nodes (s : GraphStore) : s.freshProps.nodes = s.nodes := by
  unfold freshProps; split <;> simp [rebuildNodePropertyIndex_eq]

@[simp] theorem freshProps_rels (s : GraphStore) : s.freshProps.rels = s.rels := by
  unfold freshProps; split <;> simp [rebuildNodePropertyIndex_eq]

@[simp] theorem freshProps_nextNodeId (s : GraphStore) : s.freshProps.nextNodeId = s.nextNodeId := by
  unfold freshProps; split <;> simp [rebuildNodePropertyIndex_eq]

@[simp] theorem freshProps_nextRelId (s : GraphStore) : s.freshProps.nextRelId = s.nextRelId := by
  unfold freshProps; split <;> simp [rebuildNodePropertyIndex_eq]

theorem freshProps_clean (s : GraphStore) : s.freshProps.nodePropsDirty = false := by
  unfold freshProps
  split
  · simp [rebuildNodePropertyIndex_eq]
  case isFalse clean => simpa using clean

/-- The indexes a load computes are those of the loaded records. -/
theorem indexed_rebuildLoadIndexes {s : GraphStore}
    (nodeId : ∀ (k : Int) (n : StoredNode), s.nodes[k]? = some n → n.id = k)
    (relId : ∀ (k : Int) (r : StoredRel), s.rels[k]? = some r → r.id = k) :
    s.rebuildLoadIndexes.Indexed := by
  unfold rebuildLoadIndexes
  dsimp only
  rw [foldl_indexNodeLabels, foldl_indexRelationship]
  have none_left : s.nodes.isEmpty = true → s.nodes = ∅ := ExtTreeMap.isEmpty_iff.1
  refine ⟨nodeId, relId, Index.files_rebuild s.nodes _ StoredNode.id nodeId,
    Index.files_rebuild s.rels _ StoredRel.id relId, Index.files_rebuild s.rels _ StoredRel.id relId,
    Index.files_rebuild s.rels _ StoredRel.id relId, Index.files_rebuild s.rels _ StoredRel.id relId,
    Index.files_rebuild s.rels _ StoredRel.id relId, ?_, ?_⟩
  all_goals
    intro clean
    have gone : s.nodes = ∅ := none_left (by simpa [clearIndexes] using clean)
    show Index.Files ∅ s.nodes _
    rw [gone]
    exact Index.files_empty _

end GraphStore
