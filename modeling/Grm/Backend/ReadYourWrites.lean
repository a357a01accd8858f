import Grm.Backend.Overlay

/-!
# Read your writes

A transaction is compared with the plain graph, operation by operation. `delete_node`
and `delete_relationship` take a record out of the delta when it was written there,
and only otherwise note it as deleted; a written version of a stored record is then
forgotten and the stored one shows again. In a run without such a deletion the
transaction and the plain graph show the same nodes and the same neighbours.

The two are related by `Shows`. Relationships may differ in one way only: the
transaction may still hold one the plain graph has dropped, when one of its ends is
gone for good.
-/

open Std

set_option autoImplicit false

namespace InMemoryTx

/-- A deletion does not address a written version of a stored record. -/
def Clean (tx : InMemoryTx) : TxOp → Prop
  | .deleteNode id => ¬ (id ∈ tx.delta.nodes ∧ id ∈ tx.store.nodes)
  | .deleteRelationship id => ¬ (id ∈ tx.delta.rels ∧ id ∈ tx.store.rels)
  | _ => True

/-- Every step of a run is clean in the state before it. -/
def CleanRun : InMemoryTx → List TxOp → Prop
  | _, [] => True
  | tx, op :: ops => tx.Clean op ∧ CleanRun (tx.step op) ops

instance (tx : InMemoryTx) : (op : TxOp) → Decidable (tx.Clean op)
  | .deleteNode id => inferInstanceAs (Decidable (¬ (id ∈ tx.delta.nodes ∧ id ∈ tx.store.nodes)))
  | .deleteRelationship id => inferInstanceAs (Decidable (¬ (id ∈ tx.delta.rels ∧ id ∈ tx.store.rels)))
  | .createNode .. | .createNodes .. | .updateNode .. | .createRelationship .. | .updateRelationship ..
  | .findNodeById .. | .findNodesByProperty .. | .neighbors .. | .executeGraph .. => isTrue trivial

instance decidableCleanRun : (tx : InMemoryTx) → (ops : List TxOp) → Decidable (tx.CleanRun ops)
  | _, [] => isTrue trivial
  | tx, op :: ops =>
    have := decidableCleanRun (tx.step op) ops
    inferInstanceAs (Decidable (tx.Clean op ∧ CleanRun (tx.step op) ops))

/-- An end of the relationship is gone, and its id will not be given out again. -/
def Dead (tx : InMemoryTx) (r : StoredRel) : Prop :=
  ∃ e, r.touches e = true ∧ e < tx.store.nextNodeId ∧ tx.visibleNode e = none

/-- The transaction shows the graph `g`. -/
structure Shows (tx : InMemoryTx) (g : PlainGraph) : Prop where
  valid : tx.Valid
  plain : tx.workingCopy = none
  nextNodeId : tx.store.nextNodeId = g.nextNodeId
  nextRelId : tx.store.nextRelId = g.nextRelId
  nodes : ∀ id : Int, tx.delta.node tx.store id = g.nodes[id]?
  rels : ∀ id : Int, tx.delta.rel tx.store id = g.rels[id]? ∨
    (g.rels[id]? = none ∧ ∃ r, tx.delta.rel tx.store id = some r ∧ tx.Dead r)

theorem shows_new {s : GraphStore} (sound : s.Sound) : (new s).Shows (PlainGraph.ofStore s) where
  valid := valid_new sound
  plain := rfl
  nextNodeId := rfl
  nextRelId := rfl
  nodes id := by simp [new, TxDelta.node, PlainGraph.ofStore]
  rels id := .inl (by simp [new, TxDelta.rel, PlainGraph.ofStore])

section Step
variable {tx : InMemoryTx} {g : PlainGraph}

theorem Shows.visibleNode (h : tx.Shows g) (id : Int) : tx.visibleNode id = g.nodes[id]? := by
  rw [visibleNode_overlay h.plain, h.nodes]

/-- Being dead survives a step that brings no node back. -/
theorem Dead.mono {tx' : InMemoryTx} {r : StoredRel} (dead : tx.Dead r)
    (next : tx.store.nextNodeId ≤ tx'.store.nextNodeId)
    (gone : ∀ e < tx.store.nextNodeId, tx.visibleNode e = none → tx'.visibleNode e = none) : tx'.Dead r := by
  obtain ⟨e, touches, below, unseen⟩ := dead
  exact ⟨e, touches, Int.lt_of_lt_of_le below next, gone e below unseen⟩

theorem Shows.createNode (h : tx.Shows g) (labels : List String) (props : Props) :
    (tx.createNode labels props).1.Shows (g.createNode labels props) := by
  have plain : (tx.createNode labels props).1.workingCopy = none := by
    simp [InMemoryTx.createNode, allocateNodeId, h.plain]
  have nodes : ∀ id : Int, (tx.createNode labels props).1.delta.node (tx.createNode labels props).1.store id =
      if tx.store.nextNodeId = id then some ⟨tx.store.nextNodeId, labels, props⟩ else tx.delta.node tx.store id :=
    fun id => TxDelta.node_writeNode tx.delta tx.store tx.store.nextNodeId id _
  refine ⟨h.valid.createNode labels props, plain, ?_, h.nextRelId, fun id => ?_, fun id => ?_⟩
  · show tx.store.nextNodeId + 1 = g.nextNodeId + 1
    rw [h.nextNodeId]
  · rw [nodes, PlainGraph.createNode, BTreeMap.get_insert, h.nextNodeId, h.nodes]
  · rcases h.rels id with same | ⟨dropped, r, held, dead⟩
    · exact .inl same
    · refine .inr ⟨dropped, r, held, dead.mono (Int.le_of_lt (Int.lt_succ _)) ?_⟩
      intro e below unseen
      rw [visibleNode_overlay plain, nodes, if_neg (Int.ne_of_gt below), ← visibleNode_overlay h.plain, unseen]

theorem Shows.createNodes (h : tx.Shows g) (inserts : List (List String × Props)) :
    (tx.createNodes inserts).1.Shows (inserts.foldl (fun g insert => g.createNode insert.1 insert.2) g) := by
  induction inserts generalizing tx g with
  | nil => exact h
  | cons insert inserts ih => exact ih (h.createNode insert.1 insert.2)

theorem Shows.updateNode (h : tx.Shows g) (id : Int) (props : Props) :
    (tx.updateNode id props).1.Shows (g.updateNode id props) := by
  have valid := h.valid.updateNode id props
  rw [updateNode_eq, h.visibleNode] at valid ⊢
  unfold PlainGraph.updateNode
  cases found : g.nodes[id]? with
  | none => exact h
  | some node =>
    simp only [found] at valid
    have plain : (tx.workingCopy.map fun store =>
        store.insertNode id { node with props := mergeProps node.props props }) = none := by
      rw [h.plain, Option.map_none]
    refine ⟨valid, plain, h.nextNodeId, h.nextRelId, fun k => ?_, fun k => ?_⟩
    · rw [TxDelta.node_writeNode, BTreeMap.get_insert, h.nodes]
    · rcases h.rels k with same | ⟨dropped, r, held, dead⟩
      · exact .inl same
      · refine .inr ⟨dropped, r, held, dead.mono (Int.le_refl _) ?_⟩
        intro e _ unseen
        rw [visibleNode_overlay plain, TxDelta.node_writeNode]
        split
        case isTrue same =>
          rw [h.visibleNode, ← same, found] at unseen
          cases unseen
        case isFalse => rw [← visibleNode_overlay h.plain, unseen]

theorem Shows.createRelationship (h : tx.Shows g) (fromId toId : Int) (relType : String) (props : Props) :
    (tx.createRelationship fromId toId relType props).1.Shows (g.createRelationship fromId toId relType props) := by
  have plain : (tx.createRelationship fromId toId relType props).1.workingCopy = none := by
    simp [InMemoryTx.createRelationship, allocateRelId, h.plain]
  refine ⟨h.valid.createRelationship fromId toId relType props, plain, h.nextNodeId, ?_, h.nodes, fun id => ?_⟩
  · show tx.store.nextRelId + 1 = g.nextRelId + 1
    rw [h.nextRelId]
  · have rels : (tx.createRelationship fromId toId relType props).1.delta.rel
        (tx.createRelationship fromId toId relType props).1.store id =
        if tx.store.nextRelId = id then some ⟨tx.store.nextRelId, relType, fromId, toId, props⟩
        else tx.delta.rel tx.store id :=
      TxDelta.rel_writeRel tx.delta tx.store tx.store.nextRelId id _
    rw [rels, PlainGraph.createRelationship, BTreeMap.get_insert, h.nextRelId]
    split
    · exact .inl rfl
    · rcases h.rels id with same | ⟨dropped, r, held, dead⟩
      · exact .inl same
      · refine .inr ⟨dropped, r, held, dead.mono (Int.le_refl _) ?_⟩
        intro e _ unseen
        rw [visibleNode_overlay h.plain] at unseen
        rw [visibleNode_overlay plain]
        exact unseen

theorem Shows.updateRelationship (h : tx.Shows g) (id : Int) (props : Props) :
    (tx.updateRelationship id props).1.Shows (g.updateRelationship id props) := by
  have valid := h.valid.updateRelationship id props
  rw [updateRelationship_eq, updatableRel_overlay h.plain] at valid ⊢
  -- the new version has the ends of the old one
  have still : ∀ {r : StoredRel} {d : TxDelta} {copy : Option GraphStore}, copy = none → d.nodes = tx.delta.nodes →
      d.deletedNodes = tx.delta.deletedNodes → tx.Dead r →
      { tx with workingCopy := copy, delta := d }.Dead r := by
    intro r d copy plain nodes deleted dead
    refine dead.mono (Int.le_refl _) fun e _ unseen => ?_
    rw [visibleNode_overlay h.plain] at unseen
    rw [visibleNode_overlay plain]
    simpa only [TxDelta.node, nodes, deleted] using unseen
  have plain : ∀ rel : StoredRel, (tx.workingCopy.map fun store =>
      { store with rels := store.rels.insert id rel }) = none := by
    intro rel
    rw [h.plain, Option.map_none]
  unfold PlainGraph.updateRelationship
  rcases h.rels id with same | ⟨dropped, r, held, dead⟩
  · rw [same] at valid ⊢
    cases found : g.rels[id]? with
    | none => exact h
    | some rel =>
      simp only [found] at valid
      refine ⟨valid, plain _, h.nextNodeId, h.nextRelId, h.nodes, fun k => ?_⟩
      rw [TxDelta.rel_writeRel, BTreeMap.get_insert]
      split
      · exact .inl rfl
      · rcases h.rels k with same | ⟨dropped, r, held, dead⟩
        · exact .inl same
        · exact .inr ⟨dropped, r, held, still (plain _) rfl rfl dead⟩
  · simp only [held, dropped] at valid ⊢
    refine ⟨valid, plain _, h.nextNodeId, h.nextRelId, h.nodes, fun k => ?_⟩
    rw [TxDelta.rel_writeRel]
    split
    case isTrue here =>
      exact .inr ⟨here ▸ dropped, _, rfl, still (plain _) rfl rfl dead⟩
    case isFalse =>
      rcases h.rels k with same | ⟨dropped, r, held, dead⟩
      · exact .inl same
      · exact .inr ⟨dropped, r, held, still (plain _) rfl rfl dead⟩

theorem Shows.deleteRelationship (h : tx.Shows g) {id : Int} (clean : tx.Clean (.deleteRelationship id)) :
    (tx.deleteRelationship id).Shows (g.deleteRelationship id) := by
  have plain : (tx.deleteRelationship id).workingCopy = none := by
    simp [InMemoryTx.deleteRelationship, h.plain]
  have nodes : ∀ k : Int, (tx.deleteRelationship id).delta.node (tx.deleteRelationship id).store k =
      tx.delta.node tx.store k := by
    intro k
    simp [InMemoryTx.deleteRelationship, TxDelta.node]
  refine ⟨h.valid.deleteRelationship id, plain, h.nextNodeId, h.nextRelId, fun k => ?_, fun k => ?_⟩
  · rw [nodes, h.nodes]
    rfl
  · have rels : (tx.deleteRelationship id).delta.rel (tx.deleteRelationship id).store k =
        if id = k then none else tx.delta.rel tx.store k :=
      TxDelta.rel_dropRel tx.delta tx.store (fun written stored => clean ⟨written, stored⟩) k
    rw [rels, PlainGraph.deleteRelationship, BTreeMap.get_erase]
    split
    · exact .inl rfl
    · rcases h.rels k with same | ⟨dropped, r, held, dead⟩
      · exact .inl same
      · refine .inr ⟨dropped, r, held, dead.mono (Int.le_refl _) fun e _ unseen => ?_⟩
        rwa [visibleNode_overlay plain, nodes, ← visibleNode_overlay h.plain]

theorem Shows.deleteNode (h : tx.Shows g) {id : Int} (clean : tx.Clean (.deleteNode id)) :
    (tx.deleteNode id).Shows (g.deleteNode id) := by
  have plain : (tx.deleteNode id).workingCopy = none := by
    simp [InMemoryTx.deleteNode, h.plain]
  have nodes : ∀ k : Int, (tx.deleteNode id).delta.node (tx.deleteNode id).store k =
      if id = k then none else tx.delta.node tx.store k := fun k => deleteNode_node k clean
  have rels : ∀ k : Int, (tx.deleteNode id).delta.rel (tx.deleteNode id).store k =
      if k ∈ tx.visibleRelatedRelIds id then if k ∈ tx.delta.rels then tx.store.rels[k]? else none
      else tx.delta.rel tx.store k := fun k => h.valid.deleteNode_rel k
  have fades : ∀ {r b : StoredRel}, tx.Dead r → b.touches = r.touches → (tx.deleteNode id).Dead b := by
    rintro r b ⟨e, touches, below, unseen⟩ same
    refine ⟨e, same ▸ touches, below, ?_⟩
    rw [visibleNode_overlay plain, nodes, ← visibleNode_overlay h.plain, unseen, ite_self]
  refine ⟨h.valid.deleteNode id, plain, ?_, ?_, fun k => ?_, fun k => ?_⟩
  · show tx.store.nextNodeId = _
    unfold PlainGraph.deleteNode
    split <;> exact h.nextNodeId
  · show tx.store.nextRelId = _
    unfold PlainGraph.deleteNode
    split <;> exact h.nextRelId
  · rw [nodes, h.nodes, PlainGraph.deleteNode_nodes]
  cases seen : tx.visibleNode id with
  | none =>
    -- an unknown node: the cascade is empty and the plain graph is left alone
    have missing : id ∉ g.nodes := BTreeMap.not_mem_iff_get.2 (h.visibleNode id ▸ seen)
    rw [rels, (visibleRelatedRelIds_of_missing h.valid h.plain seen).1, g.deleteNode_of_missing missing]
    simp only [ExtTreeSet.not_mem_empty, if_false]
    rcases h.rels k with same | ⟨dropped, r, held, dead⟩
    · exact .inl same
    · exact .inr ⟨dropped, r, held, fades dead rfl⟩
  | some node =>
    have visible : (tx.visibleNode id).isSome := by rw [seen]; rfl
    have present : id ∈ g.nodes := BTreeMap.mem_iff_get.2 ⟨node, h.visibleNode id ▸ seen⟩
    have related := fun k => h.valid.mem_visibleRelatedRelIds h.plain visible (k := k)
    have below : id < tx.store.nextNodeId := h.valid.visibleNode_below seen
    -- what is left of a relationship that touched the node is dead
    have severed : ∀ {r : StoredRel}, tx.delta.rel tx.store k = some r → r.touches id = true →
        (tx.deleteNode id).delta.rel (tx.deleteNode id).store k = none ∨
          ∃ b, (tx.deleteNode id).delta.rel (tx.deleteNode id).store k = some b ∧ b.touches = r.touches ∧
            (tx.deleteNode id).Dead b := by
      intro r held hit
      have gone : ∀ b : StoredRel, b.touches = r.touches → (tx.deleteNode id).Dead b := by
        intro b same
        refine ⟨id, same ▸ hit, below, ?_⟩
        rw [visibleNode_overlay plain, nodes, if_pos rfl]
      rw [rels]
      split
      · split
        case isTrue written =>
          cases stored : tx.store.rels[k]? with
          | none => exact .inl rfl
          | some b =>
            have shape := (h.valid.updatableRel (updatableRel_overlay h.plain k ▸ held)).2.2 b stored
            have same : b.touches = r.touches := by
              funext e
              simp only [StoredRel.touches, shape.2.1, shape.2.2]
            exact .inr ⟨b, rfl, same, gone b same⟩
        · exact .inl rfl
      · exact .inr ⟨r, held, rfl, gone r rfl⟩
    rw [g.deleteNode_rels present]
    rcases h.rels k with same | ⟨dropped, r, held, dead⟩
    · cases found : g.rels[k]? with
      | none =>
        left
        rw [rels, same, found]
        have outside : k ∉ tx.visibleRelatedRelIds id := by
          rw [related, same, found]
          rintro ⟨r, absurd, -⟩
          cases absurd
        simp [outside]
      | some r =>
        have held : tx.delta.rel tx.store k = some r := same.trans found
        cases hit : r.touches id with
        | true =>
          have out : (some r).filter (fun rel : StoredRel => !rel.touches id) = none := by
            simp [Option.filter_some, hit]
          rw [out]
          rcases severed held hit with none_left | ⟨b, left_over, -, dead⟩
          · exact .inl none_left
          · exact .inr ⟨rfl, b, left_over, dead⟩
        | false =>
          have kept : (some r).filter (fun rel : StoredRel => !rel.touches id) = some r := by
            simp [Option.filter_some, hit]
          have outside : k ∉ tx.visibleRelatedRelIds id := by
            rw [related, held]
            rintro ⟨r', same, hit', -⟩
            cases same
            rw [hit] at hit'
            cases hit'
          left
          rw [kept, rels, if_neg outside, held]
    · rw [dropped, Option.filter_none]
      by_cases inside : k ∈ tx.visibleRelatedRelIds id
      · obtain ⟨r', held', hit, -⟩ := (related k).1 inside
        rcases severed held' hit with none_left | ⟨b, left_over, -, gone⟩
        · exact .inl none_left
        · exact .inr ⟨rfl, b, left_over, gone⟩
      · refine .inr ⟨rfl, r, ?_, fades dead rfl⟩
        rw [rels, if_neg inside, held]

theorem Shows.read (h : tx.Shows g) {tx' : InMemoryTx} (read : tx.ReadOf tx') : tx'.Shows g := by
  rcases read with rfl | rfl
  · exact h
  · refine ⟨h.valid.freshProps, h.plain, ?_, ?_, fun k => ?_, fun k => ?_⟩
    · simpa using h.nextNodeId
    · simpa using h.nextRelId
    · rw [TxDelta.node_congr _ tx.store.freshProps_nodes, h.nodes]
    · rw [TxDelta.rel_congr _ tx.store.freshProps_rels]
      rcases h.rels k with same | ⟨dropped, r, held, dead⟩
      · exact .inl same
      · refine .inr ⟨dropped, r, held, dead.mono (by simp) fun e _ unseen => ?_⟩
        rw [visibleNode_overlay h.plain] at unseen
        have plain : { tx with store := tx.store.freshProps }.workingCopy = none := h.plain
        rw [visibleNode_overlay plain, TxDelta.node_congr _ tx.store.freshProps_nodes]
        exact unseen

/-- One clean call shows what the plain graph's operation gives. -/
theorem Shows.step (h : tx.Shows g) {op : TxOp} (clean : tx.Clean op) : (tx.step op).Shows (g.step op) := by
  cases op with
  | createNode labels props => exact h.createNode labels props
  | createNodes inserts => exact h.createNodes inserts
  | updateNode id props => exact h.updateNode id props
  | deleteNode id => exact h.deleteNode clean
  | createRelationship fromId toId relType props => exact h.createRelationship fromId toId relType props
  | updateRelationship id props => exact h.updateRelationship id props
  | deleteRelationship id => exact h.deleteRelationship clean
  | findNodeById _ => exact h
  | findNodesByProperty key value => exact h.read (tx.visibleNodesByProperty_read key value)
  | neighbors _ _ _ => exact h
  | executeGraph q => exact h.read (tx.executeGraph_read q)

/-- A clean run shows what the plain graph's run gives. -/
theorem Shows.run (h : tx.Shows g) {ops : List TxOp} (clean : tx.CleanRun ops) : (tx.run ops).Shows (g.run ops) := by
  induction ops generalizing tx g with
  | nil => exact h
  | cons op ops ih => exact ih (h.step clean.1) clean.2

theorem Shows.plainOwn (h : tx.Shows g) (k : Int) (r : StoredRel) (found : g.rels[k]? = some r) : r.id = k := by
  rcases h.rels k with same | ⟨dropped, -⟩
  · exact (h.valid.updatableRel ((updatableRel_overlay h.plain k).trans (same.trans found))).1
  · rw [found] at dropped
    cases dropped

/-- The neighbours a transaction lists are those of the graph it shows. -/
theorem Shows.neighbors (h : tx.Shows g) (node : Int) (relType : Option String) (dir : Direction) :
    (tx.visibleNeighborPairs node relType dir).Perm (g.neighbors node relType dir) := by
  have own := h.plainOwn
  have nodup : ∀ {l : List (StoredRel × StoredNode)}, (l.map fun p => p.1.id).Nodup → l.Nodup :=
    fun distinct => (List.pairwise_map.1 distinct).imp fun apart same => apart (by rw [same])
  rw [List.perm_ext_iff_of_nodup (nodup (h.valid.nodup_visibleNeighborPairs node relType dir))
    (nodup (g.nodup_neighbors own node relType dir))]
  rintro ⟨r, m⟩
  rw [g.mem_neighbors own]
  cases seen : tx.visibleNode node with
  | none =>
    have missing : node ∉ g.nodes := BTreeMap.not_mem_iff_get.2 (h.visibleNode node ▸ seen)
    have none_listed : tx.visibleNeighborPairs node relType dir = [] := by
      rw [visibleNode_overlay h.plain, TxDelta.node] at seen
      by_cases deleted : node ∈ tx.delta.deletedNodes
      · simp [visibleNeighborPairs, h.plain, deleted]
      · rw [if_neg deleted, Option.or_eq_none_iff] at seen
        simp [visibleNeighborPairs, h.plain, deleted, BTreeMap.not_mem_iff_get.2 seen.1,
          BTreeMap.not_mem_iff_get.2 seen.2]
    simp [none_listed, missing]
  | some n =>
    have visible : (tx.visibleNode node).isSome := by rw [seen]; rfl
    have present : node ∈ g.nodes := BTreeMap.mem_iff_get.2 ⟨n, h.visibleNode node ▸ seen⟩
    have same : tx.visibleNode = fun id => g.nodes[id]? := funext h.visibleNode
    rw [h.valid.mem_visibleNeighborPairs visible, ← same]
    simp only [present, true_and]
    refine and_congr_left fun listed => ?_
    obtain ⟨_, neighbor⟩ := listed
    obtain ⟨mid, other, there⟩ := Option.bind_eq_some_iff.1 neighbor
    have visible' : (tx.visibleNode mid).isSome := by rw [there]; rfl
    have ends : (tx.visibleNode r.fromId).isSome ∧ (tx.visibleNode r.toId).isSome := by
      rcases neighborId_cases other with ⟨rfl, rfl⟩ | ⟨rfl, rfl⟩
      · exact ⟨visible, visible'⟩
      · exact ⟨visible', visible⟩
    -- with both ends in sight nothing is hidden and nothing is dead
    have shown : tx.visibleRel r.id = some r ↔ tx.delta.rel tx.store r.id = some r := by
      rw [visibleRel_overlay h.plain, Option.filter_eq_some_iff]
      refine ⟨And.left, fun held => ⟨held, ?_⟩⟩
      have clear : (tx.delta.deletedNodes.contains r.fromId || tx.delta.deletedNodes.contains r.toId) = false := by
        rw [Bool.or_eq_false_iff, BTreeSet.contains_eq_false, BTreeSet.contains_eq_false]
        exact ⟨not_deleted_of_visible h.plain ends.1, not_deleted_of_visible h.plain ends.2⟩
      rw [clear, Bool.not_false]
    rw [shown]
    rcases h.rels r.id with same | ⟨dropped, r', held, e, touches, -, unseen⟩
    · rw [same]
    · rw [held, dropped]
      constructor
      · rintro ⟨rfl⟩
        simp only [StoredRel.touches, Bool.or_eq_true, beq_iff_eq] at touches
        rcases touches with rfl | rfl
        · rw [unseen] at ends
          exact absurd ends.1 (by decide)
        · rw [unseen] at ends
          exact absurd ends.2 (by decide)
      · intro absurd
        cases absurd

end Step

/-- In a clean run a transaction sees what the plain graph would give; in particular a
deleted record is not visible. -/
theorem clean_run_sees_plain_graph {base : GraphStore} (sound : base.Sound) {ops : List TxOp}
    (clean : (new base).CleanRun ops) :
    let tx := (new base).run ops
    let g := (PlainGraph.ofStore base).run ops
    (∀ id : Int, tx.findNodeById id = g.nodes[id]?) ∧
      (∀ node relType, (tx.outgoing node relType).Perm (g.neighbors node relType .out)) ∧
      (∀ node relType, (tx.incoming node relType).Perm (g.neighbors node relType .incoming)) ∧
      (∀ node relType, (tx.both node relType).Perm (g.neighbors node relType .both)) ∧
      (∀ before id, ops = before ++ [.deleteNode id] → tx.findNodeById id = none) ∧
      (∀ before id, ops = before ++ [.deleteRelationship id] →
        ∀ node relType dir, ∀ pair ∈ tx.visibleNeighborPairs node relType dir, pair.1.id ≠ id) := by
  have shows := (shows_new sound).run clean
  refine ⟨shows.visibleNode, fun node relType => shows.neighbors node relType .out,
    fun node relType => shows.neighbors node relType .incoming, fun node relType => shows.neighbors node relType .both,
    ?_, ?_⟩
  · rintro before id rfl
    have gone : (((PlainGraph.ofStore base).run before).deleteNode id).nodes[id]? = none := by
      rw [PlainGraph.deleteNode_nodes, if_pos rfl]
    rw [findNodeById, shows.visibleNode]
    simpa [PlainGraph.run, PlainGraph.step] using gone
  · rintro before id rfl node relType dir pair listed same
    have gone : (((PlainGraph.ofStore base).run before).deleteRelationship id).rels[id]? = none :=
      BTreeMap.get_erase_self _ id
    have member := (shows.neighbors node relType dir).mem_iff.1 listed
    obtain ⟨-, found, -⟩ := (PlainGraph.mem_neighbors _ shows.plainOwn).1 member
    rw [same] at found
    simp only [PlainGraph.run, List.foldl_append, List.foldl_cons, List.foldl_nil, PlainGraph.step] at found gone
    rw [gone] at found
    cases found

/-- A store with one committed node, of id 1. -/
def oneNode : GraphStore := ((new .empty).run [.createNode ["User"] ∅]).commit

/-- A clean run over a stored node: a new node, a relationship to it, an update of the
stored node, and the deletion of the new one. -/
theorem clean_run_over_one_node :
    let ops := [.createNode ["User"] ∅, .createRelationship 1 2 "KNOWS" ∅, .updateNode 1 ∅, .deleteNode 2]
    (new oneNode).CleanRun ops ∧
      ((new oneNode).run ops).findNodeById 2 = ((PlainGraph.ofStore oneNode).run ops).nodes[(2 : Int)]? :=
  ⟨by decide, (clean_run_sees_plain_graph ((valid_new GraphStore.sound_empty).run _).commit (by decide)).1 2⟩

/-- A stored node that is updated and then deleted in one transaction shows again. -/
theorem updated_then_deleted_node_shows :
    oneNode.Sound ∧
      ((new oneNode).run [.updateNode 1 ∅, .deleteNode 1]).findNodeById 1 ≠
        ((PlainGraph.ofStore oneNode).run [.updateNode 1 ∅, .deleteNode 1]).nodes[(1 : Int)]? := by
  refine ⟨((valid_new GraphStore.sound_empty).run _).commit, fun same => ?_⟩
  have shown : (((new oneNode).run [.updateNode 1 ∅, .deleteNode 1]).findNodeById 1).isSome = true := by decide
  have gone : (((PlainGraph.ofStore oneNode).run [.updateNode 1 ∅, .deleteNode 1]).nodes[(1 : Int)]?).isSome = false := by
    decide
  rw [same, gone] at shown
  cases shown

end InMemoryTx
