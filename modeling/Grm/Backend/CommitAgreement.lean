import Grm.Backend.ReadYourWrites

/-!
# Commit publishes what the transaction saw

Base plus delta is computed three times: record by record in the overlay, all at once
by `apply_delta_to`, and operation by operation in a working copy. The overlay hides
a relationship as soon as one of its ends is among the deleted nodes; the other two
take it away only with a node that exists, and put a written one back afterwards.
`Agreeable` names the steps after which this makes no difference, and in a run of
such steps the three agree.
-/

open Std

set_option autoImplicit false

/-- An end of the relationship is among the deleted nodes. -/
def TxDelta.hides (d : TxDelta) (r : StoredRel) : Bool :=
  d.deletedNodes.contains r.fromId || d.deletedNodes.contains r.toId

theorem TxDelta.hides_iff {d : TxDelta} {r : StoredRel} :
    d.hides r = true ↔ ∃ e, r.touches e = true ∧ e ∈ d.deletedNodes := by
  simp only [hides, Bool.or_eq_true, ExtTreeSet.contains_iff_mem, StoredRel.touches, beq_iff_eq]
  constructor
  · rintro (source | target)
    · exact ⟨r.fromId, .inl rfl, source⟩
    · exact ⟨r.toId, .inr rfl, target⟩
  · rintro ⟨e, rfl | rfl, deleted⟩
    · exact .inl deleted
    · exact .inr deleted

theorem TxDelta.severs_iff {d : TxDelta} {s : GraphStore} {r : StoredRel} :
    d.severs s r = true ↔ ∃ e, r.touches e = true ∧ e ∈ d.deletedNodes ∧ e ∈ s.nodes := by
  simp only [severs, Bool.or_eq_true, Bool.and_eq_true, ExtTreeSet.contains_iff_mem, ExtTreeMap.contains_iff_mem,
    StoredRel.touches, beq_iff_eq]
  constructor
  · rintro (source | target)
    · exact ⟨r.fromId, .inl rfl, source⟩
    · exact ⟨r.toId, .inr rfl, target⟩
  · rintro ⟨e, rfl | rfl, deleted⟩
    · exact .inl deleted
    · exact .inr deleted

namespace InMemoryTx

/-- The steps that keep the three computations together, in the state before the step.
A deletion addresses no written version of a stored record; deleting a node that is
not there finds no relationship at it; deleting a node written in the transaction
finds no written version of a stored relationship at it; a relationship is created
between nodes that are not deleted, and updated only where it is not hidden. -/
def Agreeable (tx : InMemoryTx) : TxOp → Prop
  | .deleteNode id =>
    ¬ (id ∈ tx.delta.nodes ∧ id ∈ tx.store.nodes) ∧
      (tx.delta.node tx.store id = none → ∀ k r, tx.delta.rel tx.store k = some r → r.touches id = true →
        tx.delta.hides r = true) ∧
      (id ∈ tx.delta.nodes → ∀ (k : Int) (r : StoredRel), tx.delta.rels[k]? = some r → r.touches id = true →
        k ∉ tx.store.rels)
  | .deleteRelationship id => ¬ (id ∈ tx.delta.rels ∧ id ∈ tx.store.rels)
  | .createRelationship fromId toId _ _ => fromId ∉ tx.delta.deletedNodes ∧ toId ∉ tx.delta.deletedNodes
  | .updateRelationship id _ => ∀ r, tx.delta.rel tx.store id = some r → tx.delta.hides r = false
  | _ => True

/-- Every step of a run is agreeable in the state before it. -/
def AgreeableRun : InMemoryTx → List TxOp → Prop
  | _, [] => True
  | tx, op :: ops => tx.Agreeable op ∧ AgreeableRun (tx.step op) ops

/-- What the overlay hides is what a commit takes away. -/
structure Agrees (tx : InMemoryTx) : Prop where
  valid : tx.Valid
  plain : tx.workingCopy = none
  written : ∀ (k : Int) (r : StoredRel), tx.delta.rels[k]? = some r → tx.delta.hides r = false
  stored : ∀ (k : Int) (b : StoredRel), tx.store.rels[k]? = some b → k ∉ tx.delta.deletedRels → k ∉ tx.delta.rels →
    tx.delta.hides b = true → tx.delta.severs tx.store b = true

theorem agrees_new {s : GraphStore} (sound : s.Sound) : (new s).Agrees where
  valid := valid_new sound
  plain := rfl
  written := by simp [new]
  stored := by simp [new, TxDelta.hides]

section Agree
variable {tx : InMemoryTx}

theorem visibleRel_hides (plain : tx.workingCopy = none) (k : Int) :
    tx.visibleRel k = (tx.delta.rel tx.store k).filter fun r => !tx.delta.hides r :=
  visibleRel_overlay plain k

/-- The nodes a commit publishes are the visible ones. -/
theorem Agrees.commit_nodes (h : tx.Agrees) (k : Int) : tx.commit.nodes[k]? = tx.visibleNode k := by
  rw [commit, TxDelta.applyTo_nodes, visibleNode_overlay h.plain, TxDelta.node]
  by_cases deleted : k ∈ tx.delta.deletedNodes
  · have unwritten : k ∉ tx.delta.nodes := fun written => h.valid.nodesApart k written deleted
    simp [deleted, unwritten]
  · simp [deleted]

/-- The relationships a commit publishes are the visible ones. -/
theorem Agrees.commit_rels (h : tx.Agrees) (k : Int) : tx.commit.rels[k]? = tx.visibleRel k := by
  rw [commit, TxDelta.applyTo_rels _ h.valid.store, visibleRel_hides h.plain, TxDelta.rel]
  cases written : tx.delta.rels[k]? with
  | some r =>
    have apart := h.valid.relsApart k (BTreeMap.mem_iff_get.2 ⟨r, written⟩)
    simp [apart, Option.filter_some, h.written k r written]
  | none =>
    by_cases deleted : k ∈ tx.delta.deletedRels
    · simp [deleted]
    · simp only [deleted, if_false, Option.none_or]
      cases found : tx.store.rels[k]? with
      | none => rfl
      | some b =>
        have same : tx.delta.severs tx.store b = tx.delta.hides b := by
          rw [Bool.eq_iff_iff]
          constructor
          · intro severed
            obtain ⟨e, touches, gone, -⟩ := TxDelta.severs_iff.1 severed
            exact TxDelta.hides_iff.2 ⟨e, touches, gone⟩
          · exact h.stored k b found deleted (BTreeMap.not_mem_iff_get.2 written)
        rw [Option.filter_some, Option.filter_some, same]

/-! ## One step without a working copy -/

section Step
variable {tx' : InMemoryTx}

theorem visibleRel_congr (plain : tx.workingCopy = none) (plain' : tx'.workingCopy = none)
    (rels : ∀ k, tx'.delta.rel tx'.store k = tx.delta.rel tx.store k)
    (hides : ∀ k r, tx.delta.rel tx.store k = some r → tx'.delta.hides r = tx.delta.hides r) (k : Int) :
    tx'.visibleRel k = tx.visibleRel k := by
  rw [visibleRel_hides plain, visibleRel_hides plain', rels]
  cases held : tx.delta.rel tx.store k with
  | none => rfl
  | some r => rw [Option.filter_some, Option.filter_some, hides k r held]

/-- Writing a node: only a deleted node the store does not have may come back. -/
theorem Agrees.writeNode (h : tx.Agrees) (valid : tx'.Valid) (plain : tx'.workingCopy = none)
    (nodes : tx'.store.nodes = tx.store.nodes) (rels : tx'.store.rels = tx.store.rels) {id : Int} {n : StoredNode}
    (delta : tx'.delta = tx.delta.writeNode id n) (free : id ∈ tx.delta.deletedNodes → id ∉ tx.store.nodes) :
    tx'.Agrees ∧ (∀ k, tx'.visibleNode k = if id = k then some n else tx.visibleNode k) ∧
      ∀ k, tx'.visibleRel k = tx.visibleRel k := by
  have deleted : ∀ {e : Int}, e ∈ tx'.delta.deletedNodes ↔ id ≠ e ∧ e ∈ tx.delta.deletedNodes := by
    intro e
    rw [delta]
    exact BTreeSet.mem_erase
  have fewer : ∀ {r : StoredRel}, tx'.delta.hides r = true → tx.delta.hides r = true := by
    intro r hidden
    obtain ⟨e, touches, gone⟩ := TxDelta.hides_iff.1 hidden
    exact TxDelta.hides_iff.2 ⟨e, touches, (deleted.1 gone).2⟩
  have severs : ∀ {r : StoredRel}, tx.delta.severs tx.store r = true → tx'.delta.severs tx'.store r = true := by
    intro r severed
    obtain ⟨e, touches, gone, present⟩ := TxDelta.severs_iff.1 severed
    refine TxDelta.severs_iff.2 ⟨e, touches, deleted.2 ⟨?_, gone⟩, nodes ▸ present⟩
    rintro rfl
    exact free gone present
  have sameRels : ∀ k, tx'.delta.rel tx'.store k = tx.delta.rel tx.store k := by
    intro k
    rw [TxDelta.rel_congr _ rels, delta]
    rfl
  have agrees : tx'.Agrees := by
    refine ⟨valid, plain, fun k r written => ?_, fun k b stored kept unwritten hidden => ?_⟩
    · rw [delta] at written
      have shown := h.written k r written
      cases hidden : tx'.delta.hides r with
      | false => rfl
      | true => rw [fewer hidden] at shown; cases shown
    · rw [delta] at kept unwritten
      exact severs (h.stored k b (rels ▸ stored) kept unwritten (fewer hidden))
  refine ⟨agrees, fun k => ?_, ?_⟩
  · rw [visibleNode_overlay plain, visibleNode_overlay h.plain, TxDelta.node_congr _ nodes, delta,
      TxDelta.node_writeNode]
  · refine visibleRel_congr h.plain plain sameRels fun k r held => ?_
    rw [Bool.eq_iff_iff]
    refine ⟨fewer, fun hidden => ?_⟩
    -- a relationship that was hidden is a stored one, and a commit takes it away
    unfold TxDelta.rel at held
    split at held
    · cases held
    case isFalse kept =>
      rcases Option.or_eq_some_iff.1 held with written | ⟨unwritten, stored⟩
      · rw [h.written k r written] at hidden
        cases hidden
      · have severed := severs (h.stored k r stored kept (BTreeMap.not_mem_iff_get.2 unwritten) hidden)
        obtain ⟨e, touches, gone, -⟩ := TxDelta.severs_iff.1 severed
        exact TxDelta.hides_iff.2 ⟨e, touches, gone⟩

theorem Agrees.createNode (h : tx.Agrees) (labels : List String) (props : Props) :
    (tx.createNode labels props).1.Agrees ∧
      (∀ k, (tx.createNode labels props).1.visibleNode k =
        if tx.store.nextNodeId = k then some ⟨tx.store.nextNodeId, labels, props⟩ else tx.visibleNode k) ∧
      ∀ k, (tx.createNode labels props).1.visibleRel k = tx.visibleRel k := by
  refine h.writeNode (h.valid.createNode labels props) ?_ rfl rfl rfl ?_
  · simp [InMemoryTx.createNode, allocateNodeId, h.plain]
  · exact fun _ present => Int.lt_irrefl _ (h.valid.nodeBelow _ present)

/-- Writing a relationship between nodes that are not deleted. -/
theorem Agrees.writeRel (h : tx.Agrees) (valid : tx'.Valid) (plain : tx'.workingCopy = none)
    (nodes : tx'.store.nodes = tx.store.nodes) (rels : tx'.store.rels = tx.store.rels) {id : Int} {r : StoredRel}
    (delta : tx'.delta = tx.delta.writeRel id r) (shown : tx.delta.hides r = false) :
    tx'.Agrees ∧ (∀ k, tx'.visibleNode k = tx.visibleNode k) ∧
      ∀ k, tx'.visibleRel k = if id = k then some r else tx.visibleRel k := by
  have hides : ∀ r, tx'.delta.hides r = tx.delta.hides r := by
    intro r
    rw [delta]
    rfl
  have severs : ∀ r, tx'.delta.severs tx'.store r = tx.delta.severs tx.store r := by
    intro r
    rw [delta, TxDelta.severs, TxDelta.severs, nodes]
    rfl
  refine ⟨⟨valid, plain, fun k r' written => ?_, fun k b stored kept unwritten hidden => ?_⟩, fun k => ?_, fun k => ?_⟩
  · rw [hides]
    rw [delta, TxDelta.writeRel, BTreeMap.get_insert] at written
    split at written
    · cases written; exact shown
    · exact h.written k r' written
  · rw [delta, TxDelta.writeRel, BTreeSet.mem_erase] at kept
    rw [delta, TxDelta.writeRel, BTreeMap.mem_insert, not_or] at unwritten
    rw [severs]
    rw [hides] at hidden
    exact h.stored k b (rels ▸ stored) (fun gone => kept ⟨unwritten.1, gone⟩) unwritten.2 hidden
  · rw [visibleNode_overlay plain, visibleNode_overlay h.plain, TxDelta.node_congr _ nodes, delta]
    rfl
  · rw [visibleRel_hides plain, visibleRel_hides h.plain, TxDelta.rel_congr _ rels, delta, TxDelta.rel_writeRel]
    split
    · simp only [Option.filter_some, ← delta, hides, shown, Bool.not_false, if_true]
    · simp only [← delta, hides]

theorem Agrees.deleteRelationship (h : tx.Agrees) {id : Int} (agreeable : tx.Agreeable (.deleteRelationship id)) :
    (tx.deleteRelationship id).Agrees ∧ (∀ k, (tx.deleteRelationship id).visibleNode k = tx.visibleNode k) ∧
      ∀ k, (tx.deleteRelationship id).visibleRel k = if id = k then none else tx.visibleRel k := by
  have plain : (tx.deleteRelationship id).workingCopy = none := by
    simp [InMemoryTx.deleteRelationship, h.plain]
  have hides : ∀ r, (tx.deleteRelationship id).delta.hides r = tx.delta.hides r := by
    intro r
    simp [InMemoryTx.deleteRelationship, TxDelta.hides]
  have severs : ∀ r, (tx.deleteRelationship id).delta.severs tx.store r = tx.delta.severs tx.store r := by
    intro r
    simp [InMemoryTx.deleteRelationship, TxDelta.severs]
  refine ⟨⟨h.valid.deleteRelationship id, plain, fun k r written => ?_, fun k b stored kept unwritten hidden => ?_⟩,
    fun k => ?_, fun k => ?_⟩
  · rw [hides]
    rw [InMemoryTx.deleteRelationship, TxDelta.dropRel_rels] at written
    split at written
    · cases written
    · exact h.written k r written
  · rw [InMemoryTx.deleteRelationship, TxDelta.mem_dropRel_deletedRels, not_or] at kept
    rw [InMemoryTx.deleteRelationship, TxDelta.mem_dropRel_rels] at unwritten
    have elsewhere : k ∉ tx.delta.rels := by
      intro written
      by_cases same : id = k
      · subst same
        exact agreeable ⟨written, BTreeMap.mem_iff_get.2 ⟨b, stored⟩⟩
      · exact unwritten ⟨same, written⟩
    exact (severs b).trans (h.stored k b stored kept.2 elsewhere ((hides b).symm.trans hidden))
  · rw [visibleNode_overlay plain, visibleNode_overlay h.plain]
    simp [InMemoryTx.deleteRelationship, TxDelta.node]
  · have dropped := TxDelta.rel_dropRel tx.delta tx.store (fun written stored => agreeable ⟨written, stored⟩) k
    rw [visibleRel_hides plain, visibleRel_hides h.plain]
    simp only [hides]
    show ((tx.delta.dropRel id).rel tx.store k).filter _ = _
    rw [dropped]
    split <;> rfl

theorem Agrees.visibleRel_of_written (h : tx.Agrees) {k : Int} {r : StoredRel} (written : tx.delta.rels[k]? = some r) :
    tx.visibleRel k = some r := by
  have apart := h.valid.relsApart k (BTreeMap.mem_iff_get.2 ⟨r, written⟩)
  rw [visibleRel_hides h.plain, TxDelta.rel, if_neg apart, written, Option.some_or, Option.filter_some,
    h.written k r written]
  rfl

/-- An agreeable deletion cascades to the visible relationships at the node. -/
theorem Agrees.mem_related (h : tx.Agrees) {id : Int} (agreeable : tx.Agreeable (.deleteNode id)) (k : Int) :
    k ∈ tx.visibleRelatedRelIds id ↔ ∃ r, tx.visibleRel k = some r ∧ r.touches id = true := by
  have held : ∀ {r : StoredRel}, tx.visibleRel k = some r →
      tx.delta.rel tx.store k = some r ∧ tx.delta.hides r = false := by
    intro r seen
    rw [visibleRel_hides h.plain, Option.filter_eq_some_iff] at seen
    exact ⟨seen.1, by simpa using seen.2⟩
  cases seen : tx.visibleNode id with
  | none =>
    rw [(visibleRelatedRelIds_of_missing h.valid h.plain seen).1]
    simp only [ExtTreeSet.not_mem_empty, false_iff]
    rintro ⟨r, visible, touches⟩
    have hidden := agreeable.2.1 (visibleNode_overlay h.plain id ▸ seen) k r (held visible).1 touches
    rw [(held visible).2] at hidden
    cases hidden
  | some n =>
    rw [h.valid.mem_visibleRelatedRelIds h.plain (by rw [seen]; rfl)]
    constructor
    · rintro ⟨r, found, touches, written | visible⟩
      · obtain ⟨w, written⟩ := BTreeMap.mem_iff_get.1 written
        have visible := h.visibleRel_of_written written
        rw [(held visible).1, Option.some.injEq] at found
        exact ⟨r, found ▸ visible, touches⟩
      · obtain ⟨w, visible⟩ := Option.isSome_iff_exists.1 visible
        rw [(held visible).1, Option.some.injEq] at found
        exact ⟨r, found ▸ visible, touches⟩
    · rintro ⟨r, visible, touches⟩
      exact ⟨r, (held visible).1, touches, .inr (by rw [visible]; rfl)⟩

theorem Agrees.deleteNode (h : tx.Agrees) {id : Int} (agreeable : tx.Agreeable (.deleteNode id)) :
    (tx.deleteNode id).Agrees ∧
      (∀ k, (tx.deleteNode id).visibleNode k = if id = k then none else tx.visibleNode k) ∧
      ∀ k, (tx.deleteNode id).visibleRel k = (tx.visibleRel k).filter fun r => !r.touches id := by
  have plain : (tx.deleteNode id).workingCopy = none := by
    simp [InMemoryTx.deleteNode, h.plain]
  have related := h.mem_related agreeable
  have deleted := tx.mem_deleteNode_deletedNodes id
  have grows : ∀ {r : StoredRel}, tx.delta.hides r = true → (tx.deleteNode id).delta.hides r = true := by
    intro r hidden
    obtain ⟨e, touches, gone⟩ := TxDelta.hides_iff.1 hidden
    exact TxDelta.hides_iff.2 ⟨e, touches, (deleted e).2 (.inr gone)⟩
  have stays : ∀ {r : StoredRel}, tx.delta.hides r = false → r.touches id = false →
      (tx.deleteNode id).delta.hides r = false := by
    intro r shown free
    cases hidden : (tx.deleteNode id).delta.hides r with
    | false => rfl
    | true =>
      obtain ⟨e, touches, gone⟩ := TxDelta.hides_iff.1 hidden
      rcases (deleted e).1 gone with ⟨rfl, -⟩ | before
      · rw [free] at touches
        cases touches
      · rw [TxDelta.hides_iff.2 ⟨e, touches, before⟩] at shown
        cases shown
  -- a stored version uncovered by the cascade touches a node that is now deleted
  have uncovered : ∀ {k : Int} {b : StoredRel}, k ∈ tx.visibleRelatedRelIds id → k ∈ tx.delta.rels →
      tx.store.rels[k]? = some b → id ∉ tx.delta.nodes ∧ b.touches id = true := by
    intro k b inside written stored
    obtain ⟨r, visible, touches⟩ := (related k).1 inside
    obtain ⟨w, written⟩ := BTreeMap.mem_iff_get.1 written
    have same := h.visibleRel_of_written written
    rw [visible, Option.some.injEq] at same
    subst same
    refine ⟨fun fresh => ?_, ?_⟩
    · exact agreeable.2.2 fresh k r written touches (BTreeMap.mem_iff_get.2 ⟨b, stored⟩)
    · have shape := h.valid.shape k r b written stored
      rwa [StoredRel.touches, ← shape.2.1, ← shape.2.2]
  have present : ∀ {b : StoredRel}, id ∉ tx.delta.nodes → b.touches id = true → (tx.visibleNode id).isSome →
      (tx.deleteNode id).delta.severs tx.store b = true := by
    intro b fresh touches seen
    have stored := (present_of_visible h.plain seen).resolve_left fresh
    exact TxDelta.severs_iff.2 ⟨id, touches, (deleted id).2 (.inl ⟨rfl, fresh⟩), stored⟩
  have severs : ∀ {b : StoredRel}, tx.delta.severs tx.store b = true →
      (tx.deleteNode id).delta.severs tx.store b = true := by
    intro b severed
    obtain ⟨e, touches, gone, there⟩ := TxDelta.severs_iff.1 severed
    exact TxDelta.severs_iff.2 ⟨e, touches, (deleted e).2 (.inr gone), there⟩
  have seen_of_related : ∀ {k : Int}, k ∈ tx.visibleRelatedRelIds id → (tx.visibleNode id).isSome := by
    intro k inside
    cases seen : tx.visibleNode id with
    | some n => rfl
    | none =>
      rw [(visibleRelatedRelIds_of_missing h.valid h.plain seen).1] at inside
      simp at inside
  refine ⟨⟨h.valid.deleteNode id, plain, fun k r written => ?_, fun k b stored kept unwritten hidden => ?_⟩,
    fun k => ?_, fun k => ?_⟩
  · rw [deleteNode_deltaRels] at written
    split at written
    · cases written
    case isFalse outside =>
      refine stays (h.written k r written) ?_
      cases touches : r.touches id with
      | false => rfl
      | true => exact absurd ((related k).2 ⟨r, h.visibleRel_of_written written, touches⟩) outside
  · have stored : tx.store.rels[k]? = some b := stored
    rw [mem_deleteNode_deletedRels, not_or] at kept
    show (tx.deleteNode id).delta.severs tx.store b = true
    by_cases inside : k ∈ tx.visibleRelatedRelIds id
    · have written : k ∈ tx.delta.rels := by
        by_contra fresh
        exact kept.1 ⟨inside, fresh⟩
      obtain ⟨fresh, touches⟩ := uncovered inside written stored
      exact present fresh touches (seen_of_related inside)
    · have fresh : k ∉ tx.delta.rels := by
        intro written
        rw [BTreeMap.mem_iff_get] at written unwritten
        obtain ⟨w, written⟩ := written
        exact unwritten ⟨w, by rw [deleteNode_deltaRels, if_neg inside, written]⟩
      by_cases before : tx.delta.hides b = true
      · exact severs (h.stored k b stored kept.2 fresh before)
      · have visible : tx.visibleRel k = some b := by
          rw [visibleRel_hides h.plain, TxDelta.rel, if_neg kept.2, BTreeMap.not_mem_iff_get.1 fresh, Option.none_or,
            stored, Option.filter_some]
          simp [before]
        cases touches : b.touches id with
        | true => exact absurd ((related k).2 ⟨b, visible, touches⟩) inside
        | false =>
          rw [stays (by simpa using before) touches] at hidden
          cases hidden
  · rw [visibleNode_overlay plain, visibleNode_overlay h.plain]
    exact deleteNode_node k agreeable.1
  · rw [visibleRel_hides plain]
    show ((tx.deleteNode id).delta.rel tx.store k).filter _ = _
    rw [h.valid.deleteNode_rel]
    cases visible : tx.visibleRel k with
    | some r =>
      have seen := visible
      rw [visibleRel_hides h.plain, Option.filter_eq_some_iff] at seen
      cases touches : r.touches id with
      | true =>
        have inside := (related k).2 ⟨r, visible, touches⟩
        rw [if_pos inside, Option.filter_some, touches]
        split
        case isTrue written =>
          cases stored : tx.store.rels[k]? with
          | none => rfl
          | some b =>
            obtain ⟨fresh, touches⟩ := uncovered inside written stored
            rw [Option.filter_some, TxDelta.hides_iff.2 ⟨id, touches, (deleted id).2 (.inl ⟨rfl, fresh⟩)⟩]
            rfl
        case isFalse => rfl
      | false =>
        have outside : k ∉ tx.visibleRelatedRelIds id := by
          rw [related, visible]
          rintro ⟨r', same, touches'⟩
          cases same
          rw [touches] at touches'
          cases touches'
        rw [if_neg outside, seen.1, Option.filter_some, Option.filter_some, touches,
          stays (by simpa using seen.2) touches]
    | none =>
      have outside : k ∉ tx.visibleRelatedRelIds id := by
        rw [related, visible]
        rintro ⟨r', absurd, -⟩
        cases absurd
      rw [if_neg outside, Option.filter_none]
      rw [visibleRel_hides h.plain] at visible
      cases held : tx.delta.rel tx.store k with
      | none => rfl
      | some r =>
        have hidden : tx.delta.hides r = true := by
          by_contra shown
          rw [held, Option.filter_some] at visible
          simp [shown] at visible
        rw [Option.filter_some, grows hidden]
        rfl

end Step

/-! ## The working copy beside the overlay -/

/-- `tm` is `tx` with a working copy of what `tx` sees. -/
structure CopyOf (tm tx : InMemoryTx) : Prop where
  agrees : tx.Agrees
  valid : tm.Valid
  storeNodes : tm.store.nodes = tx.store.nodes
  storeRels : tm.store.rels = tx.store.rels
  nextNodeId : tm.store.nextNodeId = tx.store.nextNodeId
  nextRelId : tm.store.nextRelId = tx.store.nextRelId
  delta : tm.delta = tx.delta
  copy : ∃ w, tm.workingCopy = some w ∧ (∀ k : Int, w.nodes[k]? = tx.visibleNode k) ∧
    ∀ k : Int, w.rels[k]? = tx.visibleRel k

section Copy
variable {tm : InMemoryTx}

theorem Agrees.copyOf (h : tx.Agrees) : tx.materializeWorkingCopy.CopyOf tx := by
  have made : tx.materializeWorkingCopy = { tx with workingCopy := some tx.commit } := by
    rw [materializeWorkingCopy, h.plain]
    rfl
  have valid := h.valid.materializeWorkingCopy
  rw [made] at valid ⊢
  exact ⟨h, valid, rfl, rfl, rfl, rfl, rfl, tx.commit, rfl, h.commit_nodes, h.commit_rels⟩

theorem CopyOf.createNode (h : tm.CopyOf tx) (labels : List String) (props : Props) :
    (tm.createNode labels props).1.CopyOf (tx.createNode labels props).1 := by
  obtain ⟨agrees, nodes, rels⟩ := h.agrees.createNode labels props
  obtain ⟨w, found, wNodes, wRels⟩ := h.copy
  refine ⟨agrees, h.valid.createNode labels props, h.storeNodes, h.storeRels, ?_, h.nextRelId, ?_,
    w.putNode tx.store.nextNodeId ⟨tx.store.nextNodeId, labels, props⟩, ?_, fun k => ?_, fun k => ?_⟩
  · show tm.store.nextNodeId + 1 = tx.store.nextNodeId + 1
    rw [h.nextNodeId]
  · simp only [InMemoryTx.createNode, allocateNodeId, h.delta, h.nextNodeId]
  · simp only [InMemoryTx.createNode, allocateNodeId, found, Option.map_some, h.nextNodeId]
  · rw [GraphStore.putNode_nodes, BTreeMap.get_insert, nodes, wNodes]
  · rw [GraphStore.putNode_rels, rels, wRels]

theorem CopyOf.createNodes (h : tm.CopyOf tx) (inserts : List (List String × Props)) :
    (tm.createNodes inserts).1.CopyOf (tx.createNodes inserts).1 := by
  induction inserts generalizing tm tx with
  | nil => exact h
  | cons insert inserts ih => exact ih (h.createNode insert.1 insert.2)

theorem CopyOf.visibleNode (h : tm.CopyOf tx) (k : Int) : tm.visibleNode k = tx.visibleNode k := by
  obtain ⟨w, found, wNodes, -⟩ := h.copy
  rw [InMemoryTx.visibleNode, found]
  exact wNodes k

theorem CopyOf.updateNode (h : tm.CopyOf tx) (id : Int) (props : Props) :
    (tm.updateNode id props).1.CopyOf (tx.updateNode id props).1 := by
  obtain ⟨w, found, wNodes, wRels⟩ := h.copy
  have valid := h.valid.updateNode id props
  have valid' := h.agrees.valid.updateNode id props
  rw [updateNode_eq, h.visibleNode] at valid ⊢
  rw [updateNode_eq] at valid' ⊢
  cases seen : tx.visibleNode id with
  | none => exact h
  | some node =>
    simp only [seen] at valid valid'
    obtain ⟨agrees, nodes, rels⟩ := h.agrees.writeNode valid' (by rw [h.agrees.plain, Option.map_none]) rfl rfl rfl
      fun deleted => absurd deleted (not_deleted_of_visible h.agrees.plain (by rw [seen]; rfl))
    refine ⟨agrees, valid, h.storeNodes, h.storeRels, h.nextNodeId, h.nextRelId, by simp only [h.delta],
      w.insertNode id { node with props := mergeProps node.props props }, by simp only [found, Option.map_some],
      fun k => ?_, fun k => ?_⟩
    · rw [GraphStore.insertNode_nodes, BTreeMap.get_insert, nodes, wNodes]
    · rw [GraphStore.insertNode_rels, rels, wRels]

theorem CopyOf.createRelationship (h : tm.CopyOf tx) {fromId toId : Int} {relType : String} {props : Props}
    (agreeable : tx.Agreeable (.createRelationship fromId toId relType props)) :
    (tm.createRelationship fromId toId relType props).1.CopyOf (tx.createRelationship fromId toId relType props).1 := by
  have shown : tx.delta.hides ⟨tx.store.nextRelId, relType, fromId, toId, props⟩ = false := by
    rw [TxDelta.hides, Bool.or_eq_false_iff, BTreeSet.contains_eq_false, BTreeSet.contains_eq_false]
    exact agreeable
  obtain ⟨agrees, nodes, rels⟩ := h.agrees.writeRel (h.agrees.valid.createRelationship fromId toId relType props)
    (by simp [InMemoryTx.createRelationship, allocateRelId, h.agrees.plain]) rfl rfl rfl shown
  obtain ⟨w, found, wNodes, wRels⟩ := h.copy
  refine ⟨agrees, h.valid.createRelationship fromId toId relType props, h.storeNodes, h.storeRels, h.nextNodeId, ?_, ?_,
    w.putRel tx.store.nextRelId ⟨tx.store.nextRelId, relType, fromId, toId, props⟩, ?_, fun k => ?_, fun k => ?_⟩
  · show tm.store.nextRelId + 1 = tx.store.nextRelId + 1
    rw [h.nextRelId]
  · simp only [InMemoryTx.createRelationship, allocateRelId, h.delta, h.nextRelId]
  · simp only [InMemoryTx.createRelationship, allocateRelId, found, Option.map_some, h.nextRelId]
  · rw [GraphStore.putRel_nodes, nodes, wNodes]
  · rw [GraphStore.putRel_rels, BTreeMap.get_insert, rels, wRels]

theorem CopyOf.updateRelationship (h : tm.CopyOf tx) {id : Int} {props : Props}
    (agreeable : tx.Agreeable (.updateRelationship id props)) :
    (tm.updateRelationship id props).1.CopyOf (tx.updateRelationship id props).1 := by
  obtain ⟨w, found, wNodes, wRels⟩ := h.copy
  -- an update starts from the visible version on both sides
  have start : tx.updatableRel id = tx.visibleRel id := by
    rw [updatableRel_overlay h.agrees.plain, visibleRel_hides h.agrees.plain]
    cases held : tx.delta.rel tx.store id with
    | none => rfl
    | some r => rw [Option.filter_some, agreeable r held]; rfl
  have start' : tm.updatableRel id = tx.visibleRel id := by
    rw [updatableRel, found]
    exact wRels id
  have valid := h.valid.updateRelationship id props
  have valid' := h.agrees.valid.updateRelationship id props
  rw [updateRelationship_eq, start'] at valid ⊢
  rw [updateRelationship_eq, start] at valid' ⊢
  cases seen : tx.visibleRel id with
  | none => exact h
  | some rel =>
    simp only [seen] at valid valid'
    have shown : tx.delta.hides { rel with props := mergeProps rel.props props } = false :=
      agreeable rel (by rw [← updatableRel_overlay h.agrees.plain, start, seen])
    obtain ⟨agrees, nodes, rels⟩ := h.agrees.writeRel valid' (by rw [h.agrees.plain, Option.map_none]) rfl rfl rfl shown
    refine ⟨agrees, valid, h.storeNodes, h.storeRels, h.nextNodeId, h.nextRelId, by simp only [h.delta],
      { w with rels := w.rels.insert id { rel with props := mergeProps rel.props props } },
      by simp only [found, Option.map_some], fun k => ?_, fun k => ?_⟩
    · rw [nodes, ← wNodes]
    · rw [BTreeMap.get_insert, rels, wRels]

theorem CopyOf.deleteRelationship (h : tm.CopyOf tx) {id : Int} (agreeable : tx.Agreeable (.deleteRelationship id)) :
    (tm.deleteRelationship id).CopyOf (tx.deleteRelationship id) := by
  obtain ⟨agrees, nodes, rels⟩ := h.agrees.deleteRelationship agreeable
  obtain ⟨w, found, wNodes, wRels⟩ := h.copy
  refine ⟨agrees, h.valid.deleteRelationship id, h.storeNodes, h.storeRels, h.nextNodeId, h.nextRelId, ?_,
    w.removeRelationship id, ?_, fun k => ?_, fun k => ?_⟩
  · simp only [InMemoryTx.deleteRelationship, h.delta]
  · simp only [InMemoryTx.deleteRelationship, found, Option.map_some]
  · rw [GraphStore.removeRelationship_nodes, nodes, wNodes]
  · rw [GraphStore.removeRelationship_rels, BTreeMap.get_erase, rels, wRels]

theorem CopyOf.deleteNode (h : tm.CopyOf tx) {id : Int} (agreeable : tx.Agreeable (.deleteNode id)) :
    (tm.deleteNode id).CopyOf (tx.deleteNode id) := by
  obtain ⟨agrees, nodes, rels⟩ := h.agrees.deleteNode agreeable
  obtain ⟨w, found, wNodes, wRels⟩ := h.copy
  have own := (h.valid.copy w found).relId
  -- both cascade to the visible relationships at the node
  have related : tm.visibleRelatedRelIds id = tx.visibleRelatedRelIds id := by
    apply ExtTreeSet.ext_mem
    intro k
    rw [h.agrees.mem_related agreeable, visibleRelatedRelIds, found]
    simp only [ExtTreeSet.mem_ofList, List.contains_iff_mem, GraphStore.touching, List.mem_map, List.mem_filter,
      BTreeMap.mem_vals, ← wRels]
    constructor
    · rintro ⟨r, ⟨⟨j, stored⟩, touches⟩, rfl⟩
      exact ⟨r, (own j r stored).symm ▸ stored, touches⟩
    · rintro ⟨r, stored, touches⟩
      exact ⟨r, ⟨⟨k, stored⟩, touches⟩, own k r stored⟩
  refine ⟨agrees, h.valid.deleteNode id, h.storeNodes, h.storeRels, h.nextNodeId, h.nextRelId, ?_,
    w.removeNode id, ?_, fun k => ?_, fun k => ?_⟩
  · simp only [InMemoryTx.deleteNode, h.delta, related]
  · simp only [InMemoryTx.deleteNode, found, Option.map_some]
  · rw [GraphStore.removeNode_nodes, BTreeMap.get_erase, nodes, wNodes]
  · rw [GraphStore.removeNode_rels own, rels, wRels, wNodes]
    split
    · rfl
    case isFalse missing =>
      -- a node that is not there has no visible relationship
      cases seen : tx.visibleRel k with
      | none => rfl
      | some r =>
        have unseen : tx.visibleNode id = none := by simpa using missing
        have outside : k ∉ tx.visibleRelatedRelIds id := by
          rw [(visibleRelatedRelIds_of_missing h.agrees.valid h.agrees.plain unseen).1]
          simp
        have free : r.touches id = false := by
          by_contra touches
          exact outside ((h.agrees.mem_related agreeable k).2 ⟨r, seen, by simpa using touches⟩)
        rw [Option.filter_some, free]
        rfl

theorem Agrees.read {tx' : InMemoryTx} (h : tx.Agrees) (read : tx.ReadOf tx') :
    tx'.Agrees ∧ (∀ k, tx'.visibleNode k = tx.visibleNode k) ∧ ∀ k, tx'.visibleRel k = tx.visibleRel k := by
  rcases read with rfl | rfl
  · exact ⟨h, fun _ => rfl, fun _ => rfl⟩
  · have severs : ∀ r, tx.delta.severs tx.store.freshProps r = tx.delta.severs tx.store r := by
      intro r
      simp [TxDelta.severs]
    refine ⟨⟨h.valid.freshProps, h.plain, h.written, fun k b stored kept unwritten hidden => ?_⟩, fun k => ?_, fun k => ?_⟩
    · have stored : tx.store.rels[k]? = some b := by simpa using stored
      exact (severs b).trans (h.stored k b stored kept unwritten hidden)
    · simp only [InMemoryTx.visibleNode, GraphStore.freshProps_nodes]
    · simp only [InMemoryTx.visibleRel, GraphStore.freshProps_rels]

/-- A read of the materialised transaction goes to the working copy. -/
theorem CopyOf.read (h : tm.CopyOf tx) {tx' tm' : InMemoryTx} (read : tx.ReadOf tx') (read' : tm.ReadOf tm') :
    tm'.CopyOf tx' := by
  obtain ⟨agrees, nodes, rels⟩ := h.agrees.read read
  obtain ⟨w, found, wNodes, wRels⟩ := h.copy
  have caches : ∀ {t t' : InMemoryTx}, t.ReadOf t' → t'.store.nodes = t.store.nodes ∧ t'.store.rels = t.store.rels ∧
      t'.store.nextNodeId = t.store.nextNodeId ∧ t'.store.nextRelId = t.store.nextRelId ∧ t'.delta = t.delta ∧
      t'.workingCopy = t.workingCopy := by
    rintro t t' (rfl | rfl)
    · exact ⟨rfl, rfl, rfl, rfl, rfl, rfl⟩
    · simp
  obtain ⟨n, r, nn, nr, d, -⟩ := caches read
  obtain ⟨n', r', nn', nr', d', c'⟩ := caches read'
  refine ⟨agrees, read'.valid h.valid, n'.trans (h.storeNodes.trans n.symm), r'.trans (h.storeRels.trans r.symm),
    nn'.trans (h.nextNodeId.trans nn.symm), nr'.trans (h.nextRelId.trans nr.symm), d'.trans (h.delta.trans d.symm),
    w, c'.trans found, fun k => ?_, fun k => ?_⟩
  · rw [nodes, wNodes]
  · rw [rels, wRels]

/-- One agreeable call keeps the working copy equal to what the overlay shows. -/
theorem CopyOf.step (h : tm.CopyOf tx) {op : TxOp} (agreeable : tx.Agreeable op) : (tm.step op).CopyOf (tx.step op) := by
  cases op with
  | createNode labels props => exact h.createNode labels props
  | createNodes inserts => exact h.createNodes inserts
  | updateNode id props => exact h.updateNode id props
  | deleteNode id => exact h.deleteNode agreeable
  | createRelationship fromId toId relType props => exact h.createRelationship agreeable
  | updateRelationship id props => exact h.updateRelationship agreeable
  | deleteRelationship id => exact h.deleteRelationship agreeable
  | findNodeById _ => exact h
  | findNodesByProperty key value =>
    exact h.read (tx.visibleNodesByProperty_read key value) (tm.visibleNodesByProperty_read key value)
  | neighbors _ _ _ => exact h
  | executeGraph q => exact h.read (tx.executeGraph_read q) (tm.executeGraph_read q)

theorem CopyOf.run (h : tm.CopyOf tx) {ops : List TxOp} (agreeable : tx.AgreeableRun ops) :
    (tm.run ops).CopyOf (tx.run ops) := by
  induction ops generalizing tm tx with
  | nil => exact h
  | cons op ops ih => exact ih (h.step agreeable.1) agreeable.2

end Copy

/-- An agreeable run keeps the overlay and the commit together; the working copy that
proves it is thrown away. -/
theorem Agrees.run (h : tx.Agrees) {ops : List TxOp} (agreeable : tx.AgreeableRun ops) : (tx.run ops).Agrees :=
  (h.copyOf.run agreeable).agrees

end Agree

theorem agreeableRun_append {tx : InMemoryTx} {before after : List TxOp} :
    tx.AgreeableRun (before ++ after) ↔ tx.AgreeableRun before ∧ (tx.run before).AgreeableRun after := by
  induction before generalizing tx with
  | nil => exact ⟨fun h => ⟨trivial, h⟩, And.right⟩
  | cons op before ih => rw [List.cons_append, AgreeableRun, AgreeableRun, ih, and_assoc]; rfl

/-- In an agreeable run the overlay, a working copy materialised at any point, and the
store after the commit hold the same records. -/
theorem commit_publishes_what_was_seen {base : GraphStore} (sound : base.Sound) {before after : List TxOp}
    (agreeable : (new base).AgreeableRun (before ++ after)) :
    let tx := (new base).run (before ++ after)
    let tm := ((new base).run before).materializeWorkingCopy.run after
    ∃ w, tm.workingCopy = some w ∧
      (∀ id : Int, tx.visibleNode id = w.nodes[id]? ∧ tx.visibleNode id = tx.commit.nodes[id]? ∧
        tx.visibleNode id = tm.commit.nodes[id]?) ∧
      ∀ id : Int, tx.visibleRel id = w.rels[id]? ∧ tx.visibleRel id = tx.commit.rels[id]? ∧
        tx.visibleRel id = tm.commit.rels[id]? := by
  obtain ⟨first, second⟩ := agreeableRun_append.1 agreeable
  have copies := ((agrees_new sound).run first).copyOf.run second
  have joined : (new base).run (before ++ after) = ((new base).run before).run after := List.foldl_append
  rw [← joined] at copies
  obtain ⟨w, found, wNodes, wRels⟩ := copies.copy
  have agrees := copies.agrees
  refine ⟨w, found, fun id => ⟨(wNodes id).symm, (agrees.commit_nodes id).symm, ?_⟩,
    fun id => ⟨(wRels id).symm, (agrees.commit_rels id).symm, ?_⟩⟩
  · rw [← agrees.commit_nodes, commit, commit, TxDelta.applyTo_nodes, TxDelta.applyTo_nodes, copies.delta,
      copies.storeNodes]
  · rw [← agrees.commit_rels, commit, commit, TxDelta.applyTo_rels _ agrees.valid.store,
      TxDelta.applyTo_rels _ copies.valid.store, copies.delta, copies.storeRels]
    simp only [TxDelta.severs, copies.storeNodes]

/-- An agreeable run: a new node, a relationship to it, then, with the working copy
made, an update and the deletion of the new node with its relationship. -/
theorem commit_publishes_over_one_node :
    let before := [.createNode ["User"] ∅, .createRelationship 1 2 "KNOWS" ∅]
    let after := [.updateNode 1 ∅, .deleteNode 2]
    (new oneNode).AgreeableRun (before ++ after) ∧
      ((new oneNode).run (before ++ after)).visibleRel 1 = ((new oneNode).run (before ++ after)).commit.rels[(1 : Int)]? := by
  have agreeable : (new oneNode).AgreeableRun ([.createNode ["User"] ∅, .createRelationship 1 2 "KNOWS" ∅] ++
      [.updateNode 1 ∅, .deleteNode 2]) := by
    refine ⟨trivial, ⟨by decide, by decide⟩, trivial, ⟨by decide, fun missing => ?_, fun _ k _ _ _ stored => ?_⟩, trivial⟩
    · have present : (((new oneNode).run [.createNode ["User"] ∅, .createRelationship 1 2 "KNOWS" ∅,
          .updateNode 1 ∅]).visibleNode 2).isSome = true := by decide
      rw [visibleNode_overlay (by decide)] at present
      exact absurd (missing ▸ present) (by decide)
    · have none_stored : ((new oneNode).run [.createNode ["User"] ∅, .createRelationship 1 2 "KNOWS" ∅,
          .updateNode 1 ∅]).store.rels.isEmpty = true := by decide
      have stored : k ∈ ((new oneNode).run [.createNode ["User"] ∅, .createRelationship 1 2 "KNOWS" ∅,
          .updateNode 1 ∅]).store.rels := stored
      rw [ExtTreeMap.isEmpty_iff.1 none_stored] at stored
      simp at stored
  obtain ⟨w, -, -, rels⟩ := commit_publishes_what_was_seen ((valid_new GraphStore.sound_empty).run _).commit agreeable
  exact ⟨agreeable, (rels 1).2.1⟩

/-- A stored node updated and then deleted is in the overlay and in the committed store,
and not in a working copy materialised first. -/
theorem working_copy_loses_what_commit_keeps :
    let ops := [.updateNode 1 ∅, .deleteNode 1]
    oneNode.Sound ∧
      (((new oneNode).materializeWorkingCopy.run ops).workingCopy.bind fun w => w.nodes[(1 : Int)]?) ≠
        ((new oneNode).run ops).visibleNode 1 ∧
      ((new oneNode).run ops).commit.nodes[(1 : Int)]? = ((new oneNode).run ops).visibleNode 1 := by
  refine ⟨((valid_new GraphStore.sound_empty).run _).commit, fun same => ?_, rfl⟩
  have lost : (((new oneNode).materializeWorkingCopy.run [.updateNode 1 ∅, .deleteNode 1]).workingCopy.bind
      fun w => w.nodes[(1 : Int)]?).isSome = false := by decide
  have shown : (((new oneNode).run [.updateNode 1 ∅, .deleteNode 1]).visibleNode 1).isSome = true := by decide
  rw [same, shown] at lost
  cases lost

end InMemoryTx
