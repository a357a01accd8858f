import Grm.Backend.CommitAgreement
import Grm.Backend.SharedRuns

/-!
# Independent transactions merge

Transactions are independent when no two of them change the same record and none deletes
a node at the end of a relationship that another writes. Then, over every interleaving of
their calls, commits and rollbacks, the store is the one they were begun on with the
deltas of the committed ones put on it, and the order of the commits does not matter.
-/

open Std

set_option autoImplicit false

namespace RecordChange

/-- Changes that independent transactions do not make beside each other. -/
def Conflicts (c d : RecordChange) : Prop :=
  (∃ k, c.node? = some k ∧ d.node? = some k) ∨ (∃ k, c.rel? = some k ∧ d.rel? = some k) ∨
    ∃ k r, c = .deletedNode k ∧ d.writtenRel? = some r ∧ r.touches k = true

/-- A node as it stands after a change: as written, or nothing once it is deleted. -/
def nodeAfter (k : Int) (before : Option StoredNode) : RecordChange → Option StoredNode
  | .createdNode node | .updatedNode node _ => if node.id = k then some node else before
  | .deletedNode id => if id = k then none else before
  | _ => before

/-- A relationship as it stands after a change. -/
def relAfter (k : Int) (before : Option StoredRel) : RecordChange → Option StoredRel
  | .createdRel rel | .updatedRel rel _ => if rel.id = k then some rel else before
  | .deletedRel id => if id = k then none else before
  | _ => before

end RecordChange

/-- The node as it was last written, unless it was deleted later. -/
def lastNode (cs : List RecordChange) (k : Int) : Option StoredNode := cs.foldl (RecordChange.nodeAfter k) none

/-- The relationship as it was last written, unless it was deleted later. -/
def lastRel (cs : List RecordChange) (k : Int) : Option StoredRel := cs.foldl (RecordChange.relAfter k) none

/-- No two transactions make conflicting changes. -/
def SharedBackend.Independent (b : SharedBackend) : Prop :=
  ∀ i j c d, (i, c) ∈ b.history → (j, d) ∈ b.history → i ≠ j → ¬c.Conflicts d

/-! ## The delta of a list of changes -/

namespace TxDelta

/-- The delta writes or deletes the node. -/
def TouchesNode (d : TxDelta) (k : Int) : Prop := k ∈ d.nodes ∨ k ∈ d.deletedNodes

/-- The delta writes or deletes the relationship. -/
def TouchesRel (d : TxDelta) (k : Int) : Prop := k ∈ d.rels ∨ k ∈ d.deletedRels

variable (d : TxDelta) (c : RecordChange) (k : Int)

theorem note_nodes : (d.note c).nodes[k]? = c.nodeAfter k d.nodes[k]? := by
  cases c with
  | createdNode node => exact BTreeMap.get_insert d.nodes node.id k node
  | updatedNode node updates => exact BTreeMap.get_insert d.nodes node.id k node
  | deletedNode id => exact dropNode_nodes d id k
  | createdRel rel => rfl
  | updatedRel rel updates => rfl
  | deletedRel id => simp only [note, dropRel_nodes, RecordChange.nodeAfter]

theorem note_rels : (d.note c).rels[k]? = c.relAfter k d.rels[k]? := by
  cases c with
  | createdRel rel => exact BTreeMap.get_insert d.rels rel.id k rel
  | updatedRel rel updates => exact BTreeMap.get_insert d.rels rel.id k rel
  | deletedRel id => exact dropRel_rels d id k
  | createdNode node => rfl
  | updatedNode node updates => rfl
  | deletedNode id => simp only [note, dropNode_rels, RecordChange.relAfter]

theorem notes_nodes (cs : List RecordChange) :
    (cs.foldl note d).nodes[k]? = cs.foldl (RecordChange.nodeAfter k) d.nodes[k]? := by
  induction cs generalizing d with
  | nil => rfl
  | cons c cs ih => rw [List.foldl_cons, ih, note_nodes, List.foldl_cons]

theorem notes_rels (cs : List RecordChange) :
    (cs.foldl note d).rels[k]? = cs.foldl (RecordChange.relAfter k) d.rels[k]? := by
  induction cs generalizing d with
  | nil => rfl
  | cons c cs ih => rw [List.foldl_cons, ih, note_rels, List.foldl_cons]

theorem note_deletedNodes (deleted : k ∈ (d.note c).deletedNodes) : k ∈ d.deletedNodes ∨ c = .deletedNode k := by
  cases c with
  | createdNode node => exact .inl (BTreeSet.mem_erase.1 deleted).2
  | updatedNode node updates => exact .inl (BTreeSet.mem_erase.1 deleted).2
  | deletedNode id =>
    rcases (mem_dropNode_deletedNodes d id k).1 deleted with ⟨rfl, -⟩ | before
    · exact .inr rfl
    · exact .inl before
  | createdRel rel => exact .inl deleted
  | updatedRel rel updates => exact .inl deleted
  | deletedRel id => exact .inl (by simpa [note] using deleted)

theorem note_deletedRels (deleted : k ∈ (d.note c).deletedRels) : k ∈ d.deletedRels ∨ c = .deletedRel k := by
  cases c with
  | createdRel rel => exact .inl (BTreeSet.mem_erase.1 deleted).2
  | updatedRel rel updates => exact .inl (BTreeSet.mem_erase.1 deleted).2
  | deletedRel id =>
    rcases (mem_dropRel_deletedRels d id k).1 deleted with ⟨rfl, -⟩ | before
    · exact .inr rfl
    · exact .inl before
  | createdNode node => exact .inl deleted
  | updatedNode node updates => exact .inl deleted
  | deletedNode id => exact .inl (by simpa [note] using deleted)

theorem notes_deletedNodes {cs : List RecordChange} {d : TxDelta} {k : Int}
    (deleted : k ∈ (cs.foldl note d).deletedNodes) : k ∈ d.deletedNodes ∨ .deletedNode k ∈ cs := by
  induction cs generalizing d with
  | nil => exact .inl deleted
  | cons c cs ih =>
    rcases ih deleted with early | late
    · rcases note_deletedNodes d c k early with before | rfl
      · exact .inl before
      · exact .inr List.mem_cons_self
    · exact .inr (List.mem_cons_of_mem _ late)

theorem notes_deletedRels {cs : List RecordChange} {d : TxDelta} {k : Int}
    (deleted : k ∈ (cs.foldl note d).deletedRels) : k ∈ d.deletedRels ∨ .deletedRel k ∈ cs := by
  induction cs generalizing d with
  | nil => exact .inl deleted
  | cons c cs ih =>
    rcases ih deleted with early | late
    · rcases note_deletedRels d c k early with before | rfl
      · exact .inl before
      · exact .inr List.mem_cons_self
    · exact .inr (List.mem_cons_of_mem _ late)

end TxDelta

theorem RecordChange.nodeAfter_source {c : RecordChange} {k : Int} {before : Option StoredNode} {n : StoredNode}
    (after : c.nodeAfter k before = some n) : before = some n ∨ (c.writtenNode? = some n ∧ n.id = k) := by
  cases c with
  | createdNode node | updatedNode node updates =>
    simp only [nodeAfter] at after
    split at after
    case isTrue own => exact .inr ⟨after, Option.some.inj after ▸ own⟩
    case isFalse => exact .inl after
  | deletedNode id =>
    simp only [nodeAfter] at after
    split at after
    · cases after
    · exact .inl after
  | createdRel rel | updatedRel rel updates | deletedRel id => exact .inl after

theorem RecordChange.relAfter_source {c : RecordChange} {k : Int} {before : Option StoredRel} {r : StoredRel}
    (after : c.relAfter k before = some r) : before = some r ∨ (c.writtenRel? = some r ∧ r.id = k) := by
  cases c with
  | createdRel rel | updatedRel rel updates =>
    simp only [relAfter] at after
    split at after
    case isTrue own => exact .inr ⟨after, Option.some.inj after ▸ own⟩
    case isFalse => exact .inl after
  | deletedRel id =>
    simp only [relAfter] at after
    split at after
    · cases after
    · exact .inl after
  | createdNode node | updatedNode node updates | deletedNode id => exact .inl after

theorem nodesAfter_source {cs : List RecordChange} {k : Int} {before : Option StoredNode} {n : StoredNode}
    (after : cs.foldl (RecordChange.nodeAfter k) before = some n) :
    before = some n ∨ ∃ c ∈ cs, c.writtenNode? = some n ∧ n.id = k := by
  induction cs generalizing before with
  | nil => exact .inl after
  | cons c cs ih =>
    rcases ih after with early | ⟨c', member, written⟩
    · rcases RecordChange.nodeAfter_source early with found | written
      · exact .inl found
      · exact .inr ⟨c, List.mem_cons_self, written⟩
    · exact .inr ⟨c', List.mem_cons_of_mem _ member, written⟩

theorem relsAfter_source {cs : List RecordChange} {k : Int} {before : Option StoredRel} {r : StoredRel}
    (after : cs.foldl (RecordChange.relAfter k) before = some r) :
    before = some r ∨ ∃ c ∈ cs, c.writtenRel? = some r ∧ r.id = k := by
  induction cs generalizing before with
  | nil => exact .inl after
  | cons c cs ih =>
    rcases ih after with early | ⟨c', member, written⟩
    · rcases RecordChange.relAfter_source early with found | written
      · exact .inl found
      · exact .inr ⟨c, List.mem_cons_self, written⟩
    · exact .inr ⟨c', List.mem_cons_of_mem _ member, written⟩

theorem lastNode_source {cs : List RecordChange} {k : Int} {n : StoredNode} (last : lastNode cs k = some n) :
    ∃ c ∈ cs, c.writtenNode? = some n ∧ n.id = k :=
  (nodesAfter_source last).resolve_left (by simp)

theorem lastRel_source {cs : List RecordChange} {k : Int} {r : StoredRel} (last : lastRel cs k = some r) :
    ∃ c ∈ cs, c.writtenRel? = some r ∧ r.id = k :=
  (relsAfter_source last).resolve_left (by simp)

theorem RecordChange.node?_of_written {c : RecordChange} {n : StoredNode} (written : c.writtenNode? = some n) :
    c.node? = some n.id := by
  cases c <;> simp_all [writtenNode?, node?]

theorem RecordChange.rel?_of_written {c : RecordChange} {r : StoredRel} (written : c.writtenRel? = some r) :
    c.rel? = some r.id := by
  cases c <;> simp_all [writtenRel?, rel?]

section DeltaBy
variable {history : List (Nat × RecordChange)} {i : Nat} {k : Int}

theorem deltaBy_nodes : (deltaBy history i).nodes[k]? = lastNode (changesBy history i) k := by
  rw [deltaBy, TxDelta.notes_nodes]
  simp [lastNode]

theorem deltaBy_rels : (deltaBy history i).rels[k]? = lastRel (changesBy history i) k := by
  rw [deltaBy, TxDelta.notes_rels]
  simp [lastRel]

theorem deltaBy_deletedNode (deleted : k ∈ (deltaBy history i).deletedNodes) : (i, .deletedNode k) ∈ history := by
  rcases TxDelta.notes_deletedNodes deleted with none | member
  · simp at none
  · exact mem_changesBy.1 member

theorem deltaBy_writtenRel {r : StoredRel} (written : (deltaBy history i).rels[k]? = some r) :
    ∃ c, (i, c) ∈ history ∧ c.writtenRel? = some r ∧ r.id = k := by
  rw [deltaBy_rels] at written
  obtain ⟨c, member, found⟩ := lastRel_source written
  exact ⟨c, mem_changesBy.1 member, found⟩

theorem deltaBy_touchesNode (touched : (deltaBy history i).TouchesNode k) :
    ∃ c, (i, c) ∈ history ∧ c.node? = some k := by
  rcases touched with written | deleted
  · obtain ⟨n, found⟩ := BTreeMap.mem_iff_get.1 written
    rw [deltaBy_nodes] at found
    obtain ⟨c, member, here, rfl⟩ := lastNode_source found
    exact ⟨c, mem_changesBy.1 member, RecordChange.node?_of_written here⟩
  · exact ⟨_, deltaBy_deletedNode deleted, rfl⟩

theorem deltaBy_touchesRel (touched : (deltaBy history i).TouchesRel k) : ∃ c, (i, c) ∈ history ∧ c.rel? = some k := by
  rcases touched with written | deleted
  · obtain ⟨r, found⟩ := BTreeMap.mem_iff_get.1 written
    obtain ⟨c, member, here, rfl⟩ := deltaBy_writtenRel found
    exact ⟨c, member, RecordChange.rel?_of_written here⟩
  · rcases TxDelta.notes_deletedRels deleted with none | member
    · simp at none
    · exact ⟨_, mem_changesBy.1 member, rfl⟩

end DeltaBy

/-! ## The merged store -/

theorem RecordChange.conflicts_of_node {c d : RecordChange} {k : Int} (left : c.node? = some k)
    (right : d.node? = some k) : c.Conflicts d := .inl ⟨k, left, right⟩

theorem RecordChange.conflicts_of_rel {c d : RecordChange} {k : Int} (left : c.rel? = some k)
    (right : d.rel? = some k) : c.Conflicts d := .inr (.inl ⟨k, left, right⟩)

/-- Whether a delta severs a relationship depends on the nodes it deletes only. -/
theorem TxDelta.severs_congr {d : TxDelta} {s s' : GraphStore} {r : StoredRel}
    (same : ∀ e ∈ d.deletedNodes, s.nodes[e]? = s'.nodes[e]?) : d.severs s r = d.severs s' r := by
  rw [Bool.eq_iff_iff, severs_iff, severs_iff]
  have present : ∀ e ∈ d.deletedNodes, (e ∈ s.nodes ↔ e ∈ s'.nodes) := by
    intro e deleted
    rw [BTreeMap.mem_iff_get, BTreeMap.mem_iff_get, same e deleted]
  constructor
  · rintro ⟨e, touches, deleted, there⟩
    exact ⟨e, touches, deleted, (present e deleted).1 there⟩
  · rintro ⟨e, touches, deleted, there⟩
    exact ⟨e, touches, deleted, (present e deleted).2 there⟩

namespace SharedBackend
variable {base : GraphStore} {b : SharedBackend} {i j : Nat}

/-- The transaction has committed. -/
def Committed (b : SharedBackend) (i : Nat) : Prop := b.txs i = .committed

/-- The delta of what a transaction has done so far. -/
abbrev deltaOf (b : SharedBackend) (i : Nat) : TxDelta := deltaBy b.history i

/-- A committed transaction takes the relationship out of the store it began on. -/
def Removes (base : GraphStore) (b : SharedBackend) (i : Nat) (k : Int) : Prop :=
  k ∈ (b.deltaOf i).deletedRels ∨ ∃ r, base.rels[k]? = some r ∧ (b.deltaOf i).severs base r = true

/-- The store is the one the transactions were begun on with the committed deltas on it. -/
structure Merged (base : GraphStore) (b : SharedBackend) : Prop where
  wroteNode : ∀ i (k : Int) (n : StoredNode), b.Committed i → (b.deltaOf i).nodes[k]? = some n → b.store.nodes[k]? = some n
  deletedNode : ∀ i (k : Int), b.Committed i → k ∉ (b.deltaOf i).nodes → k ∈ (b.deltaOf i).deletedNodes →
    b.store.nodes[k]? = none
  otherNode : ∀ k : Int, (∀ i, b.Committed i → ¬(b.deltaOf i).TouchesNode k) → b.store.nodes[k]? = base.nodes[k]?
  wroteRel : ∀ i (k : Int) (r : StoredRel), b.Committed i → (b.deltaOf i).rels[k]? = some r → b.store.rels[k]? = some r
  removedRel : ∀ i (k : Int), b.Committed i → k ∉ (b.deltaOf i).rels → Removes base b i k → b.store.rels[k]? = none
  otherRel : ∀ k : Int, (∀ i, b.Committed i → k ∉ (b.deltaOf i).rels ∧ ¬Removes base b i k) →
    b.store.rels[k]? = base.rels[k]?
  shape : ∀ (k : Int) (r r' : StoredRel), base.rels[k]? = some r → b.Version k r' → r'.SameShape r
  nextRel : base.nextRelId ≤ b.store.nextRelId

theorem merged_new (sound : base.Sound) : Merged base (new base) := by
  refine ⟨?_, ?_, fun _ _ => rfl, ?_, ?_, fun _ _ => rfl, ?_, Int.le_refl _⟩
  · rintro i k n ⟨⟩
  · rintro i k ⟨⟩
  · rintro i k r ⟨⟩
  · rintro i k ⟨⟩
  · rintro k r r' stored version
    exact (orderly_new sound).shape k r' r version (.inl stored)

section Independent
variable (independent : b.Independent)
include independent

theorem Independent.node_apart {k : Int} (ne : i ≠ j) (touched : (b.deltaOf i).TouchesNode k) :
    ¬(b.deltaOf j).TouchesNode k := by
  intro touched'
  obtain ⟨c, member, here⟩ := deltaBy_touchesNode touched
  obtain ⟨d, member', here'⟩ := deltaBy_touchesNode touched'
  exact independent i j c d member member' ne (RecordChange.conflicts_of_node here here')

theorem Independent.rel_apart {k : Int} (ne : i ≠ j) (touched : (b.deltaOf i).TouchesRel k) :
    ¬(b.deltaOf j).TouchesRel k := by
  intro touched'
  obtain ⟨c, member, here⟩ := deltaBy_touchesRel touched
  obtain ⟨d, member', here'⟩ := deltaBy_touchesRel touched'
  exact independent i j c d member member' ne (RecordChange.conflicts_of_rel here here')

/-- What one transaction writes is not severed by another. -/
theorem Independent.not_severed {k : Int} {r r' : StoredRel} (ne : i ≠ j) (written : (b.deltaOf j).rels[k]? = some r)
    (same : r.SameShape r') (s : GraphStore) : (b.deltaOf i).severs s r' = false := by
  apply Bool.eq_false_iff.2
  intro severed
  obtain ⟨e, touches, deleted, -⟩ := TxDelta.severs_iff.1 severed
  obtain ⟨d, member, here, -⟩ := deltaBy_writtenRel written
  have touches' : r.touches e = true := by
    simpa only [StoredRel.touches, same.2.1, same.2.2] using touches
  exact independent i j _ d (deltaBy_deletedNode deleted) member ne (.inr (.inr ⟨e, r, rfl, here, touches'⟩))

end Independent

/-- A relationship of the merged store was written by a committed transaction, or is the
one the store had and no committed transaction takes it out. -/
theorem Merged.rel_cases (h : Merged base b) {k : Int} {r : StoredRel} (found : b.store.rels[k]? = some r) :
    (∃ i, b.Committed i ∧ (b.deltaOf i).rels[k]? = some r) ∨
      (base.rels[k]? = some r ∧ ∀ i, b.Committed i → k ∉ (b.deltaOf i).rels ∧ ¬Removes base b i k) := by
  by_cases written : ∃ i, b.Committed i ∧ k ∈ (b.deltaOf i).rels
  · obtain ⟨i, committed, member⟩ := written
    obtain ⟨r', here⟩ := BTreeMap.mem_iff_get.1 member
    have same : some r = some r' := found.symm.trans (h.wroteRel i k r' committed here)
    exact .inl ⟨i, committed, by rw [here, same]⟩
  · have free : ∀ i, b.Committed i → k ∉ (b.deltaOf i).rels ∧ ¬Removes base b i k := by
      intro i committed
      have unwritten : k ∉ (b.deltaOf i).rels := fun member => written ⟨i, committed, member⟩
      refine ⟨unwritten, fun removed => ?_⟩
      rw [h.removedRel i k committed unwritten removed] at found
      cases found
    exact .inr ⟨(h.otherRel k free).symm.trans found, free⟩

theorem Merged.shape_traces (h : Merged base b) (sound : base.Sound) {b' : SharedBackend} (traces : b.Traces b')
    {k : Int} {r r' : StoredRel} (stored : base.rels[k]? = some r) (version : b'.Version k r') : r'.SameShape r := by
  rcases traces k r' version with ⟨o, old, same⟩ | fresh
  · exact same.trans (h.shape k r o stored old)
  · have below := sound.relBelow k (BTreeMap.mem_iff_get.2 ⟨r, stored⟩)
    have up := h.nextRel
    omega

/-- An event that changes no record of the store and commits nothing. -/
theorem Merged.quiet (h : Merged base b) (sound : base.Sound) {b' : SharedBackend}
    (nodes : b'.store.nodes = b.store.nodes) (rels : b'.store.rels = b.store.rels)
    (nextRel : b.store.nextRelId ≤ b'.store.nextRelId) (committed : ∀ i, b'.Committed i ↔ b.Committed i)
    (deltas : ∀ i, b.Committed i → b'.deltaOf i = b.deltaOf i) (traces : b.Traces b') : Merged base b' where
  wroteNode i k n done written := by
    rw [nodes]
    have before := (committed i).1 done
    exact h.wroteNode i k n before (deltas i before ▸ written)
  deletedNode i k done unwritten deleted := by
    rw [nodes]
    have before := (committed i).1 done
    rw [deltas i before] at unwritten deleted
    exact h.deletedNode i k before unwritten deleted
  otherNode k free := by
    rw [nodes]
    exact h.otherNode k fun i before => deltas i before ▸ free i ((committed i).2 before)
  wroteRel i k r done written := by
    rw [rels]
    have before := (committed i).1 done
    exact h.wroteRel i k r before (deltas i before ▸ written)
  removedRel i k done unwritten removed := by
    rw [rels]
    have before := (committed i).1 done
    rw [Removes, deltas i before] at removed
    exact h.removedRel i k before (deltas i before ▸ unwritten) removed
  otherRel k free := by
    rw [rels]
    refine h.otherRel k fun i before => ?_
    have stays := free i ((committed i).2 before)
    rwa [Removes, deltas i before] at stays
  shape k r r' stored version := h.shape_traces sound traces stored version
  nextRel := Int.le_trans h.nextRel nextRel

section Commit
variable {tx : InMemoryTx} (h : Merged base b) (independent : b.Independent) (delta : tx.delta = b.deltaOf i)
  (there : tx.store = b.store) (valid : tx.Valid) (opened : b.tx? i = some tx)

/-- The nodes after a commit. -/
theorem commit_nodes (tx : InMemoryTx) (k : Int) :
    tx.commit.nodes[k]? = (tx.delta.nodes[k]?).or (if k ∈ tx.delta.deletedNodes then none else tx.store.nodes[k]?) :=
  tx.delta.applyTo_nodes tx.store k

include delta there in
theorem commit_node_untouched {k : Int} (free : ¬(b.deltaOf i).TouchesNode k) :
    tx.commit.nodes[k]? = b.store.nodes[k]? := by
  obtain ⟨unwritten, kept⟩ := not_or.1 free
  rw [commit_nodes, delta, there, BTreeMap.not_mem_iff_get.1 unwritten, if_neg kept, Option.none_or]

include h independent in
/-- The nodes a committing transaction deletes are as the store had them first. -/
theorem Merged.deletedNode_base (fresh : ¬b.Committed i) {e : Int} (deleted : e ∈ (b.deltaOf i).deletedNodes) :
    b.store.nodes[e]? = base.nodes[e]? := by
  refine h.otherNode e fun j committed => ?_
  have ne : i ≠ j := fun same => fresh (same ▸ committed)
  exact independent.node_apart ne (.inr deleted)

include h independent delta there valid in
/-- The relationships after a commit, in terms of what the committed deltas did to the
store the transactions began on. -/
theorem Merged.commit_rels (fresh : ¬b.Committed i) {k : Int} (unwritten : k ∉ (b.deltaOf i).rels) :
    tx.commit.rels[k]? = if k ∈ (b.deltaOf i).deletedRels then none
      else (b.store.rels[k]?).filter fun r => !(b.deltaOf i).severs base r := by
  rw [InMemoryTx.commit, TxDelta.applyTo_rels _ valid.store, delta, there, BTreeMap.not_mem_iff_get.1 unwritten,
    Option.none_or]
  congr 1
  congr 1
  funext r
  rw [TxDelta.severs_congr fun e deleted => h.deletedNode_base independent fresh deleted]

include h independent delta there valid opened in
/-- A commit puts one more delta on the store. -/
theorem Merged.commit (sound : base.Sound) (fresh : ¬b.Committed i) {b' : SharedBackend} (store : b'.store = tx.commit)
    (history : b'.history = b.history) (committed : ∀ j, b'.Committed j ↔ j = i ∨ b.Committed j)
    (traces : b.Traces b') : Merged base b' := by
  have deltas : ∀ j, b'.deltaOf j = b.deltaOf j := fun j => by rw [deltaOf, history]
  have removes : ∀ j k, Removes base b' j k ↔ Removes base b j k := fun j k => by rw [Removes, Removes, deltas]
  have ne : ∀ j, b.Committed j → i ≠ j := fun j done same => fresh (same ▸ done)
  refine ⟨?_, ?_, ?_, ?_, ?_, ?_, fun k r r' stored version => h.shape_traces sound traces stored version, ?_⟩
  · intro j k n done written
    rw [deltas] at written
    rw [store]
    rcases (committed j).1 done with rfl | before
    · rw [commit_nodes, delta, written, Option.some_or]
    · have touched : (b.deltaOf j).TouchesNode k := .inl (BTreeMap.mem_iff_get.2 ⟨n, written⟩)
      rw [commit_node_untouched delta there (independent.node_apart (ne j before).symm touched)]
      exact h.wroteNode j k n before written
  · intro j k done unwritten deleted
    rw [deltas] at unwritten deleted
    rw [store]
    rcases (committed j).1 done with rfl | before
    · rw [commit_nodes, delta, BTreeMap.not_mem_iff_get.1 unwritten, if_pos deleted]
      rfl
    · rw [commit_node_untouched delta there (independent.node_apart (ne j before).symm (.inr deleted))]
      exact h.deletedNode j k before unwritten deleted
  · intro k free
    rw [store, commit_node_untouched delta there (deltas i ▸ free i ((committed i).2 (.inl rfl)))]
    exact h.otherNode k fun j before => deltas j ▸ free j ((committed j).2 (.inr before))
  · intro j k r done written
    rw [deltas] at written
    rw [store]
    rcases (committed j).1 done with rfl | before
    · rw [InMemoryTx.commit, TxDelta.applyTo_rels _ valid.store, delta, written, Option.some_or]
    · have touched : (b.deltaOf j).TouchesRel k := .inl (BTreeMap.mem_iff_get.2 ⟨r, written⟩)
      obtain ⟨unwritten, kept⟩ := not_or.1 (independent.rel_apart (ne j before).symm touched)
      have whole : (b.deltaOf i).severs base r = false := independent.not_severed (ne j before) written (.refl r) base
      rw [h.commit_rels independent delta there valid fresh unwritten, if_neg kept, h.wroteRel j k r before written,
        Option.filter_some, whole]
      rfl
  · intro j k done unwritten removed
    rw [deltas] at unwritten
    rw [removes] at removed
    rw [store]
    rcases (committed j).1 done with rfl | before
    · rw [h.commit_rels independent delta there valid fresh unwritten]
      split
      · rfl
      case isFalse kept =>
        obtain ⟨r, stored, severed⟩ := removed.resolve_left kept
        cases found : b.store.rels[k]? with
        | none => rfl
        | some r' =>
          -- the stored version has the endpoints of the first one, so it is severed too
          have same : r'.SameShape r := h.shape k r r' stored (.inl found)
          have ends : (b.deltaOf j).severs base r' = (b.deltaOf j).severs base r := by
            simp only [TxDelta.severs, same.2.1, same.2.2]
          rw [Option.filter_some, ends, severed]
          rfl
    · have gone := h.removedRel j k before unwritten removed
      have written : k ∉ (b.deltaOf i).rels := by
        intro member
        obtain ⟨r', here⟩ := BTreeMap.mem_iff_get.1 member
        rcases removed with deleted | ⟨r, stored, severed⟩
        · exact independent.rel_apart (ne j before) (.inl member) (.inr deleted)
        · have same : r'.SameShape r := h.shape k r r' stored (.inr ⟨i, tx, opened, .inl (delta ▸ here)⟩)
          rw [independent.not_severed (ne j before).symm here same base] at severed
          cases severed
      rw [h.commit_rels independent delta there valid fresh written, gone]
      split <;> rfl
  · intro k free
    obtain ⟨unwritten, stays⟩ := free i ((committed i).2 (.inl rfl))
    rw [deltas] at unwritten
    rw [removes] at stays
    have before : b.store.rels[k]? = base.rels[k]? := by
      refine h.otherRel k fun j done => ?_
      have stays := free j ((committed j).2 (.inr done))
      rwa [deltas, removes] at stays
    rw [store, h.commit_rels independent delta there valid fresh unwritten, if_neg fun deleted => stays (.inl deleted),
      before]
    cases stored : base.rels[k]? with
    | none => rfl
    | some r =>
      have whole : (b.deltaOf i).severs base r = false :=
        Bool.eq_false_iff.2 fun severed => stays (.inr ⟨r, stored, severed⟩)
      rw [Option.filter_some, whole]
      rfl
  · rw [store, (commit_counters valid).2, there]
    exact h.nextRel

end Commit

theorem history_apply (b : SharedBackend) (i : Nat) (e : TxEvent) :
    ∃ later, (b.apply (i, e)).history = b.history ++ later := by
  rcases b.apply_cases i e with same | ⟨-, -, after⟩ | ⟨tx, -, ⟨step, -, after⟩ | ⟨-, after⟩ | ⟨-, after⟩⟩
  · exact ⟨[], by rw [same, List.append_nil]⟩
  all_goals rw [after]
  · exact ⟨[], (List.append_nil _).symm⟩
  · exact ⟨_, rfl⟩
  · exact ⟨[], (List.append_nil _).symm⟩
  · exact ⟨[], (List.append_nil _).symm⟩

theorem history_run (b : SharedBackend) (events : List (Nat × TxEvent)) :
    ∃ later, (b.run events).history = b.history ++ later := by
  induction events generalizing b with
  | nil => exact ⟨[], (List.append_nil _).symm⟩
  | cons e events ih =>
    obtain ⟨first, one⟩ := b.history_apply e.1 e.2
    obtain ⟨rest, more⟩ := ih (b.apply e)
    exact ⟨first ++ rest, by rw [← List.append_assoc, ← one]; exact more⟩

theorem Independent.before {b' : SharedBackend} (independent : b'.Independent) {later : List (Nat × RecordChange)}
    (history : b'.history = b.history ++ later) : b.Independent := fun i j c d left right ne =>
  independent i j c d (history ▸ List.mem_append_left _ left) (history ▸ List.mem_append_left _ right) ne

theorem committed_update {status : TxStatus} {b' : SharedBackend} (txs : b'.txs = Function.update b.txs i status)
    (j : Nat) : b'.Committed j ↔ (j = i ∧ status = .committed) ∨ (j ≠ i ∧ b.Committed j) := by
  unfold Committed
  rw [txs]
  by_cases same : j = i
  · simp [same]
  · simp [same]

theorem not_committed_of_opened {tx : InMemoryTx} (opened : b.tx? i = some tx) : ¬b.Committed i := by
  intro done
  rw [tx?, done] at opened
  cases opened

/-- Every event of independent transactions keeps the store merged. -/
theorem Merged.apply (h : Merged base b) (sound : base.Sound) (orderly : b.Orderly) (i : Nat) (e : TxEvent)
    (independent : (b.apply (i, e)).Independent) : Merged base (b.apply (i, e)) := by
  obtain ⟨later, history⟩ := b.history_apply i e
  have before : b.Independent := independent.before history
  have traces := (orderly.apply_traces i e).2
  rcases b.apply_cases i e with same | ⟨-, fresh, after⟩ | ⟨tx, opened, ⟨step, -, after⟩ | ⟨-, after⟩ | ⟨-, after⟩⟩
  · rw [same]
    exact h
  · rw [after] at traces ⊢
    refine h.quiet sound rfl rfl (Int.le_refl _) ?_ (fun _ _ => rfl) traces
    intro j
    rw [@committed_update b i (.opened none {}) _ rfl]
    constructor
    · rintro (⟨-, ⟨⟩⟩ | ⟨-, done⟩)
      exact done
    · intro done
      have other : j ≠ i := by
        rintro rfl
        rw [Committed, fresh] at done
        cases done
      exact .inr ⟨other, done⟩
  · have unchanged := tx.advance_unchanged step
    rw [tx?_store opened] at unchanged
    rw [after] at traces ⊢
    have others : ∀ j, b.Committed j → j ≠ i := fun j done same => not_committed_of_opened opened (same ▸ done)
    refine h.quiet sound unchanged.nodes unchanged.rels unchanged.nextRelId ?_ ?_ traces
    · intro j
      rw [@committed_update b i (.opened (tx.advance step).workingCopy (tx.advance step).delta) _ rfl]
      constructor
      · rintro (⟨-, ⟨⟩⟩ | ⟨-, done⟩)
        exact done
      · exact fun done => .inr ⟨others j done, done⟩
    · intro j done
      rw [deltaOf, deltaBy, changesBy_append, changesBy_other _ (others j done).symm, List.append_nil]
      rfl
  · rw [after] at traces ⊢
    refine h.commit before (orderly.delta i tx opened) (tx?_store opened) (orderly.valid i tx opened) opened sound
      (not_committed_of_opened opened) rfl rfl ?_ traces
    intro j
    rw [@committed_update b i (.committed) _ rfl]
    by_cases same : j = i
    · simp [same]
    · simp [same]
  · have there : tx.rollback = b.store := tx?_store opened
    rw [after] at traces ⊢
    refine h.quiet sound (by rw [there]) (by rw [there]) (Int.le_of_eq (by rw [there])) ?_ (fun _ _ => rfl) traces
    intro j
    rw [@committed_update b i (.rolledBack) _ rfl]
    constructor
    · rintro (⟨-, ⟨⟩⟩ | ⟨-, done⟩)
      exact done
    · exact fun done => .inr ⟨fun same => not_committed_of_opened opened (same ▸ done), done⟩

theorem Merged.run (h : Merged base b) (sound : base.Sound) (orderly : b.Orderly) {events : List (Nat × TxEvent)}
    (independent : (b.run events).Independent) : Merged base (b.run events) := by
  induction events generalizing b with
  | nil => exact h
  | cons e events ih =>
    obtain ⟨later, history⟩ := (b.apply e).history_run events
    have one : (b.apply e).Independent := independent.before history
    exact ih (h.apply sound orderly e.1 e.2 one) (orderly.apply e.1 e.2) independent

/-- A merged store is determined by what the transactions did and which have committed. -/
theorem Merged.unique {b' : SharedBackend} (h : Merged base b) (h' : Merged base b')
    (history : b'.history = b.history) (committed : ∀ i, b'.Committed i ↔ b.Committed i) :
    b'.store.nodes = b.store.nodes ∧ b'.store.rels = b.store.rels := by
  have deltas : ∀ i, b'.deltaOf i = b.deltaOf i := fun i => by rw [deltaOf, history]
  constructor
  · apply BTreeMap.ext_get
    intro k
    by_cases touched : ∃ i, b.Committed i ∧ (b.deltaOf i).TouchesNode k
    · obtain ⟨i, done, touched⟩ := touched
      have done' := (committed i).2 done
      by_cases written : k ∈ (b.deltaOf i).nodes
      · obtain ⟨n, found⟩ := BTreeMap.mem_iff_get.1 written
        rw [h.wroteNode i k n done found, h'.wroteNode i k n done' (deltas i ▸ found)]
      · have deleted := touched.resolve_left written
        rw [h.deletedNode i k done written deleted, h'.deletedNode i k done' (deltas i ▸ written) (deltas i ▸ deleted)]
    · have free : ∀ i, b.Committed i → ¬(b.deltaOf i).TouchesNode k := fun i done touch => touched ⟨i, done, touch⟩
      rw [h.otherNode k free, h'.otherNode k fun i done => deltas i ▸ free i ((committed i).1 done)]
  · apply BTreeMap.ext_get
    intro k
    have removes : ∀ i, Removes base b' i k ↔ Removes base b i k := fun i => by rw [Removes, Removes, deltas]
    by_cases written : ∃ i, b.Committed i ∧ k ∈ (b.deltaOf i).rels
    · obtain ⟨i, done, member⟩ := written
      obtain ⟨r, found⟩ := BTreeMap.mem_iff_get.1 member
      rw [h.wroteRel i k r done found, h'.wroteRel i k r ((committed i).2 done) (deltas i ▸ found)]
    · have unwritten : ∀ i, b.Committed i → k ∉ (b.deltaOf i).rels := fun i done member => written ⟨i, done, member⟩
      by_cases removed : ∃ i, b.Committed i ∧ Removes base b i k
      · obtain ⟨i, done, gone⟩ := removed
        rw [h.removedRel i k done (unwritten i done) gone, h'.removedRel i k ((committed i).2 done)
          (deltas i ▸ unwritten i done) ((removes i).2 gone)]
      · have free : ∀ i, b.Committed i → k ∉ (b.deltaOf i).rels ∧ ¬Removes base b i k :=
          fun i done => ⟨unwritten i done, fun gone => removed ⟨i, done, gone⟩⟩
        rw [h.otherRel k free, h'.otherRel k]
        intro i done
        rw [deltas, removes]
        exact free i ((committed i).1 done)

/-- Over every interleaving of independent transactions, the store holds every record a
committed transaction wrote and did not delete later, exactly as it last wrote it, and
every other record, unless it was deleted itself or lost an endpoint, as it was; and an
interleaving in which the same changes are made and the same transactions commit, in any
order, ends with the same nodes and relationships. -/
theorem independent_transactions_merge (sound : base.Sound) {events : List (Nat × TxEvent)}
    (independent : ((new base).run events).Independent) :
    (∀ i, ((new base).run events).Committed i →
      (∀ k n, lastNode (changesBy ((new base).run events).history i) k = some n →
        ((new base).run events).store.nodes[k]? = some n) ∧
      ∀ k r, lastRel (changesBy ((new base).run events).history i) k = some r →
        ((new base).run events).store.rels[k]? = some r) ∧
    (∀ k, (∀ i c, ((new base).run events).Committed i → (i, c) ∈ ((new base).run events).history → c.node? ≠ some k) →
      ((new base).run events).store.nodes[k]? = base.nodes[k]?) ∧
    (∀ k, (∀ i c, ((new base).run events).Committed i → (i, c) ∈ ((new base).run events).history → c.rel? ≠ some k ∧
        ∀ r e, base.rels[k]? = some r → r.touches e = true → c ≠ .deletedNode e) →
      ((new base).run events).store.rels[k]? = base.rels[k]?) ∧
    ∀ events', ((new base).run events').history = ((new base).run events).history →
      (∀ i, ((new base).run events').Committed i ↔ ((new base).run events).Committed i) →
      ((new base).run events').store.nodes = ((new base).run events).store.nodes ∧
        ((new base).run events').store.rels = ((new base).run events).store.rels := by
  have merged := (merged_new sound).run sound (orderly_new sound) independent
  refine ⟨fun i done => ⟨fun k n last => ?_, fun k r last => ?_⟩, fun k untouched => ?_, fun k untouched => ?_,
    fun events' history committed => ?_⟩
  · exact merged.wroteNode i k n done (deltaBy_nodes.trans last)
  · exact merged.wroteRel i k r done (deltaBy_rels.trans last)
  · refine merged.otherNode k fun i done touched => ?_
    obtain ⟨c, member, here⟩ := deltaBy_touchesNode touched
    exact untouched i c done member here
  · refine merged.otherRel k fun i done => ?_
    have apart : ¬(((new base).run events).deltaOf i).TouchesRel k := by
      intro touched
      obtain ⟨c, member, here⟩ := deltaBy_touchesRel touched
      exact (untouched i c done member).1 here
    refine ⟨fun written => apart (.inl written), ?_⟩
    rintro (deleted | ⟨r, stored, severed⟩)
    · exact apart (.inr deleted)
    · obtain ⟨e, touches, deleted, -⟩ := TxDelta.severs_iff.1 severed
      exact (untouched i _ done (deltaBy_deletedNode deleted)).2 r e stored touches rfl
  · have independent' : ((new base).run events').Independent := by
      unfold Independent
      rwa [history]
    exact merged.unique ((merged_new sound).run sound (orderly_new sound) independent') history committed

/-- Two transactions that each create a node, committed in the order given. -/
def twoWriters (order : List Nat) : List (Nat × TxEvent) :=
  [(1, .begin), (1, .step (.call (.createNode ["User"] ∅))), (2, .begin),
    (2, .step (.call (.createNode ["User"] ∅)))] ++ order.map (·, .commit)

/-- Alice and Bob, each in a transaction of its own, whichever commits first. -/
theorem two_writers_merge :
    ((new .empty).run (twoWriters [1, 2])).store.nodes[(1 : Int)]? = some { id := 1, labels := ["User"], props := ∅ } ∧
      ((new .empty).run (twoWriters [2, 1])).store.nodes = ((new .empty).run (twoWriters [1, 2])).store.nodes := by
  have history : ((new .empty).run (twoWriters [1, 2])).history =
      [(1, .createdNode { id := 1, labels := ["User"], props := ∅ }),
        (2, .createdNode { id := 2, labels := ["User"], props := ∅ })] := rfl
  have independent : ((new .empty).run (twoWriters [1, 2])).Independent := by
    unfold Independent
    rw [history]
    intro i j c d left right ne
    simp only [List.mem_cons, Prod.mk.injEq, List.not_mem_nil, or_false] at left right
    rcases left with ⟨rfl, rfl⟩ | ⟨rfl, rfl⟩ <;> rcases right with ⟨rfl, rfl⟩ | ⟨rfl, rfl⟩ <;>
      simp_all [RecordChange.Conflicts, RecordChange.node?, RecordChange.rel?]
  obtain ⟨written, -, -, orders⟩ := independent_transactions_merge GraphStore.sound_empty independent
  refine ⟨(written 1 rfl).1 1 _ rfl, (orders (twoWriters [2, 1]) rfl fun i => ?_).1⟩
  unfold Committed
  by_cases one : i = 1
  · subst one; exact Iff.rfl
  · by_cases two : i = 2
    · subst two; exact Iff.rfl
    · have swapped : ((new .empty).run (twoWriters [2, 1])).txs i = .notBegun := by
        simp [run, twoWriters, apply, tx?, new, Function.update, one, two]
      have straight : ((new .empty).run (twoWriters [1, 2])).txs i = .notBegun := by
        simp [run, twoWriters, apply, tx?, new, Function.update, one, two]
      rw [swapped, straight]

end SharedBackend
