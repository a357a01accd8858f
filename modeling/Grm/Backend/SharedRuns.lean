import Grm.Backend.SharedStore

/-!
# Whatever the others do

The invariant of a shared backend: its store is sound, every open transaction is `Valid`
on the store as the others have left it, and all versions of a relationship, in the store,
in the deltas and in the working copies, have the same type and endpoints. Every event
keeps it. The ids given out are pairwise distinct over every interleaving.
-/

open Std

set_option autoImplicit false

theorem StoredRel.SameShape.refl (r : StoredRel) : r.SameShape r := ⟨rfl, rfl, rfl⟩

theorem StoredRel.SameShape.symm {r r' : StoredRel} (same : r.SameShape r') : r'.SameShape r :=
  ⟨same.1.symm, same.2.1.symm, same.2.2.symm⟩

theorem StoredRel.SameShape.trans {r r' r'' : StoredRel} (first : r.SameShape r') (second : r'.SameShape r'') :
    r.SameShape r'' :=
  ⟨first.1.trans second.1, first.2.1.trans second.2.1, first.2.2.trans second.2.2⟩

namespace InMemoryTx

/-- A version of a relationship that the transaction has of its own. -/
def Holds (tx : InMemoryTx) (k : Int) (r : StoredRel) : Prop :=
  tx.delta.rels[k]? = some r ∨ ∃ w, tx.workingCopy = some w ∧ w.rels[k]? = some r

/-- A version that goes back to one the transaction saw. -/
def GoesBack (tx : InMemoryTx) (k : Int) (r : StoredRel) : Prop :=
  ∃ r', (tx.store.rels[k]? = some r' ∨ tx.Holds k r') ∧ r.SameShape r'

variable {tx : InMemoryTx}

theorem Holds.goesBack {k : Int} {r : StoredRel} (held : tx.Holds k r) : tx.GoesBack k r :=
  ⟨r, .inr held, .refl r⟩

theorem Valid.holds_below (h : tx.Valid) {k : Int} {r : StoredRel} (held : tx.Holds k r) : k < tx.store.nextRelId := by
  rcases held with written | ⟨w, copy, seen⟩
  · exact h.writtenRelBelow k (BTreeMap.mem_iff_get.2 ⟨r, written⟩)
  · exact h.copyRelBelow w copy k (BTreeMap.mem_iff_get.2 ⟨r, seen⟩)

/-- A step that leaves the relationships of the delta and of the working copy, or takes
some of them out. -/
theorem holds_of_fewer {tx' : InMemoryTx} {k : Int} {r : StoredRel} (held : tx'.Holds k r)
    (rels : ∀ (k : Int) (r : StoredRel), tx'.delta.rels[k]? = some r → tx.delta.rels[k]? = some r)
    (copies : ∀ w', tx'.workingCopy = some w' → ∃ w, tx.workingCopy = some w ∧
      ∀ (k : Int) (r : StoredRel), w'.rels[k]? = some r → w.rels[k]? = some r) : tx.Holds k r := by
  rcases held with written | ⟨w', copy, seen⟩
  · exact .inl (rels k r written)
  · obtain ⟨w, before, sub⟩ := copies w' copy
    exact .inr ⟨w, before, sub k r seen⟩

theorem createNode_holds {labels : List String} {props : Props} {k : Int} {r : StoredRel}
    (held : (tx.createNode labels props).1.Holds k r) : tx.Holds k r := by
  refine holds_of_fewer held (fun k r written => written) ?_
  intro w' copy
  obtain ⟨w, before, rfl⟩ := Option.map_eq_some_iff.1 copy
  exact ⟨w, before, fun k r seen => by simpa using seen⟩

theorem createNodes_holds {inserts : List (List String × Props)} {k : Int} {r : StoredRel}
    (held : (tx.createNodes inserts).1.Holds k r) : tx.Holds k r := by
  induction inserts generalizing tx with
  | nil => exact held
  | cons insert inserts ih => exact createNode_holds (ih held)

theorem updateNode_holds {id : Int} {props : Props} {k : Int} {r : StoredRel}
    (held : (tx.updateNode id props).1.Holds k r) : tx.Holds k r := by
  rw [updateNode_eq] at held
  split at held
  · refine holds_of_fewer held (fun k r written => written) ?_
    intro w' copy
    obtain ⟨w, before, rfl⟩ := Option.map_eq_some_iff.1 copy
    exact ⟨w, before, fun k r seen => by simpa using seen⟩
  · exact held

theorem Valid.deleteNode_holds (h : tx.Valid) {id k : Int} {r : StoredRel} (held : (tx.deleteNode id).Holds k r) :
    tx.Holds k r := by
  refine holds_of_fewer held ?_ ?_
  · intro k r written
    obtain ⟨rels, -, -, -⟩ := (tx.delta.dropNode id).dropRels (tx.visibleRelatedRelIds id).toList (BTreeSet.nodup_toList _)
    rw [InMemoryTx.deleteNode, rels, TxDelta.dropNode_rels] at written
    split at written
    · cases written
    · exact written
  · intro w' copy
    obtain ⟨w, before, rfl⟩ := Option.map_eq_some_iff.1 copy
    refine ⟨w, before, fun k r seen => ?_⟩
    rw [GraphStore.removeNode_rels (h.copy w before).relId] at seen
    split at seen
    · exact (Option.filter_eq_some_iff.1 seen).1
    · exact seen

theorem deleteRelationship_holds {id k : Int} {r : StoredRel} (held : (tx.deleteRelationship id).Holds k r) :
    tx.Holds k r := by
  refine holds_of_fewer held ?_ ?_
  · intro k r written
    rw [deleteRelationship, TxDelta.dropRel_rels] at written
    split at written
    · cases written
    · exact written
  · intro w' copy
    obtain ⟨w, before, rfl⟩ := Option.map_eq_some_iff.1 copy
    refine ⟨w, before, fun k r seen => ?_⟩
    rw [GraphStore.removeRelationship_rels, BTreeMap.get_erase] at seen
    split at seen
    · cases seen
    · exact seen

/-- A written relationship is the one written, or one the transaction had. -/
theorem writeRel_holds (tx : InMemoryTx) (id : Int) (rel : StoredRel) {k : Int} {r : StoredRel}
    {copy : Option GraphStore} {s : GraphStore}
    (copies : ∀ w', copy = some w' → ∃ w, tx.workingCopy = some w ∧ w'.rels = w.rels.insert id rel)
    (held : InMemoryTx.Holds { store := s, workingCopy := copy, delta := tx.delta.writeRel id rel } k r) :
    (id = k ∧ rel = r) ∨ tx.Holds k r := by
  rcases held with written | ⟨w', found, seen⟩
  · rw [TxDelta.writeRel, BTreeMap.get_insert] at written
    split at written
    case isTrue same => exact .inl ⟨same, Option.some.inj written⟩
    case isFalse => exact .inr (.inl written)
  · obtain ⟨w, before, rels⟩ := copies w' found
    rw [rels, BTreeMap.get_insert] at seen
    split at seen
    case isTrue same => exact .inl ⟨same, Option.some.inj seen⟩
    case isFalse => exact .inr (.inr ⟨w, before, seen⟩)

theorem createRelationship_holds {fromId toId : Int} {relType : String} {props : Props} {k : Int} {r : StoredRel}
    (held : (tx.createRelationship fromId toId relType props).1.Holds k r) :
    (tx.store.nextRelId = k ∧ (tx.createRelationship fromId toId relType props).2 = r) ∨ tx.Holds k r := by
  apply writeRel_holds tx _ _ _ held
  intro w' copy
  obtain ⟨w, before, rfl⟩ := Option.map_eq_some_iff.1 copy
  exact ⟨w, before, by simp⟩

theorem updatableRel_goesBack {id : Int} {r : StoredRel} (held : tx.updatableRel id = some r) : tx.GoesBack id r := by
  refine ⟨r, ?_, .refl r⟩
  unfold updatableRel at held
  split at held
  case h_1 w copy => exact .inr (.inr ⟨w, copy, held⟩)
  case h_2 =>
    split at held
    · cases held
    · rcases Option.or_eq_some_iff.1 held with written | ⟨-, stored⟩
      · exact .inr (.inl written)
      · exact .inl stored

theorem updateRelationship_holds {id : Int} {props : Props} {k : Int} {r : StoredRel}
    (held : (tx.updateRelationship id props).1.Holds k r) : tx.GoesBack k r := by
  rw [updateRelationship_eq] at held
  cases seen : tx.updatableRel id with
  | none =>
    rw [seen] at held
    exact held.goesBack
  | some rel =>
    rw [seen] at held
    have cases := writeRel_holds tx id { rel with props := mergeProps rel.props props }
      (by
        intro w' copy
        obtain ⟨w, before, rfl⟩ := Option.map_eq_some_iff.1 copy
        exact ⟨w, before, rfl⟩) held
    rcases cases with ⟨rfl, rfl⟩ | kept
    · obtain ⟨r', source, same⟩ := updatableRel_goesBack seen
      exact ⟨r', source, same⟩
    · exact kept.goesBack

theorem Valid.materialize_holds (h : tx.Valid) {k : Int} {r : StoredRel} (held : tx.materializeWorkingCopy.Holds k r) :
    tx.GoesBack k r := by
  unfold InMemoryTx.materializeWorkingCopy at held
  cases plain : tx.workingCopy with
  | some w =>
    rw [plain] at held
    exact held.goesBack
  | none =>
    rw [plain] at held
    rcases held with written | ⟨w, copy, seen⟩
    · exact Holds.goesBack (.inl written)
    · cases copy
      rw [TxDelta.applyTo_rels _ h.store] at seen
      rcases Option.or_eq_some_iff.1 seen with written | ⟨-, stored⟩
      · exact Holds.goesBack (.inl written)
      · split at stored
        · cases stored
        · exact ⟨r, .inl (Option.filter_eq_some_iff.1 stored).1, .refl r⟩

/-- The versions a transaction has after a step go back to one before it, or are the
relationship it has just created. -/
theorem Valid.advance_holds (h : tx.Valid) {step : TxStep} {k : Int} {r : StoredRel}
    (held : (tx.advance step).Holds k r) :
    tx.GoesBack k r ∨ (k = tx.store.nextRelId ∧ tx.changesOf step = [.createdRel r]) := by
  cases step with
  | materializeWorkingCopy => exact .inl (h.materialize_holds held)
  | call op =>
    cases op with
    | createNode labels props => exact .inl (createNode_holds held).goesBack
    | createNodes inserts => exact .inl (createNodes_holds held).goesBack
    | updateNode id props => exact .inl (updateNode_holds held).goesBack
    | deleteNode id => exact .inl (h.deleteNode_holds held).goesBack
    | createRelationship fromId toId relType props =>
      rcases createRelationship_holds held with ⟨rfl, rfl⟩ | kept
      · exact .inr ⟨rfl, rfl⟩
      · exact .inl kept.goesBack
    | updateRelationship id props => exact .inl (updateRelationship_holds held)
    | deleteRelationship id => exact .inl (deleteRelationship_holds held).goesBack
    | findNodeById id => exact .inl held.goesBack
    | findNodesByProperty key value =>
      have read := tx.visibleNodesByProperty_read key value
      have before : tx.Holds k r := by
        unfold Holds at held ⊢
        rwa [show (tx.advance (.call (.findNodesByProperty key value))) = (tx.visibleNodesByProperty key value).1 from rfl,
          read.delta, read.workingCopy] at held
      exact .inl before.goesBack
    | neighbors node relType dir => exact .inl held.goesBack
    | executeGraph q =>
      have read := tx.executeGraph_read q
      have before : tx.Holds k r := by
        unfold Holds at held ⊢
        rwa [show (tx.advance (.call (.executeGraph q))) = tx.executeGraph q from rfl,
          read.delta, read.workingCopy] at held
      exact .inl before.goesBack

/-- A transaction on a store that others have changed. -/
theorem Valid.moved (h : tx.Valid) {s : GraphStore} (sound : s.Sound) (nextNode : tx.store.nextNodeId ≤ s.nextNodeId)
    (nextRel : tx.store.nextRelId ≤ s.nextRelId)
    (shape : ∀ (k : Int) (r b : StoredRel), tx.Holds k r → s.rels[k]? = some b → r.SameShape b) :
    { tx with store := s }.Valid where
  store := sound.indexed
  nodeBelow := sound.nodeBelow
  relBelow := sound.relBelow
  own := h.own
  writtenNodeBelow k member := Int.lt_of_lt_of_le (h.writtenNodeBelow k member) nextNode
  writtenRelBelow k member := Int.lt_of_lt_of_le (h.writtenRelBelow k member) nextRel
  nodesApart := h.nodesApart
  relsApart := h.relsApart
  shape k r b written stored := shape k r b (.inl written) stored
  copy := h.copy
  copyNodeBelow w found k member := Int.lt_of_lt_of_le (h.copyNodeBelow w found k member) nextNode
  copyRelBelow w found k member := Int.lt_of_lt_of_le (h.copyRelBelow w found k member) nextRel
  copyShape w found k r b seen stored := shape k r b (.inr ⟨w, found, seen⟩) stored

end InMemoryTx

/-! ## The invariant of the backend -/

/-- What one transaction did, in order. -/
def changesBy (history : List (Nat × RecordChange)) (i : Nat) : List RecordChange :=
  history.filterMap fun e => if e.1 = i then some e.2 else none

/-- The delta that comes of what a transaction did. -/
def deltaBy (history : List (Nat × RecordChange)) (i : Nat) : TxDelta :=
  (changesBy history i).foldl TxDelta.note {}

theorem changesBy_append (history later : List (Nat × RecordChange)) (i : Nat) :
    changesBy (history ++ later) i = changesBy history i ++ changesBy later i := List.filterMap_append

theorem mem_changesBy {history : List (Nat × RecordChange)} {i : Nat} {c : RecordChange} :
    c ∈ changesBy history i ↔ (i, c) ∈ history := by
  simp only [changesBy, List.mem_filterMap, Option.ite_none_right_eq_some, Option.some.injEq]
  constructor
  · rintro ⟨e, member, rfl, rfl⟩
    exact member
  · intro member
    exact ⟨(i, c), member, rfl, rfl⟩

@[simp] theorem changesBy_own (cs : List RecordChange) (i : Nat) : changesBy (cs.map (i, ·)) i = cs := by
  simp [changesBy, List.filterMap_map]

theorem changesBy_other (cs : List RecordChange) {i j : Nat} (ne : i ≠ j) : changesBy (cs.map (i, ·)) j = [] := by
  simp [changesBy, ne]

namespace SharedBackend
variable {b : SharedBackend} {i j : Nat}

theorem tx?_store {tx : InMemoryTx} (opened : b.tx? i = some tx) : tx.store = b.store := by
  unfold tx? at opened
  split at opened
  · cases opened; rfl
  · cases opened

/-- The others are where they were, on the store as it is now. -/
theorem tx?_other {b' : SharedBackend} {status : TxStatus} (txs : b'.txs = Function.update b.txs i status)
    (ne : j ≠ i) : b'.tx? j = (b.tx? j).map ({ · with store := b'.store }) := by
  unfold tx?
  rw [txs, Function.update_of_ne ne]
  cases b.txs j <;> rfl

theorem tx?_own {b' : SharedBackend} {status : TxStatus} (txs : b'.txs = Function.update b.txs i status)
    {tx : InMemoryTx} (opened : b'.tx? i = some tx) :
    ∃ copy delta, status = .opened copy delta ∧ tx = { store := b'.store, workingCopy := copy, delta } := by
  unfold tx? at opened
  rw [txs, Function.update_self] at opened
  split at opened
  case h_1 copy delta => exact ⟨copy, delta, rfl, (Option.some.inj opened).symm⟩
  case h_2 => cases opened

/-- What one event can do. -/
theorem apply_cases (b : SharedBackend) (i : Nat) (e : TxEvent) :
    b.apply (i, e) = b ∨
      (e = .begin ∧ b.txs i = .notBegun ∧
        b.apply (i, e) = { b with txs := Function.update b.txs i (.opened none {}) }) ∨
      ∃ tx, b.tx? i = some tx ∧
        ((∃ step, e = .step step ∧ b.apply (i, e) =
            { store := (tx.advance step).store
              txs := Function.update b.txs i (.opened (tx.advance step).workingCopy (tx.advance step).delta)
              history := b.history ++ (tx.changesOf step).map (i, ·) }) ∨
          (e = .commit ∧ b.apply (i, e) = { b with store := tx.commit, txs := Function.update b.txs i .committed }) ∨
          (e = .rollback ∧
            b.apply (i, e) = { b with store := tx.rollback, txs := Function.update b.txs i .rolledBack })) := by
  unfold apply
  cases e with
  | begin =>
    cases status : b.txs i with
    | notBegun => exact .inr (.inl ⟨rfl, rfl, by simp only [status]⟩)
    | _ => exact .inl (by simp only [status])
  | step step =>
    cases opened : b.tx? i with
    | none => exact .inl (by simp only [opened])
    | some tx => exact .inr (.inr ⟨tx, rfl, .inl ⟨step, rfl, by simp only [opened]⟩⟩)
  | commit =>
    cases opened : b.tx? i with
    | none => exact .inl (by simp only [opened])
    | some tx => exact .inr (.inr ⟨tx, rfl, .inr (.inl ⟨rfl, by simp only [opened]⟩)⟩)
  | rollback =>
    cases opened : b.tx? i with
    | none => exact .inl (by simp only [opened])
    | some tx => exact .inr (.inr ⟨tx, rfl, .inr (.inr ⟨rfl, by simp only [opened]⟩)⟩)

/-- A version of a relationship anywhere in the system. -/
def Version (b : SharedBackend) (k : Int) (r : StoredRel) : Prop :=
  b.store.rels[k]? = some r ∨ ∃ i tx, b.tx? i = some tx ∧ tx.Holds k r

/-- Every version goes back to an earlier one, or is of a relationship that was not there. -/
def Traces (b b' : SharedBackend) : Prop :=
  ∀ k r, b'.Version k r → (∃ r', b.Version k r' ∧ r.SameShape r') ∨ b.store.nextRelId ≤ k

theorem Traces.refl (b : SharedBackend) : b.Traces b := fun _ r version => .inl ⟨r, version, .refl r⟩

/-- The invariant. -/
structure Orderly (b : SharedBackend) : Prop where
  store : b.store.Sound
  valid : ∀ i tx, b.tx? i = some tx → tx.Valid
  shape : ∀ k r r', b.Version k r → b.Version k r' → r.SameShape r'
  delta : ∀ i tx, b.tx? i = some tx → tx.delta = deltaBy b.history i
  begun : ∀ i, b.txs i = .notBegun → changesBy b.history i = []

theorem orderly_new {s : GraphStore} (sound : s.Sound) : (new s).Orderly where
  store := sound
  valid := by rintro i tx ⟨⟩
  shape := by
    rintro k r r' (stored | ⟨i, tx, ⟨⟩, -⟩) (stored' | ⟨i', tx', ⟨⟩, -⟩)
    have same : some r = some r' := stored.symm.trans stored'
    cases same
    exact .refl r
  delta := by rintro i tx ⟨⟩
  begun i _ := rfl

theorem Orderly.version_below (h : b.Orderly) {k : Int} {r : StoredRel} (version : b.Version k r) :
    k < b.store.nextRelId := by
  rcases version with stored | ⟨i, tx, opened, held⟩
  · exact h.store.relBelow k (BTreeMap.mem_iff_get.2 ⟨r, stored⟩)
  · exact tx?_store opened ▸ (h.valid i tx opened).holds_below held

/-- An event of one transaction: a new store, a new state of the transaction, and versions
that go back to earlier ones or to a relationship just created. -/
theorem Orderly.moves (h : b.Orderly) {b' : SharedBackend} {status : TxStatus} (later : List RecordChange)
    (txs : b'.txs = Function.update b.txs i status) (history : b'.history = b.history ++ later.map (i, ·))
    (begun : status ≠ .notBegun) (sound : b'.store.Sound) (nextNode : b.store.nextNodeId ≤ b'.store.nextNodeId)
    (nextRel : b.store.nextRelId ≤ b'.store.nextRelId)
    (own : ∀ tx, b'.tx? i = some tx → tx.Valid ∧ tx.delta = deltaBy b'.history i)
    (versions : ∀ k r, (b'.store.rels[k]? = some r ∨ ∃ tx, b'.tx? i = some tx ∧ tx.Holds k r) →
      (∃ r', b.Version k r' ∧ r.SameShape r') ∨ (b.store.nextRelId ≤ k ∧ later = [.createdRel r])) :
    b'.Orderly ∧ b.Traces b' := by
  have source : ∀ k r, b'.Version k r →
      (∃ r', b.Version k r' ∧ r.SameShape r') ∨ (b.store.nextRelId ≤ k ∧ later = [.createdRel r]) := by
    rintro k r (stored | ⟨j, tx, opened, held⟩)
    · exact versions k r (.inl stored)
    · by_cases same : j = i
      · exact versions k r (.inr ⟨tx, same ▸ opened, held⟩)
      · rw [tx?_other txs same] at opened
        obtain ⟨tx', before, rfl⟩ := Option.map_eq_some_iff.1 opened
        exact .inl ⟨r, .inr ⟨j, tx', before, held⟩, .refl r⟩
  have shape : ∀ k r r', b'.Version k r → b'.Version k r' → r.SameShape r' := by
    intro k r r' version version'
    rcases source k r version with ⟨o, old, same⟩ | ⟨fresh, created⟩
    · rcases source k r' version' with ⟨o', old', same'⟩ | ⟨fresh', -⟩
      · exact same.trans ((h.shape k o o' old old').trans same'.symm)
      · have below := h.version_below old
        omega
    · rcases source k r' version' with ⟨o', old', -⟩ | ⟨-, created'⟩
      · have below := h.version_below old'
        omega
      · have same : [RecordChange.createdRel r] = [.createdRel r'] := created.symm.trans created'
        cases same
        exact .refl r
  refine ⟨⟨sound, ?_, shape, ?_, ?_⟩, fun k r version => (source k r version).imp_right And.left⟩
  · intro j tx opened
    by_cases same : j = i
    · exact (own tx (same ▸ opened)).1
    · have there := opened
      rw [tx?_other txs same] at there
      obtain ⟨tx', before, rfl⟩ := Option.map_eq_some_iff.1 there
      have store := tx?_store before
      refine (h.valid j tx' before).moved sound (store ▸ nextNode) (store ▸ nextRel) ?_
      intro k r b' held stored
      exact shape k r b' (.inr ⟨j, _, opened, held⟩) (.inl stored)
  · intro j tx opened
    by_cases same : j = i
    · rw [same] at opened ⊢
      exact (own tx opened).2
    · rw [tx?_other txs same] at opened
      obtain ⟨tx', before, rfl⟩ := Option.map_eq_some_iff.1 opened
      rw [history, deltaBy, changesBy_append, changesBy_other _ (Ne.symm same), List.append_nil]
      exact h.delta j tx' before
  · intro j still
    by_cases same : j = i
    · rw [txs, same, Function.update_self] at still
      exact absurd still begun
    · rw [txs, Function.update_of_ne same] at still
      rw [history, changesBy_append, changesBy_other _ (Ne.symm same), List.append_nil]
      exact h.begun j still

/-- A store with the same records and counters that have grown. -/
theorem Sound_of_unchanged {s s' : GraphStore} (indexed : s'.Indexed) (sound : s.Sound) (same : s.Unchanged s') :
    s'.Sound :=
  ⟨indexed, fun k member => Int.lt_of_lt_of_le (sound.nodeBelow k (same.nodes ▸ member)) same.nextNodeId,
    fun k member => Int.lt_of_lt_of_le (sound.relBelow k (same.rels ▸ member)) same.nextRelId⟩

theorem commit_counters {tx : InMemoryTx} (valid : tx.Valid) :
    tx.commit.nextNodeId = tx.store.nextNodeId ∧ tx.commit.nextRelId = tx.store.nextRelId :=
  tx.delta.applyTo_counters valid.writtenNodeBelow valid.writtenRelBelow

/-- A relationship in the store after a commit was there before or is from the delta. -/
theorem commit_rels_source {tx : InMemoryTx} (valid : tx.Valid) {k : Int} {r : StoredRel}
    (found : tx.commit.rels[k]? = some r) : tx.delta.rels[k]? = some r ∨ tx.store.rels[k]? = some r := by
  rw [InMemoryTx.commit, TxDelta.applyTo_rels _ valid.store] at found
  rcases Option.or_eq_some_iff.1 found with written | ⟨-, stored⟩
  · exact .inl written
  · split at stored
    · cases stored
    · exact .inr (Option.filter_eq_some_iff.1 stored).1

/-- Every event keeps the invariant. -/
theorem Orderly.apply_traces (h : b.Orderly) (i : Nat) (e : TxEvent) :
    (b.apply (i, e)).Orderly ∧ b.Traces (b.apply (i, e)) := by
  rcases b.apply_cases i e with same | ⟨-, fresh, after⟩ | ⟨tx, opened, ⟨step, -, after⟩ | ⟨-, after⟩ | ⟨-, after⟩⟩
  · rw [same]
    exact ⟨h, .refl b⟩
  · rw [after]
    refine h.moves [] rfl (by simp) (by simp) h.store (Int.le_refl _) (Int.le_refl _) ?_ ?_
    · intro tx opened
      obtain ⟨copy, delta, ⟨⟩, rfl⟩ := tx?_own rfl opened
      refine ⟨InMemoryTx.valid_new h.store, ?_⟩
      rw [deltaBy, h.begun i fresh]
      rfl
    · rintro k r (stored | ⟨tx, opened, held⟩)
      · exact .inl ⟨r, .inl stored, .refl r⟩
      · obtain ⟨copy, delta, ⟨⟩, rfl⟩ := tx?_own rfl opened
        rcases held with written | ⟨w, ⟨⟩, -⟩
        simp at written
  · have valid := h.valid i tx opened
    have there := tx?_store opened
    have unchanged := tx.advance_unchanged step
    rw [there] at unchanged
    rw [after]
    refine h.moves _ rfl rfl (by simp) (Sound_of_unchanged (valid.advance step).store h.store unchanged)
      unchanged.nextNodeId unchanged.nextRelId ?_ ?_
    · intro tx' opened'
      obtain ⟨copy, delta, ⟨⟩, rfl⟩ := tx?_own rfl opened'
      refine ⟨valid.advance step, ?_⟩
      dsimp only
      rw [valid.advance_delta step, h.delta i tx opened, deltaBy, deltaBy, changesBy_append, changesBy_own,
        List.foldl_append]
    · rintro k r (stored | ⟨tx', opened', held⟩)
      · exact .inl ⟨r, .inl (unchanged.rels ▸ stored), .refl r⟩
      · obtain ⟨copy, delta, ⟨⟩, rfl⟩ := tx?_own rfl opened'
        rcases valid.advance_holds held with ⟨r', source, same⟩ | ⟨rfl, created⟩
        · exact .inl ⟨r', source.imp (fun stored => there ▸ stored) fun held => ⟨i, tx, opened, held⟩, same⟩
        · exact .inr ⟨Int.le_of_eq (by rw [there]), created⟩
  · have valid := h.valid i tx opened
    have there := tx?_store opened
    obtain ⟨nextNode, nextRel⟩ := commit_counters valid
    rw [there] at nextNode nextRel
    rw [after]
    refine h.moves [] rfl (by simp) (by simp) valid.commit (Int.le_of_eq nextNode.symm)
      (Int.le_of_eq nextRel.symm) ?_ ?_
    · intro tx' opened'
      obtain ⟨copy, delta, ⟨⟩, -⟩ := tx?_own rfl opened'
    · rintro k r (found | ⟨tx', opened', -⟩)
      · rcases commit_rels_source valid found with written | stored
        · exact .inl ⟨r, .inr ⟨i, tx, opened, .inl written⟩, .refl r⟩
        · exact .inl ⟨r, .inl (there ▸ stored), .refl r⟩
      · obtain ⟨copy, delta, ⟨⟩, -⟩ := tx?_own rfl opened'
  · have there : tx.rollback = b.store := tx?_store opened
    rw [after, there]
    refine h.moves [] rfl (by simp) (by simp) h.store (Int.le_refl _) (Int.le_refl _) ?_ ?_
    · intro tx' opened'
      obtain ⟨copy, delta, ⟨⟩, -⟩ := tx?_own rfl opened'
    · rintro k r (stored | ⟨tx', opened', -⟩)
      · exact .inl ⟨r, .inl stored, .refl r⟩
      · obtain ⟨copy, delta, ⟨⟩, -⟩ := tx?_own rfl opened'

theorem Orderly.apply (h : b.Orderly) (i : Nat) (e : TxEvent) : (b.apply (i, e)).Orderly := (h.apply_traces i e).1

theorem Orderly.run (h : b.Orderly) (events : List (Nat × TxEvent)) : (b.run events).Orderly := by
  induction events generalizing b with
  | nil => exact h
  | cons e events ih => exact ih (h.apply e.1 e.2)

end SharedBackend

/-! ## Ids -/

/-- Ids handed out in turn by a counter that goes from `first` to `next`. -/
structure HandedOut (first next : Int) (ids : List Int) : Prop where
  grows : first ≤ next
  ascending : ids.Pairwise (· < ·)
  between : ∀ id ∈ ids, first ≤ id ∧ id < next

theorem HandedOut.none {first next : Int} (grows : first ≤ next) : HandedOut first next [] := ⟨grows, .nil, by simp⟩

theorem HandedOut.append {first middle next : Int} {ids later : List Int} (h : HandedOut first middle ids)
    (h' : HandedOut middle next later) : HandedOut first next (ids ++ later) where
  grows := Int.le_trans h.grows h'.grows
  ascending := by
    refine List.pairwise_append.2 ⟨h.ascending, h'.ascending, fun a early b late => ?_⟩
    have first := h.between a early
    have second := h'.between b late
    omega
  between id member := by
    have up := h.grows
    have up' := h'.grows
    rcases List.mem_append.1 member with early | late
    · have := h.between id early
      omega
    · have := h'.between id late
      omega

namespace InMemoryTx

end InMemoryTx

namespace SharedBackend

end SharedBackend
