import Grm.Runtime.Requests

/-!
# Replaying a log over its own effects

A log whose steps led from a base to a durable part is replayed over that part. Nodes,
counters and catalog come out as they were, since every entry writes what the part
already has or what a later entry writes again, and ids are not reused. A relationship
does not always: one the log writes and a node deletion of the log took away comes back
unless the log deletes it by itself, or also writes one of its deleted ends, which then
is there to be deleted again.
-/

open Std

set_option autoImplicit false

/-! ## What admissible steps only add to -/

/-- Counters and catalogs grow, and an id below its counter that is free stays free. -/
structure Grows (d d' : PersistedSession) : Prop where
  nextNode : d.graph.nextNodeId ≤ d'.graph.nextNodeId
  nextRel : d.graph.nextRelId ≤ d'.graph.nextRelId
  nodeModels : ∀ name ∈ d.catalog.nodeModels, name ∈ d'.catalog.nodeModels
  relModels : ∀ name ∈ d.catalog.relModels, name ∈ d'.catalog.relModels
  nodeGone : ∀ k, k < d.graph.nextNodeId → k ∉ d.graph.nodes → k ∉ d'.graph.nodes
  relGone : ∀ k, k < d.graph.nextRelId → k ∉ d.graph.rels → k ∉ d'.graph.rels

namespace Grows
variable {d d' d'' : PersistedSession}

theorem refl (d : PersistedSession) : Grows d d :=
  ⟨Int.le_refl _, Int.le_refl _, fun _ => id, fun _ => id, fun _ _ => id, fun _ _ => id⟩

theorem trans (first : Grows d d') (second : Grows d' d'') : Grows d d'' where
  nextNode := Int.le_trans first.nextNode second.nextNode
  nextRel := Int.le_trans first.nextRel second.nextRel
  nodeModels name member := second.nodeModels name (first.nodeModels name member)
  relModels name member := second.relModels name (first.relModels name member)
  nodeGone k below free := second.nodeGone k (Int.lt_of_lt_of_le below first.nextNode) (first.nodeGone k below free)
  relGone k below free := second.relGone k (Int.lt_of_lt_of_le below first.nextRel) (first.relGone k below free)

/-- A node written under the next id, or under one in use. -/
theorem putNode (d : PersistedSession) {node : StoredNode}
    (fresh : node.id = d.graph.nextNodeId ∨ node.id ∈ d.graph.nodes) :
    Grows d { d with graph := d.graph.putNode node } where
  nextNode := by show _ ≤ max _ _; omega
  nextRel := Int.le_refl _
  nodeModels _ := id
  relModels _ := id
  nodeGone k below free member := by
    rcases BTreeMap.mem_insert.1 member with rfl | old
    · rcases fresh with next | used
      · omega
      · exact free used
    · exact free old
  relGone _ _ := id

/-- A relationship written under the next id, or under one in use. -/
theorem putRel (d : PersistedSession) {rel : StoredRel}
    (fresh : rel.id = d.graph.nextRelId ∨ rel.id ∈ d.graph.rels) :
    Grows d { d with graph := d.graph.putRel rel } where
  nextNode := Int.le_refl _
  nextRel := by show _ ≤ max _ _; omega
  nodeModels _ := id
  relModels _ := id
  nodeGone _ _ := id
  relGone k below free member := by
    rcases BTreeMap.mem_insert.1 member with rfl | old
    · rcases fresh with next | used
      · omega
      · exact free used
    · exact free old

theorem dropNode (d : PersistedSession) (id : Int) : Grows d { d with graph := d.graph.dropNode id } where
  nextNode := Int.le_of_eq (PersistedGraphStore.dropNode_nextNodeId _ _).symm
  nextRel := Int.le_of_eq (PersistedGraphStore.dropNode_nextRelId _ _).symm
  nodeModels _ := fun member => member
  relModels _ := fun member => member
  nodeGone k below free := by
    rw [PersistedGraphStore.dropNode_nodes]
    exact fun member => free (BTreeMap.mem_erase.1 member).2
  relGone k below free := by
    rw [BTreeMap.not_mem_iff_get] at free ⊢
    rw [PersistedGraphStore.dropNode_rels, free]
    split <;> rfl

theorem dropRel (d : PersistedSession) (id : Int) : Grows d { d with graph := d.graph.dropRel id } where
  nextNode := Int.le_refl _
  nextRel := Int.le_refl _
  nodeModels _ := fun member => member
  relModels _ := fun member => member
  nodeGone _ _ := fun member => member
  relGone _ _ free member := free (BTreeMap.mem_erase.1 member).2

end Grows

/-! ## What a state shows of an entry behind it -/

/-- The entry is one the state may have behind it: what it registered is known, what it
wrote is below the counter, what it deleted is gone. -/
def Shown (d : PersistedSession) : DurableOperation → Prop
  | .registerNodeModel model => model.name ∈ d.catalog.nodeModels
  | .registerRelModel model => model.name ∈ d.catalog.relModels
  | .upsertNode node => node.id < d.graph.nextNodeId
  | .deleteNode id => id < d.graph.nextNodeId ∧ id ∉ d.graph.nodes
  | .upsertRel rel => rel.id < d.graph.nextRelId
  | .deleteRel id => id < d.graph.nextRelId ∧ id ∉ d.graph.rels
  | .batch _ => False

theorem Shown.grows {d d' : PersistedSession} {op : DurableOperation} (shown : Shown d op) (grows : Grows d d') :
    Shown d' op := by
  cases op with
  | registerNodeModel model => exact grows.nodeModels _ shown
  | registerRelModel model => exact grows.relModels _ shown
  | upsertNode node => exact Int.lt_of_lt_of_le shown grows.nextNode
  | deleteNode id => exact ⟨Int.lt_of_lt_of_le shown.1 grows.nextNode, grows.nodeGone id shown.1 shown.2⟩
  | upsertRel rel => exact Int.lt_of_lt_of_le shown grows.nextRel
  | deleteRel id => exact ⟨Int.lt_of_lt_of_le shown.1 grows.nextRel, grows.relGone id shown.1 shown.2⟩
  | batch ops => exact shown

section Steps
variable [Externals] {d d' memory : PersistedSession} {op : DurableOperation} {ops : List DurableOperation}

/-- One admissible step: the state grows and shows the entry. -/
theorem Admissible.grows_shown (admissible : Admissible d op) (h : Conformant d) (replays : d.replay op = .ok d') :
    Grows d d' ∧ Shown d' op := by
  cases admissible with
  | @defineNode model checked fresh =>
    rw [PersistedSession.replay, SessionModelCatalog.ensureNodeModel_fresh fresh] at replays
    cases replays
    refine ⟨{ Grows.refl d with nodeModels := fun name member => ?_ }, BTreeMap.mem_insert.2 (.inl rfl)⟩
    exact BTreeMap.mem_insert.2 (.inr member)
  | @defineEdge model checked source target fresh =>
    rw [PersistedSession.replay, SessionModelCatalog.ensureRelModel_fresh fresh] at replays
    cases replays
    refine ⟨{ Grows.refl d with relModels := fun name member => ?_ }, BTreeMap.mem_insert.2 (.inl rfl)⟩
    exact BTreeMap.mem_insert.2 (.inr member)
  | @createNode name model node registered id labels conforms =>
    cases replays
    exact ⟨.putNode d (.inl id), by show _ < max _ _; omega⟩
  | @updateNode name model old updates registered stored labelled declared =>
    cases replays
    exact ⟨.putNode d (.inr (BTreeMap.mem_iff_get.2 ⟨old, stored⟩)), by show _ < max _ _; omega⟩
  | @deleteNode id stored =>
    cases replays
    obtain ⟨node, found⟩ := BTreeMap.mem_iff_get.1 stored
    refine ⟨.dropNode d id, ?_, ?_⟩
    · rw [PersistedGraphStore.dropNode_nextNodeId]
      exact (h.node id node found).2.1
    · rw [PersistedGraphStore.dropNode_nodes]
      exact fun member => (BTreeMap.mem_erase.1 member).1 rfl
  | @createRel name model rel registered id type source target conforms =>
    cases replays
    exact ⟨.putRel d (.inl id), by show _ < max _ _; omega⟩
  | @updateRel name model old updates registered stored type declared =>
    cases replays
    exact ⟨.putRel d (.inr (BTreeMap.mem_iff_get.2 ⟨old, stored⟩)), by show _ < max _ _; omega⟩
  | @deleteRel id stored =>
    cases replays
    obtain ⟨rel, found⟩ := BTreeMap.mem_iff_get.1 stored
    exact ⟨.dropRel d id, (h.rel id rel found).2.1, fun member => (BTreeMap.mem_erase.1 member).1 rfl⟩

/-- The step an admissible entry takes keeps conformance. -/
theorem Admissible.conformant (admissible : Admissible d op) (h : Conformant d) (replays : d.replay op = .ok d') :
    Conformant d' := by
  obtain ⟨after, replayed, kept⟩ := admissible.keeps h
  rw [replays] at replayed
  cases replayed
  exact kept

theorem Steps.grows (steps : Steps d ops d') (h : Conformant d) : Grows d d' := by
  induction steps with
  | nil d => exact .refl d
  | cons admissible replays _ ih =>
    exact (admissible.grows_shown h replays).1.trans (ih (admissible.conformant h replays))

/-- The end of the steps shows each of them. -/
theorem Steps.shown (steps : Steps d ops d') (h : Conformant d) (member : op ∈ ops) : Shown d' op := by
  induction steps with
  | nil d => cases member
  | cons admissible replays rest ih =>
    have kept := admissible.conformant h replays
    rcases List.mem_cons.1 member with rfl | later
    · exact (admissible.grows_shown h replays).2.grows (rest.grows kept)
    · exact ih kept later

/-- Some entry writes the node. -/
def Upserts (ops : List DurableOperation) (id : Int) : Prop := ∃ node, .upsertNode node ∈ ops ∧ node.id = id

/-- A node that is gone is not written again. -/
theorem Steps.not_upserts (steps : Steps d ops d') (h : Conformant d) {id : Int} (below : id < d.graph.nextNodeId)
    (gone : id ∉ d.graph.nodes) : ¬ Upserts ops id := by
  induction steps with
  | nil d => exact fun ⟨_, member, _⟩ => nomatch member
  | @cons d d' d'' op ops admissible replays rest ih =>
    have grows := (admissible.grows_shown h replays).1
    rintro ⟨node, member, same⟩
    rcases List.mem_cons.1 member with rfl | later
    · cases admissible with
      | createNode registered fresh => omega
      | updateNode registered stored => exact gone (same ▸ BTreeMap.mem_iff_get.2 ⟨_, stored⟩)
    · exact ih (admissible.conformant h replays) (Int.lt_of_lt_of_le below grows.nextNode) (grows.nodeGone id below gone)
        ⟨node, later, same⟩

end Steps

/-! ## The records while the log is replayed a second time -/

/-- Every relationship that the log writes and that loses an end in the log is deleted by
an entry of its own, or has an end that the log writes and deletes. -/
def Settled (log : List DurableOperation) : Prop :=
  ∀ rel, .upsertRel rel ∈ log → ∀ id, rel.touches id = true → .deleteNode id ∈ log →
    .deleteRel rel.id ∈ log ∨ ∃ other, rel.touches other = true ∧ .deleteNode other ∈ log ∧ Upserts log other

/-- An entry to come takes the relationship away. -/
def Pending (log ops : List DurableOperation) (k : Int) (rel : StoredRel) : Prop :=
  .deleteRel k ∈ ops ∨ ∃ other, rel.touches other = true ∧ .deleteNode other ∈ ops ∧ Upserts log other

theorem Pending.tail {log ops : List DurableOperation} {op : DurableOperation} {k : Int} {rel : StoredRel}
    (pending : Pending log (op :: ops) k rel) (notRel : op ≠ .deleteRel k)
    (notNode : ∀ other, rel.touches other = true → Upserts log other → op ≠ .deleteNode other) :
    Pending log ops k rel := by
  rcases pending with member | ⟨other, touches, member, upserts⟩
  · exact .inl (List.mem_of_ne_of_mem notRel.symm member)
  · exact .inr ⟨other, touches, List.mem_of_ne_of_mem (notNode other touches upserts).symm member, upserts⟩

theorem Upserts.tail {ops : List DurableOperation} {op : DurableOperation} {k : Int} (upserts : Upserts (op :: ops) k)
    (notHere : ∀ node, op = .upsertNode node → node.id ≠ k) : Upserts ops k := by
  obtain ⟨node, member, same⟩ := upserts
  rcases List.mem_cons.1 member with here | later
  · exact absurd same (notHere node here.symm)
  · exact ⟨node, later, same⟩

/-- The records `e` of the second replay, the records `d` of the first at the same entry,
and the records `memory` of its end. An entry behind has made the two agree, or has left
what the end has; a relationship the first has lost may still be there for an entry to
come. -/
structure Redoes (log ops : List DurableOperation) (memory d e : PersistedGraphStore) : Prop where
  nextNode : e.nextNodeId = memory.nextNodeId
  nextRel : e.nextRelId = memory.nextRelId
  node : ∀ k : Int, e.nodes[k]? = d.nodes[k]? ∨
    e.nodes[k]? = memory.nodes[k]? ∧ (Upserts log k → Upserts ops k)
  rel : ∀ k : Int, e.rels[k]? = memory.rels[k]? ∨
    (e.rels[k]? = d.rels[k]? ∧ ∀ r, d.rels[k]? = some r → .upsertRel r ∈ log) ∨
    (d.rels[k]? = none ∧ ∃ r, e.rels[k]? = some r ∧ Pending log ops k r)

namespace Redoes
variable {log ops : List DurableOperation} {memory d e : PersistedGraphStore}

/-- An entry that writes no record. -/
theorem skip {op : DurableOperation} (h : Redoes log (op :: ops) memory d e) (notUpsert : ∀ node, op ≠ .upsertNode node)
    (notDelete : ∀ id, op ≠ .deleteNode id) (notRel : ∀ id, op ≠ .deleteRel id) : Redoes log ops memory d e where
  nextNode := h.nextNode
  nextRel := h.nextRel
  node k := by
    refine (h.node k).imp_right fun later => ⟨later.1, fun upserts => ?_⟩
    exact (later.2 upserts).tail fun node here => absurd here (notUpsert node)
  rel k := by
    refine (h.rel k).imp_right fun later => later.imp_right fun kept => ?_
    obtain ⟨lost, r, found, pending⟩ := kept
    exact ⟨lost, r, found, pending.tail (notRel k) fun other _ _ => notDelete other⟩

theorem putNode {node : StoredNode} (h : Redoes log (.upsertNode node :: ops) memory d e)
    (below : node.id < memory.nextNodeId) : Redoes log ops memory (d.putNode node) (e.putNode node) where
  nextNode := by
    show max e.nextNodeId (node.id + 1) = _
    have same := h.nextNode
    omega
  nextRel := h.nextRel
  node k := by
    simp only [PersistedGraphStore.putNode, BTreeMap.get_insert]
    split
    case isTrue => exact .inl rfl
    case isFalse other =>
      refine (h.node k).imp_right fun later => ⟨later.1, fun upserts => (later.2 upserts).tail ?_⟩
      intro _ here
      cases here
      exact other
  rel k := by
    refine (h.rel k).imp_right fun later => later.imp_right fun kept => ?_
    obtain ⟨lost, r, found, pending⟩ := kept
    refine ⟨lost, r, found, pending.tail ?_ ?_⟩
    · intro here
      cases here
    · intro _ _ _ here
      cases here

theorem putRel {rel : StoredRel} (h : Redoes log (.upsertRel rel :: ops) memory d e) (member : .upsertRel rel ∈ log)
    (below : rel.id < memory.nextRelId) : Redoes log ops memory (d.putRel rel) (e.putRel rel) where
  nextNode := h.nextNode
  nextRel := by
    show max e.nextRelId (rel.id + 1) = _
    have same := h.nextRel
    omega
  node k := by
    refine (h.node k).imp_right fun later => ⟨later.1, fun upserts => (later.2 upserts).tail ?_⟩
    intro _ here
    cases here
  rel k := by
    simp only [PersistedGraphStore.putRel, BTreeMap.get_insert]
    split
    case isTrue =>
      refine .inr (.inl ⟨rfl, ?_⟩)
      intro r same
      cases same
      exact member
    case isFalse =>
      refine (h.rel k).imp_right fun later => later.imp_right fun kept => ?_
      obtain ⟨lost, r, found, pending⟩ := kept
      refine ⟨lost, r, found, pending.tail ?_ ?_⟩
      · intro here
        cases here
      · intro _ _ _ here
        cases here

theorem dropRel {id : Int} (h : Redoes log (.deleteRel id :: ops) memory d e) :
    Redoes log ops memory (d.dropRel id) (e.dropRel id) where
  nextNode := h.nextNode
  nextRel := h.nextRel
  node k := by
    refine (h.node k).imp_right fun later => ⟨later.1, fun upserts => (later.2 upserts).tail ?_⟩
    intro _ here
    cases here
  rel k := by
    simp only [PersistedGraphStore.dropRel, BTreeMap.get_erase]
    split
    case isTrue =>
      refine .inr (.inl ⟨rfl, ?_⟩)
      intro r same
      cases same
    case isFalse other =>
      refine (h.rel k).imp_right fun later => later.imp_right fun kept => ?_
      obtain ⟨lost, r, found, pending⟩ := kept
      refine ⟨lost, r, found, pending.tail ?_ ?_⟩
      · intro here
        cases here
        exact other rfl
      · intro _ _ _ here
        cases here

/-- A node deleted for the second time is there again exactly when the log wrote it. -/
theorem present {id : Int} (h : Redoes log (.deleteNode id :: ops) memory d e) (stored : id ∈ d.nodes)
    (notLater : ¬ Upserts ops id) (upserts : Upserts log id) : id ∈ e.nodes := by
  rcases h.node id with same | ⟨-, still⟩
  · obtain ⟨node, found⟩ := BTreeMap.mem_iff_get.1 stored
    exact BTreeMap.mem_iff_get.2 ⟨node, same.trans found⟩
  · exact absurd ((still upserts).tail nofun) notLater

theorem dropNode {id : Int} (h : Redoes log (.deleteNode id :: ops) memory d e) (settled : Settled log)
    (member : .deleteNode id ∈ log) (stored : id ∈ d.nodes) (gone : id ∉ memory.nodes) (notLater : ¬ Upserts ops id)
    (memoryEnds : ∀ (k : Int) r, memory.rels[k]? = some r → ∀ end', r.touches end' = true → end' ∈ memory.nodes)
    (ends : ∀ (k : Int) r, d.rels[k]? = some r → r.id = k ∧ ∀ end', r.touches end' = true → end' ∈ d.nodes)
    (nodesBehind : ∀ other, .deleteNode other ∈ log → .deleteNode other ∈ .deleteNode id :: ops ∨ other ∉ d.nodes)
    (relsBehind : ∀ k, .deleteRel k ∈ log → .deleteRel k ∈ ops ∨ k ∉ d.rels) :
    Redoes log ops memory (d.dropNode id) (e.dropNode id) where
  nextNode := (PersistedGraphStore.dropNode_nextNodeId e id).trans h.nextNode
  nextRel := (PersistedGraphStore.dropNode_nextRelId e id).trans h.nextRel
  node k := by
    simp only [PersistedGraphStore.dropNode_nodes, BTreeMap.get_erase]
    split
    case isTrue => exact .inl rfl
    case isFalse =>
      exact (h.node k).imp_right fun ⟨same, still⟩ => ⟨same, fun upserts => (still upserts).tail nofun⟩
  rel k := by
    rw [PersistedGraphStore.dropNode_rels, PersistedGraphStore.dropNode_rels, if_pos stored]
    rcases h.rel k with same | ⟨same, written⟩ | ⟨lost, r, found, pending⟩
    · -- what the end has does not touch a node the end lacks
      refine .inl ?_
      rw [same]
      split
      case isFalse => rfl
      case isTrue =>
        cases found : memory.rels[k]? with
        | none => rfl
        | some r =>
          cases touches : r.touches id with
          | false => simp [touches]
          | true => exact absurd (memoryEnds k r found id touches) gone
    · rw [same]
      cases found : d.rels[k]? with
      | none => exact .inr (.inl ⟨by split <;> rfl, nofun⟩)
      | some r =>
        obtain ⟨own, both⟩ := ends k r found
        cases touches : r.touches id with
        | false =>
          have kept : (some r).filter (fun rel => !rel.touches id) = some r := by simp [touches]
          rw [kept, ite_self]
          exact .inr (.inl ⟨rfl, fun r' here => written r' (found.trans here)⟩)
        | true =>
          by_cases again : id ∈ e.nodes
          · exact .inr (.inl ⟨if_pos again, by simp [touches]⟩)
          · -- the deletion does nothing the second time, so a later entry has to
            refine .inr (.inr ⟨by simp [touches], r, if_neg again, ?_⟩)
            rcases settled r (written r found) id touches member with deleted | ⟨other, atOther, deleted, upserts⟩
            · rw [own] at deleted
              rcases relsBehind k deleted with later | absent
              · exact .inl later
              · exact absurd (BTreeMap.mem_iff_get.2 ⟨r, found⟩) absent
            · have apart : other ≠ id := by
                rintro rfl
                exact again (h.present stored notLater upserts)
              rcases nodesBehind other deleted with later | absent
              · refine .inr ⟨other, atOther, List.mem_of_ne_of_mem ?_ later, upserts⟩
                rintro ⟨⟩
                exact apart rfl
              · exact absurd (both other atOther) absent
    · rw [lost, found]
      by_cases again : id ∈ e.nodes ∧ r.touches id = true
      · exact .inr (.inl ⟨by rw [if_pos again.1]; simp [again.2], nofun⟩)
      · refine .inr (.inr ⟨rfl, r, ?_, pending.tail nofun ?_⟩)
        · split
          case isFalse => rfl
          case isTrue here =>
            have apart : r.touches id = false := by simpa [here] using again
            simp [apart]
        · rintro other touches upserts ⟨⟩
          exact again ⟨h.present stored notLater upserts, touches⟩

end Redoes

/-! ## The whole log -/

section Replay
variable [Externals] {log ops : List DurableOperation} {op : DurableOperation} {memory d d' e : PersistedSession}

/-- A place in the first run of the log: the steps from here to its end, and what is
behind. -/
structure Position (log ops : List DurableOperation) (memory d : PersistedSession) : Prop where
  steps : Steps d ops memory
  conformant : Conformant d
  within : ∀ op ∈ ops, op ∈ log
  behind : ∀ op ∈ log, op ∈ ops ∨ Shown d op

theorem Position.next (here : Position log (op :: ops) memory d) (admissible : Admissible d op)
    (replays : d.replay op = .ok d') (rest : Steps d' ops memory) : Position log ops memory d' where
  steps := rest
  conformant := admissible.conformant here.conformant replays
  within later member := here.within later (List.mem_cons_of_mem _ member)
  behind entry member := by
    obtain ⟨grows, shown⟩ := admissible.grows_shown here.conformant replays
    rcases here.behind entry member with ahead | before
    · rcases List.mem_cons.1 ahead with rfl | later
      · exact .inr shown
      · exact .inl later
    · exact .inr (before.grows grows)

/-- Both ends of a stored relationship exist. -/
theorem Conformant.ends (h : Conformant d) {k : Int} {r : StoredRel} (found : d.graph.rels[k]? = some r) {id : Int}
    (touches : r.touches id = true) : id ∈ d.graph.nodes := by
  obtain ⟨-, -, model, -, ⟨source, fromFound, -⟩, ⟨target, toFound, -⟩, -⟩ := h.rel k r found
  have either : r.fromId = id ∨ r.toId = id := by simpa [StoredRel.touches] using touches
  rcases either with rfl | rfl
  · exact BTreeMap.mem_iff_get.2 ⟨source, fromFound⟩
  · exact BTreeMap.mem_iff_get.2 ⟨target, toFound⟩

/-- One entry replayed a second time. -/
theorem Position.redo (settled : Settled log) (here : Position log (op :: ops) memory d)
    (catalog : e.catalog = memory.catalog) (records : Redoes log (op :: ops) memory.graph d.graph e.graph) :
    ∃ d' e', e.replay op = .ok e' ∧ Position log ops memory d' ∧ e'.catalog = memory.catalog ∧
      Redoes log ops memory.graph d'.graph e'.graph := by
  have shown : Shown memory op := here.steps.shown here.conformant List.mem_cons_self
  obtain ⟨d', admissible, replays, rest⟩ := here.steps.of_cons
  have next := here.next admissible replays rest
  have mine : op ∈ log := here.within op List.mem_cons_self
  refine ⟨d', ?_⟩
  cases op with
  | registerNodeModel model =>
    have known : model.name ∈ e.catalog.nodeModels := catalog ▸ shown
    obtain ⟨catalog', -, rfl⟩ := GrmResult.map_eq_ok.1 replays
    refine ⟨e, ?_, next, catalog, records.skip ?_ ?_ ?_⟩
    case refine_2 => intro _ same; cases same
    case refine_3 => intro _ same; cases same
    case refine_4 => intro _ same; cases same
    rw [PersistedSession.replay, SessionModelCatalog.ensureNodeModel, if_neg (SessionModelCatalog.mem_nodeModels.1 known)]
    rfl
  | registerRelModel model =>
    have known : model.name ∈ e.catalog.relModels := catalog ▸ shown
    obtain ⟨catalog', -, rfl⟩ := GrmResult.map_eq_ok.1 replays
    refine ⟨e, ?_, next, catalog, records.skip ?_ ?_ ?_⟩
    case refine_2 => intro _ same; cases same
    case refine_3 => intro _ same; cases same
    case refine_4 => intro _ same; cases same
    rw [PersistedSession.replay, SessionModelCatalog.ensureRelModel, if_neg (SessionModelCatalog.mem_relModels.1 known)]
    rfl
  | upsertNode node =>
    cases replays
    exact ⟨_, rfl, next, catalog, records.putNode shown⟩
  | upsertRel rel =>
    cases replays
    exact ⟨_, rfl, next, catalog, records.putRel mine shown⟩
  | deleteRel id =>
    cases replays
    exact ⟨_, rfl, next, catalog, records.dropRel⟩
  | deleteNode id =>
    cases replays
    have stored : id ∈ d.graph.nodes := by cases admissible; assumption
    have after : Shown _ (.deleteNode id) := (admissible.grows_shown here.conformant rfl).2
    refine ⟨_, rfl, next, catalog, records.dropNode settled mine stored shown.2
      (rest.not_upserts next.conformant after.1 after.2) ?_ ?_ ?_ ?_⟩
    · exact fun k r found _ => (here.steps.conformant here.conformant).ends found
    · exact fun k r found => ⟨(here.conformant.rel k r found).1, fun _ => here.conformant.ends found⟩
    · exact fun other deleted => (here.behind _ deleted).imp_right And.right
    · intro k deleted
      rcases here.behind _ deleted with ahead | before
      · rcases List.mem_cons.1 ahead with here | later
        · cases here
        · exact .inl later
      · exact .inr before.2
  | batch ops => cases admissible

theorem Position.redoAll (settled : Settled log) (here : Position log ops memory d)
    (catalog : e.catalog = memory.catalog) (records : Redoes log ops memory.graph d.graph e.graph) :
    e.replayAll ops = .ok memory := by
  induction ops generalizing d e with
  | nil =>
    obtain rfl := here.steps.of_nil
    refine congrArg Except.ok (PersistedSession.ext (PersistedGraphStore.ext ?_ ?_ ?_ ?_) catalog)
    · exact records.nextNode
    · exact records.nextRel
    · exact BTreeMap.ext_get fun k => (records.node k).elim id And.left
    · apply BTreeMap.ext_get
      intro k
      rcases records.rel k with same | ⟨same, -⟩ | ⟨-, r, -, pending⟩
      · exact same
      · exact same
      · rcases pending with ahead | ⟨_, -, ahead, -⟩ <;> cases ahead
  | cons op ops ih =>
    obtain ⟨d', e', replays, next, catalog', records'⟩ := here.redo settled catalog records
    rw [PersistedSession.replayAll, replays]
    exact ih next catalog' records'

/-- A settled log replayed over the durable part it led to changes nothing. -/
theorem Steps.redo_settled {base : PersistedSession} (steps : Steps base log memory) (h : Conformant base)
    (settled : Settled log) : memory.replayAll log = .ok memory := by
  refine Position.redoAll settled ⟨steps, h, fun _ => id, fun _ => .inl⟩ rfl ⟨rfl, rfl, fun k => ?_, fun k => .inl rfl⟩
  exact .inr ⟨rfl, id⟩

end Replay
