import Grm.Backend.Snapshot
import Grm.Backend.StoreIndex

/-!
# Relationship lookups

`snapshot_relationships_filtered` starts from an id, from one of the adjacency indexes or
from the type index. On a store whose indexes are those of its records every choice gives
the scan of the records by ascending id.
-/

open Std

set_option autoImplicit false

namespace GraphStore

/-- The index a relationship lookup starts from lists every candidate, so the lookup is a scan. -/
theorem Indexed.mem_snapshotRelationshipsFiltered {s : GraphStore} (h : s.Indexed) {relType : String}
    {id fromId toId : Option Int} {rel : StoredRel} :
    rel ∈ s.snapshotRelationshipsFiltered relType id fromId toId ↔
      s.rels[rel.id]? = some rel ∧ relSelected relType fromId toId rel = true ∧ ∀ own, id = some own → rel.id = own := by
  unfold snapshotRelationshipsFiltered
  cases id with
  | some id =>
    dsimp only
    rw [Option.mem_toList, Option.filter_eq_some_iff]
    constructor
    · intro ⟨found, selected⟩
      have own := h.relId id rel found
      subst own
      exact ⟨found, selected, fun _ same => Option.some.inj same⟩
    · intro ⟨found, selected, asked⟩
      have own := asked id rfl
      subst own
      exact ⟨found, selected⟩
  | none =>
    have scan : ∀ {ids : List Int}, (relSelected relType fromId toId rel = true → s.rels[rel.id]? = some rel → rel.id ∈ ids) →
        (rel ∈ (ids.filterMap fun id => s.rels[id]?).filter (relSelected relType fromId toId) ↔
          s.rels[rel.id]? = some rel ∧ relSelected relType fromId toId rel = true ∧
            ∀ own, (none : Option Int) = some own → rel.id = own) := by
      intro ids listed
      rw [List.mem_filter, List.mem_filterMap]
      constructor
      · rintro ⟨⟨id, -, found⟩, selected⟩
        have own := h.relId id rel found
        subst own
        exact ⟨found, selected, nofun⟩
      · rintro ⟨found, selected, -⟩
        exact ⟨⟨rel.id, listed selected found, found⟩, selected⟩
    have parts : relSelected relType fromId toId rel = true →
        rel.relType = relType ∧ (∀ id, fromId = some id → rel.fromId = id) ∧ ∀ id, toId = some id → rel.toId = id := by
      intro selected
      simpa [relSelected, Option.all_eq_true, and_assoc] using selected
    have outgoing : ∀ {source : Int}, fromId = some source → relSelected relType fromId toId rel = true →
        s.rels[rel.id]? = some rel → rel.id ∈ s.outgoingRelationshipIds source (some relType) := by
      intro source same selected found
      obtain ⟨type, sources, -⟩ := parts selected
      exact h.outgoing.mem_ids.2 ⟨rel, found, by simp [type, sources source same]⟩
    have incoming : ∀ {target : Int}, toId = some target → relSelected relType fromId toId rel = true →
        s.rels[rel.id]? = some rel → rel.id ∈ s.incomingRelationshipIds target (some relType) := by
      intro target same selected found
      obtain ⟨type, -, targets⟩ := parts selected
      exact h.incoming.mem_ids.2 ⟨rel, found, by simp [type, targets target same]⟩
    have typed : relSelected relType fromId toId rel = true → s.rels[rel.id]? = some rel →
        rel.id ∈ s.relationshipIdsByType relType := by
      intro selected found
      exact h.types.mem_ids.2 ⟨rel, found, by simp [(parts selected).1]⟩
    cases sources : fromId with
    | none =>
      cases targets : toId with
      | none => rw [sources, targets] at scan typed; exact scan typed
      | some target => rw [targets] at scan incoming; rw [sources] at scan incoming; exact scan (incoming rfl)
    | some source =>
      cases targets : toId with
      | none => rw [targets] at scan outgoing; rw [sources] at scan outgoing; exact scan (outgoing rfl)
      | some target =>
        rw [sources, targets] at scan outgoing incoming
        dsimp only
        split
        · exact scan (outgoing rfl)
        · exact scan (incoming rfl)

/-- Ids that ascend give records that do. -/
theorem Indexed.ascending_records {s : GraphStore} (h : s.Indexed) {ids : List Int}
    (ascending : ids.Pairwise fun a b => compare a b = .lt) :
    (ids.filterMap fun id => s.rels[id]?).Pairwise fun a b => a.id < b.id := by
  rw [List.pairwise_filterMap]
  refine ascending.imp fun {i j} less a foundA b foundB => ?_
  rw [h.relId i a foundA, h.relId j b foundB]
  exact compare_lt_iff_lt.1 less

/-- The relationships of a lookup are in ascending id order. -/
theorem Indexed.ascending_snapshotRelationshipsFiltered {s : GraphStore} (h : s.Indexed) (relType : String)
    (id fromId toId : Option Int) :
    (s.snapshotRelationshipsFiltered relType id fromId toId).Pairwise fun a b => a.id < b.id := by
  unfold snapshotRelationshipsFiltered
  cases id with
  | some id =>
    dsimp only
    cases (s.rels[id]?).filter (relSelected relType fromId toId) with
    | none => exact List.Pairwise.nil
    | some rel => exact List.pairwise_singleton _ _
  | none =>
    apply List.Pairwise.filter
    apply h.ascending_records
    cases fromId with
    | none => cases toId with
      | none => exact Index.ordered_ids _ _
      | some target => exact Index.ordered_ids _ _
    | some source => cases toId with
      | none => exact Index.ordered_ids _ _
      | some target =>
        dsimp only
        split
        · exact Index.ordered_ids _ _
        · exact Index.ordered_ids _ _

/-- The relationship has the type, and the id and the ends that are given. -/
def Asked (relType : String) (id fromId toId : Option Int) (rel : StoredRel) : Prop :=
  rel.relType = relType ∧ (∀ own ∈ id, rel.id = own) ∧ (∀ source ∈ fromId, rel.fromId = source) ∧
    ∀ target ∈ toId, rel.toId = target

instance (relType : String) (id fromId toId : Option Int) (rel : StoredRel) :
    Decidable (Asked relType id fromId toId rel) := by
  unfold Asked
  infer_instance

theorem relSelected_iff {relType : String} {fromId toId : Option Int} {rel : StoredRel} :
    relSelected relType fromId toId rel = true ↔
      rel.relType = relType ∧ (∀ source ∈ fromId, rel.fromId = source) ∧ ∀ target ∈ toId, rel.toId = target := by
  simp [relSelected, Option.all_eq_true, and_assoc]

/-- A lookup gives the scan of all records, whichever index it starts from. -/
theorem Indexed.snapshotRelationshipsFiltered_eq {s : GraphStore} (h : s.Indexed) (relType : String)
    (id fromId toId : Option Int) :
    s.snapshotRelationshipsFiltered relType id fromId toId =
      s.rels.vals.filter fun rel => decide (Asked relType id fromId toId rel) := by
  have ascending := h.ascending_snapshotRelationshipsFiltered relType id fromId toId
  have scanned : (s.rels.vals.filter fun rel => decide (Asked relType id fromId toId rel)).Pairwise
      fun a b => a.id < b.id := by
    apply List.Pairwise.filter
    rw [BTreeMap.vals, List.pairwise_map]
    refine (BTreeMap.ordered_toList s.rels).imp_of_mem fun {a b} memberA memberB less => ?_
    rw [h.relId _ _ (ExtTreeMap.mem_toList_iff_getElem?_eq_some.1 memberA),
      h.relId _ _ (ExtTreeMap.mem_toList_iff_getElem?_eq_some.1 memberB)]
    exact compare_lt_iff_lt.1 less
  refine List.Perm.eq_of_pairwise (fun a b _ _ less greater => ?_) ascending scanned ?_
  · exact absurd (Int.lt_trans less greater) (Int.lt_irrefl _)
  · refine (List.perm_ext_iff_of_nodup (ascending.imp ?_) (scanned.imp ?_)).2 fun rel => ?_
    · rintro a b less rfl
      exact Int.lt_irrefl _ less
    · rintro a b less rfl
      exact Int.lt_irrefl _ less
    · rw [h.mem_snapshotRelationshipsFiltered, List.mem_filter, BTreeMap.mem_vals, decide_eq_true_iff, Asked,
        relSelected_iff]
      constructor
      · rintro ⟨found, ⟨type, sources, targets⟩, own⟩
        exact ⟨⟨rel.id, found⟩, type, own, sources, targets⟩
      · rintro ⟨⟨k, found⟩, type, own, sources, targets⟩
        exact ⟨h.relId k rel found ▸ found, ⟨type, sources, targets⟩, own⟩

end GraphStore
