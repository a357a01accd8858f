import Grm.Backend.Rollback

/-!
# Searches that start from an index

An index files a value under its `ValueKey`, and two values with one key are equal. The
converse fails for the two zeros of a double, which are equal and have different bits, so
a lookup for one of them does not find the other. A search that starts from an index list
is therefore exact but for the matching nodes that hold the other zero.
-/

open Std

set_option autoImplicit false

/-- The list has each element with the property once and no other. -/
def ListsExactly {α : Type} (l : List α) (p : α → Prop) : Prop := l.Nodup ∧ ∀ a, a ∈ l ↔ p a

theorem ListsExactly.congr {α : Type} {l : List α} {p q : α → Prop} (h : ListsExactly l p) (same : ∀ a, p a ↔ q a) :
    ListsExactly l q :=
  ⟨h.1, fun a => (h.2 a).trans (same a)⟩

namespace Value

/-- The two zeros of a double, one of each sign. -/
def oppositeZeros : Value → Value → Bool
  | .number (.float x), .number (.float y) => x.isZero && y.isZero && x.negative != y.negative
  | _, _ => false

end Value

theorem F64.same_iff (x y : F64) :
    x = y ↔ x.eq y = true ∧ (x.isZero && y.isZero && x.negative != y.negative) = false := by
  rw [F64.eq_iff]
  constructor
  · rintro rfl
    simp
  · rintro ⟨rfl | ⟨zeroX, zeroY⟩, signs⟩
    · rfl
    · have sign : x.negative = y.negative := by simpa [zeroX, zeroY] using signs
      have magnitudes : x.magnitude = y.magnitude := by
        unfold isZero at zeroX zeroY
        rw [beq_iff_eq] at zeroX zeroY
        rw [zeroX, zeroY]
      obtain ⟨exponents, mantissas⟩ := magnitude_injective magnitudes
      exact ext_parts sign exponents mantissas

theorem eq_of_oppositeZeros {u v : Value} (opposite : u.oppositeZeros v = true) : u.eq v = true := by
  unfold Value.oppositeZeros at opposite
  split at opposite
  case h_1 x y =>
    rw [Bool.and_eq_true, Bool.and_eq_true] at opposite
    exact (F64.eq_iff x y).2 (.inr opposite.1)
  case h_2 => cases opposite

/-- The values filed under the key of `v` are those equal to it, its opposite zero left out. -/
theorem ValueKey.fromValue_eq_iff {v : Value} {key : ValueKey} (filed : fromValue v = some key) (u : Value) :
    fromValue u = some key ↔ u.eq v = true ∧ u.oppositeZeros v = false := by
  rw [← filed]
  have ints : ∀ i j : JsonInt, (if i.val < 2 ^ 63 then int i.val else uint i.val) =
      (if j.val < 2 ^ 63 then int j.val else uint j.val) ↔ i.val = j.val := by
    intro i j
    split <;> split <;> simp <;> omega
  have floats : ∀ x y : F64, x.bits.toNat = y.bits.toNat ↔
      x.eq y = true ∧ (x.isZero && y.isZero && x.negative != y.negative) = false := by
    intro x y
    rw [← F64.same_iff]
    constructor
    · intro same
      cases x
      cases y
      cases BitVec.eq_of_toNat_eq same
      rfl
    · rintro rfl
      rfl
  cases v with
  | null => cases u with
    | number n => cases n with
      | int i => simp only [fromValue, Option.some.injEq, Value.eq]; split <;> simp
      | float x => simp [fromValue, Value.eq]
    | _ => simp [fromValue, Value.eq, Value.oppositeZeros]
  | bool b => cases u with
    | number n => cases n with
      | int i => simp only [fromValue, Option.some.injEq, Value.eq]; split <;> simp
      | float x => simp [fromValue, Value.eq]
    | _ => simp [fromValue, Value.eq, Value.oppositeZeros]
  | string s => cases u with
    | number n => cases n with
      | int i => simp only [fromValue, Option.some.injEq, Value.eq]; split <;> simp
      | float x => simp [fromValue, Value.eq]
    | _ => simp [fromValue, Value.eq, Value.oppositeZeros]
  | number n => cases n with
    | int j => cases u with
      | number m => cases m with
        | int i =>
          simp only [fromValue, Option.some.injEq, ints, Value.eq, Number.eq, Value.oppositeZeros, beq_iff_eq, and_true]
        | float x => simp only [fromValue, Option.some.injEq, Value.eq, Number.eq]; split <;> simp
      | array items => simp [fromValue, Value.eq]
      | object fields => simp [fromValue, Value.eq]
      | _ => simp only [fromValue, Option.some.injEq, Value.eq]; split <;> simp
    | float y => cases u with
      | number m => cases m with
        | int i => simp only [fromValue, Option.some.injEq, Value.eq, Number.eq]; split <;> simp
        | float x =>
          simp only [fromValue, Option.some.injEq, floatBits.injEq, Value.eq, Number.eq, Value.oppositeZeros, floats]
      | _ => simp [fromValue, Value.eq]
  | array items => cases filed
  | object fields => cases filed

/-! ## Lookups -/

/-- The node has under `key` a value equal to `value`, and not its opposite zero. -/
def StoredNode.FiledUnder (node : StoredNode) (key : String) (value : Value) : Prop :=
  ∃ v, node.props[key]? = some v ∧ v.eq value = true ∧ v.oppositeZeros value = false

namespace GraphStore
variable {s : GraphStore}

theorem mem_anyKeys {node : StoredNode} {key : String} {valueKey : ValueKey} :
    (key, valueKey) ∈ anyKeys node ↔ ∃ v, node.props[key]? = some v ∧ ValueKey.fromValue v = some valueKey := by
  unfold anyKeys
  simp only [List.mem_filterMap, Option.map_eq_some_iff, Prod.mk.injEq, Prod.exists]
  constructor
  · rintro ⟨_, v, member, _, filed, rfl, rfl⟩
    exact ⟨v, ExtTreeMap.mem_toList_iff_getElem?_eq_some.1 member, filed⟩
  · rintro ⟨v, found, filed⟩
    exact ⟨key, v, ExtTreeMap.mem_toList_iff_getElem?_eq_some.2 found, valueKey, filed, rfl, rfl⟩

theorem mem_labelKeys {node : StoredNode} {label key : String} {valueKey : ValueKey} :
    (label, key, valueKey) ∈ labelKeys node ↔ label ∈ node.labels ∧ (key, valueKey) ∈ anyKeys node := by
  unfold labelKeys
  simp only [List.mem_flatMap, List.mem_map, Prod.mk.injEq]
  constructor
  · rintro ⟨_, member, _, keyed, rfl, rfl⟩
    exact ⟨member, keyed⟩
  · rintro ⟨member, keyed⟩
    exact ⟨label, member, (key, valueKey), keyed, rfl, rfl⟩

theorem filedUnder_iff {node : StoredNode} {key : String} {value : Value} {valueKey : ValueKey}
    (filed : ValueKey.fromValue value = some valueKey) :
    (key, valueKey) ∈ anyKeys node ↔ node.FiledUnder key value := by
  rw [mem_anyKeys]
  refine exists_congr fun v => and_congr_right fun _ => ?_
  exact ValueKey.fromValue_eq_iff filed v

theorem oppositeZeros_of_unfiled {value : Value} (unfiled : ValueKey.fromValue value = none) (v : Value) :
    v.oppositeZeros value = false := by
  cases value with
  | array items => cases v with
    | number n => cases n <;> rfl
    | _ => rfl
  | object fields => cases v with
    | number n => cases n <;> rfl
    | _ => rfl
  | number n => cases n <;> cases unfiled
  | _ => cases unfiled

/-- `node_ids_by_property` lists the nodes filed under the value, each once. -/
theorem Indexed.nodeIdsByProperty_exact (h : s.Indexed) (key : String) (value : Value) :
    ListsExactly (s.nodeIdsByProperty key value).2 fun k => ∃ n, s.nodes[k]? = some n ∧ n.FiledUnder key value := by
  have fresh := h.freshProps.propsAny s.freshProps_clean
  unfold nodeIdsByProperty
  dsimp only
  cases filed : ValueKey.fromValue value with
  | some valueKey =>
    refine ⟨Index.nodup_ids _ _, fun k => ?_⟩
    rw [fresh.mem_ids, freshProps_nodes]
    exact exists_congr fun n => and_congr_right fun _ => filedUnder_iff filed
  | none =>
    have distinct : (s.freshProps.nodes.vals.map StoredNode.id).Nodup := BTreeMap.nodup_vals h.freshProps.nodeId
    refine ⟨distinct.sublist (List.filter_sublist.map _), fun k => ?_⟩
    simp only [List.mem_map, List.mem_filter, BTreeMap.mem_vals, freshProps_nodes, Option.any_eq_true,
      StoredNode.FiledUnder, oppositeZeros_of_unfiled filed, and_true]
    constructor
    · rintro ⟨n, ⟨⟨i, found⟩, holds⟩, rfl⟩
      exact ⟨n, h.nodeId i n found ▸ found, holds⟩
    · rintro ⟨n, found, holds⟩
      exact ⟨n, ⟨⟨k, found⟩, holds⟩, h.nodeId k n found⟩

/-- `node_ids_by_label_property` on a value with a key. -/
theorem Indexed.nodeIdsByLabelProperty_exact (h : s.Indexed) (label key : String) {value : Value}
    (indexable : propertyValueIsIndexable value = true) :
    ListsExactly (s.nodeIdsByLabelProperty label key value).2 fun k =>
      ∃ n, s.nodes[k]? = some n ∧ label ∈ n.labels ∧ n.FiledUnder key value := by
  have fresh := h.freshProps.props s.freshProps_clean
  obtain ⟨valueKey, filed⟩ := Option.isSome_iff_exists.1 indexable
  unfold nodeIdsByLabelProperty
  dsimp only
  rw [filed]
  refine ⟨Index.nodup_ids _ _, fun k => ?_⟩
  rw [fresh.mem_ids, freshProps_nodes]
  refine exists_congr fun n => and_congr_right fun _ => ?_
  rw [mem_labelKeys, filedUnder_iff filed]

/-- `node_ids_by_label`. -/
theorem Indexed.nodeIdsByLabel_exact (h : s.Indexed) (label : String) :
    ListsExactly (s.nodeIdsByLabel label) fun k => ∃ n, s.nodes[k]? = some n ∧ label ∈ n.labels :=
  ⟨Index.nodup_ids _ _, fun _ => h.labels.mem_ids⟩

end GraphStore

/-! ## The choice of candidates -/

/-- `keep_smallest` on lists that carry the filter they answer. -/
def keepSmallestOf (best : Option (Option PropertyFilter × List Int)) (candidate : Option PropertyFilter × List Int) :
    Option (Option PropertyFilter × List Int) :=
  match best with
  | some current => if candidate.2.length < current.2.length then some candidate else best
  | none => some candidate

theorem foldl_keepSmallestOf (l : List (Option PropertyFilter × List Int)) (best : Option (Option PropertyFilter × List Int)) :
    (l.foldl keepSmallestOf best).map Prod.snd = (l.map Prod.snd).foldl keepSmallest (best.map Prod.snd) := by
  induction l generalizing best with
  | nil => rfl
  | cons candidate l ih =>
    rw [List.foldl_cons, ih, List.map_cons, List.foldl_cons]
    congr 1
    cases best with
    | none => rfl
    | some current =>
      show (if _ then _ else _ : Option (Option PropertyFilter × List Int)).map _ = if _ then _ else _
      split <;> rfl

theorem foldl_keepSmallestOf_mem {l : List (Option PropertyFilter × List Int)} {best : Option (Option PropertyFilter × List Int)}
    {kept : Option PropertyFilter × List Int} (last : l.foldl keepSmallestOf best = some kept) :
    kept ∈ l ∨ best = some kept := by
  induction l generalizing best with
  | nil => exact .inr last
  | cons candidate l ih =>
    rcases ih last with later | now
    · exact .inl (List.mem_cons_of_mem _ later)
    · cases best with
      | none =>
        cases now
        exact .inl List.mem_cons_self
      | some current =>
        unfold keepSmallestOf at now
        dsimp only at now
        split at now
        · cases now
          exact .inl List.mem_cons_self
        · exact .inr now

theorem foldl_keepSmallestOf_none {l : List (Option PropertyFilter × List Int)} {best : Option (Option PropertyFilter × List Int)}
    (last : l.foldl keepSmallestOf best = none) : l = [] ∧ best = none := by
  induction l generalizing best with
  | nil => exact ⟨rfl, last⟩
  | cons candidate l ih =>
    obtain ⟨-, kept⟩ := ih last
    cases best with
    | none => cases kept
    | some current =>
      unfold keepSmallestOf at kept
      dsimp only at kept
      split at kept <;> cases kept

namespace GraphStore
variable {s : GraphStore}

/-- The candidate lists with the filters they answer; the list of a label answers none. -/
def candidateChoices (s : GraphStore) (labels : List String) (filters : List PropertyFilter) :
    List (Option PropertyFilter × List Int) :=
  if labels.isEmpty then
    (indexableFilters filters).map fun f => (some f, (s.nodeIdsByProperty f.key f.value).2)
  else
    let byProperty := labels.flatMap fun label =>
      (indexableFilters filters).map fun f => (some f, (s.nodeIdsByLabelProperty label f.key f.value).2)
    if byProperty.isEmpty then labels.map fun label => (none, s.nodeIdsByLabel label) else byProperty

theorem candidateChoices_lists (s : GraphStore) (labels : List String) (filters : List PropertyFilter) :
    (s.candidateChoices labels filters).map Prod.snd = s.candidateLists labels filters := by
  have lists : (labels.flatMap fun label => (indexableFilters filters).map fun f =>
      (some f, (s.nodeIdsByLabelProperty label f.key f.value).2)).map Prod.snd =
      labels.flatMap fun label => (indexableFilters filters).map fun f =>
        (s.nodeIdsByLabelProperty label f.key f.value).2 := by
    rw [List.map_flatMap]
    simp only [List.map_map, Function.comp_def]
  have empties : (labels.flatMap fun label => (indexableFilters filters).map fun f =>
      (some f, (s.nodeIdsByLabelProperty label f.key f.value).2)).isEmpty =
      (labels.flatMap fun label => (indexableFilters filters).map fun f =>
        (s.nodeIdsByLabelProperty label f.key f.value).2).isEmpty := by
    rw [← lists, List.isEmpty_map]
  unfold candidateChoices candidateLists
  dsimp only
  rw [empties]
  split
  · simp only [List.map_map, Function.comp_def]
  · split
    · simp only [List.map_map, Function.comp_def]
    · exact lists

/-- The equality filter whose index list `base_node_candidate_ids` keeps, if it keeps one. -/
def anchorFilter (s : GraphStore) (labels : List String) (filters : List PropertyFilter) : Option PropertyFilter :=
  ((s.candidateChoices labels filters).foldl keepSmallestOf none).bind Prod.fst

/-- The node has the opposite zero of the filter's value. -/
def hasOppositeZero (node : StoredNode) (filter : PropertyFilter) : Bool :=
  (node.props[filter.key]?).any fun v => v.oppositeZeros filter.value

theorem filter_holds {node : StoredNode} {filters : List PropertyFilter} {f : PropertyFilter}
    (holds : propsMatchFilters node.props filters = true) (member : f ∈ filters) :
    ∃ v, node.props[f.key]? = some v ∧ kernelCompare v f.op f.value = true := by
  have held := List.all_eq_true.1 holds f member
  cases found : node.props[f.key]? with
  | none => rw [found] at held; cases held
  | some v => rw [found] at held; exact ⟨v, rfl, held⟩

theorem mem_indexableFilters {filters : List PropertyFilter} {f : PropertyFilter} :
    f ∈ indexableFilters filters ↔ f ∈ filters ∧ f.op = .eq ∧ propertyValueIsIndexable f.value = true := by
  simp [indexableFilters]

/-- A node that meets an equality filter is filed under its value, but for the opposite zero. -/
theorem filedUnder_of_holds {node : StoredNode} {filters : List PropertyFilter} {f : PropertyFilter}
    (holds : propsMatchFilters node.props filters = true) (member : f ∈ filters) (equality : f.op = .eq) :
    node.FiledUnder f.key f.value ↔ hasOppositeZero node f = false := by
  obtain ⟨v, found, held⟩ := filter_holds holds member
  rw [equality] at held
  unfold hasOppositeZero
  rw [found, Option.any_some]
  constructor
  · rintro ⟨w, stored, -, apart⟩
    rw [found] at stored
    cases stored
    exact apart
  · intro apart
    exact ⟨v, found, held, apart⟩

theorem labelsMatch_iff {nodeLabels required : List String} :
    labelsMatch nodeLabels required = true ↔ ∀ label ∈ required, label ∈ nodeLabels := by
  simp [labelsMatch]

/-- A candidate list has a matching node unless it holds the opposite zero of its filter. -/
theorem Indexed.mem_choice (h : s.Indexed) {labels : List String} {filters : List PropertyFilter}
    {choice : Option PropertyFilter × List Int} (member : choice ∈ s.candidateChoices labels filters) {k : Int}
    {n : StoredNode} (stored : s.nodes[k]? = some n) (labelled : labelsMatch n.labels labels = true)
    (holds : propsMatchFilters n.props filters = true) :
    k ∈ choice.2 ↔ ∀ f, choice.1 = some f → hasOppositeZero n f = false := by
  unfold candidateChoices at member
  split at member
  · obtain ⟨f, chosen, rfl⟩ := List.mem_map.1 member
    obtain ⟨filter, equality, -⟩ := mem_indexableFilters.1 chosen
    rw [(h.nodeIdsByProperty_exact f.key f.value).2]
    have filed := filedUnder_of_holds holds filter equality
    simp [stored, filed]
  · dsimp only at member
    split at member
    · obtain ⟨label, required, rfl⟩ := List.mem_map.1 member
      rw [(h.nodeIdsByLabel_exact label).2]
      simp [stored, labelsMatch_iff.1 labelled label required]
    · obtain ⟨label, required, member⟩ := List.mem_flatMap.1 member
      obtain ⟨f, chosen, rfl⟩ := List.mem_map.1 member
      obtain ⟨filter, equality, indexable⟩ := mem_indexableFilters.1 chosen
      rw [(h.nodeIdsByLabelProperty_exact label f.key indexable).2]
      have filed := filedUnder_of_holds holds filter equality
      simp [stored, labelsMatch_iff.1 labelled label required, filed]

theorem Indexed.nodup_choice (h : s.Indexed) {labels : List String} {filters : List PropertyFilter}
    {choice : Option PropertyFilter × List Int} (member : choice ∈ s.candidateChoices labels filters) :
    choice.2.Nodup := by
  unfold candidateChoices at member
  split at member
  · obtain ⟨f, -, rfl⟩ := List.mem_map.1 member
    exact (h.nodeIdsByProperty_exact f.key f.value).1
  · dsimp only at member
    split at member
    · obtain ⟨label, -, rfl⟩ := List.mem_map.1 member
      exact (h.nodeIdsByLabel_exact label).1
    · obtain ⟨label, -, member⟩ := List.mem_flatMap.1 member
      obtain ⟨f, chosen, rfl⟩ := List.mem_map.1 member
      exact (h.nodeIdsByLabelProperty_exact label f.key (mem_indexableFilters.1 chosen).2.2).1

end GraphStore

namespace GraphStore
variable {s : GraphStore}

theorem candidateChoices_freshProps (s : GraphStore) (labels : List String) (filters : List PropertyFilter) :
    s.freshProps.candidateChoices labels filters = s.candidateChoices labels filters := by
  have same := s.unchanged_freshProps
  unfold candidateChoices nodeIdsByLabel
  simp only [same.byProperty, same.byLabelProperty, same.labels]

theorem baseNodeCandidateIds_eq (s : GraphStore) (labels : List String) (filters : List PropertyFilter) :
    (s.baseNodeCandidateIds labels filters).2 =
      (((s.candidateChoices labels filters).foldl keepSmallestOf none).map Prod.snd).getD s.nodes.keys := by
  unfold baseNodeCandidateIds
  dsimp only
  rw [foldl_keepSmallestOf, Option.map_none]
  split
  · rw [candidateChoices_lists]
  · rw [freshProps_nodes, ← candidateChoices_lists, candidateChoices_freshProps]

/-- The candidates have a matching node unless it holds the opposite zero of the anchor. -/
theorem Indexed.mem_candidates (h : s.Indexed) {labels : List String} {filters : List PropertyFilter} {k : Int}
    {n : StoredNode} (stored : s.nodes[k]? = some n) (labelled : labelsMatch n.labels labels = true)
    (holds : propsMatchFilters n.props filters = true) :
    k ∈ (s.baseNodeCandidateIds labels filters).2 ↔
      ∀ f, s.anchorFilter labels filters = some f → hasOppositeZero n f = false := by
  rw [baseNodeCandidateIds_eq]
  unfold anchorFilter
  cases kept : (s.candidateChoices labels filters).foldl keepSmallestOf none with
  | none =>
    have present : k ∈ s.nodes := BTreeMap.mem_iff_get.2 ⟨n, stored⟩
    simp [ExtTreeMap.mem_keys, present]
  | some choice =>
    rcases foldl_keepSmallestOf_mem kept with member | start
    · exact h.mem_choice member stored labelled holds
    · cases start

theorem Indexed.nodup_candidates (h : s.Indexed) (labels : List String) (filters : List PropertyFilter) :
    (s.baseNodeCandidateIds labels filters).2.Nodup := by
  rw [baseNodeCandidateIds_eq]
  cases kept : (s.candidateChoices labels filters).foldl keepSmallestOf none with
  | none => exact ExtTreeMap.nodup_keys
  | some choice =>
    rcases foldl_keepSmallestOf_mem kept with member | start
    · exact h.nodup_choice member
    · cases start

end GraphStore

/-! ## Searches of a transaction -/

namespace InMemoryTx
variable {tx : InMemoryTx}

/-- The indexes of the store are right, records are under their own ids, and no id is both
written and deleted. -/
structure Coherent (tx : InMemoryTx) : Prop where
  store : tx.store.Indexed
  written : ∀ (k : Int) (n : StoredNode), tx.delta.nodes[k]? = some n → n.id = k
  apart : ∀ k ∈ tx.delta.nodes, k ∉ tx.delta.deletedNodes
  copy : ∀ w, tx.workingCopy = some w → ∀ (k : Int) (n : StoredNode), w.nodes[k]? = some n → n.id = k

theorem Valid.coherent (h : tx.Valid) : tx.Coherent :=
  ⟨h.store, h.own.node, h.nodesApart, fun w copy k n found => (h.copy w copy).nodeId k n found⟩

theorem nodup_of_ids {l : List StoredNode} (distinct : (l.map StoredNode.id).Nodup) : l.Nodup :=
  List.Pairwise.of_map StoredNode.id (fun _ _ apart same => apart (congrArg StoredNode.id same)) distinct

/-- A search of a working copy is a scan. -/
theorem Coherent.copy_exact (h : tx.Coherent) {w : GraphStore} (copy : tx.workingCopy = some w)
    (accepts : StoredNode → Bool) :
    ListsExactly (w.nodes.vals.filter accepts) fun n => tx.visibleNode n.id = some n ∧ accepts n = true := by
  have own := h.copy w copy
  refine ⟨(nodup_of_ids (BTreeMap.nodup_vals own)).sublist List.filter_sublist, fun n => ?_⟩
  unfold visibleNode
  rw [copy, List.mem_filter, BTreeMap.mem_vals]
  refine and_congr_left fun _ => ⟨?_, fun seen => ⟨n.id, seen⟩⟩
  rintro ⟨k, found⟩
  rw [own k n found]
  exact found

/-- A search of the base store by ids and of the written nodes by scan is exact when the
ids cover the accepted nodes of the base store that are neither written nor deleted. -/
theorem Coherent.overlay_exact_iff (h : tx.Coherent) (plain : tx.workingCopy = none) {ids : List Int} (distinct : ids.Nodup)
    (accepts : StoredNode → Bool) :
    ListsExactly ((ids.filterMap fun id => tx.store.nodes[id]?).filter (fun node =>
        !tx.delta.deletedNodes.contains node.id && !tx.delta.nodes.contains node.id && accepts node) ++
        tx.delta.nodes.vals.filter accepts) (fun n => tx.visibleNode n.id = some n ∧ accepts n = true) ↔
      ∀ (k : Int) (n : StoredNode), tx.store.nodes[k]? = some n → k ∉ tx.delta.deletedNodes → k ∉ tx.delta.nodes →
        accepts n = true → k ∈ ids := by
  have inBase : ∀ n : StoredNode, n ∈ (ids.filterMap fun id => tx.store.nodes[id]?).filter (fun node =>
      !tx.delta.deletedNodes.contains node.id && !tx.delta.nodes.contains node.id && accepts node) ↔
      n.id ∈ ids ∧ tx.store.nodes[n.id]? = some n ∧ n.id ∉ tx.delta.deletedNodes ∧ n.id ∉ tx.delta.nodes ∧
        accepts n = true := by
    intro n
    simp only [List.mem_filter, List.mem_filterMap, Bool.and_eq_true, Bool.not_eq_true', BTreeMap.contains_eq_false,
      BTreeSet.contains_eq_false]
    constructor
    · rintro ⟨⟨k, member, found⟩, ⟨kept, unwritten⟩, accepted⟩
      have own := h.store.nodeId k n found
      subst own
      exact ⟨member, found, kept, unwritten, accepted⟩
    · rintro ⟨member, found, kept, unwritten, accepted⟩
      exact ⟨⟨n.id, member, found⟩, ⟨kept, unwritten⟩, accepted⟩
  have inWritten : ∀ n : StoredNode, n ∈ tx.delta.nodes.vals.filter accepts ↔
      tx.delta.nodes[n.id]? = some n ∧ accepts n = true := by
    intro n
    rw [List.mem_filter, BTreeMap.mem_vals]
    refine and_congr_left fun _ => ⟨?_, fun found => ⟨n.id, found⟩⟩
    rintro ⟨k, found⟩
    rw [h.written k n found]
    exact found
  have once : ((ids.filterMap fun id => tx.store.nodes[id]?).filter (fun node =>
      !tx.delta.deletedNodes.contains node.id && !tx.delta.nodes.contains node.id && accepts node) ++
      tx.delta.nodes.vals.filter accepts).Nodup := by
    refine List.nodup_append.2 ⟨?_, (nodup_of_ids (BTreeMap.nodup_vals h.written)).sublist List.filter_sublist, ?_⟩
    · refine List.Nodup.sublist List.filter_sublist (List.Pairwise.filterMap _ ?_ distinct)
      intro a b apart n foundA m foundB same
      subst same
      exact apart ((h.store.nodeId a n foundA).symm.trans (h.store.nodeId b n foundB))
    · intro a fromBase b fromWritten same
      subst same
      exact ((inBase a).1 fromBase).2.2.2.1 (BTreeMap.mem_iff_get.2 ⟨a, ((inWritten a).1 fromWritten).1⟩)
  have seen : ∀ n : StoredNode, tx.visibleNode n.id = some n ↔
      tx.delta.nodes[n.id]? = some n ∨
        (tx.store.nodes[n.id]? = some n ∧ n.id ∉ tx.delta.deletedNodes ∧ n.id ∉ tx.delta.nodes) := by
    intro n
    unfold visibleNode
    rw [plain]
    dsimp only
    by_cases written : n.id ∈ tx.delta.nodes
    · have kept := h.apart n.id written
      simp [kept, written]
    · by_cases deleted : n.id ∈ tx.delta.deletedNodes
      · simp [deleted, written]
      · simp [deleted, written]
  constructor
  · rintro ⟨-, exact_⟩ k n found kept unwritten accepted
    have own := h.store.nodeId k n found
    subst own
    have listed := (exact_ n).2 ⟨(seen n).2 (.inr ⟨found, kept, unwritten⟩), accepted⟩
    rcases List.mem_append.1 listed with base | written
    · exact ((inBase n).1 base).1
    · exact absurd (BTreeMap.mem_iff_get.2 ⟨n, ((inWritten n).1 written).1⟩) unwritten
  · intro covers
    refine ⟨once, fun n => ?_⟩
    rw [List.mem_append, inBase, inWritten]
    show _ ↔ tx.visibleNode n.id = some n ∧ accepts n = true
    rw [seen]
    constructor
    · rintro (⟨-, found, kept, unwritten, accepted⟩ | ⟨found, accepted⟩)
      · exact ⟨.inr ⟨found, kept, unwritten⟩, accepted⟩
      · exact ⟨.inl found, accepted⟩
    · rintro ⟨found | ⟨found, kept, unwritten⟩, accepted⟩
      · exact .inr ⟨found, accepted⟩
      · exact .inl ⟨covers n.id n found kept unwritten accepted, found, kept, unwritten, accepted⟩

/-- A node of the base store that the transaction has neither written nor deleted. -/
def Unwritten (tx : InMemoryTx) (k : Int) (n : StoredNode) : Prop :=
  tx.store.nodes[k]? = some n ∧ k ∉ tx.delta.deletedNodes ∧ k ∉ tx.delta.nodes

/-- The nodes whose property equals the value: `visible_nodes_by_property` lists them but
for unwritten ones that have the opposite zero. -/
theorem Coherent.byProperty_exact_iff (h : tx.Coherent) (key : String) (value : Value) :
    ListsExactly (tx.visibleNodesByProperty key value).2
        (fun n => tx.visibleNode n.id = some n ∧ ((n.props[key]?).any fun v => v.eq value) = true) ↔
      (tx.workingCopy = none → ∀ k n, tx.Unwritten k n → ∀ v, n.props[key]? = some v → v.oppositeZeros value = false) := by
  unfold visibleNodesByProperty
  dsimp only
  cases copy : tx.workingCopy with
  | some w => exact ⟨nofun, fun _ => h.copy_exact copy _⟩
  | none =>
    have index := h.store.nodeIdsByProperty_exact key value
    have nodes : (tx.store.nodeIdsByProperty key value).1.nodes = tx.store.nodes := tx.store.freshProps_nodes
    dsimp only
    rw [nodes, h.overlay_exact_iff copy index.1]
    constructor
    · intro covers _ k n unwritten v found
      apply Classical.byContradiction
      intro opposite
      have equal : v.eq value = true := eq_of_oppositeZeros (by simpa using opposite)
      obtain ⟨m, stored, w, held, -, apart⟩ := (index.2 k).1
        (covers k n unwritten.1 unwritten.2.1 unwritten.2.2 (by rw [found]; exact equal))
      rw [unwritten.1] at stored
      cases stored
      rw [found] at held
      cases held
      exact opposite apart
    · intro same k n stored kept unwritten accepted
      obtain ⟨v, found, equal⟩ := (Option.any_eq_true _ _).1 accepted
      exact (index.2 k).2 ⟨n, stored, v, found, equal, same rfl k n ⟨stored, kept, unwritten⟩ v found⟩

/-- The nodes with the labels that meet the filters: `visible_nodes_matching` lists them but
for unwritten ones that have the opposite zero of the anchor's value. -/
theorem Coherent.matching_exact_iff (h : tx.Coherent) (labels : List String) (filters : List PropertyFilter) :
    ListsExactly (tx.visibleNodesMatching labels filters).2
        (fun n => tx.visibleNode n.id = some n ∧
          (labelsMatch n.labels labels && propsMatchFilters n.props filters) = true) ↔
      (tx.workingCopy = none → ∀ f, tx.store.anchorFilter labels filters = some f → ∀ k n, tx.Unwritten k n →
        labelsMatch n.labels labels = true → propsMatchFilters n.props filters = true →
        GraphStore.hasOppositeZero n f = false) := by
  unfold visibleNodesMatching baseNodesMatching
  dsimp only
  cases copy : tx.workingCopy with
  | some w => exact ⟨nofun, fun _ => h.copy_exact copy _⟩
  | none =>
    have nodes : (tx.store.baseNodeCandidateIds labels filters).1.nodes = tx.store.nodes := by
      unfold GraphStore.baseNodeCandidateIds
      dsimp only
      split
      · rfl
      · exact tx.store.freshProps_nodes
    dsimp only
    simp only [nodes, Bool.and_assoc _ (labelsMatch _ labels)]
    rw [h.overlay_exact_iff copy (h.store.nodup_candidates labels filters)]
    constructor
    · intro covers _ f anchor k n unwritten labelled holds
      have candidate := covers k n unwritten.1 unwritten.2.1 unwritten.2.2 (by rw [labelled, holds]; rfl)
      exact (h.store.mem_candidates unwritten.1 labelled holds).1 candidate f anchor
    · intro same k n stored kept unwritten accepted
      rw [Bool.and_eq_true] at accepted
      rw [h.store.mem_candidates stored accepted.1 accepted.2]
      intro f anchor
      exact same trivial f anchor k n ⟨stored, kept, unwritten⟩ accepted.1 accepted.2

end InMemoryTx
