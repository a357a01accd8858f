import Grm.Backend.Search
import Grm.Runtime.Find

/-!
# The flat find and its index

`find_nodes_with_query` starts from the index list of its first equality predicate on a
plain value. Every accepted predicate value is plain or a tagged object, so the list has
the matching nodes but for those with the opposite zero of that predicate.
-/

open Std

set_option autoImplicit false

/-- A plain value, or a tagged object. -/
def Value.PlainOrTagged (value : Value) : Prop :=
  value.isObject = true ∨ GraphStore.propertyValueIsIndexable value = true

theorem Value.plainOrTagged_ofInt {i : Int} {value : Value} (converted : Value.ofInt? i = some value) :
    value.PlainOrTagged := by
  unfold Value.ofInt? at converted
  split at converted
  · cases converted
    exact .inr rfl
  · cases converted

section Accepted
variable [Externals]

theorem parseTypedValue_plainOrTagged {kind : PrimitiveKind} {input : String} {value : Value}
    (parsed : parseTypedValue kind input = .ok value) : value.PlainOrTagged := by
  have tagged : ∀ {canonical : Except String String}, canonical.map (Value.tagged kind) = .ok value →
      value.PlainOrTagged := by
    intro canonical ok
    cases canonical with
    | error e => cases ok
    | ok raw => cases ok; exact .inl rfl
  cases kind with
  | string => cases parsed; exact .inr rfl
  | int =>
    unfold parseTypedValue at parsed
    dsimp only at parsed
    split at parsed
    case h_1 found =>
      cases parsed
      obtain ⟨i, -, converted⟩ := Option.bind_eq_some_iff.1 found
      exact Value.plainOrTagged_ofInt converted
    case h_2 => cases parsed
  | float =>
    obtain ⟨x, rfl⟩ := parseFiniteFloat_float parsed
    exact .inr rfl
  | bool =>
    unfold parseTypedValue at parsed
    dsimp only at parsed
    split at parsed
    · cases parsed; exact .inr rfl
    · split at parsed
      · cases parsed; exact .inr rfl
      · cases parsed
  | bytes => exact tagged parsed
  | decimal => exact tagged parsed
  | date => exact tagged parsed
  | dateTime => exact tagged parsed
  | duration => exact tagged parsed
  | uuid => exact tagged parsed

theorem validateValueForKind_plainOrTagged {kind : PrimitiveKind} {value : Value}
    (valid : validateValueForKind kind value = true) : value.PlainOrTagged := by
  cases value with
  | object fields => exact .inl rfl
  | number n => cases n <;> exact .inr rfl
  | array items => cases kind <;> cases valid
  | _ => exact .inr rfl

theorem predicateValue_plainOrTagged {raw : SessionPredicateValue} {kind : PrimitiveKind} {field modelKind modelName : String}
    {value : Value} (accepted : predicateValue raw kind field modelKind modelName = .ok value) :
    value.PlainOrTagged := by
  unfold predicateValue at accepted
  cases raw with
  | lexical input =>
    dsimp only at accepted
    cases parsed : parseTypedValue kind input with
    | error e => rw [parsed] at accepted; cases accepted
    | ok found => rw [parsed] at accepted; cases accepted; exact parseTypedValue_plainOrTagged parsed
  | typed found =>
    dsimp only at accepted
    split at accepted
    case isTrue valid => cases accepted; exact validateValueForKind_plainOrTagged valid
    case isFalse => cases accepted

/-- Where an accepted filter comes from: a field of the model and a value it accepts. -/
theorem parsePredicates_field {modelKind modelName : String} {fields : List RuntimeField}
    {predicates : List SessionPredicate} {filters : List PropertyFilter}
    (accepted : parsePredicates modelKind modelName fields predicates = .ok filters) {f : PropertyFilter}
    (member : f ∈ filters) :
    ∃ predicate field, fieldNamed fields f.key = some field ∧
      predicateValue predicate field.valueType f.key modelKind modelName = .ok f.value := by
  obtain ⟨predicate, -, parsed⟩ := GrmResult.mapM_source accepted member
  cases named : fieldNamed fields predicate.field with
  | none => rw [named] at parsed; cases parsed
  | some field =>
    rw [named] at parsed
    obtain ⟨value, ok, parsed⟩ := GrmResult.bind_eq_ok.1 parsed
    cases parsed
    exact ⟨predicate.value, field, named, ok⟩

theorem parseModelPredicates_plainOrTagged {predicates : List SessionPredicate} {model : RuntimeNodeModel}
    {filters : List PropertyFilter} (accepted : parseModelPredicates predicates model = .ok filters)
    {f : PropertyFilter} (member : f ∈ filters) : f.value.PlainOrTagged := by
  obtain ⟨predicate, field, -, ok⟩ := parsePredicates_field accepted member
  exact predicateValue_plainOrTagged ok

end Accepted

/-! ## The flat find -/

namespace SessionState
variable [Externals]

theorem matchesPredicates_holds {props : Props} {filters : List PropertyFilter} {f : PropertyFilter}
    (holds : matchesPredicates props filters = true) (member : f ∈ filters) :
    ∃ v, props[f.key]? = some v ∧ compareTypedValues v f.op f.value = true :=
  (Option.any_eq_true _ _).1 (List.all_eq_true.1 holds f member)

omit [Externals] in
theorem indexedProperty_eq_some {filters : List PropertyFilter} {key : String} {value : Value}
    (indexed : indexedProperty filters = some (key, value)) :
    ∃ f ∈ filters, f.op = .eq ∧ f.value.isObject = false ∧ f.key = key ∧ f.value = value := by
  obtain ⟨f, found, same⟩ := Option.map_eq_some_iff.1 indexed
  have chosen := List.find?_some found
  simp only [Bool.and_eq_true, decide_eq_true_eq, Bool.not_eq_true'] at chosen
  cases same
  exact ⟨f, List.mem_of_find?_eq_some found, chosen.1, chosen.2, rfl, rfl⟩

/-- What the flat find selects: the nodes of the label, of the id when one is asked for,
that meet the predicates. -/
def Selected (store : GraphStore) (label : String) (idFilter : Option Int) (filters : List PropertyFilter)
    (n : StoredNode) : Prop :=
  store.nodes[n.id]? = some n ∧ label ∈ n.labels ∧ (∀ id, idFilter = some id → n.id = id) ∧
    matchesPredicates n.props filters = true

/-- The flat find selects by scan what it selects by index, but for nodes with the opposite
zero of its index property. -/
theorem selectNodes_exact_iff {store : GraphStore} (h : store.Indexed) (model : RuntimeNodeModel)
    (idFilter : Option Int) {predicates : List SessionPredicate} {filters : List PropertyFilter}
    (accepted : parseModelPredicates predicates model = .ok filters) :
    ListsExactly (selectNodes store model idFilter filters).2 (Selected store model.label idFilter filters) ↔
      (idFilter = none → ∀ key value, indexedProperty filters = some (key, value) → ∀ n,
        Selected store model.label none filters n → ((n.props[key]?).any fun v => v.oppositeZeros value) = false) := by
  have listed : ∀ {s : GraphStore} {ids : List Int}, s.nodes = store.nodes → ids.Nodup →
      ((ids.filterMap fun id => s.nodes[id]?).filter fun n => matchesPredicates n.props filters).Nodup ∧
      ∀ n, n ∈ ((ids.filterMap fun id => s.nodes[id]?).filter fun n => matchesPredicates n.props filters) ↔
        n.id ∈ ids ∧ store.nodes[n.id]? = some n ∧ matchesPredicates n.props filters = true := by
    intro s ids same distinct
    rw [same]
    constructor
    · refine List.Nodup.sublist List.filter_sublist (List.Pairwise.filterMap _ ?_ distinct)
      intro a b apart n foundA m foundB equal
      subst equal
      exact apart ((h.nodeId a n foundA).symm.trans (h.nodeId b n foundB))
    · intro n
      rw [List.mem_filter, List.mem_filterMap]
      constructor
      · rintro ⟨⟨id, member, found⟩, holds⟩
        have own := h.nodeId id n found
        subst own
        exact ⟨member, found, holds⟩
      · rintro ⟨member, found, holds⟩
        exact ⟨⟨n.id, member, found⟩, holds⟩
  unfold selectNodes GraphStore.snapshotNodesFiltered
  cases idFilter with
  | some id =>
    refine ⟨fun _ => nofun, fun _ => ?_⟩
    dsimp only
    have present : ∀ n, n ∈ ((store.nodes[id]?).filter fun node => node.labels.any fun l => l == model.label).toList ↔
        store.nodes[id]? = some n ∧ model.label ∈ n.labels := by
      intro n
      rw [Option.mem_toList, Option.filter_eq_some_iff]
      simp
    constructor
    · refine List.Nodup.sublist List.filter_sublist ?_
      cases (store.nodes[id]?).filter fun node => node.labels.any fun l => l == model.label <;> simp
    · intro n
      rw [List.mem_filter, present]
      constructor
      · rintro ⟨⟨found, labelled⟩, holds⟩
        have own := h.nodeId id n found
        subst own
        exact ⟨found, labelled, fun _ same => (Option.some.inj same), holds⟩
      · rintro ⟨found, labelled, asked, holds⟩
        have own := asked id rfl
        subst own
        exact ⟨⟨found, labelled⟩, holds⟩
  | none =>
    dsimp only
    cases indexed : indexedProperty filters with
    | none =>
      refine ⟨fun _ _ _ _ => nofun, fun _ => ?_⟩
      dsimp only
      have index := h.nodeIdsByLabel_exact model.label
      obtain ⟨once, member⟩ := listed rfl index.1
      refine ⟨once, fun n => ?_⟩
      rw [member, index.2]
      constructor
      · rintro ⟨⟨m, found, labelled⟩, stored, holds⟩
        rw [stored] at found
        cases found
        exact ⟨stored, labelled, nofun, holds⟩
      · rintro ⟨stored, labelled, -, holds⟩
        exact ⟨⟨n, stored, labelled⟩, stored, holds⟩
    | some property =>
      obtain ⟨key, value⟩ := property
      dsimp only
      obtain ⟨f, chosen, equality, plain, rfl, rfl⟩ := indexedProperty_eq_some indexed
      have indexable : GraphStore.propertyValueIsIndexable f.value = true := by
        rcases parseModelPredicates_plainOrTagged accepted chosen with object | indexable
        · rw [plain] at object
          cases object
        · exact indexable
      have index := h.nodeIdsByLabelProperty_exact model.label f.key indexable
      have nodes : (store.nodeIdsByLabelProperty model.label f.key f.value).1.nodes = store.nodes := store.freshProps_nodes
      obtain ⟨once, member⟩ := listed nodes index.1
      constructor
      · rintro ⟨-, exact_⟩ _ key value same n ⟨stored, labelled, -, holds⟩
        cases same
        have candidate := ((member n).1 ((exact_ n).2 ⟨stored, labelled, nofun, holds⟩)).1
        obtain ⟨m, found, -, v, held, -, apart⟩ := (index.2 n.id).1 candidate
        rw [stored] at found
        cases found
        rw [held, Option.any_some]
        exact apart
      · intro same
        refine ⟨once, fun n => ?_⟩
        rw [member, index.2]
        constructor
        · rintro ⟨⟨m, found, labelled, -⟩, stored, holds⟩
          rw [stored] at found
          cases found
          exact ⟨stored, labelled, nofun, holds⟩
        · rintro ⟨stored, labelled, asked, holds⟩
          obtain ⟨v, held, compared⟩ := matchesPredicates_holds holds chosen
          have apart := same rfl f.key f.value rfl n ⟨stored, labelled, nofun, holds⟩
          rw [held, Option.any_some] at apart
          refine ⟨⟨n, stored, labelled, v, held, ?_, apart⟩, stored, holds⟩
          rw [equality] at compared
          unfold compareTypedValues at compared
          split at compared
          · cases compared
          · exact compared

end SessionState

/-- Searches by property, by labels and filters, and the flat find list exactly what a scan
of the visible nodes accepts, but where a base node holds the opposite zero of the value
the search starts from. -/
theorem searches_equal_scans_iff [Externals] {tx : InMemoryTx} (h : tx.Coherent) :
    (∀ key value, ListsExactly (tx.visibleNodesByProperty key value).2
        (fun n => tx.visibleNode n.id = some n ∧ ((n.props[key]?).any fun v => v.eq value) = true) ↔
      (tx.workingCopy = none → ∀ k n, tx.Unwritten k n → ∀ v, n.props[key]? = some v → v.oppositeZeros value = false)) ∧
    (∀ labels filters, ListsExactly (tx.visibleNodesMatching labels filters).2
        (fun n => tx.visibleNode n.id = some n ∧
          (labelsMatch n.labels labels && propsMatchFilters n.props filters) = true) ↔
      (tx.workingCopy = none → ∀ f, tx.store.anchorFilter labels filters = some f → ∀ k n, tx.Unwritten k n →
        labelsMatch n.labels labels = true → propsMatchFilters n.props filters = true →
        GraphStore.hasOppositeZero n f = false)) ∧
    ∀ (model : RuntimeNodeModel) (idFilter : Option Int) (predicates : List SessionPredicate) (filters : List PropertyFilter),
      parseModelPredicates predicates model = .ok filters →
      (ListsExactly (SessionState.selectNodes tx.store model idFilter filters).2
          (SessionState.Selected tx.store model.label idFilter filters) ↔
        (idFilter = none → ∀ key value, SessionState.indexedProperty filters = some (key, value) → ∀ n,
          SessionState.Selected tx.store model.label none filters n →
            ((n.props[key]?).any fun v => v.oppositeZeros value) = false)) :=
  ⟨h.byProperty_exact_iff, h.matching_exact_iff, fun model idFilter _ _ accepted =>
    SessionState.selectNodes_exact_iff h.store model idFilter accepted⟩

/-! ## The two zeros -/

def F64.plusZero : F64 := ⟨0, by decide⟩

def F64.minusZero : F64 := ⟨BitVec.ofNat 64 (2 ^ 63), by decide⟩

/-- A store with one account, whose balance is the negative zero. -/
def accountStore : GraphStore :=
  ((InMemoryTx.new .empty).run [.createNode ["Account"] ((∅ : Props).insert "balance" (.number (.float .minusZero)))]).commit

/-- The filter on a balance of positive zero accepts the account; no index lookup finds it. -/
theorem account_missed :
    ¬ListsExactly ((InMemoryTx.new accountStore).visibleNodesByProperty "balance" (.number (.float .plusZero))).2
        (fun n => (InMemoryTx.new accountStore).visibleNode n.id = some n ∧
          ((n.props["balance"]?).any fun v => v.eq (.number (.float .plusZero))) = true) := by
  have found : ∃ n, (InMemoryTx.new accountStore).visibleNode n.id = some n ∧
      ((n.props["balance"]?).any fun v => v.eq (.number (.float .plusZero))) = true := by
    refine ⟨⟨1, ["Account"], (∅ : Props).insert "balance" (.number (.float .minusZero))⟩, ?_, ?_⟩
    · rfl
    · rfl
  have empty : ((InMemoryTx.new accountStore).visibleNodesByProperty "balance" (.number (.float .plusZero))).2 = [] := rfl
  obtain ⟨n, accepted⟩ := found
  intro exactly
  rw [empty] at exactly
  exact absurd ((exactly.2 n).2 accepted) (by simp)

/-- A search for text is exact in a transaction on that store: no text is a zero. -/
theorem account_found_by_text :
    ListsExactly ((InMemoryTx.new accountStore).visibleNodesByProperty "owner" (.string "ann")).2
      (fun n => (InMemoryTx.new accountStore).visibleNode n.id = some n ∧
        ((n.props["owner"]?).any fun v => v.eq (.string "ann")) = true) := by
  let := Externals.plainOnly
  have sound : accountStore.Sound := ((InMemoryTx.valid_new GraphStore.sound_empty).run _).commit
  refine ((searches_equal_scans_iff (InMemoryTx.valid_new sound).coherent).1 "owner" (.string "ann")).2 ?_
  intro _ _ n _ v _
  cases v with
  | number x => cases x <;> rfl
  | _ => rfl
