import Grm.Runtime.Requests
import Grm.Runtime.Search

/-!
# Where a flat find starts

`runtime/session.rs` picks the start of a flat find three times: `explain_node_find_query` for
the first step of its plan, `find_nodes_with_query` and `profile_flat_node_query` for the lookup
in the store. The plan takes the first equality predicate; the two lookups take the first one
with a plain value, for tagged values are in no property index.
-/

set_option autoImplicit false

/-! ## Planned steps -/

/-- `AccessPath`. -/
inductive AccessPath where
  | nodeIdLookup | nodeLabelIndex | nodePropertyIndex | relationshipIdLookup | relationshipTypeIndex
  | relationshipEndpointAdjacency | outgoingAdjacency | incomingAdjacency | bidirectionalAdjacency | scan
  deriving DecidableEq, Repr

namespace PlanStepKind

/-- `logical_name`. -/
def logicalName : PlanStepKind → String
  | nodeById .. => "NodeById"
  | nodeLabelScan .. => "NodeLabelScan"
  | nodePropertySeek .. => "NodePropertySeek"
  | nodeCheck .. => "NodeCheck"
  | nodeFilter .. => "NodeFilter"
  | relationshipById .. => "RelationshipById"
  | relationshipTypeScan .. => "RelationshipTypeScan"
  | relationshipEndpointSeek .. => "RelationshipEndpointSeek"
  | relationshipFilter .. => "RelationshipFilter"
  | expand .out .. => "ExpandOut"
  | expand .incoming .. => "ExpandIn"
  | expand .both .. => "ExpandBoth"
  | ret .. => "Return"

/-- `access_path`. -/
def accessPath : PlanStepKind → Option AccessPath
  | nodeById .. => some .nodeIdLookup
  | nodeLabelScan _ labels => some (if labels.isEmpty then .scan else .nodeLabelIndex)
  | nodePropertySeek .. => some .nodePropertyIndex
  | relationshipById .. => some .relationshipIdLookup
  | relationshipTypeScan .. => some .relationshipTypeIndex
  | relationshipEndpointSeek _ _ (some _) (some _) => some .relationshipEndpointAdjacency
  | relationshipEndpointSeek _ _ (some _) none => some .outgoingAdjacency
  | relationshipEndpointSeek _ _ none (some _) => some .incomingAdjacency
  | relationshipEndpointSeek _ _ none none => some .relationshipTypeIndex
  | expand .out .. => some .outgoingAdjacency
  | expand .incoming .. => some .incomingAdjacency
  | expand .both .. => some .bidirectionalAdjacency
  | nodeFilter .. | relationshipFilter .. => some .scan
  | nodeCheck .. | ret .. => none

/-- The filter step of a node. -/
def isNodeFilter : PlanStepKind → Bool
  | nodeFilter .. => true
  | _ => false

end PlanStepKind

/-- `PlannerStepMetadata`. -/
structure PlannerStepMetadata where
  chosenAnchor : Option String
  candidateAccessPaths : List AccessPath
  selectedAccessPath : Option AccessPath
  residualFilters : List String
  order : List String
  limit : Option Nat
  offset : Option Nat

/-- `PlanStep`. -/
structure PlanStep where
  kind : PlanStepKind
  planner : Option PlannerStepMetadata := none

/-- `node_candidate_access_paths`. -/
def nodeCandidateAccessPaths (query : NodeFindQuery) (filters : List PropertyFilter) : List AccessPath :=
  (if query.idFilter.isSome then [.nodeIdLookup] else []) ++
    (if filters.any fun f => f.op = .eq then [.nodePropertyIndex] else []) ++ [.nodeLabelIndex]

/-- `SortDirection::keyword`. -/
def SortDirection.keyword : SortDirection → String
  | .asc => "asc"
  | .desc => "desc"

/-- `order_terms`. -/
def orderTerms (orders : List SessionOrder) : List String :=
  orders.map fun order => order.field ++ ":" ++ order.direction.keyword

/-- `ProfileStepMetrics`, without the time. -/
structure ProfileStepMetrics where
  stepIndex : Nat
  kind : String
  accessPath : Option AccessPath
  inputRows : Option Nat
  outputRows : Option Nat

/-- `push_step_metric`: a step is measured once, and only when the plan has it. -/
def pushStepMetric (metrics : List ProfileStepMetrics) (plan : List PlanStep) (stepIndex : Nat)
    (inputRows outputRows : Option Nat) : List ProfileStepMetrics :=
  if metrics.any fun metric => metric.stepIndex == stepIndex then metrics
  else match plan[stepIndex]? with
    | some step => metrics ++ [⟨stepIndex, step.kind.logicalName, step.kind.accessPath, inputRows, outputRows⟩]
    | none => metrics

/-! ## Lookups -/

/-- What `snapshot_nodes_filtered` looks up. -/
inductive NodeLookup where
  | byId (id : Int)
  | byProperty (key : String) (value : Value)
  | byLabel

namespace NodeLookup

/-- The lookup that an id filter and an indexed property make of `snapshot_nodes_filtered`. -/
def ofArguments : Option Int → Option (String × Value) → NodeLookup
  | some id, _ => byId id
  | none, some (key, value) => byProperty key value
  | none, none => byLabel

def accessPath : NodeLookup → AccessPath
  | byId _ => .nodeIdLookup
  | byProperty .. => .nodePropertyIndex
  | byLabel => .nodeLabelIndex

/-- The step of a plan that stands for the lookup. -/
def step (label : String) : NodeLookup → PlanStepKind
  | byId id => .nodeById 0 [label] id
  | byProperty key _ => .nodePropertySeek 0 [label] key
  | byLabel => .nodeLabelScan 0 [label]

/-- The predicates the lookup does not answer. A property lookup answers the one whose value
it is given, the first equality with a plain value. -/
def unanswered (filters : List PropertyFilter) : NodeLookup → List PropertyFilter
  | byProperty .. => filters.eraseP fun f => f.op = .eq && !f.value.isObject
  | byId _ | byLabel => filters

/-- The nodes of a label that the lookup gives, and the store after it. -/
def nodes (store : GraphStore) (label : String) : NodeLookup → GraphStore × List StoredNode
  | byId id => (store, ((store.nodes[id]?).filter fun node => node.labels.any fun l => l == label).toList)
  | byProperty key value =>
    let (store, ids) := store.nodeIdsByLabelProperty label key value
    (store, ids.filterMap fun id => store.nodes[id]?)
  | byLabel => (store, (store.nodeIdsByLabel label).filterMap fun id => store.nodes[id]?)

end NodeLookup

theorem GraphStore.snapshotNodesFiltered_lookup (store : GraphStore) (label : String) (id : Option Int)
    (property : Option (String × Value)) :
    store.snapshotNodesFiltered label id property = (NodeLookup.ofArguments id property).nodes store label := by
  cases id with
  | some id => rfl
  | none =>
    cases property with
    | none => rfl
    | some entry => rfl

namespace SessionState
variable [Externals]

/-! ## The three choices -/

/-- The first step of a flat plan, with the planner's notes. -/
def flatAnchor (model : RuntimeNodeModel) (query : NodeFindQuery) (filters : List PropertyFilter) : PlanStep :=
  let note (anchor : String) (path : AccessPath) (residual : List String) : PlannerStepMetadata :=
    ⟨some anchor, nodeCandidateAccessPaths query filters, some path, residual, orderTerms query.order,
      query.limit, query.offset⟩
  match query.idFilter, (firstEqualityFilter filters).map PropertyFilter.key with
  | some id, _ =>
    ⟨.nodeById 0 [model.label] id, note ("id=" ++ toString id) .nodeIdLookup (predicateKeys filters)⟩
  | none, some key =>
    ⟨.nodePropertySeek 0 [model.label] key,
      note (model.label ++ "." ++ key) .nodePropertyIndex (residualPredicateKeys filters key)⟩
  | none, none => ⟨.nodeLabelScan 0 [model.label], note model.label .nodeLabelIndex (predicateKeys filters)⟩

/-- The plan of a flat find. -/
def flatPlan (model : RuntimeNodeModel) (query : NodeFindQuery) (filters : List PropertyFilter) : List PlanStep :=
  flatAnchor model query filters ::
    (filterStep (residualKeys query.idFilter filters) (.nodeFilter 0 [model.label] none) ++
      [PlanStepKind.ret 0 .node]).map fun kind => ⟨kind, none⟩

/-- The flat arm of `explain_node_find_query`, with the planner's notes. -/
def explainFlatNodeQuery (s : SessionState) (modelName : String) (query : NodeFindQuery) :
    GrmResult (List PlanStep) := do
  let some model := s.catalog.getNodeModel modelName | throw .notFound
  let filters ← parseModelPredicates query.predicates model
  validateNodeOrderFields model query.order
  return flatPlan model query filters

/-- The lookup `find_nodes_with_query` makes. -/
def findLookup (s : SessionState) (modelName : String) (query : NodeFindQuery) : GrmResult NodeLookup := do
  let some model := s.catalog.getNodeModel modelName | throw .notFound
  let filters ← parseModelPredicates query.predicates model
  return .ofArguments query.idFilter (indexedProperty filters)

/-- `profile_flat_node_query`: the session after it, the rows and the measured steps. -/
def profileFlatNodeQuery (s : SessionState) (modelName : String) (query : NodeFindQuery) (plan : List PlanStep) :
    SessionState × GrmResult (List StoredNode × List ProfileStepMetrics) :=
  match s.catalog.getNodeModel modelName with
  | none => (s, .error .notFound)
  | some model => match parseModelPredicates query.predicates model with
    | .error e => (s, .error e)
    | .ok filters =>
      let (store, nodes) := s.store.snapshotNodesFiltered model.label query.idFilter (indexedProperty filters)
      let metrics := pushStepMetric [] plan 0 (some 0) (some nodes.length)
      let kept := nodes.filter fun node => matchesPredicates node.props filters
      let metrics := match plan.findIdx? fun step => step.kind.isNodeFilter with
        | some filterIndex => pushStepMetric metrics plan filterIndex (some nodes.length) (some kept.length)
        | none => metrics
      ({ s with store }, (sortNodes kept model query.order).map fun sorted =>
        let rows := applyOffsetLimit sorted query.offset query.limit
        (rows, pushStepMetric metrics plan (plan.length - 1) (some kept.length) (some rows.length)))

/-- Profiling a flat find gives the session and the rows of the find. -/
theorem profileFlatNodeQuery_find (s : SessionState) (modelName : String) (query : NodeFindQuery) (plan : List PlanStep) :
    (s.profileFlatNodeQuery modelName query plan).1 = (s.findNodesWithQuery modelName query).1 ∧
      (s.profileFlatNodeQuery modelName query plan).2.map Prod.fst = (s.findNodesWithQuery modelName query).2 := by
  unfold profileFlatNodeQuery findNodesWithQuery
  cases s.catalog.getNodeModel modelName with
  | none => exact ⟨rfl, rfl⟩
  | some model =>
    dsimp only
    cases parseModelPredicates query.predicates model with
    | error e => exact ⟨rfl, rfl⟩
    | ok filters =>
      refine ⟨rfl, ?_⟩
      dsimp only [selectNodes]
      cases sortNodes _ model query.order <;> rfl

omit [Externals] in
theorem flatPlan_kinds (model : RuntimeNodeModel) (query : NodeFindQuery) (filters : List PropertyFilter) :
    (flatPlan model query filters).map PlanStep.kind =
      nodeAnchorStep { var := 0, labels := [model.label], idFilter := query.idFilter, propertyFilters := filters } ::
        filterStep (residualKeys query.idFilter filters) (.nodeFilter 0 [model.label] none) ++ [.ret 0 .node] := by
  unfold flatPlan flatAnchor nodeAnchorStep
  rw [List.map_cons, List.map_map]
  have kinds : PlanStep.kind ∘ (fun kind => (⟨kind, none⟩ : PlanStep)) = id := rfl
  rw [kinds, List.map_id, List.cons_append]
  cases query.idFilter with
  | some id => rfl
  | none => cases firstEqualityFilter filters <;> rfl

/-- Without the planner's notes the plan is that of `explain_node_find_query`. -/
theorem explainFlatNodeQuery_kinds (s : SessionState) (modelName : String) {query : NodeFindQuery}
    (flat : query.traversals = []) :
    (s.explainFlatNodeQuery modelName query).map (List.map PlanStep.kind) = s.explainNodeFindQuery modelName query := by
  unfold explainFlatNodeQuery explainNodeFindQuery
  rw [flat]
  cases s.catalog.getNodeModel modelName with
  | none => rfl
  | some model =>
    dsimp only [List.isEmpty_nil]
    cases parseModelPredicates query.predicates model with
    | error e => rfl
    | ok filters =>
      cases validateNodeOrderFields model query.order with
      | error e => rfl
      | ok _ => exact congrArg Except.ok (flatPlan_kinds model query filters)

end SessionState

/-! ## Tagged values and tagged fields -/

section Accepted
variable [Externals]

theorem parseTypedValue_isObject {kind : PrimitiveKind} {input : String} {value : Value}
    (parsed : parseTypedValue kind input = .ok value) : value.isObject = kind.isTagged := by
  have tagged : ∀ {canonical : Except String String}, canonical.map (Value.tagged kind) = .ok value →
      value.isObject = true := by
    intro canonical ok
    cases canonical with
    | error e => cases ok
    | ok raw => cases ok; rfl
  cases kind with
  | string => cases parsed; rfl
  | int =>
    unfold parseTypedValue at parsed
    dsimp only at parsed
    split at parsed
    case h_1 found =>
      cases parsed
      obtain ⟨i, -, converted⟩ := Option.bind_eq_some_iff.1 found
      unfold Value.ofInt? at converted
      split at converted
      · cases converted; rfl
      · cases converted
    case h_2 => cases parsed
  | float =>
    obtain ⟨x, rfl⟩ := parseFiniteFloat_float parsed
    rfl
  | bool =>
    unfold parseTypedValue at parsed
    dsimp only at parsed
    split at parsed
    · cases parsed; rfl
    · split at parsed
      · cases parsed; rfl
      · cases parsed
  | bytes | decimal | date | dateTime | duration | uuid => exact tagged parsed

theorem validateValueForKind_isObject {kind : PrimitiveKind} {value : Value}
    (valid : validateValueForKind kind value = true) : value.isObject = kind.isTagged := by
  cases value with
  | object fields => cases kind <;> first | rfl | cases valid
  | _ => cases kind <;> first | rfl | cases valid

/-- The values accepted for a field are tagged if the field's kind is. -/
theorem predicateValue_isObject {raw : SessionPredicateValue} {kind : PrimitiveKind} {field modelKind modelName : String}
    {value : Value} (accepted : predicateValue raw kind field modelKind modelName = .ok value) :
    value.isObject = kind.isTagged := by
  unfold predicateValue at accepted
  cases raw with
  | lexical input =>
    dsimp only at accepted
    cases parsed : parseTypedValue kind input with
    | error e => rw [parsed] at accepted; cases accepted
    | ok found => rw [parsed] at accepted; cases accepted; exact parseTypedValue_isObject parsed
  | typed found =>
    dsimp only at accepted
    split at accepted
    case isTrue valid => cases accepted; exact validateValueForKind_isObject valid
    case isFalse => cases accepted

/-- The filter `f` is the predicate `predicate`, its value parsed for a field of the model. -/
structure ParsedAs (fields : List RuntimeField) (predicate : SessionPredicate) (f : PropertyFilter) : Prop where
  op : f.op = predicate.op
  field : ∃ field, fieldNamed fields predicate.field = some field ∧ f.key = predicate.field ∧
    f.value.isObject = field.valueType.isTagged

theorem parseModelPredicates_parsedAs {predicates : List SessionPredicate} {model : RuntimeNodeModel}
    {filters : List PropertyFilter} (accepted : parseModelPredicates predicates model = .ok filters) :
    List.Forall₂ (ParsedAs model.fields) predicates filters := by
  unfold parseModelPredicates parsePredicates at accepted
  induction predicates generalizing filters with
  | nil => cases accepted; exact .nil
  | cons predicate predicates ih =>
    rw [List.mapM_cons] at accepted
    obtain ⟨f, parsed, accepted⟩ := GrmResult.bind_eq_ok.1 accepted
    obtain ⟨rest, others, accepted⟩ := GrmResult.bind_eq_ok.1 accepted
    cases accepted
    refine .cons ?_ (ih others)
    split at parsed
    · cases parsed
    · rename_i field named
      obtain ⟨value, ok, parsed⟩ := GrmResult.bind_eq_ok.1 parsed
      cases parsed
      exact ⟨rfl, field, named, rfl, predicateValue_isObject ok⟩

end Accepted

/-- Related lists whose related entries pass the tests alike have related first passing entries. -/
theorem List.Forall₂.find?_rel {α β : Type} {R : α → β → Prop} {p : α → Bool} {q : β → Bool}
    (alike : ∀ a b, R a b → p a = q b) {as : List α} {bs : List β} (related : List.Forall₂ R as bs) :
    Option.Rel R (as.find? p) (bs.find? q) := by
  induction related with
  | nil => exact .none
  | @cons a b as bs first _ ih =>
    rw [List.find?_cons, List.find?_cons, alike a b first]
    cases q b with
    | true => exact .some first
    | false => exact ih

/-- The first equality predicate, if any, is on a field whose values are not tagged. -/
def FirstEqualityPlain (model : RuntimeNodeModel) (predicates : List SessionPredicate) : Prop :=
  ∀ predicate, predicates.find? (fun predicate => decide (predicate.op = .eq)) = some predicate →
    ∀ field, fieldNamed model.fields predicate.field = some field → field.valueType.isTagged = false

section Accepted
variable [Externals]

theorem firstEqualityPlain_iff {predicates : List SessionPredicate} {model : RuntimeNodeModel}
    {filters : List PropertyFilter} (accepted : parseModelPredicates predicates model = .ok filters) :
    FirstEqualityPlain model predicates ↔ ∀ f, firstEqualityFilter filters = some f → f.value.isObject = false := by
  have alike : ∀ predicate f, ParsedAs model.fields predicate f → decide (predicate.op = .eq) = decide (f.op = .eq) := by
    intro predicate f parsed
    rw [parsed.op]
  have related := (parseModelPredicates_parsedAs accepted).find?_rel alike
  unfold FirstEqualityPlain firstEqualityFilter
  generalize predicates.find? (fun predicate => decide (predicate.op = .eq)) = first at related
  generalize filters.find? (fun f => decide (f.op = .eq)) = firstFilter at related
  cases related with
  | none => exact ⟨fun _ => nofun, fun _ => nofun⟩
  | @some predicate f parsed =>
    obtain ⟨field, named, -, tagged⟩ := parsed.field
    constructor
    · intro plain f' same
      cases same
      rw [tagged]
      exact plain predicate rfl field named
    · intro plain predicate' same field' named'
      cases same
      rw [named] at named'
      cases named'
      rw [← tagged]
      exact plain f rfl

/-- Of two filters on one key both values are tagged or none is. -/
theorem isObject_eq_of_key {predicates : List SessionPredicate} {model : RuntimeNodeModel}
    {filters : List PropertyFilter} (accepted : parseModelPredicates predicates model = .ok filters)
    {f g : PropertyFilter} (memberF : f ∈ filters) (memberG : g ∈ filters) (same : f.key = g.key) :
    f.value.isObject = g.value.isObject := by
  obtain ⟨rawF, fieldF, namedF, okF⟩ := parsePredicates_field accepted memberF
  obtain ⟨rawG, fieldG, namedG, okG⟩ := parsePredicates_field accepted memberG
  rw [same, namedG] at namedF
  cases namedF
  rw [predicateValue_isObject okF, predicateValue_isObject okG]

end Accepted

/-! ## What the plan tells -/

/-- The plan says where the find starts and what it leaves to be filtered. -/
structure Tells (plan : List PlanStep) (label : String) (lookup : NodeLookup) (filters : List PropertyFilter) : Prop where
  first : plan.head?.map PlanStep.kind = some (lookup.step label)
  selected : (plan.head?.bind PlanStep.planner).bind PlannerStepMetadata.selectedAccessPath = some lookup.accessPath
  residual : (plan.head?.bind PlanStep.planner).map PlannerStepMetadata.residualFilters =
    some (predicateKeys (lookup.unanswered filters))
  filtered : (plan.map PlanStep.kind).filter PlanStepKind.isNodeFilter =
    SessionState.filterStep (predicateKeys (lookup.unanswered filters)) (.nodeFilter 0 [label] none)

namespace SessionState

/-- The filter steps of a flat plan. -/
theorem flatPlan_filtered (model : RuntimeNodeModel) (query : NodeFindQuery) (filters : List PropertyFilter) :
    ((flatPlan model query filters).map PlanStep.kind).filter PlanStepKind.isNodeFilter =
      filterStep (residualKeys query.idFilter filters) (.nodeFilter 0 [model.label] none) := by
  rw [flatPlan_kinds]
  have anchor : ∀ nm : NodeMatch, (nodeAnchorStep nm).isNodeFilter = false := by
    intro nm
    unfold nodeAnchorStep
    split <;> rfl
  rw [List.filter_append, List.filter_cons_of_neg (by simp [anchor])]
  unfold filterStep
  split <;> rfl

theorem firstEqualityFilter_some {filters : List PropertyFilter} {f : PropertyFilter}
    (first : firstEqualityFilter filters = some f) : f.op = .eq ∧ f ∈ filters :=
  ⟨of_decide_eq_true (List.find?_some (p := fun g : PropertyFilter => decide (g.op = .eq)) first),
    List.mem_of_find?_eq_some first⟩

/-- A first equality with a plain value is the one that is looked up. -/
theorem indexedProperty_of_first {filters : List PropertyFilter} {f : PropertyFilter}
    (first : firstEqualityFilter filters = some f) (plain : f.value.isObject = false) :
    indexedProperty filters = some (f.key, f.value) ∧
      (filters.eraseP fun f => f.op = .eq && !f.value.isObject) = filters.eraseP fun g => g.op = .eq && g.key == f.key := by
  obtain ⟨equality, before, after, rfl, earlier⟩ := List.find?_eq_some_iff_append.1 first
  have unlike : ∀ g ∈ before, ¬g.op = .eq := fun g member holds => by simpa [holds] using earlier g member
  have op : f.op = .eq := of_decide_eq_true equality
  constructor
  · unfold indexedProperty
    rw [List.find?_append, List.find?_eq_none.2 fun g member => by simp [unlike g member]]
    simp [op, plain]
  · rw [List.eraseP_append_right _ fun g member => by simp [unlike g member],
      List.eraseP_append_right _ fun g member => by simp [unlike g member]]
    simp [op, plain]

theorem indexedProperty_of_none {filters : List PropertyFilter} (none_ : firstEqualityFilter filters = none) :
    indexedProperty filters = none := by
  unfold indexedProperty
  rw [List.find?_eq_none.2, Option.map_none]
  intro f member
  have other := List.find?_eq_none.1 none_ f member
  simp only [decide_eq_true_eq] at other
  simp [other]

/-- The plan tells the lookup if an id is asked for or no first equality is tagged. -/
theorem flatPlan_tells_iff {model : RuntimeNodeModel} {query : NodeFindQuery} {filters : List PropertyFilter}
    (alike : ∀ f ∈ filters, ∀ g ∈ filters, f.key = g.key → f.value.isObject = g.value.isObject) :
    Tells (flatPlan model query filters) model.label (.ofArguments query.idFilter (indexedProperty filters)) filters ↔
      query.idFilter.isSome ∨ ∀ f, firstEqualityFilter filters = some f → f.value.isObject = false := by
  have filtered := flatPlan_filtered model query filters
  unfold residualKeys at filtered
  unfold flatPlan flatAnchor at *
  cases asked : query.idFilter with
  | some id =>
    rw [asked] at filtered
    exact ⟨fun _ => .inl rfl, fun _ => ⟨rfl, rfl, rfl, filtered⟩⟩
  | none =>
    rw [asked] at filtered
    cases first : firstEqualityFilter filters with
    | none =>
      rw [first] at filtered
      rw [indexedProperty_of_none first]
      exact ⟨fun _ => .inr fun _ => nofun, fun _ => ⟨rfl, rfl, rfl, filtered⟩⟩
    | some f =>
      rw [first] at filtered
      cases tagged : f.value.isObject with
      | false =>
        obtain ⟨indexed, erased⟩ := indexedProperty_of_first first tagged
        refine ⟨fun _ => .inr fun g same => by cases same; exact tagged, fun _ => ?_⟩
        rw [indexed]
        have left : predicateKeys ((NodeLookup.byProperty f.key f.value).unanswered filters) =
            residualPredicateKeys filters f.key := congrArg predicateKeys erased
        exact ⟨rfl, rfl, congrArg some left.symm,
          filtered.trans (congrArg (fun keys => filterStep keys (.nodeFilter 0 [model.label] none)) left.symm)⟩
      | true =>
        refine ⟨fun tells => ?_, fun plain => ?_⟩
        · have told := tells.first
          cases indexed : indexedProperty filters with
          | none => rw [indexed] at told; cases told
          | some entry =>
            obtain ⟨key, value⟩ := entry
            obtain ⟨g, member, -, plain, rfl, rfl⟩ := indexedProperty_eq_some indexed
            rw [indexed] at told
            have key : f.key = g.key := by injection told with told; injection told
            have same := alike f (firstEqualityFilter_some first).2 g member key
            rw [tagged, plain] at same
            cases same
        · rcases plain with asked | plain
          · cases asked
          · rw [plain f rfl] at tagged
            cases tagged

end SessionState

/-! ## What the lookup answers -/

/-- An integer has one of the two integer kinds. -/
theorem Number.int_kind (i : JsonInt) : (Number.int i).isI64 = true ∨ (Number.int i).isU64 = true := by
  by_cases negative : i.val < 0
  · left
    simp only [isI64, asI64, Option.isSome_ite]
    omega
  · right
    unfold isU64
    simp only [decide_eq_true_eq]
    omega

/-- An indexable value and one equal to it have the same kind. -/
theorem valuesHaveSameKind_of_eq {v value : Value} (indexable : GraphStore.propertyValueIsIndexable value = true)
    (equal : v.eq value = true) : valuesHaveSameKind v value = true := by
  cases value with
  | null => cases v <;> first | rfl | cases equal
  | bool b => cases v <;> first | rfl | cases equal
  | string text => cases v <;> first | rfl | cases equal
  | array items => cases indexable
  | object fields => cases indexable
  | number n =>
    cases v with
    | number m =>
      unfold Value.eq at equal
      cases n with
      | int j =>
        cases m with
        | int i =>
          obtain ⟨i, lowI, highI⟩ := i
          obtain ⟨j, lowJ, highJ⟩ := j
          obtain rfl : i = j := beq_iff_eq.1 equal
          let n : Number := .int ⟨i, lowI, highI⟩
          show ((n.isI64 && n.isI64) || (n.isU64 && n.isU64) || (n.isF64 && n.isF64)) = true
          rcases Number.int_kind ⟨i, lowI, highI⟩ with small | large
          · simp [n, small]
          · simp [n, large]
        | float x => cases equal
      | float y =>
        cases m with
        | int i => cases equal
        | float x => rfl
    | _ => cases equal

namespace SessionState
variable [Externals]

/-- A node that meets the filter that is looked up meets all filters if it meets the others. -/
theorem matchesPredicates_unanswered {filters : List PropertyFilter} {f : PropertyFilter} {props : Props}
    (looked : filters.find? (fun f => f.op = .eq && !f.value.isObject) = some f)
    (meets : (props[f.key]?).any (fun stored => compareTypedValues stored f.op f.value) = true) :
    matchesPredicates props (filters.eraseP fun f => f.op = .eq && !f.value.isObject) = matchesPredicates props filters := by
  obtain ⟨holds, before, after, rfl, earlier⟩ := List.find?_eq_some_iff_append.1 looked
  have erased : (before ++ f :: after).eraseP (fun f => f.op = .eq && !f.value.isObject) = before ++ after := by
    have others : ∀ g ∈ before, ¬(decide (g.op = .eq) && !g.value.isObject) = true := by
      intro g member
      rw [Bool.not_eq_true]
      simpa only [Bool.not_eq_true'] using earlier g member
    rw [List.eraseP_append_right _ others, List.eraseP_cons, holds, cond_true]
  rw [erased]
  unfold matchesPredicates
  rw [List.all_append, List.all_append, List.all_cons, meets, Bool.true_and]

/-- A property lookup gives only nodes that meet the predicate it answers. -/
theorem nodes_meet {store : GraphStore} (h : store.Indexed) {label : String} {f : PropertyFilter} (equality : f.op = .eq)
    (indexable : GraphStore.propertyValueIsIndexable f.value = true) {n : StoredNode}
    (member : n ∈ ((NodeLookup.byProperty f.key f.value).nodes store label).2) :
    (n.props[f.key]?).any (fun stored => compareTypedValues stored f.op f.value) = true := by
  have listed := h.nodeIdsByLabelProperty_exact label f.key indexable
  have same : (store.nodeIdsByLabelProperty label f.key f.value).1.nodes = store.nodes := store.freshProps_nodes
  unfold NodeLookup.nodes at member
  dsimp only at member
  rw [same, List.mem_filterMap] at member
  obtain ⟨id, candidate, found⟩ := member
  obtain ⟨m, stored, -, v, held, equal, -⟩ := (listed.2 id).1 candidate
  rw [stored] at found
  cases found
  rw [held, Option.any_some, equality]
  unfold compareTypedValues
  rw [valuesHaveSameKind_of_eq indexable equal]
  exact equal

/-- The nodes of the lookup that meet the predicates it leaves meet all of them. -/
theorem unanswered_rows {store : GraphStore} (h : store.Indexed) {predicates : List SessionPredicate}
    {model : RuntimeNodeModel} {filters : List PropertyFilter}
    (accepted : parseModelPredicates predicates model = .ok filters) (idFilter : Option Int) (label : String) :
    let lookup := NodeLookup.ofArguments idFilter (indexedProperty filters)
    (lookup.nodes store label).2.filter (fun node => matchesPredicates node.props filters) =
      (lookup.nodes store label).2.filter fun node => matchesPredicates node.props (lookup.unanswered filters) := by
  intro lookup
  cases idFilter with
  | some id => rfl
  | none =>
    cases looked : filters.find? fun f => f.op = .eq && !f.value.isObject with
    | none =>
      have none_ : lookup = .byLabel := by
        show NodeLookup.ofArguments none ((filters.find? _).map _) = _
        rw [looked]
        rfl
      rw [none_]
      rfl
    | some f =>
      have chosen := List.find?_some (p := fun f : PropertyFilter => f.op = .eq && !f.value.isObject) looked
      have present := List.mem_of_find?_eq_some looked
      simp only [Bool.and_eq_true, decide_eq_true_eq, Bool.not_eq_true'] at chosen
      have indexable : GraphStore.propertyValueIsIndexable f.value = true := by
        rcases parseModelPredicates_plainOrTagged accepted present with object | indexable
        · rw [chosen.2] at object
          cases object
        · exact indexable
      have seek : lookup = .byProperty f.key f.value := by
        show NodeLookup.ofArguments none ((filters.find? _).map _) = _
        rw [looked]
        rfl
      rw [seek]
      apply List.filter_congr
      intro n member
      exact (matchesPredicates_unanswered looked (nodes_meet h chosen.1 indexable member)).symm

end SessionState

/-! ## The find, its profile and its plan -/

theorem head?_pushStepMetric {metrics : List ProfileStepMetrics} {metric : ProfileStepMetrics}
    (first : metrics.head? = some metric) (plan : List PlanStep) (stepIndex : Nat) (inputRows outputRows : Option Nat) :
    (pushStepMetric metrics plan stepIndex inputRows outputRows).head? = some metric := by
  unfold pushStepMetric
  split
  · exact first
  · split
    · rw [List.head?_append, first, Option.some_or]
    · exact first

namespace SessionState
variable [Externals]

/-- A flat find and its profile start from the lookup and filter its nodes by what it leaves. -/
structure StartsFrom (s : SessionState) (modelName : String) (model : RuntimeNodeModel) (query : NodeFindQuery)
    (filters : List PropertyFilter) (lookup : NodeLookup) : Prop where
  find : s.findNodesWithQuery modelName query =
    ({ s with store := (lookup.nodes s.store model.label).1 },
      (sortNodes ((lookup.nodes s.store model.label).2.filter fun node =>
          matchesPredicates node.props (lookup.unanswered filters)) model query.order).map
        fun nodes => applyOffsetLimit nodes query.offset query.limit)
  profile : ∀ plan, (s.profileFlatNodeQuery modelName query plan).1 = (s.findNodesWithQuery modelName query).1 ∧
    (s.profileFlatNodeQuery modelName query plan).2.map Prod.fst = (s.findNodesWithQuery modelName query).2
  measured : ∀ first rest rows metrics,
    (s.profileFlatNodeQuery modelName query (first :: rest)).2 = .ok (rows, metrics) →
      metrics.head? = some ⟨0, first.kind.logicalName, first.kind.accessPath, some 0,
        some (lookup.nodes s.store model.label).2.length⟩

theorem startsFrom_lookup {s : SessionState} (indexed : s.store.Indexed) {modelName : String} {model : RuntimeNodeModel}
    (known : s.catalog.getNodeModel modelName = some model) {query : NodeFindQuery} {filters : List PropertyFilter}
    (accepted : parseModelPredicates query.predicates model = .ok filters) :
    s.StartsFrom modelName model query filters (.ofArguments query.idFilter (indexedProperty filters)) where
  find := by
    unfold findNodesWithQuery
    rw [known]
    dsimp only
    rw [accepted]
    dsimp only [selectNodes]
    rw [GraphStore.snapshotNodesFiltered_lookup, unanswered_rows indexed accepted]
  profile := s.profileFlatNodeQuery_find modelName query
  measured := by
    intro first rest rows metrics done
    unfold profileFlatNodeQuery at done
    rw [known] at done
    dsimp only at done
    rw [accepted] at done
    obtain ⟨sorted, -, done⟩ := GrmResult.map_eq_ok.1 done
    cases done
    apply head?_pushStepMetric
    rw [GraphStore.snapshotNodesFiltered_lookup]
    split
    · exact head?_pushStepMetric rfl _ _ _ _
    · rfl

/-- The plan of a flat find tells the lookup the find and its profile start from, and the predicates
it leaves, if and only if an id is asked for or the first equality is on a field without tagged values. -/
theorem explain_tells_lookup_iff {s : SessionState} (reachable : s.Reachable) {modelName : String}
    {model : RuntimeNodeModel} (known : s.catalog.getNodeModel modelName = some model) {query : NodeFindQuery}
    (flat : query.traversals = []) {plan : List PlanStep} (explained : s.explainFlatNodeQuery modelName query = .ok plan) :
    ∃ lookup filters, s.explainNodeFindQuery modelName query = .ok (plan.map PlanStep.kind) ∧
      parseModelPredicates query.predicates model = .ok filters ∧ s.findLookup modelName query = .ok lookup ∧
      s.StartsFrom modelName model query filters lookup ∧
      (Tells plan model.label lookup filters ↔ query.idFilter.isSome ∨ FirstEqualityPlain model query.predicates) := by
  have kinds := s.explainFlatNodeQuery_kinds modelName flat
  rw [explained] at kinds
  unfold explainFlatNodeQuery at explained
  rw [known] at explained
  obtain ⟨filters, accepted, explained⟩ := GrmResult.bind_eq_ok.1 explained
  obtain ⟨_, -, explained⟩ := GrmResult.bind_eq_ok.1 explained
  cases explained
  refine ⟨.ofArguments query.idFilter (indexedProperty filters), filters, kinds.symm, accepted, ?_,
    startsFrom_lookup reachable.sound.indexed known accepted, ?_⟩
  · unfold findLookup
    rw [known]
    dsimp only
    rw [accepted]
    rfl
  · rw [firstEqualityPlain_iff accepted]
    exact flatPlan_tells_iff fun f memberF g memberG => isObject_eq_of_key accepted memberF memberG

end SessionState

/-! ### A decimal field -/

/-- A model of items with a decimal price. -/
def itemRequests : List RuntimeRequest :=
  [.schema (.defineNode ⟨"Item", "iid", [⟨"price", .decimal, true⟩, ⟨"stock", .int, true⟩]⟩)]

def itemSession : SessionState := @SessionState.run Externals.plainOnly .new itemRequests

def itemModel : RuntimeNodeModel :=
  ⟨"Item", "Item", "iid", .int64, .declared, [⟨"price", .decimal, true⟩, ⟨"stock", .int, true⟩]⟩

/-- `price=1.5`. -/
def priceQuery : NodeFindQuery := { predicates := [⟨"price", .eq, .lexical "1.5"⟩] }

/-- `stock=2 price=1.5`. -/
def stockQuery : NodeFindQuery := { predicates := [⟨"stock", .eq, .lexical "2"⟩, ⟨"price", .eq, .lexical "1.5"⟩] }

theorem itemSession_model : itemSession.catalog.getNodeModel "Item" = some itemModel := rfl

/-- The price, as parsed. -/
def priceFilter : PropertyFilter := ⟨"price", .eq, .tagged .decimal "1.5"⟩

/-- The plan made for the price alone. -/
def pricePlan : List PlanStep :=
  [⟨.nodePropertySeek 0 ["Item"] "price",
    some ⟨some "Item.price", [.nodePropertyIndex, .nodeLabelIndex], some .nodePropertyIndex, [], [], none, none⟩⟩,
    ⟨.ret 0 .node, none⟩]

/-- The stock, as parsed. -/
def stockFilter : PropertyFilter := ⟨"stock", .eq, .number (.int ⟨2, by decide, by decide⟩)⟩

theorem stockQuery_parsed :
    letI := Externals.plainOnly
    parseModelPredicates stockQuery.predicates itemModel = .ok [stockFilter, priceFilter] := rfl

theorem stockQuery_planned :
    letI := Externals.plainOnly
    itemSession.explainFlatNodeQuery "Item" stockQuery =
      .ok (SessionState.flatPlan itemModel stockQuery [stockFilter, priceFilter]) := rfl

theorem stockQuery_lookup :
    letI := Externals.plainOnly
    itemSession.findLookup "Item" stockQuery = .ok (.byProperty "stock" stockFilter.value) := rfl

/-- The stock stands first: the find starts from the index on it and is left with the price. -/
theorem explain_tells_lookup_iff_stock :
    letI := Externals.plainOnly
    ∃ plan, itemSession.explainFlatNodeQuery "Item" stockQuery = .ok plan ∧
      Tells plan "Item" (.byProperty "stock" stockFilter.value) [stockFilter, priceFilter] := by
  let := Externals.plainOnly
  obtain ⟨lookup, filters, -, accepted, found, -, iff⟩ := SessionState.explain_tells_lookup_iff
    (SessionState.reachable_new.run itemRequests) itemSession_model rfl stockQuery_planned
  cases stockQuery_parsed.symm.trans accepted
  cases stockQuery_lookup.symm.trans found
  refine ⟨_, stockQuery_planned, iff.2 (.inr ?_)⟩
  intro predicate first field named
  cases first
  cases named
  rfl

/-- The price alone: the plan seeks it in the property index and leaves nothing to be filtered, while
the find scans the label. -/
theorem price_lookup_untold :
    letI := Externals.plainOnly
    itemSession.Reachable ∧ itemSession.explainFlatNodeQuery "Item" priceQuery = .ok pricePlan ∧
      parseModelPredicates priceQuery.predicates itemModel = .ok [priceFilter] ∧
      itemSession.findLookup "Item" priceQuery = .ok .byLabel ∧ ¬Tells pricePlan "Item" .byLabel [priceFilter] := by
  let := Externals.plainOnly
  refine ⟨SessionState.reachable_new.run itemRequests, rfl, rfl, rfl, fun tells => ?_⟩
  have told : some AccessPath.nodePropertyIndex = some .nodeLabelIndex := tells.selected
  cases told
