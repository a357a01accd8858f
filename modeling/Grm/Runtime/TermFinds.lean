import Grm.Runtime.Explain
import Grm.Runtime.FrontEnds

/-!
# The finds of the two front ends

A text is a value of a string field only, so the adapter's find is refused as soon as a
predicate names a field of another kind, where the session parses the text for the field.
-/

set_option autoImplicit false

/-! ## Predicates with texts -/

/-- The predicates name string fields, or none of the fields. -/
def TextualOn (fields : List RuntimeField) (predicates : List SessionPredicate) : Prop :=
  ∀ predicate ∈ predicates, ∀ field, fieldNamed fields predicate.field = some field → field.valueType = .string

section Predicates
variable [Externals]

/-- A text is accepted as a value of a string field, where it is the value it is parsed to. -/
theorem predicateValue_text_iff {raw field modelKind modelName : String} {kind : PrimitiveKind} {value : Value} :
    predicateValue (.typed (.string raw)) kind field modelKind modelName = .ok value ↔
      predicateValue (.lexical raw) kind field modelKind modelName = .ok value ∧ kind = .string := by
  cases kind with
  | string => exact ⟨fun ok => ⟨ok, rfl⟩, fun ok => ok.1⟩
  | _ => exact ⟨nofun, fun ok => by cases ok.2⟩

theorem parsePredicates_text_iff {modelKind modelName : String} {fields : List RuntimeField}
    {predicates predicates' : List SessionPredicate} (related : List.Forall₂ AsText predicates predicates')
    {filters : List PropertyFilter} :
    parsePredicates modelKind modelName fields predicates' = .ok filters ↔
      parsePredicates modelKind modelName fields predicates = .ok filters ∧ TextualOn fields predicates := by
  unfold parsePredicates TextualOn
  induction related generalizing filters with
  | nil => exact ⟨fun ok => ⟨ok, nofun⟩, fun ok => ok.1⟩
  | @cons predicate predicate' predicates predicates' first _ ih =>
    obtain ⟨raw, lexical, text⟩ := first.value
    rw [List.mapM_cons, List.mapM_cons, GrmResult.bind_eq_ok, GrmResult.bind_eq_ok, List.forall_mem_cons, first.field,
      first.op, lexical, text]
    cases named : fieldNamed fields predicate.field with
    | none => exact ⟨by rintro ⟨_, ⟨⟩, -⟩, by rintro ⟨⟨_, ⟨⟩, -⟩, -⟩⟩
    | some field =>
      dsimp only
      simp only [GrmResult.bind_eq_ok, predicateValue_text_iff, ih]
      constructor
      · rintro ⟨f, ⟨value, ⟨read, textual⟩, made⟩, rest, ⟨others, textuals⟩, all⟩
        exact ⟨⟨f, ⟨value, read, made⟩, rest, others, all⟩, fun _ same => by cases same; exact textual, textuals⟩
      · rintro ⟨⟨f, ⟨value, read, made⟩, rest, others, all⟩, textual, textuals⟩
        exact ⟨f, ⟨value, ⟨read, textual field rfl⟩, made⟩, rest, ⟨others, textuals⟩, all⟩

end Predicates

namespace SessionState
variable [Externals] {s : SessionState} {modelName : String} {model : RuntimeNodeModel}

/-! ## When a find succeeds -/

theorem findNodesWithQuery_ok_iff (known : s.catalog.getNodeModel modelName = some model) {query : NodeFindQuery}
    {rows : List StoredNode} :
    (s.findNodesWithQuery modelName query).2 = .ok rows ↔
      ∃ filters, parseModelPredicates query.predicates model = .ok filters ∧
        (sortNodes (selectNodes s.store model query.idFilter filters).2 model query.order).map
          (fun nodes => applyOffsetLimit nodes query.offset query.limit) = .ok rows := by
  unfold findNodesWithQuery
  rw [known]
  dsimp only
  cases parseModelPredicates query.predicates model with
  | error e => exact ⟨nofun, by rintro ⟨_, ⟨⟩, -⟩⟩
  | ok filters => exact ⟨fun ok => ⟨filters, rfl, ok⟩, by rintro ⟨_, ⟨⟩, ok⟩; exact ok⟩

/-- A find without traversals. -/
theorem executeNodeQuery_flat (known : s.catalog.getNodeModel modelName = some model) {query : NodeFindQuery}
    (flat : query.traversals = []) {result : SessionQueryResult} :
    (s.executeNodeQuery modelName query).2 = .ok result ↔
      ∃ rows, (s.findNodesWithQuery modelName query).2 = .ok rows ∧ .nodes model rows = result := by
  have catalog := (findNodesWithQuery_reads s modelName query).catalog
  unfold executeNodeQuery
  rw [flat, if_pos List.isEmpty_nil]
  dsimp only
  rw [catalog, known]
  cases (s.findNodesWithQuery modelName query).2 with
  | error e => exact ⟨nofun, by rintro ⟨_, ⟨⟩, -⟩⟩
  | ok rows => exact ⟨fun ok => ⟨rows, rfl, Except.ok.inj ok⟩, by rintro ⟨_, ⟨⟩, rfl⟩; rfl⟩

theorem traversalRows_ok_iff {query : NodeFindQuery} {rootFilters : List PropertyFilter} {plan : RuntimeTraversalPlan}
    {rows : List QueryRow} :
    (s.traversalRows query rootFilters plan).2 = .ok rows ↔
      ∃ tx found endFilters edgeFilters, (InMemoryTx.new s.store).executeGraphQuery plan.graphQuery = .ok (tx, found) ∧
        parseModelPredicates query.endPredicates plan.endModel = .ok endFilters ∧
        parseRelPredicates query.edgePredicates plan.returnRelModel = .ok edgeFilters ∧
        found.filter (keepRow plan rootFilters endFilters edgeFilters) = rows := by
  unfold traversalRows
  cases (InMemoryTx.new s.store).executeGraphQuery plan.graphQuery with
  | error e => exact ⟨nofun, by rintro ⟨_, _, _, _, ⟨⟩, -⟩⟩
  | ok run =>
    obtain ⟨tx, found⟩ := run
    constructor
    · intro ok
      obtain ⟨endFilters, ends, ok⟩ := GrmResult.bind_eq_ok.1 ok
      obtain ⟨edgeFilters, edges, ok⟩ := GrmResult.bind_eq_ok.1 ok
      exact ⟨tx, found, endFilters, edgeFilters, rfl, ends, edges, Except.ok.inj ok⟩
    · rintro ⟨_, _, endFilters, edgeFilters, ⟨⟩, ends, edges, rfl⟩
      exact GrmResult.bind_eq_ok.2 ⟨endFilters, ends, GrmResult.bind_eq_ok.2 ⟨edgeFilters, edges, rfl⟩⟩

/-- A find with traversals. -/
theorem executeNodeQuery_traversal (known : s.catalog.getNodeModel modelName = some model) {query : NodeFindQuery}
    (traverses : query.traversals ≠ []) {result : SessionQueryResult} :
    (s.executeNodeQuery modelName query).2 = .ok result ↔
      ∃ rootFilters plan rows, parseModelPredicates query.predicates model = .ok rootFilters ∧
        s.buildRuntimeGraphQuery model query = .ok plan ∧ (s.traversalRows query rootFilters plan).2 = .ok rows ∧
        presentRows model query plan rows = .ok result := by
  unfold executeNodeQuery executeNodeTraversalQuery planTraversal
  rw [if_neg (mt List.isEmpty_iff.1 traverses), known]
  dsimp only
  cases parseModelPredicates query.predicates model with
  | error e => exact ⟨nofun, by rintro ⟨_, _, _, ⟨⟩, -⟩⟩
  | ok rootFilters =>
    cases s.buildRuntimeGraphQuery model query with
    | error e => exact ⟨nofun, by rintro ⟨_, _, _, -, ⟨⟩, -⟩⟩
    | ok plan =>
      constructor
      · intro ok
        obtain ⟨rows, found, ok⟩ := GrmResult.bind_eq_ok.1 ok
        exact ⟨rootFilters, plan, rows, rfl, rfl, found, ok⟩
      · rintro ⟨_, _, rows, ⟨⟩, ⟨⟩, found, ok⟩
        exact GrmResult.bind_eq_ok.2 ⟨rows, found, ok⟩

/-! ## Finds with texts -/

/-- Every predicate names string fields, of the model it is checked against. -/
structure Textual (s : SessionState) (model : RuntimeNodeModel) (query : NodeFindQuery) : Prop where
  root : TextualOn model.fields query.predicates
  ends : ∀ plan, s.buildRuntimeGraphQuery model query = .ok plan → TextualOn plan.endModel.fields query.endPredicates
  edges : ∀ plan, s.buildRuntimeGraphQuery model query = .ok plan →
    TextualOn plan.returnRelModel.fields query.edgePredicates

theorem buildRuntimeGraphQuery_text_iff {query query' : NodeFindQuery} (same : SameButText query query')
    (id : query'.idFilter = query.idFilter) {plan : RuntimeTraversalPlan} :
    s.buildRuntimeGraphQuery model query' = .ok plan ↔
      s.buildRuntimeGraphQuery model query = .ok plan ∧ TextualOn model.fields query.predicates := by
  unfold buildRuntimeGraphQuery
  rw [GrmResult.bind_eq_ok, GrmResult.bind_eq_ok, id, same.traversals, same.returnMode]
  have root : ∀ filters, parseModelPredicates query'.predicates model = .ok filters ↔ _ :=
    fun filters => parsePredicates_text_iff same.predicates
  constructor
  · rintro ⟨filters, parsed, built⟩
    obtain ⟨parsed, textual⟩ := (root filters).1 parsed
    exact ⟨⟨filters, parsed, built⟩, textual⟩
  · rintro ⟨⟨filters, parsed, built⟩, textual⟩
    exact ⟨filters, (root filters).2 ⟨parsed, textual⟩, built⟩

theorem presentRows_same {query query' : NodeFindQuery} (same : SameButText query query') (plan : RuntimeTraversalPlan)
    (rows : List QueryRow) : presentRows model query' plan rows = presentRows model query plan rows := by
  unfold presentRows
  rw [same.returnMode, same.format, same.order, same.offset, same.limit]

/-- The adapter's find gives what the session's gives when the predicates are on string fields,
and nothing when they are not. -/
theorem executeNodeQuery_text_iff (known : s.catalog.getNodeModel modelName = some model)
    {query query' : NodeFindQuery} (same : SameButText query query') (id : query'.idFilter = query.idFilter)
    (anchored : query.Anchored) {result : SessionQueryResult} :
    (s.executeNodeQuery modelName query').2 = .ok result ↔
      (s.executeNodeQuery modelName query).2 = .ok result ∧ s.Textual model query := by
  by_cases flat : query.traversals = []
  · obtain ⟨noEnds, noEdges, -⟩ := anchored flat
    have textual : s.Textual model query ↔ TextualOn model.fields query.predicates := by
      refine ⟨Textual.root, fun root => ⟨root, fun _ _ => ?_, fun _ _ => ?_⟩⟩
      · rw [noEnds]; exact nofun
      · rw [noEdges]; exact nofun
    rw [executeNodeQuery_flat known flat, executeNodeQuery_flat known (same.traversals.trans flat), textual]
    simp only [findNodesWithQuery_ok_iff known, id, same.order, same.offset, same.limit]
    have root : ∀ filters, parseModelPredicates query'.predicates model = .ok filters ↔ _ :=
      fun filters => parsePredicates_text_iff same.predicates
    simp only [root]
    constructor
    · rintro ⟨rows, ⟨filters, ⟨parsed, textual⟩, found⟩, made⟩
      exact ⟨⟨rows, ⟨filters, parsed, found⟩, made⟩, textual⟩
    · rintro ⟨⟨rows, ⟨filters, parsed, found⟩, made⟩, textual⟩
      exact ⟨rows, ⟨filters, ⟨parsed, textual⟩, found⟩, made⟩
  · rw [executeNodeQuery_traversal known flat, executeNodeQuery_traversal known (by rw [same.traversals]; exact flat)]
    have root : ∀ filters, parseModelPredicates query'.predicates model = .ok filters ↔ _ :=
      fun filters => parsePredicates_text_iff same.predicates
    have ends : ∀ (end_ : RuntimeNodeModel) filters, parseModelPredicates query'.endPredicates end_ = .ok filters ↔ _ :=
      fun end_ filters => parsePredicates_text_iff same.endPredicates
    have edges : ∀ (rel : RuntimeRelModel) filters, parseRelPredicates query'.edgePredicates rel = .ok filters ↔ _ :=
      fun rel filters => parsePredicates_text_iff same.edgePredicates
    simp only [traversalRows_ok_iff, presentRows_same same, root, ends, edges, buildRuntimeGraphQuery_text_iff same id]
    constructor
    · rintro ⟨rootFilters, plan, rows, ⟨parsed, rootText⟩, ⟨built, -⟩,
        ⟨tx, found, endFilters, edgeFilters, ran, ⟨endParsed, endText⟩, ⟨edgeParsed, edgeText⟩, kept⟩, shown⟩
      refine ⟨⟨rootFilters, plan, rows, parsed, built, ⟨tx, found, endFilters, edgeFilters, ran, endParsed, edgeParsed, kept⟩,
        shown⟩, rootText, fun plan' built' => ?_, fun plan' built' => ?_⟩
      · cases built.symm.trans built'
        exact endText
      · cases built.symm.trans built'
        exact edgeText
    · rintro ⟨⟨rootFilters, plan, rows, parsed, built, ⟨tx, found, endFilters, edgeFilters, ran, endParsed, edgeParsed, kept⟩,
        shown⟩, textual⟩
      exact ⟨rootFilters, plan, rows, ⟨parsed, textual.root⟩, ⟨built, textual.root⟩, ⟨tx, found, endFilters, edgeFilters, ran,
        ⟨endParsed, textual.ends plan built⟩, ⟨edgeParsed, textual.edges plan built⟩, kept⟩, shown⟩

/-! ## Explain and the find -/

omit [Externals] in
theorem validateOrderFields_nil (special : List String) (modelKind modelName : String) (fields : List RuntimeField) :
    validateOrderFields special modelKind modelName fields [] = .ok () := rfl

omit [Externals] in
/-- A sort that is made only with order terms succeeds when they are accepted. -/
theorem sorted_iff {α : Type} {orders : List SessionOrder} {checked : GrmResult Unit} {unsorted sorted : α}
    (empty : orders = [] → checked = .ok ()) :
    (∃ rows, (if orders.isEmpty then .ok unsorted else checked.map fun _ => sorted : GrmResult α) = .ok rows) ↔
      checked = .ok () := by
  cases orders with
  | nil => exact ⟨fun _ => empty rfl, fun _ => ⟨unsorted, rfl⟩⟩
  | cons order orders =>
    dsimp only [List.isEmpty_cons]
    cases checked with
    | error e => exact ⟨by rintro ⟨_, ⟨⟩⟩, nofun⟩
    | ok _ => exact ⟨fun _ => rfl, fun _ => ⟨sorted, rfl⟩⟩

omit [Externals] in
theorem exists_map_ok {α β : Type} {x : GrmResult α} {f : α → β} : (∃ b, x.map f = .ok b) ↔ ∃ a, x = .ok a := by
  cases x with
  | ok a => exact ⟨fun _ => ⟨a, rfl⟩, fun _ => ⟨f a, rfl⟩⟩
  | error e => exact ⟨by rintro ⟨_, ⟨⟩⟩, by rintro ⟨_, ⟨⟩⟩⟩

/-- The order terms of a planned find are accepted for what it returns. -/
def OrderAccepted (model : RuntimeNodeModel) (query : NodeFindQuery) (plan : RuntimeTraversalPlan) : Prop :=
  match plan.graphQuery.returnKind with
  | .node => validateNodeOrderFields (if query.returnMode = .root then model else plan.endModel) query.order = .ok ()
  | .rel => validateRelOrderFields plan.returnRelModel query.order = .ok ()

theorem presentRows_succeeds (query : NodeFindQuery) (plan : RuntimeTraversalPlan) (rows : List QueryRow) :
    (∃ result, presentRows model query plan rows = .ok result) ↔ OrderAccepted model query plan := by
  unfold presentRows OrderAccepted sortQueryRows sortNodes sortRelationships
  dsimp only
  have empty : ∀ {m : RuntimeNodeModel}, query.order = [] → validateNodeOrderFields m query.order = .ok () := by
    intro m none_
    rw [none_]
    rfl
  have emptyRel : ∀ {m : RuntimeRelModel}, query.order = [] → validateRelOrderFields m query.order = .ok () := by
    intro m none_
    rw [none_]
    rfl
  split
  · rw [exists_map_ok]
    cases plan.graphQuery.returnKind with
    | node => exact sorted_iff empty
    | rel => exact sorted_iff emptyRel
  · cases plan.graphQuery.returnKind with
    | node =>
      dsimp only
      rw [exists_map_ok]
      exact sorted_iff empty
    | rel =>
      dsimp only
      rw [exists_map_ok]
      exact sorted_iff emptyRel

omit [Externals] in
/-- The kernel runs every query that passes its check: it starts with the clause of the root. -/
theorem executeGraphQuery_validated {q : GraphQuery} (valid : q.validate = .ok ()) (tx : InMemoryTx) :
    ∃ run, tx.executeGraphQuery q = .ok run := by
  have rooted : ∃ ctx, ExecCtx.build q = .ok ctx := by
    unfold GraphQuery.validate at valid
    unfold ExecCtx.build
    split at valid
    · cases valid
    · cases valid
    next nm clauses first =>
      rw [first]
      exact ⟨_, rfl⟩
  obtain ⟨ctx, built⟩ := rooted
  unfold InMemoryTx.executeGraphQuery InMemoryTx.selectedBindings
  rw [built]
  exact ⟨_, rfl⟩

omit [Externals] in
theorem validated_plan {q : GraphQuery} {rest : GrmResult RuntimeTraversalPlan} {plan : RuntimeTraversalPlan}
    (plans : ∀ plan, rest = .ok plan → plan.graphQuery = q) (built : (q.validate >>= fun _ => rest) = .ok plan) :
    plan.graphQuery.validate = .ok () := by
  obtain ⟨_, valid, made⟩ := GrmResult.bind_eq_ok.1 built
  rw [plans plan made]
  exact valid

theorem buildRuntimeGraphQuery_valid {query : NodeFindQuery} {plan : RuntimeTraversalPlan}
    (built : s.buildRuntimeGraphQuery model query = .ok plan) : plan.graphQuery.validate = .ok () := by
  unfold buildRuntimeGraphQuery at built
  obtain ⟨filters, -, built⟩ := GrmResult.bind_eq_ok.1 built
  obtain ⟨st, -, built⟩ := GrmResult.bind_eq_ok.1 built
  dsimp only at built
  cases last : st.lastRelVar with
  | none =>
    rw [last] at built
    cases mode : query.returnMode with
    | edge => rw [mode] at built; cases built
    | root | endNode => rw [mode] at built; exact validated_plan (fun _ made => by cases made) built
  | some rel =>
    rw [last] at built
    cases lastModel : st.lastRelModel with
    | none =>
      rw [lastModel] at built
      cases mode : query.returnMode with
      | root | endNode | edge => rw [mode] at built; exact validated_plan (fun _ made => by cases made) built
    | some relModel =>
      rw [lastModel] at built
      cases mode : query.returnMode with
      | root | endNode | edge => rw [mode] at built; exact validated_plan (fun _ made => by cases made; rfl) built

/-- Explain accepts the finds that succeed. -/
theorem explainNodeFindQuery_succeeds (known : s.catalog.getNodeModel modelName = some model) (query : NodeFindQuery) :
    (∃ steps, s.explainNodeFindQuery modelName query = .ok steps) ↔
      ∃ result, (s.executeNodeQuery modelName query).2 = .ok result := by
  unfold explainNodeFindQuery
  rw [known]
  dsimp only
  by_cases flat : query.traversals = []
  · rw [flat, if_pos List.isEmpty_nil]
    simp only [executeNodeQuery_flat known flat, findNodesWithQuery_ok_iff known, GrmResult.bind_eq_ok]
    have sorts : ∀ filters, (∃ nodes, sortNodes (selectNodes s.store model query.idFilter filters).2 model query.order = .ok nodes) ↔
        validateNodeOrderFields model query.order = .ok () := by
      intro filters
      unfold sortNodes
      exact sorted_iff fun none_ => by rw [none_]; rfl
    constructor
    · rintro ⟨steps, filters, parsed, _, ordered, -⟩
      obtain ⟨nodes, sorted⟩ := (sorts filters).2 ordered
      exact ⟨_, _, ⟨filters, parsed, by rw [sorted]; rfl⟩, rfl⟩
    · rintro ⟨result, rows, ⟨filters, parsed, found⟩, -⟩
      obtain ⟨nodes, sorted, -⟩ := GrmResult.map_eq_ok.1 found
      exact ⟨_, filters, parsed, (), (sorts filters).1 ⟨nodes, sorted⟩, rfl⟩
  · rw [if_neg (mt List.isEmpty_iff.1 flat)]
    simp only [executeNodeQuery_traversal known flat, traversalRows_ok_iff]
    constructor
    · rintro ⟨steps, explained⟩
      obtain ⟨plan, built, explained⟩ := GrmResult.bind_eq_ok.1 explained
      obtain ⟨endFilters, ends, explained⟩ := GrmResult.bind_eq_ok.1 explained
      obtain ⟨edgeFilters, edges, explained⟩ := GrmResult.bind_eq_ok.1 explained
      have checks : OrderAccepted model query plan ∧ ∃ filters, parseModelPredicates query.predicates model = .ok filters := by
        unfold OrderAccepted
        cases kind : plan.graphQuery.returnKind with
        | node =>
          rw [kind] at explained
          obtain ⟨_, ordered, explained⟩ := GrmResult.bind_eq_ok.1 explained
          obtain ⟨rootFilters, parsed, -⟩ := GrmResult.bind_eq_ok.1 explained
          exact ⟨ordered, rootFilters, parsed⟩
        | rel =>
          rw [kind] at explained
          obtain ⟨_, ordered, explained⟩ := GrmResult.bind_eq_ok.1 explained
          obtain ⟨rootFilters, parsed, -⟩ := GrmResult.bind_eq_ok.1 explained
          exact ⟨ordered, rootFilters, parsed⟩
      obtain ⟨ordered, rootFilters, parsed⟩ := checks
      obtain ⟨⟨tx, found⟩, ran⟩ := executeGraphQuery_validated (buildRuntimeGraphQuery_valid built) (InMemoryTx.new s.store)
      obtain ⟨result, shown⟩ := (presentRows_succeeds query plan
        (found.filter (keepRow plan rootFilters endFilters edgeFilters))).2 ordered
      exact ⟨result, rootFilters, plan, _, parsed, built, ⟨tx, found, endFilters, edgeFilters, ran, ends, edges, rfl⟩, shown⟩
    · rintro ⟨result, rootFilters, plan, rows, parsed, built, ⟨tx, found, endFilters, edgeFilters, ran, ends, edges, kept⟩, shown⟩
      have ordered : OrderAccepted model query plan := (presentRows_succeeds query plan rows).1 ⟨result, shown⟩
      unfold OrderAccepted at ordered
      simp only [built, ends, edges, GrmResult.bind_eq_ok, Except.ok.injEq, exists_eq_left']
      cases kind : plan.graphQuery.returnKind with
      | node =>
        rw [kind] at ordered
        exact ⟨_, GrmResult.bind_eq_ok.2 ⟨(), ordered, GrmResult.bind_eq_ok.2 ⟨rootFilters, parsed, rfl⟩⟩⟩
      | rel =>
        rw [kind] at ordered
        exact ⟨_, GrmResult.bind_eq_ok.2 ⟨(), ordered, GrmResult.bind_eq_ok.2 ⟨rootFilters, parsed, rfl⟩⟩⟩

/-! ## Two front ends -/

/-- Two finds select the same, by the same id, and order and page it in the same way. -/
structure SameFind (s : SessionState) (modelName : String) (query query' : NodeFindQuery) : Prop where
  id : query'.idFilter = query.idFilter
  traversals : query'.traversals = query.traversals
  returnMode : query'.returnMode = query.returnMode
  order : query'.order = query.order
  limit : query'.limit = query.limit
  offset : query'.offset = query.offset
  result : SameOutcome (s.executeNodeQuery modelName query).2 (s.executeNodeQuery modelName query').2

/-- Both front ends accept the terms, and then as the same find, or both refuse them. -/
def FrontEndsAgree (s : SessionState) (modelName : String) (terms : List QueryTerm) : Prop :=
  match s.parseNodeFindTerms modelName terms, s.adapterQuery modelName terms with
  | .ok query, .ok query' => s.SameFind modelName query query'
  | .error _, .error _ => True
  | _, _ => False

/-- A find with texts is the same find unless the session's one succeeds and a predicate is not on a string field. -/
theorem sameFind_iff (known : s.catalog.getNodeModel modelName = some model) {query query' : NodeFindQuery}
    (same : SameButText query query') (anchored : query.Anchored) :
    s.SameFind modelName query query' ↔ query'.idFilter = query.idFilter ∧
      ((∃ e, s.explainNodeFindQuery modelName query = .error e) ∨ s.Textual model query) := by
  have succeeds := explainNodeFindQuery_succeeds known query
  constructor
  · intro find
    refine ⟨find.id, ?_⟩
    cases explained : s.explainNodeFindQuery modelName query with
    | error e => exact .inl ⟨e, rfl⟩
    | ok steps =>
      obtain ⟨result, found⟩ := succeeds.1 ⟨steps, explained⟩
      have found' := (find.result result).1 found
      exact .inr ((executeNodeQuery_text_iff known same find.id anchored).1 found').2
  · rintro ⟨id, accepted⟩
    refine ⟨id, same.traversals, same.returnMode, same.order, same.limit, same.offset, fun result => ?_⟩
    rw [executeNodeQuery_text_iff known same id anchored]
    rcases accepted with ⟨e, refused⟩ | textual
    · have fails : (s.executeNodeQuery modelName query).2 ≠ .ok result := by
        intro found
        obtain ⟨steps, explained⟩ := succeeds.2 ⟨result, found⟩
        cases refused.symm.trans explained
      exact ⟨fun found => absurd found fails, fun found => absurd found.1 fails⟩
    · exact ⟨fun found => ⟨found, textual⟩, fun found => found.1⟩

/-- On terms without a format the front ends agree if and only if well formed ones have no paging value with
white space around it, give no other id after the last one by the model's id field, and ask for a find that
is refused or has its predicates on string fields only. -/
theorem frontEndsAgree_iff (checked : s.catalog.Checked) (known : s.catalog.getNodeModel modelName = some model)
    {terms : List QueryTerm} (unformatted : ∀ term ∈ terms, term.key ≠ "format") :
    s.FrontEndsAgree modelName terms ↔
      ∀ readings, termReadings model.idFieldName terms = some readings → (asked readings).Anchored →
        (∀ term ∈ terms, ¬term.Padded) ∧
        (∀ id, lastByField readings = some id → (asked readings).idFilter = some id) ∧
        ((∃ e, s.explainNodeFindQuery modelName (asked readings) = .error e) ∨ s.Textual model (asked readings)) := by
  have named : validateFieldName model.idFieldName = .ok () := by
    obtain ⟨_, -, rest⟩ := GrmResult.bind_eq_ok.1 (checked.node modelName model known)
    obtain ⟨_, named, -⟩ := GrmResult.bind_eq_ok.1 rest
    exact named
  obtain ⟨refused, read⟩ := front_ends known named unformatted
  unfold FrontEndsAgree
  by_cases formed : WellFormed model terms
  · obtain ⟨readings, found, anchored⟩ := formed
    obtain ⟨session, query', adapter, same, sameId⟩ := read readings found anchored
    rw [adapter]
    constructor
    · intro agree readings' found' _
      cases found.symm.trans found'
      cases parsed : s.parseNodeFindTerms modelName terms with
      | error e =>
        rw [parsed] at agree
        exact agree.elim
      | ok query =>
        rw [parsed] at agree
        obtain ⟨plain, rfl⟩ := (session query).1 parsed
        obtain ⟨id, accepted⟩ := (sameFind_iff known same anchored).1 agree
        exact ⟨plain, sameId.1 id, accepted⟩
    · intro agree
      obtain ⟨plain, ids, accepted⟩ := agree readings found anchored
      rw [(session (asked readings)).2 ⟨plain, rfl⟩]
      exact (sameFind_iff known same anchored).2 ⟨sameId.2 ids, accepted⟩
  · obtain ⟨noQuery, noQuery'⟩ := refused formed
    refine ⟨fun _ readings found anchored => absurd ⟨readings, found, anchored⟩ formed, fun _ => ?_⟩
    cases parsed : s.parseNodeFindTerms modelName terms with
    | ok query => exact absurd parsed (noQuery query)
    | error e =>
      cases adapter : s.adapterQuery modelName terms with
      | ok query' => exact absurd adapter (noQuery' query')
      | error e' => trivial

end SessionState

/-! ### A field of numbers -/

/-- A user of age five. -/
def agedRequests : List RuntimeRequest :=
  [.schema (.defineNode ⟨"User", "uid", [⟨"age", .int, true⟩, ⟨"name", .string, true⟩]⟩),
    .node (.create "User" (((∅ : Props).insert "age" (.number (.int ⟨5, by decide, by decide⟩))).insert "name" (.string "Ada")))]

def agedSession : SessionState := @SessionState.run Externals.plainOnly .new agedRequests

def agedModel : RuntimeNodeModel :=
  ⟨"User", "User", "uid", .int64, .declared, [⟨"age", .int, true⟩, ⟨"name", .string, true⟩]⟩

theorem agedSession_model : agedSession.catalog.getNodeModel "User" = some agedModel := rfl

theorem agedSession_checked : agedSession.catalog.Checked := by
  let := Externals.plainOnly
  exact SessionState.checked_run SessionState.reachable_new SessionState.checked_new agedRequests

/-- The user. -/
def agedUser : StoredNode :=
  ⟨1, ["User"], ((∅ : Props).insert "age" (.number (.int ⟨5, by decide, by decide⟩))).insert "name" (.string "Ada")⟩

/-- `name=Ada limit=1`. -/
def nameTerms : List QueryTerm := [⟨"name", "Ada"⟩, ⟨"limit", "1"⟩]

def nameReadings : List TermReading := [.predicate "name".toList "Ada", .limit 1]

theorem nameTerms_read : termReadings agedModel.idFieldName nameTerms = some nameReadings := rfl

theorem frontEndsAgree_iff_name :
    letI := Externals.plainOnly
    agedSession.FrontEndsAgree "User" nameTerms := by
  let := Externals.plainOnly
  have unformatted : ∀ term ∈ nameTerms, term.key ≠ "format" := by decide
  refine (SessionState.frontEndsAgree_iff agedSession_checked agedSession_model unformatted).2 ?_
  intro readings read _
  cases nameTerms_read.symm.trans read
  refine ⟨?_, ?_, .inr ⟨?_, fun _ _ => ?_, fun _ _ => ?_⟩⟩
  · intro term listed padded
    rcases List.mem_cons.1 listed with rfl | listed
    · exact absurd padded.1 (by decide)
    · cases List.mem_singleton.1 listed
      exact padded.2 rfl
  · exact nofun
  · intro predicate listed field named
    cases List.mem_singleton.1 listed
    cases (rfl : fieldNamed agedModel.fields "name" = some ⟨"name", .string, true⟩).symm.trans named
    rfl
  · exact nofun
  · exact nofun

/-- `age=5`. -/
def ageTerms : List QueryTerm := [⟨"age", "5"⟩]

/-- The session's query. -/
def ageQuery : NodeFindQuery := { predicates := [⟨"age", .eq, .lexical "5"⟩] }

/-- The query of the adapter's request. -/
def ageTextQuery : NodeFindQuery := { predicates := [⟨"age", .eq, .typed (.string "5")⟩] }

theorem ageQuery_found :
    letI := Externals.plainOnly
    (agedSession.executeNodeQuery "User" ageQuery).2 = .ok (.nodes agedModel [agedUser]) := rfl

theorem ageTextQuery_refused :
    letI := Externals.plainOnly
    ∃ e, (agedSession.executeNodeQuery "User" ageTextQuery).2 = .error e := ⟨_, rfl⟩

/-- Both front ends accept `age=5`: the session finds the user, and the find of the adapter's query is refused. -/
theorem age_term_refused :
    letI := Externals.plainOnly
    agedSession.Reachable ∧ agedSession.catalog.Checked ∧ (∀ term ∈ ageTerms, term.key ≠ "format") ∧
      agedSession.parseNodeFindTerms "User" ageTerms = .ok ageQuery ∧
      agedSession.adapterQuery "User" ageTerms = .ok ageTextQuery ∧
      (agedSession.executeNodeQuery "User" ageQuery).2 = .ok (.nodes agedModel [agedUser]) ∧
      ¬agedSession.FrontEndsAgree "User" ageTerms := by
  let := Externals.plainOnly
  have session : agedSession.parseNodeFindTerms "User" ageTerms = .ok ageQuery := rfl
  have adapter : agedSession.adapterQuery "User" ageTerms = .ok ageTextQuery := rfl
  refine ⟨SessionState.reachable_new.run agedRequests, agedSession_checked, by decide, session, adapter, ageQuery_found, ?_⟩
  intro agree
  unfold SessionState.FrontEndsAgree at agree
  rw [session, adapter] at agree
  obtain ⟨e, refused⟩ := ageTextQuery_refused
  cases refused.symm.trans ((agree.result _).1 ageQuery_found)
