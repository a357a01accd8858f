import Grm.Runtime.Traversal

/-!
# Explain and profile

`backend/plan.rs` and the plans of `runtime/session.rs`. Explaining a find makes every
check of the find and never reads the store; profiling also runs it. The planner's
notes on a step and the timings are left out.
-/

set_option autoImplicit false

/-- `first_equality_filter`. -/
def firstEqualityFilter (filters : List PropertyFilter) : Option PropertyFilter := filters.find? fun f => f.op = .eq

/-- `predicate_keys`. -/
def predicateKeys (filters : List PropertyFilter) : List String := filters.map PropertyFilter.key

/-- `residual_predicate_keys`: the first equality on the selected key is left out. -/
def residualPredicateKeys (filters : List PropertyFilter) (selected : String) : List String :=
  predicateKeys (filters.eraseP fun f => f.op = .eq && f.key == selected)

/-- `node_check_or_filter_step`. -/
def nodeCheckOrFilterStep (nm : NodeMatch) : PlanStepKind :=
  let keys := predicateKeys nm.propertyFilters
  if nm.idFilter.isSome || !keys.isEmpty then .nodeFilter nm.var nm.labels nm.idFilter keys
  else .nodeCheck nm.var nm.labels

/-- The step that binds a node variable. -/
def nodeAnchorStep (nm : NodeMatch) : PlanStepKind :=
  match nm.idFilter, firstEqualityFilter nm.propertyFilters with
  | some id, _ => .nodeById nm.var nm.labels id
  | none, some f => .nodePropertySeek nm.var nm.labels f.key
  | none, none => .nodeLabelScan nm.var nm.labels

/-- The clause loop of `ExecutionPlan::for_graph_query`. -/
def planClauses (bound : List VarId) : List MatchClause → List PlanStepKind
  | [] => []
  | .node nm :: clauses =>
    if nm.var ∈ bound then nodeCheckOrFilterStep nm :: planClauses bound clauses
    else nodeAnchorStep nm :: planClauses (nm.var :: bound) clauses
  | .hop h :: clauses => .expand h.dir h.start h.relVar h.endVar h.relType :: planClauses (h.endVar :: bound) clauses

/-- `ExecutionPlan::for_graph_query`, without its last step, the return. -/
def planForGraphQuery (q : GraphQuery) : List PlanStepKind := planClauses [] q.clauses

namespace SessionState
variable [Externals]

/-- The keys the anchor of a find leaves to be filtered. -/
def residualKeys (idFilter : Option Int) (filters : List PropertyFilter) : List String :=
  match idFilter, firstEqualityFilter filters with
  | none, some f => residualPredicateKeys filters f.key
  | _, _ => predicateKeys filters

/-- A filter step, when there is something to filter by. -/
def filterStep (keys : List String) (step : List String → PlanStepKind) : List PlanStepKind :=
  if keys.isEmpty then [] else [step keys]

/-- `explain_node_find_query`. -/
def explainNodeFindQuery (s : SessionState) (modelName : String) (query : NodeFindQuery) :
    GrmResult (List PlanStepKind) := do
  let some model := s.catalog.getNodeModel modelName | throw .notFound
  if query.traversals.isEmpty then
    let filters ← parseModelPredicates query.predicates model
    validateNodeOrderFields model query.order
    let anchor := nodeAnchorStep { var := 0, labels := [model.label], idFilter := query.idFilter, propertyFilters := filters }
    return anchor :: filterStep (residualKeys query.idFilter filters) (.nodeFilter 0 [model.label] none) ++ [.ret 0 .node]
  else
    let plan ← s.buildRuntimeGraphQuery model query
    let endFilters ← parseModelPredicates query.endPredicates plan.endModel
    let edgeFilters ← parseRelPredicates query.edgePredicates plan.returnRelModel
    match plan.graphQuery.returnKind with
      | .node => validateNodeOrderFields (if query.returnMode = .root then model else plan.endModel) query.order
      | .rel => validateRelOrderFields plan.returnRelModel query.order
    let rootFilters ← parseModelPredicates query.predicates model
    return planForGraphQuery plan.graphQuery ++
      filterStep (residualKeys query.idFilter rootFilters) (.nodeFilter plan.rootVar [model.label] query.idFilter) ++
      filterStep (predicateKeys endFilters) (.nodeFilter plan.endVar [plan.endModel.label] none) ++
      filterStep (predicateKeys edgeFilters) (.relationshipFilter plan.returnRelVar plan.returnRelModel.relType) ++
      [.ret plan.graphQuery.returnVar plan.graphQuery.returnKind]

/-- `explain_edge_find_query`. -/
def explainEdgeFindQuery (s : SessionState) (modelName : String) (query : EdgeFindQuery) :
    GrmResult (List PlanStepKind) := do
  let some model := s.catalog.getRelModel modelName | throw .notFound
  let filters ← parseRelPredicates query.predicates model
  validateRelOrderFields model query.order
  let anchor : PlanStepKind := match query.idFilter with
    | some id => .relationshipById 0 model.relType id
    | none =>
      if query.fromFilter.isSome || query.toFilter.isSome then
        .relationshipEndpointSeek 0 model.relType query.fromFilter query.toFilter
      else .relationshipTypeScan 0 model.relType
  return anchor :: filterStep (predicateKeys filters) (.relationshipFilter 0 model.relType) ++ [.ret 0 .rel]

/-- `explain` of a node find. -/
def explainNode (s : SessionState) (request : NodeFindRequest) : GrmResult (List PlanStepKind) := do
  let query ← s.nodeFindQueryFromRequest request
  s.explainNodeFindQuery request.model query

/-- `explain` of an edge find. -/
def explainEdge (s : SessionState) (request : EdgeFindRequest) : GrmResult (List PlanStepKind) := do
  let query ← s.edgeFindQueryFromRequest request
  s.explainEdgeFindQuery request.model query

/-- `explain`. -/
def explain (s : SessionState) : QueryRequest → GrmResult RuntimeResponse
  | .nodeFind request | .traversal request =>
    (s.explainNode request).map fun plan => .explain "node.find" request.model plan
  | .edgeFind request => (s.explainEdge request).map fun plan => .explain "edge.find" request.model plan

/-- `profile_node_query`: a traversal find is preceded by the lookup that counts the
root candidates. -/
def profileNodeQuery (s : SessionState) (modelName : String) (query : NodeFindQuery) : SessionState × GrmResult Nat :=
  if query.traversals.isEmpty then
    let (s, rows) := s.findNodesWithQuery modelName query
    (s, rows.map List.length)
  else match s.catalog.getNodeModel modelName with
    | none => (s, .error .notFound)
    | some model => match parseModelPredicates query.predicates model with
      | .error e => (s, .error e)
      | .ok filters =>
        let (store, _) := s.store.snapshotNodesFiltered model.label query.idFilter (indexedProperty filters)
        let (s, result) := { s with store }.executeNodeQuery modelName query
        (s, result.map SessionQueryResult.rowCount)

/-- `profile` of a node find. -/
def profileNode (s : SessionState) (request : NodeFindRequest) : SessionState × GrmResult RuntimeResponse :=
  match (do
      let query ← s.nodeFindQueryFromRequest request
      return (query, ← s.explainNodeFindQuery request.model query)) with
  | .error e => (s, .error e)
  | .ok (query, plan) =>
    let (s, rows) := s.profileNodeQuery request.model query
    (s, rows.map fun rows => .profile "node.find" request.model plan rows)

/-- `profile` of an edge find, whose rows are those of the find. -/
def profileEdge (s : SessionState) (request : EdgeFindRequest) : GrmResult RuntimeResponse := do
  let query ← s.edgeFindQueryFromRequest request
  let plan ← s.explainEdgeFindQuery request.model query
  let rels ← s.findRelationshipsWithQuery request.model query
  return .profile "edge.find" request.model plan rels.length

/-- `profile`. -/
def profile (s : SessionState) : QueryRequest → SessionState × GrmResult RuntimeResponse
  | .nodeFind request | .traversal request => s.profileNode request
  | .edgeFind request => (s, s.profileEdge request)

end SessionState
