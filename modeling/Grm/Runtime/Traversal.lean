import Grm.Runtime.Find

/-!
# Traversal finds

`build_runtime_graph_query` turns a find with traversal steps into a kernel query;
`execute_node_traversal_query` runs it in a transaction and filters the rows by the
root, end and edge predicates.
-/

open Std

set_option autoImplicit false

namespace GraphQuery

/-- `return_var`. -/
def returnVar (q : GraphQuery) : VarId :=
  match q.ret with
  | .node v | .rel v => v

/-- `return_kind`. -/
def returnKind (q : GraphQuery) : ReturnKind :=
  match q.ret with
  | .node _ => .node
  | .rel _ => .rel

end GraphQuery

/-- The `Debug` text of a direction. -/
def Direction.debug : Direction → String
  | .out => "Out"
  | .incoming => "In"
  | .both => "Both"

/-- `traversal_step_matches_models`. -/
def traversalStepMatchesModels (start endModel : RuntimeNodeModel) (rel : RuntimeRelModel) (dir : Direction) : Bool :=
  let along := rel.fromModel == start.name && rel.toModel == endModel.name
  let against := rel.toModel == start.name && rel.fromModel == endModel.name
  match dir with
  | .out => along
  | .incoming => against
  | .both => along || against

/-- `validate_traversal_step_models`. -/
def validateTraversalStepModels (start endModel : RuntimeNodeModel) (rel : RuntimeRelModel) (dir : Direction) :
    GrmResult Unit :=
  if traversalStepMatchesModels start endModel rel dir then .ok ()
  else .error (.constraint ("link '" ++ rel.name ++ "' does not connect " ++ start.name ++ " to " ++ endModel.name ++
    " in " ++ dir.debug ++ " direction"))

/-- `resolve_any_traversal_model`: the only relationship model that fits. -/
def resolveAnyTraversalModel (catalog : SessionModelCatalog) (start endModel : RuntimeNodeModel) (dir : Direction) :
    GrmResult (Option RuntimeRelModel) :=
  match catalog.listRelModels.filter fun rel => traversalStepMatchesModels start endModel rel dir with
  | [] => .error (.constraint ("no link connects " ++ start.name ++ " to " ++ endModel.name ++
      " in the requested direction"))
  | [rel] => .ok (some rel)
  | _ => .error (.constraint ("multiple links connect " ++ start.name ++ " to " ++ endModel.name ++
      "; use an explicit link name instead of '*'"))

/-- `RuntimeTraversalPlan`. -/
structure RuntimeTraversalPlan where
  graphQuery : GraphQuery
  rootVar : VarId
  endVar : VarId
  returnRelVar : VarId
  endModel : RuntimeNodeModel
  returnRelModel : RuntimeRelModel

/-- The loop state of `build_runtime_graph_query`. -/
structure Planning where
  vg : VarGen
  clauses : List MatchClause
  currentVar : VarId
  currentModel : RuntimeNodeModel
  lastRelVar : Option VarId
  lastRelModel : Option RuntimeRelModel

/-- The relationship model of a step: the named one, or the only one that fits. -/
def stepRelModel (catalog : SessionModelCatalog) (start endModel : RuntimeNodeModel) (step : SessionTraversalStep) :
    GrmResult (Option RuntimeRelModel) :=
  match step.relModelName with
  | some name => match catalog.getRelModel name with
    | some rel => .ok (some rel)
    | none => .error (.constraint ("unknown traversal link '" ++ name ++ "'"))
  | none => resolveAnyTraversalModel catalog start endModel step.direction

/-- One traversal step: a hop clause and the end node's clause, which has no filters. -/
def planStep (catalog : SessionModelCatalog) (st : Planning) (step : SessionTraversalStep) : GrmResult Planning := do
  let some endModel := catalog.getNodeModel step.endModelName
    | throw (.constraint ("unknown traversal end model '" ++ step.endModelName ++ "'"))
  let relModel ← stepRelModel catalog st.currentModel endModel step
  match relModel with
    | some rel => validateTraversalStepModels st.currentModel endModel rel step.direction
    | none => pure ()
  let (vg, relVar) := st.vg.fresh
  let (vg, endVar) := vg.fresh
  let hop := MatchClause.hop
    { start := st.currentVar, relType := relModel.map RuntimeRelModel.relType, relVar, dir := step.direction, endVar,
      endLabels := [endModel.label] }
  let endMatch := MatchClause.node { var := endVar, labels := [endModel.label], idFilter := none, propertyFilters := [] }
  return { vg, clauses := st.clauses ++ [hop, endMatch], currentVar := endVar, currentModel := endModel
           lastRelVar := some relVar, lastRelModel := relModel }

/-- What a row returns for the query's return variable. -/
def QueryRow.getReturned (row : QueryRow) (q : GraphQuery) : Option KernelValue := row.values[q.returnVar]?

/-- `KernelValue::as_node`. -/
def KernelValue.asNode : KernelValue → Option StoredNode
  | .node n => some n
  | .rel _ => none

def KernelValue.asRel : KernelValue → Option StoredRel
  | .node _ => none
  | .rel r => some r

/-- `SessionQueryResult`; a graph result keeps the plan and the rows for rendering. -/
inductive SessionQueryResult where
  | nodes (model : RuntimeNodeModel) (rows : List StoredNode)
  | edges (model : RuntimeRelModel) (rows : List StoredRel)
  | graph (plan : RuntimeTraversalPlan) (rows : List QueryRow) (returnMode : SessionTraversalReturn)

/-- `row_count`. -/
def SessionQueryResult.rowCount : SessionQueryResult → Nat
  | .nodes _ rows => rows.length
  | .edges _ rows => rows.length
  | .graph _ rows _ => rows.length

namespace SessionState
variable [Externals]

/-- The planning state before the first step. -/
def planRoot (rootModel : RuntimeNodeModel) (idFilter : Option Int) (filters : List PropertyFilter) : Planning :=
  let (vg, rootVar) := VarGen.fresh {}
  { vg
    clauses := [.node { var := rootVar, labels := [rootModel.label], idFilter, propertyFilters := filters }]
    currentVar := rootVar, currentModel := rootModel, lastRelVar := none, lastRelModel := none }

/-- `build_runtime_graph_query`. -/
def buildRuntimeGraphQuery (s : SessionState) (rootModel : RuntimeNodeModel) (query : NodeFindQuery) :
    GrmResult RuntimeTraversalPlan := do
  let filters ← parseModelPredicates query.predicates rootModel
  let root := planRoot rootModel query.idFilter filters
  let st ← query.traversals.foldlM (planStep s.catalog) root
  let ret ← match query.returnMode with
    | .root => pure (Return.node root.currentVar)
    | .endNode => pure (Return.node st.currentVar)
    | .edge => match st.lastRelVar with
      | some rel => pure (Return.rel rel)
      | none => throw (.constraint "return=edge requires at least one traversal hop")
  let graphQuery : GraphQuery := { clauses := st.clauses, where_ := [], ret, limit := none, offset := none }
  graphQuery.validate
  match st.lastRelVar, st.lastRelModel with
  | some returnRelVar, some returnRelModel =>
    return { graphQuery, rootVar := root.currentVar, endVar := st.currentVar, returnRelVar
             endModel := st.currentModel, returnRelModel }
  | _, _ => throw (.constraint "traversal query requires at least one traversal hop")

/-- The value of a row's variable, a node, passes the filters. -/
def rowNodeMatches (row : QueryRow) (var : VarId) (filters : List PropertyFilter) : Bool :=
  ((row.values[var]?).bind KernelValue.asNode).any fun node => matchesPredicates node.props filters

/-- The value of a row's variable, a relationship, passes the filters. -/
def rowRelMatches (row : QueryRow) (var : VarId) (filters : List PropertyFilter) : Bool :=
  ((row.values[var]?).bind KernelValue.asRel).any fun rel => matchesPredicates rel.props filters

/-- The three filters after the kernel query; without end or edge predicates the second
and third let every row pass. -/
def keepRow (plan : RuntimeTraversalPlan) (rootFilters endFilters edgeFilters : List PropertyFilter)
    (row : QueryRow) : Bool :=
  rowNodeMatches row plan.rootVar rootFilters &&
    (endFilters.isEmpty || rowNodeMatches row plan.endVar endFilters) &&
    (edgeFilters.isEmpty || rowRelMatches row plan.returnRelVar edgeFilters)

/-- The returned nodes of the rows. -/
def returnedNodes (q : GraphQuery) (rows : List QueryRow) : List StoredNode :=
  rows.filterMap fun row => (row.getReturned q).bind KernelValue.asNode

/-- The returned relationships of the rows. -/
def returnedRels (q : GraphQuery) (rows : List QueryRow) : List StoredRel :=
  rows.filterMap fun row => (row.getReturned q).bind KernelValue.asRel

/-- A missing record comes last. -/
def compareOptional {α : Type} (cmp : α → α → Ordering) (left right : Option α) : Ordering :=
  match left, right with
  | some left, some right => cmp left right
  | some _, none => .lt
  | none, some _ => .gt
  | none, none => .eq

/-- `sort_query_rows_by_node_return` and `sort_query_rows_by_rel_return`, called only with
order terms. -/
def sortQueryRows (rows : List QueryRow) (q : GraphQuery) (nodeModel : RuntimeNodeModel) (relModel : RuntimeRelModel)
    (orders : List SessionOrder) : GrmResult (List QueryRow) :=
  if orders.isEmpty then .ok rows
  else match q.returnKind with
    | .node => (validateNodeOrderFields nodeModel orders).map fun _ =>
      sortBy (fun left right => compareOptional (fun l r => compareNodeOrderValues l r nodeModel orders)
        ((left.getReturned q).bind KernelValue.asNode) ((right.getReturned q).bind KernelValue.asNode)) rows
    | .rel => (validateRelOrderFields relModel orders).map fun _ =>
      sortBy (fun left right => compareOptional (fun l r => compareRelOrderValues l r relModel orders)
        ((left.getReturned q).bind KernelValue.asRel) ((right.getReturned q).bind KernelValue.asRel)) rows

/-- Ordering and paging of the kept rows, by output format and return kind. -/
def presentRows (rootModel : RuntimeNodeModel) (query : NodeFindQuery) (plan : RuntimeTraversalPlan)
    (rows : List QueryRow) : GrmResult SessionQueryResult :=
  let model := if query.returnMode = .root then rootModel else plan.endModel
  if query.format = .graph then
    (sortQueryRows rows plan.graphQuery model plan.returnRelModel query.order).map fun rows =>
      .graph plan (applyOffsetLimit rows query.offset query.limit) query.returnMode
  else match plan.graphQuery.returnKind with
    | .node => (sortNodes (returnedNodes plan.graphQuery rows) model query.order).map fun rows =>
      .nodes model (applyOffsetLimit rows query.offset query.limit)
    | .rel => (sortRelationships (returnedRels plan.graphQuery rows) plan.returnRelModel query.order).map fun rows =>
      .edges plan.returnRelModel (applyOffsetLimit rows query.offset query.limit)

/-- The plan of a traversal find, with the parsed root predicates. -/
def planTraversal (s : SessionState) (modelName : String) (query : NodeFindQuery) :
    GrmResult (RuntimeNodeModel × List PropertyFilter × RuntimeTraversalPlan) := do
  let some rootModel := s.catalog.getNodeModel modelName | throw .notFound
  let rootFilters ← parseModelPredicates query.predicates rootModel
  let plan ← s.buildRuntimeGraphQuery rootModel query
  return (rootModel, rootFilters, plan)

/-- The rows of a traversal find before ordering and paging, and the state after the
transaction that ran the query. The end and edge predicates are checked only then. -/
def traversalRows (s : SessionState) (query : NodeFindQuery) (rootFilters : List PropertyFilter)
    (plan : RuntimeTraversalPlan) : SessionState × GrmResult (List QueryRow) :=
  match (InMemoryTx.new s.store).executeGraphQuery plan.graphQuery with
  | .error e => (s, .error e)
  | .ok (tx, rows) =>
    ({ s with store := tx.commit }, do
      let endFilters ← parseModelPredicates query.endPredicates plan.endModel
      let edgeFilters ← parseRelPredicates query.edgePredicates plan.returnRelModel
      return rows.filter (keepRow plan rootFilters endFilters edgeFilters))

/-- `execute_node_traversal_query`. -/
def executeNodeTraversalQuery (s : SessionState) (modelName : String) (query : NodeFindQuery) :
    SessionState × GrmResult SessionQueryResult :=
  match s.planTraversal modelName query with
  | .error e => (s, .error e)
  | .ok (rootModel, rootFilters, plan) =>
    let (s, rows) := s.traversalRows query rootFilters plan
    (s, rows.bind (presentRows rootModel query plan))

/-- `execute_node_query`. -/
def executeNodeQuery (s : SessionState) (modelName : String) (query : NodeFindQuery) :
    SessionState × GrmResult SessionQueryResult :=
  if query.traversals.isEmpty then
    let (s, rows) := s.findNodesWithQuery modelName query
    (s, rows.bind fun rows => match s.catalog.getNodeModel modelName with
      | some model => .ok (.nodes model rows)
      | none => .error .notFound)
  else s.executeNodeTraversalQuery modelName query

/-- `node_find`, as `node_find_result_response` reports it: nodes and edges. -/
def nodeFind (s : SessionState) (request : NodeFindRequest) :
    SessionState × GrmResult (List StoredNode × List StoredRel) :=
  match s.nodeFindQueryFromRequest request with
  | .error e => (s, .error e)
  | .ok query =>
    let (s, result) := s.executeNodeQuery request.model query
    (s, result.bind fun
      | .nodes _ rows => .ok (rows, [])
      | .edges _ rows => .ok ([], rows)
      | .graph .. => .error (.notSupported "graph format is not supported by structured find results"))

end SessionState
