import Grm.Dsl.Graph

/-!
# Translation to Cypher

`backend/cypher.rs`: the text and the parameters of a kernel query. The text is put
together from several loops that share one parameter counter; what a condition contributes
is stated here for each loop by itself, and then for the queries `compile_to_graph` makes.
-/

open Std

set_option autoImplicit false

/-! ## Queries -/

namespace GraphQuery

/-- `root_var`; it panics on a query that `validate` refuses. -/
def rootVar (q : GraphQuery) : VarId :=
  match q.clauses with
  | .node n :: _ => n.var
  | _ => 0

/-- The variables of one clause in `bound_vars`. -/
def clauseVars : MatchClause → List VarId
  | .node n => [n.var]
  | .hop h => [h.relVar, h.endVar]

/-- What `Vec::dedup` keeps after an element. -/
def dedupAfter (last : VarId) : List VarId → List VarId
  | [] => []
  | a :: rest => if last = a then dedupAfter last rest else a :: dedupAfter a rest

/-- `Vec::dedup`: of equal neighbours the first one is kept. -/
def dedup : List VarId → List VarId
  | [] => []
  | a :: rest => a :: dedupAfter a rest

/-- `bound_vars`. -/
def boundVars (q : GraphQuery) : List VarId := dedup (q.clauses.flatMap clauseVars)

end GraphQuery

/-- `Value::from` of an id; the ids of the source are `i64`. -/
def Value.ofId (id : Int) : Value := (Value.ofInt? id).getD .null

/-! ## The translator -/

/-- `CypherQuery`. -/
structure CypherQuery where
  text : String
  params : BTreeMap String Value

/-- `Translator`. -/
structure Translator where
  params : BTreeMap String Value := ∅
  nextParam : Nat := 0

/-- The name of a parameter. -/
def paramName (i : Nat) : String := "p" ++ i.repr

/-- `push_param`. -/
def Translator.pushParam (t : Translator) (value : Value) : Translator × String :=
  ({ params := t.params.insert (paramName t.nextParam) value, nextParam := t.nextParam + 1 }, paramName t.nextParam)

namespace Cypher

/-- `var_name`. -/
def varName (var : VarId) : String := "v" ++ var.repr

/-- A character of a name in backticks. -/
def escape (c : Char) : List Char := if c = '`' then ['`', '`'] else [c]

/-- `cypher_name`. -/
def cypherName (name : String) : String := String.ofList ('`' :: name.toList.flatMap escape ++ ['`'])

/-- The operator of `property_predicate`. -/
def operator : CompareOp → String
  | .eq => "="
  | .ne => "<>"
  | .gt => ">"
  | .ge => ">="
  | .lt => "<"
  | .le => "<="
  | .contains => "CONTAINS"

/-- `property_predicate`. -/
def propertyPredicate (var : String) (filter : PropertyFilter) (t : Translator) : Translator × String :=
  let (t, param) := t.pushParam filter.value
  (t, var ++ "." ++ cypherName filter.key ++ " " ++ operator filter.op ++ " $" ++ param)

/-- `property_predicate` on each filter. -/
def propertyPredicates (var : String) : List PropertyFilter → Translator → Translator × List String
  | [], t => (t, [])
  | filter :: rest, t =>
    let (t, predicate) := propertyPredicate var filter t
    let (t, predicates) := propertyPredicates var rest t
    (t, predicate :: predicates)

/-- The predicates of one node in `build_predicates`. -/
def nodePredicates (node : NodeMatch) (t : Translator) : Translator × List String :=
  let name := varName node.var
  let (t, predicates) := match node.idFilter with
    | some id =>
      let (t, param) := t.pushParam (.ofId id)
      (t, ["id(" ++ name ++ ") = $" ++ param])
    | none => (t, [])
  let (t, more) := propertyPredicates name node.propertyFilters t
  (t, predicates ++ more)

/-- The loop of `build_predicates` over the nodes. -/
def nodesPredicates : List NodeMatch → Translator → Translator × List String
  | [], t => (t, [])
  | node :: rest, t =>
    let (t, predicates) := nodePredicates node t
    let (t, more) := nodesPredicates rest t
    (t, predicates ++ more)

/-- What a clause gives to `collect_node_matches`. -/
def nodeEntry : MatchClause → Option (VarId × NodeMatch)
  | .node node => some (node.var, node)
  | .hop _ => none

/-- `collect_node_matches`. -/
def collectNodeMatches (q : GraphQuery) : BTreeMap VarId NodeMatch :=
  BTreeMap.insertAll ∅ (q.clauses.filterMap nodeEntry)

/-- `build_predicates`. -/
def buildPredicates (q : GraphQuery) (nodes : BTreeMap VarId NodeMatch) (t : Translator) : Translator × List String :=
  let (t, predicates) := nodesPredicates nodes.vals t
  let (t, more) := propertyPredicates (varName q.rootVar) q.where_ t
  (t, predicates ++ more)

/-- The labels of `node_pattern`. -/
def labelsText (labels : List String) : String := String.join (labels.map fun label => ":" ++ cypherName label)

/-- `node_pattern`. -/
def nodePattern (var : VarId) (labels : List String) : String := "(" ++ varName var ++ labelsText labels ++ ")"

/-- `relationship_pattern`. -/
def relationshipPattern (dir : Direction) (var : VarId) (relType : Option String) : String :=
  let relType := relType.elim "" fun ty => ":" ++ cypherName ty
  match dir with
  | .out => "-[" ++ varName var ++ relType ++ "]->"
  | .incoming => "<-[" ++ varName var ++ relType ++ "]-"
  | .both => "-[" ++ varName var ++ relType ++ "]-"

/-- What a clause after the first adds to the pattern: a hop ends in the labels of its end's own
clause, or in its own where that has none. -/
def clausePattern (nodes : BTreeMap VarId NodeMatch) : MatchClause → String
  | .node _ => ""
  | .hop hop =>
    let endLabels := ((nodes[hop.endVar]?.map NodeMatch.labels).filter fun labels => !labels.isEmpty).getD hop.endLabels
    relationshipPattern hop.dir hop.relVar hop.relType ++ nodePattern hop.endVar endLabels

/-- `build_match_pattern`. -/
def buildMatchPattern (q : GraphQuery) (nodes : BTreeMap VarId NodeMatch) : GrmResult String :=
  match q.clauses with
  | .node root :: rest => .ok (nodePattern root.var root.labels ++ String.join (rest.map (clausePattern nodes)))
  | _ => .error (.mapping "GraphQuery must start with NodeMatch")

/-- The text of the predicates. -/
def whereText (predicates : List String) : String :=
  if predicates.isEmpty then "" else " WHERE " ++ " AND ".intercalate predicates

/-- What follows the predicates. -/
def tailText (vars : List VarId) (offset limit : Option Nat) : String :=
  " RETURN " ++ ", ".intercalate (vars.map varName) ++ (offset.elim "" fun n => " SKIP " ++ n.repr) ++
    limit.elim "" fun n => " LIMIT " ++ n.repr

/-- `graph_query_to_cypher`. -/
def graphQueryToCypher (q : GraphQuery) : GrmResult CypherQuery := do
  q.validate
  let nodes := collectNodeMatches q
  let pattern ← buildMatchPattern q nodes
  let (t, predicates) := buildPredicates q nodes {}
  return {
    text := "MATCH " ++ pattern ++ whereText predicates ++ tailText q.boundVars q.offset q.limit
    params := t.params }

/-! ## Conditions -/

/-- An id filter or a property filter, on the node of a variable. -/
inductive Condition where
  | idIs (var : VarId) (id : Int)
  | property (var : VarId) (filter : PropertyFilter)

namespace Condition

/-- The value that is compared with. -/
def value : Condition → Value
  | idIs _ id => .ofId id
  | property _ filter => filter.value

/-- The predicate of the condition with a parameter for its value. -/
def predicate (param : String) : Condition → String
  | idIs var _ => "id(" ++ varName var ++ ") = $" ++ param
  | property var filter =>
    varName var ++ "." ++ cypherName filter.key ++ " " ++ operator filter.op ++ " $" ++ param

end Condition

/-- The conditions of a node's own clause. -/
def nodeConditions (node : NodeMatch) : List Condition :=
  (node.idFilter.map (Condition.idIs node.var)).toList ++ node.propertyFilters.map (Condition.property node.var)

/-- The predicates of conditions, with the parameters from a number on. -/
def predicates (first : Nat) : List Condition → List String
  | [] => []
  | c :: rest => c.predicate (paramName first) :: predicates (first + 1) rest

theorem predicates_append (first : Nat) (a b : List Condition) :
    predicates first (a ++ b) = predicates first a ++ predicates (first + a.length) b := by
  induction a generalizing first with
  | nil => rfl
  | cons c rest ih =>
    rw [List.cons_append, predicates, ih, predicates, List.length_cons, List.cons_append, Nat.add_right_comm, Nat.add_assoc]

/-- The translator after parameters for the values. -/
def pushAll (t : Translator) (values : List Value) : Translator := values.foldl (fun t v => (t.pushParam v).1) t

theorem pushAll_append (t : Translator) (a b : List Value) : pushAll t (a ++ b) = pushAll (pushAll t a) b :=
  List.foldl_append

theorem pushAll_nextParam (t : Translator) (values : List Value) :
    (pushAll t values).nextParam = t.nextParam + values.length := by
  induction values generalizing t with
  | nil => rfl
  | cons v rest ih =>
    rw [pushAll, List.foldl_cons, ← pushAll, ih, List.length_cons, Translator.pushParam]
    show t.nextParam + 1 + rest.length = _
    omega

/-- The loop writes the predicates of the conditions, in order, and pushes their values. -/
def Writes (loop : Translator → Translator × List String) (conditions : List Condition) : Prop :=
  ∀ t, loop t = (pushAll t (conditions.map Condition.value), predicates t.nextParam conditions)

theorem writes_propertyPredicates (var : VarId) (filters : List PropertyFilter) :
    Writes (propertyPredicates (varName var) filters) (filters.map (Condition.property var)) := by
  induction filters with
  | nil => exact fun t => rfl
  | cons filter rest ih =>
    intro t
    rw [propertyPredicates, propertyPredicate]
    dsimp only
    rw [ih]
    rfl

theorem writes_nodePredicates (node : NodeMatch) : Writes (nodePredicates node) (nodeConditions node) := by
  intro t
  unfold nodePredicates nodeConditions
  dsimp only
  rw [writes_propertyPredicates]
  cases node.idFilter with
  | none => rfl
  | some id => rfl

theorem writes_nodesPredicates (nodes : List NodeMatch) :
    Writes (nodesPredicates nodes) (nodes.flatMap nodeConditions) := by
  induction nodes with
  | nil => exact fun t => rfl
  | cons node rest ih =>
    intro t
    rw [nodesPredicates, writes_nodePredicates]
    dsimp only
    rw [ih, List.flatMap_cons, List.map_append, pushAll_append, predicates_append, pushAll_nextParam, List.length_map]

/-- The conditions of a query, in the order of their parameters. -/
def conditions (q : GraphQuery) (nodes : BTreeMap VarId NodeMatch) : List Condition :=
  nodes.vals.flatMap nodeConditions ++ q.where_.map (Condition.property q.rootVar)

theorem writes_buildPredicates (q : GraphQuery) (nodes : BTreeMap VarId NodeMatch) :
    Writes (buildPredicates q nodes) (conditions q nodes) := by
  intro t
  rw [buildPredicates, writes_nodesPredicates]
  dsimp only
  rw [writes_propertyPredicates, conditions, List.map_append, pushAll_append, predicates_append, pushAll_nextParam,
    List.length_map]

/-! ## Parameters -/

theorem paramName_injective {i j : Nat} (same : paramName i = paramName j) : i = j := by
  have digits : Nat.toDigits 10 i = Nat.toDigits 10 j := by
    have texts := congrArg String.toList same
    rw [paramName, paramName, String.toList_append, String.toList_append, Nat.toList_repr, Nat.toList_repr] at texts
    exact List.append_cancel_left texts
  rw [← Nat.ofDigitChars_toDigits (b := 10) (n := i) (by decide) (by decide), digits,
    Nat.ofDigitChars_toDigits (by decide) (by decide)]

/-- Parameters of other names stay as they are. -/
theorem pushAll_params_other (t : Translator) (values : List Value) {name : String}
    (other : ∀ i, i < values.length → name ≠ paramName (t.nextParam + i)) :
    (pushAll t values).params[name]? = t.params[name]? := by
  induction values generalizing t with
  | nil => rfl
  | cons v rest ih =>
    have first : paramName t.nextParam ≠ name := fun same => other 0 (Nat.zero_lt_succ _) same.symm
    have later : ∀ i, i < rest.length → name ≠ paramName ((t.pushParam v).1.nextParam + i) := by
      intro i less
      show name ≠ paramName (t.nextParam + 1 + i)
      rw [Nat.add_assoc, Nat.add_comm 1 i]
      exact other (i + 1) (Nat.succ_lt_succ less)
    calc (pushAll t (v :: rest)).params[name]? = (t.pushParam v).1.params[name]? := ih _ later
      _ = t.params[name]? := BTreeMap.get_insert_ne _ _ first

/-- Each value is bound to the parameter of its number. -/
theorem pushAll_params (t : Translator) (values : List Value) (i : Nat) (less : i < values.length) :
    (pushAll t values).params[paramName (t.nextParam + i)]? = values[i]? := by
  induction values generalizing t i with
  | nil => exact absurd less (Nat.not_lt_zero i)
  | cons v rest ih =>
    cases i with
    | zero =>
      have later : ∀ j, j < rest.length → paramName t.nextParam ≠ paramName ((t.pushParam v).1.nextParam + j) := by
        intro j _ same
        have equal : t.nextParam = t.nextParam + 1 + j := paramName_injective same
        omega
      calc (pushAll t (v :: rest)).params[paramName t.nextParam]? = (t.pushParam v).1.params[paramName t.nextParam]? :=
          pushAll_params_other _ rest later
        _ = some v := BTreeMap.get_insert_self _ _ _
    | succ i =>
      have number : t.nextParam + (i + 1) = (t.pushParam v).1.nextParam + i := by
        show t.nextParam + (i + 1) = t.nextParam + 1 + i
        omega
      rw [number, List.getElem?_cons_succ]
      exact ih _ i (Nat.lt_of_succ_lt_succ less)

/-- Only numbered parameters are bound. -/
theorem mem_pushAll_params {t : Translator} {values : List Value} {name : String}
    (bound : name ∈ (pushAll t values).params) :
    name ∈ t.params ∨ ∃ i, i < values.length ∧ name = paramName (t.nextParam + i) := by
  by_cases numbered : ∃ i, i < values.length ∧ name = paramName (t.nextParam + i)
  · exact .inr numbered
  · have other : ∀ i, i < values.length → name ≠ paramName (t.nextParam + i) :=
      fun i less same => numbered ⟨i, less, same⟩
    rw [BTreeMap.mem_iff_get, pushAll_params_other t values other, ← BTreeMap.mem_iff_get] at bound
    exact .inl bound

/-! ## Compiled queries -/

/-- The ends of the steps. -/
def stepNodes (current : VarId) : List TraversalStep → List NodeMatch
  | [] => []
  | step :: rest => Query.stepEnd current step :: stepNodes (current + 2) rest

/-- The pattern of the steps. -/
def stepsPattern (current : VarId) : List TraversalStep → String
  | [] => ""
  | step :: rest =>
    relationshipPattern step.dir (current + 1) step.relType ++ nodePattern (current + 2) step.endLabels ++
      stepsPattern (current + 2) rest

theorem stepNodes_above {current : VarId} {steps : List TraversalStep} {node : NodeMatch}
    (member : node ∈ stepNodes current steps) : current < node.var := by
  induction steps generalizing current with
  | nil => cases member
  | cons step rest ih =>
    rcases List.mem_cons.1 member with rfl | later
    · exact Nat.lt_add_of_pos_right (by decide)
    · exact Nat.lt_trans (Nat.lt_add_of_pos_right (by decide)) (ih later)

theorem stepNodes_ascending (current : VarId) (steps : List TraversalStep) :
    (stepNodes current steps).Pairwise fun a b => a.var < b.var := by
  induction steps generalizing current with
  | nil => exact List.Pairwise.nil
  | cons step rest ih => exact List.pairwise_cons.2 ⟨fun node later => stepNodes_above later, ih (current + 2)⟩

theorem filterMap_stepClauses (current : VarId) (steps : List TraversalStep) :
    (Query.stepClauses current steps).filterMap nodeEntry = (stepNodes current steps).map fun n => (n.var, n) := by
  induction steps generalizing current with
  | nil => rfl
  | cons step rest ih =>
    rw [Query.stepClauses, stepNodes, List.map_cons, ← ih]
    rfl

theorem validateClauses_steps {bound : BTreeSet VarId} {current : VarId} (steps : List TraversalStep)
    (started : current ∈ bound) : GraphQuery.validateClauses bound (Query.stepClauses current steps) = .ok () := by
  induction steps generalizing bound current with
  | nil => rfl
  | cons step rest ih =>
    have bound' : bound.contains (Query.stepHop current step).start = true := ExtTreeSet.mem_iff_contains.1 started
    rw [Query.stepClauses, GraphQuery.validateClauses, if_pos bound']
    exact ih (BTreeSet.mem_insert.2 (.inl rfl))

section Compiled
variable {query : Query} {q : GraphQuery}
  (clauses : q.clauses = .node query.rootMatch :: Query.stepClauses 0 query.pattern.traversals)
include clauses

theorem toList_collectNodeMatches :
    (collectNodeMatches q).toList =
      (query.rootMatch :: stepNodes 0 query.pattern.traversals).map fun n => (n.var, n) := by
  have entries : q.clauses.filterMap nodeEntry =
      (query.rootMatch :: stepNodes 0 query.pattern.traversals).map fun n => (n.var, n) := by
    rw [clauses, List.map_cons, ← filterMap_stepClauses]
    rfl
  unfold collectNodeMatches
  rw [entries]
  apply BTreeMap.toList_insertAll
  rw [List.pairwise_map, List.pairwise_cons]
  refine ⟨fun node later => Nat.compare_eq_lt.2 (stepNodes_above later), ?_⟩
  exact (stepNodes_ascending _ _).imp fun {a b} less => Nat.compare_eq_lt.2 less

theorem vals_collectNodeMatches :
    (collectNodeMatches q).vals = query.rootMatch :: stepNodes 0 query.pattern.traversals := by
  rw [BTreeMap.vals, toList_collectNodeMatches clauses, List.map_map]
  exact List.map_id _

theorem get_collectNodeMatches {node : NodeMatch} (member : node ∈ stepNodes 0 query.pattern.traversals) :
    (collectNodeMatches q)[node.var]? = some node := by
  rw [← ExtTreeMap.mem_toList_iff_getElem?_eq_some, toList_collectNodeMatches clauses]
  exact List.mem_map.2 ⟨node, List.mem_cons_of_mem _ member, rfl⟩

omit clauses in
theorem join_clausePattern {nodes : BTreeMap VarId NodeMatch} {current : VarId} {steps : List TraversalStep}
    (found : ∀ node ∈ stepNodes current steps, nodes[node.var]? = some node) :
    String.join ((Query.stepClauses current steps).map (clausePattern nodes)) = stepsPattern current steps := by
  induction steps generalizing current with
  | nil => rfl
  | cons step rest ih =>
    have own : nodes[current + 2]? = some (Query.stepEnd current step) := found _ List.mem_cons_self
    have labels : ((nodes[(Query.stepHop current step).endVar]?.map NodeMatch.labels).filter
        fun labels => !labels.isEmpty).getD (Query.stepHop current step).endLabels = step.endLabels := by
      rw [show nodes[(Query.stepHop current step).endVar]? = nodes[current + 2]? from rfl, own]
      show (Option.filter (fun labels => !List.isEmpty labels) (some step.endLabels)).getD step.endLabels = _
      cases step.endLabels with
      | nil => rfl
      | cons label more => rfl
    rw [Query.stepClauses, List.map_cons, List.map_cons, String.join_cons, String.join_cons,
      ih fun node member => found node (List.mem_cons_of_mem _ member), stepsPattern, clausePattern, clausePattern]
    rw [labels]
    simp only [String.empty_append]
    rfl

end Compiled

end Cypher

namespace Query

/-- The conditions of the steps. -/
def stepConditions (current : VarId) : List TraversalStep → List Cypher.Condition
  | [] => []
  | step :: rest => step.endFilters.map (Cypher.Condition.property (current + 2)) ++ stepConditions (current + 2) rest

/-- The conditions of a query and of filters on its root: one for an id and one for each property
filter, root first. -/
def conditions (query : Query) (where_ : List PropertyFilter) : List Cypher.Condition :=
  (query.pattern.id.map (Cypher.Condition.idIs 0)).toList ++
    query.pattern.propertyFilters.map (Cypher.Condition.property 0) ++
    stepConditions 0 query.pattern.traversals ++ where_.map (Cypher.Condition.property 0)

/-- The pattern of a query. -/
def cypherPattern (query : Query) : String :=
  Cypher.nodePattern 0 query.pattern.labels ++ Cypher.stepsPattern 0 query.pattern.traversals

/-- The variables of a query. -/
def cypherVars (query : Query) : List VarId :=
  GraphQuery.dedup ((.node query.rootMatch :: stepClauses 0 query.pattern.traversals).flatMap GraphQuery.clauseVars)

/-- The text of a query. -/
def cypherText (query : Query) (where_ : List PropertyFilter) : String :=
  "MATCH " ++ query.cypherPattern ++ Cypher.whereText (Cypher.predicates 0 (query.conditions where_)) ++
    Cypher.tailText query.cypherVars query.offset query.limit

theorem flatMap_stepNodes (current : VarId) (steps : List TraversalStep) :
    (Cypher.stepNodes current steps).flatMap Cypher.nodeConditions = stepConditions current steps := by
  induction steps generalizing current with
  | nil => rfl
  | cons step rest ih =>
    rw [Cypher.stepNodes, List.flatMap_cons, ih]
    rfl

/-- The translation of a query with the clauses of a compiled one. -/
theorem graphQueryToCypher_eq {query : Query} {q : GraphQuery}
    (clauses : q.clauses = .node query.rootMatch :: stepClauses 0 query.pattern.traversals)
    (limit : q.limit = query.limit) (offset : q.offset = query.offset) :
    Cypher.graphQueryToCypher q =
      .ok {
        text := query.cypherText q.where_
        params := (Cypher.pushAll {} ((query.conditions q.where_).map Cypher.Condition.value)).params } := by
  have valid : q.validate = .ok () := by
    unfold GraphQuery.validate
    rw [clauses]
    exact Cypher.validateClauses_steps _ (BTreeSet.mem_insert.2 (.inl rfl))
  have root : q.rootVar = 0 := by
    unfold GraphQuery.rootVar
    rw [clauses]
    rfl
  have vars : q.boundVars = query.cypherVars := by
    unfold GraphQuery.boundVars cypherVars
    rw [← clauses]
  have pattern : Cypher.buildMatchPattern q (Cypher.collectNodeMatches q) = .ok query.cypherPattern := by
    unfold Cypher.buildMatchPattern
    rw [clauses]
    dsimp only
    rw [Cypher.join_clausePattern fun node member => Cypher.get_collectNodeMatches clauses member]
    rfl
  have written : Cypher.conditions q (Cypher.collectNodeMatches q) = query.conditions q.where_ := by
    rw [Cypher.conditions, Cypher.vals_collectNodeMatches clauses, List.flatMap_cons, flatMap_stepNodes, root]
    rfl
  simp only [Cypher.graphQueryToCypher, valid, pattern, Cypher.writes_buildPredicates _ _ _, written, vars, limit, offset,
    bind, Except.bind]
  rfl

end Query
