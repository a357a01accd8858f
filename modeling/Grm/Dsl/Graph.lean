import Grm.Error
import Grm.Json
import Grm.Lib.Text

/-!
# Graph queries

`dsl/`: property filters, typed node patterns with their traversal steps, and the
kernel query `GraphQuery` that `compile_to_graph` makes of them. A node pattern is
kept without its model's type parameters: labels, keys and relationship types are
the strings the models declare.
-/

set_option autoImplicit false

/-- `CompareOp`. -/
inductive CompareOp where
  | eq | ne | gt | ge | lt | le | contains
  deriving DecidableEq, Repr

/-- `PropertyFilter`. -/
structure PropertyFilter where
  key : String
  op : CompareOp
  value : Value

/-- The `Contains` operator of both engines: only on two strings. -/
def valueContains (left right : Value) : Bool :=
  match left.asStr, right.asStr with
  | some lhs, some rhs => Text.strContains lhs rhs
  | _, _ => false

/-- `numeric_cmp`: both sides converted to a double, false when one is no number. -/
def numericCmp (a b : Value) (cmp : Int → Int → Bool) : Bool :=
  match a.asF64, b.asF64 with
  | some la, some rb => cmp la rb
  | _, _ => false

/-- The kernel's comparison of a stored value with a filter's value. -/
def kernelCompare (value : Value) (op : CompareOp) (filter : Value) : Bool :=
  match op with
  | .eq => value.eq filter
  | .ne => !value.eq filter
  | .gt => numericCmp value filter fun a b => b < a
  | .ge => numericCmp value filter fun a b => b ≤ a
  | .lt => numericCmp value filter fun a b => a < b
  | .le => numericCmp value filter fun a b => a ≤ b
  | .contains => valueContains value filter

/-- `props_match_filters`, and `stored_node_matches_filters` on the node's properties. -/
def propsMatchFilters (props : Props) (filters : List PropertyFilter) : Bool :=
  filters.all fun f => match props[f.key]? with
    | some value => kernelCompare value f.op f.value
    | none => false

/-- `labels_match`: every required label is one of the node's. -/
def labelsMatch (nodeLabels required : List String) : Bool :=
  required.all fun l => nodeLabels.any fun nl => nl == l

/-- `VarId`. -/
abbrev VarId := Nat

/-- `Direction`; `incoming` is the source's `In`. -/
inductive Direction where
  | out | incoming | both
  deriving DecidableEq, Repr

/-- `TraversalStep`. -/
structure TraversalStep where
  dir : Direction
  relType : Option String
  endLabels : List String
  endFilters : List PropertyFilter

/-- `NodePattern`. -/
structure NodePattern where
  labels : List String
  id : Option Int
  propertyFilters : List PropertyFilter
  traversals : List TraversalStep

/-- `ReturnMode`; `endNode` is the source's `End`. -/
inductive ReturnMode where
  | root | endNode | rel
  deriving DecidableEq, Repr

/-- `Query`, with the one variant of `QueryKind` unfolded. -/
structure Query where
  pattern : NodePattern
  limit : Option Nat
  offset : Option Nat
  returnMode : ReturnMode

/-- `NodeMatch`. -/
structure NodeMatch where
  var : VarId
  labels : List String
  idFilter : Option Int
  propertyFilters : List PropertyFilter

/-- `HopMatch`; `endVar` is the source's `end`. -/
structure HopMatch where
  start : VarId
  relType : Option String
  relVar : VarId
  dir : Direction
  endVar : VarId
  endLabels : List String

/-- `MatchClause`. -/
inductive MatchClause where
  | node (nm : NodeMatch)
  | hop (h : HopMatch)

/-- `Return`. -/
inductive Return where
  | node (var : VarId)
  | rel (var : VarId)
  deriving DecidableEq, Repr

/-- `GraphQuery`; `clauses` is the source's `matches`. -/
structure GraphQuery where
  clauses : List MatchClause
  where_ : List PropertyFilter
  ret : Return
  limit : Option Nat
  offset : Option Nat

namespace GraphQuery

/-- The clause loop of `validate`: a hop starts at a variable bound before it. -/
def validateClauses (bound : BTreeSet VarId) : List MatchClause → GrmResult Unit
  | [] => .ok ()
  | .node nm :: clauses => validateClauses (bound.insert nm.var) clauses
  | .hop h :: clauses =>
    if bound.contains h.start then validateClauses (bound.insert h.endVar) clauses
    else .error (.mapping ("HopMatch.start VarId(" ++ toString h.start ++ ") not bound before hop"))

/-- `GraphQuery::validate`. -/
def validate (q : GraphQuery) : GrmResult Unit :=
  match q.clauses with
  | [] => .error (.mapping "GraphQuery has no match clauses")
  | .hop _ :: _ => .error (.mapping "GraphQuery must start with NodeMatch")
  | .node nm :: clauses => validateClauses ((∅ : BTreeSet VarId).insert nm.var) clauses

end GraphQuery

/-- `VarGen`: the next variable. -/
structure VarGen where
  next : VarId := 0

/-- `VarGen::fresh`. -/
def VarGen.fresh (vg : VarGen) : VarGen × VarId := (⟨vg.next + 1⟩, vg.next)

namespace Query

/-- The loop state of `compile_to_graph`. -/
structure Compiling where
  vg : VarGen
  clauses : List MatchClause
  current : VarId
  lastRelVar : Option VarId

/-- One traversal step: a hop clause and the end node's own clause. -/
def compileStep (st : Compiling) (step : TraversalStep) : Compiling :=
  let (vg, relId) := st.vg.fresh
  let (vg, endId) := vg.fresh
  let hop := MatchClause.hop
    { start := st.current, relType := step.relType, relVar := relId, dir := step.dir, endVar := endId,
      endLabels := step.endLabels }
  let endMatch := MatchClause.node
    { var := endId, labels := step.endLabels, idFilter := none, propertyFilters := step.endFilters }
  { vg, clauses := st.clauses ++ [hop, endMatch], current := endId, lastRelVar := some relId }

/-- `end_var_from_matches`: the variable of the last node clause. -/
def endVarFromMatches (clauses : List MatchClause) (root : VarId) : VarId :=
  clauses.foldl (fun last m => match m with
    | .node nm => nm.var
    | .hop _ => last) root

/-- `compile_to_graph`; a relationship return without a traversal panics. -/
def compileToGraph (q : Query) : Option GraphQuery :=
  let (vg, root) := VarGen.fresh {}
  let rootMatch := MatchClause.node
    { var := root, labels := q.pattern.labels, idFilter := q.pattern.id,
      propertyFilters := q.pattern.propertyFilters }
  let st := q.pattern.traversals.foldl compileStep
    { vg, clauses := [rootMatch], current := root, lastRelVar := none }
  let ret : Option Return := match q.returnMode with
    | .root => some (.node root)
    | .endNode => some (.node (endVarFromMatches st.clauses root))
    | .rel => st.lastRelVar.map .rel
  ret.map fun ret => { clauses := st.clauses, where_ := [], ret, limit := q.limit, offset := q.offset }

/-- The root's clause. -/
def rootMatch (q : Query) : NodeMatch where
  var := 0
  labels := q.pattern.labels
  idFilter := q.pattern.id
  propertyFilters := q.pattern.propertyFilters

/-- The hop clause of a step from the node `current`. -/
def stepHop (current : VarId) (step : TraversalStep) : HopMatch where
  start := current
  relType := step.relType
  relVar := current + 1
  dir := step.dir
  endVar := current + 2
  endLabels := step.endLabels

/-- The end node's clause of a step from the node `current`. -/
def stepEnd (current : VarId) (step : TraversalStep) : NodeMatch where
  var := current + 2
  labels := step.endLabels
  idFilter := none
  propertyFilters := step.endFilters

/-- The clauses of the steps: variables are numbered through. -/
def stepClauses (current : VarId) : List TraversalStep → List MatchClause
  | [] => []
  | step :: rest => .hop (stepHop current step) :: .node (stepEnd current step) :: stepClauses (current + 2) rest

theorem foldl_compileStep {st : Compiling} (numbered : st.vg.next = st.current + 1) (steps : List TraversalStep) :
    (steps.foldl compileStep st).clauses = st.clauses ++ stepClauses st.current steps := by
  induction steps generalizing st with
  | nil => exact (List.append_nil _).symm
  | cons step rest ih =>
    obtain ⟨⟨next⟩, clauses, current, lastRelVar⟩ := st
    obtain rfl : next = current + 1 := numbered
    have later : ((compileStep ⟨⟨current + 1⟩, clauses, current, lastRelVar⟩ step).vg.next) =
        (compileStep ⟨⟨current + 1⟩, clauses, current, lastRelVar⟩ step).current + 1 := rfl
    rw [List.foldl_cons, ih later]
    exact List.append_assoc clauses _ _

/-- What `compile_to_graph` makes of a query. -/
theorem compileToGraph_eq {q : Query} {g : GraphQuery} (compiled : q.compileToGraph = some g) :
    g.clauses = .node q.rootMatch :: stepClauses 0 q.pattern.traversals ∧ g.where_ = [] ∧ g.limit = q.limit ∧
      g.offset = q.offset := by
  obtain ⟨ret, -, rfl⟩ := Option.map_eq_some_iff.1 compiled
  exact ⟨foldl_compileStep rfl q.pattern.traversals, rfl, rfl, rfl⟩

end Query
