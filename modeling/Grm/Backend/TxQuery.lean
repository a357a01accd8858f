import Grm.Backend.Tx
import Grm.Error

/-!
# The in-memory query executor

`backend/inmemory/inmemorytx.rs`: candidate selection through the property and label
indexes, the hop loop, and the selection of one binding for each returned id.
-/

open Std

set_option autoImplicit false

/-- `keep_smallest`: the shorter candidate list, the earlier one on a tie. -/
def keepSmallest (best : Option (List Int)) (candidate : List Int) : Option (List Int) :=
  match best with
  | some current => if candidate.length < current.length then some candidate else best
  | none => some candidate

namespace GraphStore

/-- The equality filters a property index can answer. -/
def indexableFilters (filters : List PropertyFilter) : List PropertyFilter :=
  filters.filter fun f => f.op = .eq && propertyValueIsIndexable f.value

/-- The candidate lists of `base_node_candidate_ids`, in the order it tries them. -/
def candidateLists (s : GraphStore) (labels : List String) (filters : List PropertyFilter) : List (List Int) :=
  if labels.isEmpty then
    (indexableFilters filters).map fun f => (s.nodeIdsByProperty f.key f.value).2
  else
    let byProperty := labels.flatMap fun label =>
      (indexableFilters filters).map fun f => (s.nodeIdsByLabelProperty label f.key f.value).2
    if byProperty.isEmpty then labels.map s.nodeIdsByLabel else byProperty

/-- `base_node_candidate_ids`: the store after the lookups, and the candidates. Every
property lookup rebuilds dirty caches first, and after the first one they are clean. -/
def baseNodeCandidateIds (s : GraphStore) (labels : List String) (filters : List PropertyFilter) :
    GraphStore × List Int :=
  let s := if (indexableFilters filters).isEmpty then s else s.freshProps
  (s, ((s.candidateLists labels filters).foldl keepSmallest none).getD s.nodes.keys)

end GraphStore

/-- `Binding`. -/
structure Binding where
  root : Int
  cur : Int
  rels : BTreeMap VarId Int
  nodes : BTreeMap VarId Int

/-- `Binding::new_root`. -/
def Binding.newRoot (rootVar : VarId) (rootId : Int) : Binding where
  root := rootId
  cur := rootId
  rels := ∅
  nodes := (∅ : BTreeMap VarId Int).insert rootVar rootId

/-- `ExecCtx`. -/
structure ExecCtx where
  rootNm : NodeMatch
  hops : List HopMatch

namespace MatchClause

def node? : MatchClause → Option NodeMatch
  | node nm => some nm
  | hop _ => none

def hop? : MatchClause → Option HopMatch
  | node _ => none
  | hop h => some h

end MatchClause

/-- `ExecCtx::build`: the first node clause and the hops. The other node clauses are
collected into a map that is not kept. -/
def ExecCtx.build (q : GraphQuery) : GrmResult ExecCtx :=
  match q.clauses.findSome? MatchClause.node? with
  | some rootNm => .ok { rootNm, hops := q.clauses.filterMap MatchClause.hop? }
  | none => .error (.backend "GraphQuery missing root NodeMatch")

/-- The value a row holds for a variable; `NodeValue` and `RelValue` have the fields of
the stored records. -/
inductive KernelValue where
  | node (n : StoredNode)
  | rel (r : StoredRel)

/-- `QueryRow`. -/
structure QueryRow where
  values : BTreeMap VarId KernelValue

namespace InMemoryTx

/-- `base_nodes_matching`. -/
def baseNodesMatching (tx : InMemoryTx) (labels : List String) (filters : List PropertyFilter) :
    InMemoryTx × List StoredNode :=
  let (store, candidates) := tx.store.baseNodeCandidateIds labels filters
  ({ tx with store },
    (candidates.filterMap fun id => store.nodes[id]?).filter fun node =>
      !tx.delta.deletedNodes.contains node.id && !tx.delta.nodes.contains node.id &&
        labelsMatch node.labels labels && propsMatchFilters node.props filters)

/-- `visible_nodes_matching`: the unwritten nodes of the base store, then the written ones. -/
def visibleNodesMatching (tx : InMemoryTx) (labels : List String) (filters : List PropertyFilter) :
    InMemoryTx × List StoredNode :=
  let accepts (node : StoredNode) : Bool := labelsMatch node.labels labels && propsMatchFilters node.props filters
  match tx.workingCopy with
  | some store => (tx, store.nodes.vals.filter accepts)
  | none =>
    let (tx, base) := tx.baseNodesMatching labels filters
    (tx, base ++ tx.delta.nodes.vals.filter accepts)

/-- `seed_roots`. -/
def seedRoots (tx : InMemoryTx) (rootNm : NodeMatch) : InMemoryTx × List Binding :=
  match rootNm.idFilter with
  | some id =>
    (tx, match tx.visibleNode id with
      | some node =>
        if labelsMatch node.labels rootNm.labels && propsMatchFilters node.props rootNm.propertyFilters then
          [Binding.newRoot rootNm.var node.id]
        else []
      | none => [])
  | none =>
    let (tx, nodes) := tx.visibleNodesMatching rootNm.labels rootNm.propertyFilters
    (tx, nodes.map fun node => Binding.newRoot rootNm.var node.id)

/-- `create_next_binding`. -/
def createNextBinding (binding : Binding) (rel : StoredRel) (endNodeId : Int) (hop : HopMatch) : Binding where
  root := binding.root
  cur := endNodeId
  rels := binding.rels.insert hop.relVar rel.id
  nodes := binding.nodes.insert hop.endVar endNodeId

/-- `traverse_single_hop` and `traverse_single_hop_pure`: the hop's end labels are
checked, the end variable's own node clause is not. -/
def traverseSingleHop (tx : InMemoryTx) (binding : Binding) (hop : HopMatch) : List Binding :=
  let pairs := match hop.dir with
    | .out => tx.outgoing binding.cur hop.relType
    | .incoming => tx.incoming binding.cur hop.relType
    | .both => tx.both binding.cur hop.relType
  (pairs.filter fun pair => labelsMatch pair.2.labels hop.endLabels).map fun pair =>
    createNextBinding binding pair.1 pair.2.id hop

/-- `traverse_hops`. -/
def traverseHops (tx : InMemoryTx) (bindings : List Binding) (hops : List HopMatch) : List Binding :=
  hops.foldl (fun current hop => current.flatMap fun binding => tx.traverseSingleHop binding hop) bindings

/-- The id a binding has for the returned variable. -/
def returnedId (ret : Return) (b : Binding) : Option Int :=
  match ret with
  | .node var => b.nodes[var]?
  | .rel var => b.rels[var]?

/-- Skip `offset`, then take at most `limit`. -/
def page {α : Type} (offset limit : Option Nat) (l : List α) : List α :=
  let rest := l.drop (offset.getD 0)
  match limit with
  | some lim => rest.take lim
  | none => rest

/-- `select_bindings_for_return`. -/
def selectBindingsForReturn (q : GraphQuery) (bindings : List Binding) : List Binding :=
  page q.offset q.limit (firstByKey (returnedId q.ret) [] bindings)

/-- The row of one binding in `emit_rows_from_bindings`. -/
def emitRow (tx : InMemoryTx) (b : Binding) : QueryRow :=
  let nodes := b.nodes.toList.filterMap fun e => (tx.visibleNode e.2).map fun n => (e.1, KernelValue.node n)
  let rels := b.rels.toList.filterMap fun e => (tx.visibleRel e.2).map fun r => (e.1, KernelValue.rel r)
  ⟨BTreeMap.insertAll ∅ (nodes ++ rels)⟩

/-- The bindings `execute_graph_query` selects. -/
def selectedBindings (tx : InMemoryTx) (q : GraphQuery) : GrmResult (InMemoryTx × List Binding) := do
  let ctx ← ExecCtx.build q
  let (tx, roots) := tx.seedRoots ctx.rootNm
  return (tx, selectBindingsForReturn q (tx.traverseHops roots ctx.hops))

/-- `execute_graph_query`. -/
def executeGraphQuery (tx : InMemoryTx) (q : GraphQuery) : GrmResult (InMemoryTx × List QueryRow) := do
  let (tx, selected) ← tx.selectedBindings q
  return (tx, selected.map tx.emitRow)

end InMemoryTx
