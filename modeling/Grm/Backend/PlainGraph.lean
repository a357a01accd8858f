import Grm.Backend.TxRun

/-!
# The plain graph

The purpose of a transaction, stated without deltas, indexes or working copies: two
maps and two counters, where each operation acts at once and deleting a node takes
its relationships with it. A neighbour list holds the relationships that match and
whose two ends are nodes of the graph.
-/

open Std

set_option autoImplicit false

/-- A graph as two maps and two counters. -/
structure PlainGraph where
  nodes : BTreeMap Int StoredNode
  rels : BTreeMap Int StoredRel
  nextNodeId : Int
  nextRelId : Int

namespace PlainGraph

/-- The records and counters of a store. -/
def ofStore (s : GraphStore) : PlainGraph := ⟨s.nodes, s.rels, s.nextNodeId, s.nextRelId⟩

def createNode (g : PlainGraph) (labels : List String) (props : Props) : PlainGraph :=
  { g with
    nodes := g.nodes.insert g.nextNodeId { id := g.nextNodeId, labels, props }
    nextNodeId := g.nextNodeId + 1 }

def updateNode (g : PlainGraph) (id : Int) (props : Props) : PlainGraph :=
  match g.nodes[id]? with
  | some node => { g with nodes := g.nodes.insert id { node with props := mergeProps node.props props } }
  | none => g

/-- A node goes with the relationships that touch it. -/
def deleteNode (g : PlainGraph) (id : Int) : PlainGraph :=
  if id ∈ g.nodes then
    { g with nodes := g.nodes.erase id, rels := g.rels.filter fun _ rel => !rel.touches id }
  else g

def createRelationship (g : PlainGraph) (fromId toId : Int) (relType : String) (props : Props) : PlainGraph :=
  { g with
    rels := g.rels.insert g.nextRelId { id := g.nextRelId, relType, fromId, toId, props }
    nextRelId := g.nextRelId + 1 }

def updateRelationship (g : PlainGraph) (id : Int) (props : Props) : PlainGraph :=
  match g.rels[id]? with
  | some rel => { g with rels := g.rels.insert id { rel with props := mergeProps rel.props props } }
  | none => g

def deleteRelationship (g : PlainGraph) (id : Int) : PlainGraph := { g with rels := g.rels.erase id }

/-- The matching relationships of a node with the node at the other end. -/
def neighbors (g : PlainGraph) (node : Int) (relType : Option String) (dir : Direction) :
    List (StoredRel × StoredNode) :=
  if node ∈ g.nodes then
    (g.rels.vals.filter fun rel => relMatchesNeighbor rel node relType dir).filterMap fun rel =>
      ((neighborId rel node dir).bind fun id => g.nodes[id]?).map fun neighbor => (rel, neighbor)
  else []

def step (g : PlainGraph) : TxOp → PlainGraph
  | .createNode labels props => g.createNode labels props
  | .createNodes inserts => inserts.foldl (fun g insert => g.createNode insert.1 insert.2) g
  | .updateNode id props => g.updateNode id props
  | .deleteNode id => g.deleteNode id
  | .createRelationship fromId toId relType props => g.createRelationship fromId toId relType props
  | .updateRelationship id props => g.updateRelationship id props
  | .deleteRelationship id => g.deleteRelationship id
  | .findNodeById _ | .findNodesByProperty _ _ | .neighbors _ _ _ | .executeGraph _ => g

def run (g : PlainGraph) (ops : List TxOp) : PlainGraph := ops.foldl step g

section Lookup
variable (g : PlainGraph)

theorem deleteNode_nodes (id k : Int) :
    (g.deleteNode id).nodes[k]? = if id = k then none else g.nodes[k]? := by
  unfold deleteNode
  split
  · exact BTreeMap.get_erase g.nodes id k
  case isFalse missing =>
    split
    case isTrue same => exact same ▸ BTreeMap.not_mem_iff_get.1 missing
    case isFalse => rfl

theorem deleteNode_rels {id : Int} (present : id ∈ g.nodes) (k : Int) :
    (g.deleteNode id).rels[k]? = (g.rels[k]?).filter fun rel => !rel.touches id := by
  simp only [deleteNode, present, if_true, ExtTreeMap.getElem?_filter]
  cases g.rels[k]? with
  | none => rfl
  | some r => simp [Option.filter_some]

theorem deleteNode_of_missing {id : Int} (missing : id ∉ g.nodes) : g.deleteNode id = g := by
  simp [deleteNode, missing]

theorem mem_neighbors (own : ∀ (k : Int) (r : StoredRel), g.rels[k]? = some r → r.id = k) {node : Int}
    {relType : Option String} {dir : Direction} {r : StoredRel} {m : StoredNode} :
    (r, m) ∈ g.neighbors node relType dir ↔
      node ∈ g.nodes ∧ g.rels[r.id]? = some r ∧ relMatchesNeighbor r node relType dir = true ∧
        ((neighborId r node dir).bind fun id => g.nodes[id]?) = some m := by
  unfold neighbors
  split
  case isTrue present =>
    simp only [List.mem_filterMap, List.mem_filter, BTreeMap.mem_vals, Option.map_eq_some_iff, Prod.mk.injEq, present,
      true_and]
    constructor
    · rintro ⟨r', ⟨⟨k, found⟩, hit⟩, m', neighbor, rfl, rfl⟩
      exact ⟨(own k r' found).symm ▸ found, hit, neighbor⟩
    · rintro ⟨found, hit, neighbor⟩
      exact ⟨r, ⟨⟨r.id, found⟩, hit⟩, m, neighbor, rfl, rfl⟩
  case isFalse missing => simp [missing]

theorem nodup_neighbors (own : ∀ (k : Int) (r : StoredRel), g.rels[k]? = some r → r.id = k) (node : Int)
    (relType : Option String) (dir : Direction) :
    ((g.neighbors node relType dir).map fun p => p.1.id).Nodup := by
  unfold neighbors
  split
  · refine FirstByKey.nodup_map_filterMap (g := StoredRel.id) ?_ ?_
    · exact List.Nodup.sublist (List.filter_sublist.map _) (BTreeMap.nodup_vals own)
    · intro r _ pair seen
      obtain ⟨m, -, rfl⟩ := Option.map_eq_some_iff.1 seen
      rfl
  · exact List.nodup_nil

end Lookup

end PlainGraph
