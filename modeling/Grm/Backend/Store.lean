import Grm.Json
import Grm.Lib.Index

/-!
# The graph store

`backend/graphstore.rs`: records by id, label, type and adjacency indexes kept with
every write, and two property indexes that are derived caches, rebuilt by the first
property lookup after a write marked them dirty.
-/

open Std

set_option autoImplicit false

/-- `StoredNode`. -/
structure StoredNode where
  id : Int
  labels : List String
  props : Props

/-- `StoredRel`; `fromId` and `toId` are the source's `from` and `to`. -/
structure StoredRel where
  id : Int
  relType : String
  fromId : Int
  toId : Int
  props : Props

/-- The relationship starts or ends at the node. -/
def StoredRel.touches (rel : StoredRel) (id : Int) : Bool := rel.fromId == id || rel.toId == id

/-- `ValueKey`: the part of a property value the property index files it under. -/
inductive ValueKey where
  | null
  | bool (b : Bool)
  | int (i : Int)
  | uint (n : Int)
  | floatBits (bits : Nat)
  | string (s : String)
  deriving DecidableEq

namespace ValueKey

/-- The variant and the payload, ordered as the derived order compares them. -/
def rank : ValueKey → Nat × Int × String
  | null => (0, 0, "")
  | bool b => (1, if b then 1 else 0, "")
  | int i => (2, i, "")
  | uint n => (3, n, "")
  | floatBits b => (4, b, "")
  | string s => (5, 0, s)

theorem rank_injective {a b : ValueKey} (h : a.rank = b.rank) : a = b := by
  cases a <;> cases b <;> simp_all [rank]
  case bool.bool a b => cases a <;> cases b <;> simp_all

instance : Ord ValueKey := ⟨compareOn rank⟩

instance : TransOrd ValueKey := inferInstanceAs (TransCmp (compareOn rank))

instance : LawfulEqOrd ValueKey where
  eq_of_compare h := rank_injective (compare_eq_iff_eq.1 h)

/-- `ValueKey::from_value`. -/
def fromValue : Value → Option ValueKey
  | .null => some null
  | .bool b => some (bool b)
  | .number (.int i) => some (if i.val < 2 ^ 63 then int i.val else uint i.val)
  | .number (.float x) => some (floatBits x.bits.toNat)
  | .string s => some (string s)
  | .array _ => none
  | .object _ => none

end ValueKey

/-- `GraphStore`. -/
structure GraphStore where
  nextNodeId : Int
  nextRelId : Int
  nodes : BTreeMap Int StoredNode
  rels : BTreeMap Int StoredRel
  nodesByLabel : BTreeMap String (BTreeSet Int)
  nodeProps : BTreeMap (String × String × ValueKey) (BTreeSet Int)
  nodePropsAny : BTreeMap (String × ValueKey) (BTreeSet Int)
  nodePropsDirty : Bool
  relsByType : BTreeMap String (BTreeSet Int)
  outgoing : BTreeMap (Int × String) (BTreeSet Int)
  incoming : BTreeMap (Int × String) (BTreeSet Int)
  outgoingAny : BTreeMap Int (BTreeSet Int)
  incomingAny : BTreeMap Int (BTreeSet Int)

namespace GraphStore

/-- `GraphStore::default`. -/
def empty : GraphStore where
  nextNodeId := 1
  nextRelId := 1
  nodes := ∅
  rels := ∅
  nodesByLabel := ∅
  nodeProps := ∅
  nodePropsAny := ∅
  nodePropsDirty := false
  relsByType := ∅
  outgoing := ∅
  incoming := ∅
  outgoingAny := ∅
  incomingAny := ∅

/-- `index_node_labels`. -/
def indexNodeLabels (s : GraphStore) (node : StoredNode) : GraphStore :=
  { s with nodesByLabel := node.labels.foldl (fun m label => Index.add m label node.id) s.nodesByLabel }

/-- The property index keys of a node, over all labels. -/
def anyKeys (node : StoredNode) : List (String × ValueKey) :=
  node.props.toList.filterMap fun e => (ValueKey.fromValue e.2).map fun key => (e.1, key)

/-- The property index keys of a node under each of its labels. -/
def labelKeys (node : StoredNode) : List (String × String × ValueKey) :=
  node.labels.flatMap fun label => (anyKeys node).map fun key => (label, key)

/-- `index_node_props`. -/
def indexNodeProps (s : GraphStore) (node : StoredNode) : GraphStore :=
  { s with
    nodePropsAny := (anyKeys node).foldl (fun m key => Index.add m key node.id) s.nodePropsAny
    nodeProps := (labelKeys node).foldl (fun m key => Index.add m key node.id) s.nodeProps }

/-- `deindex_node`. -/
def deindexNode (s : GraphStore) (node : StoredNode) : GraphStore :=
  { s with
    nodesByLabel := node.labels.foldl (fun m label => Index.remove m label node.id) s.nodesByLabel
    nodeProps := (labelKeys node).foldl (fun m key => Index.remove m key node.id) s.nodeProps
    nodePropsAny := (anyKeys node).foldl (fun m key => Index.remove m key node.id) s.nodePropsAny }

/-- `index_relationship`. -/
def indexRelationship (s : GraphStore) (rel : StoredRel) : GraphStore :=
  { s with
    relsByType := Index.add s.relsByType rel.relType rel.id
    outgoing := Index.add s.outgoing (rel.fromId, rel.relType) rel.id
    incoming := Index.add s.incoming (rel.toId, rel.relType) rel.id
    outgoingAny := Index.add s.outgoingAny rel.fromId rel.id
    incomingAny := Index.add s.incomingAny rel.toId rel.id }

/-- `deindex_relationship`. -/
def deindexRelationship (s : GraphStore) (rel : StoredRel) : GraphStore :=
  { s with
    relsByType := Index.remove s.relsByType rel.relType rel.id
    outgoing := Index.remove s.outgoing (rel.fromId, rel.relType) rel.id
    incoming := Index.remove s.incoming (rel.toId, rel.relType) rel.id
    outgoingAny := Index.remove s.outgoingAny rel.fromId rel.id
    incomingAny := Index.remove s.incomingAny rel.toId rel.id }

/-- All indexes cleared. -/
def clearIndexes (s : GraphStore) : GraphStore :=
  { s with
    nodesByLabel := ∅, nodeProps := ∅, nodePropsAny := ∅, relsByType := ∅
    outgoing := ∅, incoming := ∅, outgoingAny := ∅, incomingAny := ∅ }

/-- `rebuild_indexes`. -/
def rebuildIndexes (s : GraphStore) : GraphStore :=
  let s := s.nodes.vals.foldl (fun s node => (s.indexNodeLabels node).indexNodeProps node) s.clearIndexes
  { s.rels.vals.foldl indexRelationship s with nodePropsDirty := false }

/-- `rebuild_load_indexes`: after a load the property caches are left dirty. -/
def rebuildLoadIndexes (s : GraphStore) : GraphStore :=
  let s := s.nodes.vals.foldl indexNodeLabels s.clearIndexes
  { s.rels.vals.foldl indexRelationship s with nodePropsDirty := !s.nodes.isEmpty }

/-- `insert_node`, and `insert_node_deferred_property_index`, whose body is the same. -/
def insertNode (s : GraphStore) (id : Int) (node : StoredNode) : GraphStore :=
  let previous := s.nodes[id]?
  let s := { s with nodes := s.nodes.insert id node }
  let s := match previous with
    | some previous => s.deindexNode previous
    | none => s
  { s.indexNodeLabels node with nodePropsDirty := true }

/-- `rebuild_node_property_index`. -/
def rebuildNodePropertyIndex (s : GraphStore) : GraphStore :=
  { s.nodes.vals.foldl indexNodeProps { s with nodeProps := ∅, nodePropsAny := ∅ } with
    nodePropsDirty := false }

/-- `insert_relationship`. -/
def insertRelationship (s : GraphStore) (id : Int) (rel : StoredRel) : GraphStore :=
  let previous := s.rels[id]?
  let s := { s with rels := s.rels.insert id rel }
  let s := match previous with
    | some previous => s.deindexRelationship previous
    | none => s
  s.indexRelationship rel

/-- `remove_relationship`. -/
def removeRelationship (s : GraphStore) (id : Int) : GraphStore :=
  match s.rels[id]? with
  | some rel => { s with rels := s.rels.erase id }.deindexRelationship rel
  | none => s

/-- The ids of the relationships that touch a node, read off the records. -/
def touching (s : GraphStore) (id : Int) : List Int :=
  (s.rels.vals.filter fun rel => rel.touches id).map StoredRel.id

/-- `remove_node`: an existing node goes with every relationship that touches it. -/
def removeNode (s : GraphStore) (id : Int) : GraphStore :=
  match s.nodes[id]? with
  | some node =>
    let s := { { s with nodes := s.nodes.erase id }.deindexNode node with nodePropsDirty := true }
    (s.touching id).foldl removeRelationship s
  | none => s

/-- `outgoing_relationship_ids`. -/
def outgoingRelationshipIds (s : GraphStore) (node : Int) (relType : Option String) : List Int :=
  match relType with
  | some relType => Index.ids s.outgoing (node, relType)
  | none => Index.ids s.outgoingAny node

/-- `incoming_relationship_ids`. -/
def incomingRelationshipIds (s : GraphStore) (node : Int) (relType : Option String) : List Int :=
  match relType with
  | some relType => Index.ids s.incoming (node, relType)
  | none => Index.ids s.incomingAny node

/-- `node_ids_by_label`. -/
def nodeIdsByLabel (s : GraphStore) (label : String) : List Int := Index.ids s.nodesByLabel label

/-- `relationship_ids_by_type`. -/
def relationshipIdsByType (s : GraphStore) (relType : String) : List Int := Index.ids s.relsByType relType

/-- The rebuild a property lookup does first when the caches are dirty. -/
def freshProps (s : GraphStore) : GraphStore :=
  if s.nodePropsDirty then s.rebuildNodePropertyIndex else s

/-- `node_ids_by_label_property`: the store after the lookup, and the ids. -/
def nodeIdsByLabelProperty (s : GraphStore) (label key : String) (value : Value) : GraphStore × List Int :=
  let s := s.freshProps
  (s, match ValueKey.fromValue value with
    | some valueKey => Index.ids s.nodeProps (label, key, valueKey)
    | none => [])

/-- `node_ids_by_property`: a value without an index key is looked up by a scan. -/
def nodeIdsByProperty (s : GraphStore) (key : String) (value : Value) : GraphStore × List Int :=
  let s := s.freshProps
  (s, match ValueKey.fromValue value with
    | some valueKey => Index.ids s.nodePropsAny (key, valueKey)
    | none => (s.nodes.vals.filter fun node => (node.props[key]?).any fun v => v.eq value).map StoredNode.id)

/-- `property_value_is_indexable`. -/
def propertyValueIsIndexable (value : Value) : Bool := (ValueKey.fromValue value).isSome

end GraphStore
