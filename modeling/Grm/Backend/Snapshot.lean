import Grm.Backend.Store

/-!
# Snapshot reads of the in-memory backend

`backend/inmemory/inmemorytx.rs`: the reads that bypass transactions and answer from
the shared store, and its counts by label and type.
-/

set_option autoImplicit false

namespace GraphStore

/-- `snapshot_nodes_filtered`: the store after the lookup, and the nodes. With an id the
property is not looked at. -/
def snapshotNodesFiltered (s : GraphStore) (label : String) (id : Option Int) (property : Option (String × Value)) :
    GraphStore × List StoredNode :=
  match id with
  | some id => (s, ((s.nodes[id]?).filter fun node => node.labels.any fun l => l == label).toList)
  | none =>
    let (s, ids) := match property with
      | some (key, value) => s.nodeIdsByLabelProperty label key value
      | none => (s, s.nodeIdsByLabel label)
    (s, ids.filterMap fun id => s.nodes[id]?)

/-- The conditions of `snapshot_relationships_filtered` on a relationship. -/
def relSelected (relType : String) (fromId toId : Option Int) (rel : StoredRel) : Bool :=
  rel.relType == relType && fromId.all (fun id => rel.fromId == id) && toId.all fun id => rel.toId == id

/-- `snapshot_relationships_filtered`. -/
def snapshotRelationshipsFiltered (s : GraphStore) (relType : String) (id fromId toId : Option Int) :
    List StoredRel :=
  match id with
  | some id => ((s.rels[id]?).filter (relSelected relType fromId toId)).toList
  | none =>
    let ids := match fromId, toId with
      | some source, some target =>
        let outgoing := s.outgoingRelationshipIds source (some relType)
        let incoming := s.incomingRelationshipIds target (some relType)
        if outgoing.length ≤ incoming.length then outgoing else incoming
      | some source, none => s.outgoingRelationshipIds source (some relType)
      | none, some target => s.incomingRelationshipIds target (some relType)
      | none, none => s.relationshipIdsByType relType
    (ids.filterMap fun id => s.rels[id]?).filter (relSelected relType fromId toId)

/-- The node count of a label in `summary_counts_by_storage_type`, zero when absent. -/
def labelCount (s : GraphStore) (label : String) : Nat := (s.nodeIdsByLabel label).length

/-- The relationship count of a type in `summary_counts_by_storage_type`. -/
def typeCount (s : GraphStore) (relType : String) : Nat := (s.relationshipIdsByType relType).length

end GraphStore
