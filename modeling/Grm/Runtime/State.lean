import Grm.Backend.Tx
import Grm.Runtime.Catalog

/-!
# Session state and its durable operations

A session is a store and a catalog. Every mutation is recorded as a
`DurableOperation`; `apply_session_log_entry` replays one over a loaded state. The
replay arms write the store directly, without a transaction.
-/

set_option autoImplicit false

/-- `SessionState`: the store of the in-memory client and the catalog. -/
structure SessionState where
  store : GraphStore
  catalog : SessionModelCatalog

/-- `SessionState::new`. -/
def SessionState.new : SessionState := ⟨GraphStore.empty, {}⟩

/-- `DurableOperation`. -/
inductive DurableOperation where
  | registerNodeModel (model : RuntimeNodeModel)
  | registerRelModel (model : RuntimeRelModel)
  | upsertNode (node : StoredNode)
  | deleteNode (id : Int)
  | upsertRel (rel : StoredRel)
  | deleteRel (id : Int)
  | batch (ops : List DurableOperation)

namespace SessionModelCatalog

/-- The replay of a node model: one whose name is already a node model is skipped. -/
def ensureNodeModel (c : SessionModelCatalog) (model : RuntimeNodeModel) : GrmResult SessionModelCatalog :=
  if (c.getNodeModel model.name).isNone then c.registerNodeModel model else .ok c

/-- The replay of a relationship model: one whose name is already a relationship model is
skipped. -/
def ensureRelModel (c : SessionModelCatalog) (model : RuntimeRelModel) : GrmResult SessionModelCatalog :=
  if (c.getRelModel model.name).isNone then c.registerRelModel model else .ok c

end SessionModelCatalog

mutual

/-- `apply_session_log_entry`. -/
def applySessionLogEntry (s : SessionState) : DurableOperation → GrmResult SessionState
  | .registerNodeModel model =>
    (s.catalog.ensureNodeModel model).map fun catalog => { s with catalog }
  | .registerRelModel model =>
    (s.catalog.ensureRelModel model).map fun catalog => { s with catalog }
  | .upsertNode node => .ok { s with store := s.store.putNode node.id node }
  | .deleteNode id => .ok { s with store := s.store.removeNode id }
  | .upsertRel rel => .ok { s with store := s.store.putRel rel.id rel }
  | .deleteRel id => .ok { s with store := s.store.removeRelationship id }
  | .batch ops => applySessionLogEntries s ops

/-- The entries of a log, or of a batch, one after the other. -/
def applySessionLogEntries (s : SessionState) : List DurableOperation → GrmResult SessionState
  | [] => .ok s
  | entry :: entries => (applySessionLogEntry s entry).bind fun s => applySessionLogEntries s entries

end
