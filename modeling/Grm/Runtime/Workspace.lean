import Grm.Runtime.Dispatch
import Grm.Runtime.Durability

/-!
# Workspaces

`runtime/workspace.rs`: a session with an optional autocommit target. A request that
succeeds appends the durable operations it reports, and every eight entries the session
is checkpointed, which clears the log. The files are those of the target's path.
-/

set_option autoImplicit false

/-- `AUTOCOMMIT_CHECKPOINT_INTERVAL`. -/
def autocommitCheckpointInterval : Nat := 8

/-- `WorkspaceAutocommitTarget`. -/
structure WorkspaceAutocommitTarget where
  format : DurabilityFormat
  path : String
  pendingEntries : Nat

/-- `Workspace`. -/
structure Workspace where
  state : SessionState
  autocommit : Option WorkspaceAutocommitTarget

/-- The file operations of a request that fail: the append of the operation at a
position, or one of the checkpoint. -/
structure PersistFaults where
  append : Nat → Option AppendFault := fun _ => none
  save : Option SaveStep := none

namespace WorkspaceAutocommitTarget

/-- The error `persist_autocommit_ops` and `checkpoint_autocommit` wrap theirs in. -/
def failed (target : WorkspaceAutocommitTarget) (err : GrmError) : GrmError :=
  .backend ("workspace autocommit failed for '" ++ target.path ++ "': " ++ err.display)

end WorkspaceAutocommitTarget

/-- `append_durable_operation`. -/
def appendDurableOperation [Codecs] (path : String) (log : Option Bytes) (entry : DurableOperation)
    (fault : Option AppendFault) : Option Bytes × GrmResult Unit :=
  let (log, appended) := appendOperation log entry fault
  match appended with
  | .ok () => (log, .ok ())
  | .error err => (log, .error (.backend ("failed to append durable operation for '" ++ path ++ "': " ++ err)))

namespace Workspace
variable [Codecs]

/-- `Workspace::new`. -/
def new : Workspace := ⟨SessionState.new, none⟩

/-- `Workspace::from_state`. -/
def fromState (state : SessionState) : Workspace := ⟨state, none⟩

/-- `Workspace::enable_autocommit`. -/
def enableAutocommit (ws : Workspace) (format : DurabilityFormat) (path : String) (disk : Disk)
    (fault : Option SaveStep) : Workspace × Disk × GrmResult Unit :=
  let (disk, saved) := ws.state.saveWorkspace format disk fault
  match saved with
  | .ok () => ({ ws with autocommit := some { format, path, pendingEntries := 0 } }, disk, .ok ())
  | .error e => (ws, disk, .error e)

/-- The appends of `persist_autocommit_ops`, the first one at `position`. -/
def appendOps (target : WorkspaceAutocommitTarget) (disk : Disk) (faults : PersistFaults) (position : Nat) :
    List DurableOperation → WorkspaceAutocommitTarget × Disk × GrmResult Unit
  | [] => (target, disk, .ok ())
  | op :: ops =>
    let (log, appended) := appendDurableOperation target.path disk.log op (faults.append position)
    match appended with
    | .ok () =>
      appendOps { target with pendingEntries := target.pendingEntries + 1 } { disk with log } faults (position + 1) ops
    | .error err => (target, { disk with log }, .error (target.failed err))

/-- `checkpoint_autocommit`. -/
def checkpointAutocommit (ws : Workspace) (disk : Disk) (fault : Option SaveStep) :
    Workspace × Disk × GrmResult Unit :=
  match ws.autocommit with
  | none => (ws, disk, .ok ())
  | some target =>
    let (disk, saved) := ws.state.saveWorkspace target.format disk fault
    match saved with
    | .ok () => ({ ws with autocommit := some { target with pendingEntries := 0 } }, disk, .ok ())
    | .error err => (ws, disk, .error (target.failed err))

/-- `persist_autocommit_ops`. -/
def persistAutocommitOps (ws : Workspace) (disk : Disk) (ops : List DurableOperation) (faults : PersistFaults) :
    Workspace × Disk × GrmResult Unit :=
  if ops.isEmpty then (ws, disk, .ok ())
  else match ws.autocommit with
    | none => (ws, disk, .ok ())
    | some target =>
      let (target, disk, appended) := appendOps target disk faults 0 ops
      let ws := { ws with autocommit := some target }
      match appended with
      | .error e => (ws, disk, .error e)
      | .ok () =>
        if autocommitCheckpointInterval ≤ target.pendingEntries then ws.checkpointAutocommit disk faults.save
        else (ws, disk, .ok ())

/-- `Workspace::execute_runtime`. -/
def executeRuntime [Externals] (ws : Workspace) (disk : Disk) (request : RuntimeRequest) (faults : PersistFaults) :
    Workspace × Disk × GrmResult RuntimeDispatchOutcome :=
  let (state, executed) := ws.state.executeRuntime request
  let ws := { ws with state }
  match executed with
  | .error e => (ws, disk, .error e)
  | .ok outcome =>
    let (ws, disk, persisted) := ws.persistAutocommitOps disk outcome.durableOps faults
    (ws, disk, persisted.map fun _ => outcome)

/-- A request that succeeds in the session persists its durable operations. -/
theorem executeRuntime_succeeds [Externals] {ws : Workspace} {request : RuntimeRequest} {state : SessionState}
    {outcome : RuntimeDispatchOutcome} (executed : ws.state.executeRuntime request = (state, .ok outcome)) (disk : Disk)
    (faults : PersistFaults) :
    ws.executeRuntime disk request faults =
      ((persistAutocommitOps { ws with state } disk outcome.durableOps faults).1,
        (persistAutocommitOps { ws with state } disk outcome.durableOps faults).2.1,
        (persistAutocommitOps { ws with state } disk outcome.durableOps faults).2.2.map fun _ => outcome) := by
  unfold executeRuntime
  rw [executed]

/-- A request that fails in the session touches no file. -/
theorem executeRuntime_fails [Externals] {ws : Workspace} {request : RuntimeRequest} {state : SessionState}
    {e : GrmError} (executed : ws.state.executeRuntime request = (state, .error e)) (disk : Disk)
    (faults : PersistFaults) : ws.executeRuntime disk request faults = ({ ws with state }, disk, .error e) := by
  unfold executeRuntime
  rw [executed]

/-- `Workspace::checkpoint`, at the path of the autocommit target. -/
def checkpoint (ws : Workspace) (format : DurabilityFormat) (disk : Disk) (fault : Option SaveStep) :
    Disk × GrmResult Unit :=
  ws.state.saveWorkspace format disk fault

/-- `Workspace::load` and `Workspace::open`. -/
def load (format : DurabilityFormat) (disk : Disk) : GrmResult Workspace :=
  let (state, loaded) := SessionState.new.loadWorkspace format disk
  loaded.map fun _ => ⟨state, none⟩

/-- `Workspace::open_autocommit`. -/
def openAutocommit (format : DurabilityFormat) (path : String) (disk : Disk) (fault : Option SaveStep) :
    Disk × GrmResult Workspace :=
  match load format disk with
  | .error e => (disk, .error e)
  | .ok ws =>
    let (ws, disk, enabled) := ws.enableAutocommit format path disk fault
    (disk, enabled.map fun _ => ws)

end Workspace
