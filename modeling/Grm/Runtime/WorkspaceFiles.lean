import Grm.Runtime.Workspace

/-!
# The files of a workspace

A workspace keeps its files at one path all its life. Saving, appending and loading leave
a checkpoint that is there in place, and a save that succeeds makes one.
-/

set_option autoImplicit false

/-- Where a workspace keeps its files. -/
def Workspace.path? (ws : Workspace) : Option String := ws.autocommit.map WorkspaceAutocommitTarget.path

/-- A checkpoint stays in place. -/
def Disk.Keeps (disk disk' : Disk) : Prop := disk.primary ≠ none → disk'.primary ≠ none

theorem writeCheckpoint_keeps (format : DurabilityFormat) (bytes : Bytes) (fault : Option SaveStep)
    (steps : List SaveStep) (disk : Disk) : disk.Keeps (writeCheckpoint format bytes fault steps disk).1 := by
  induction steps generalizing disk with
  | nil => exact fun present => present
  | cons step steps ih =>
    unfold writeCheckpoint
    split
    · exact fun present => present
    · intro present
      apply ih
      cases step <;> first | exact present | exact Option.some_ne_none bytes

section Files
variable [Codecs]

theorem saveWorkspace_keeps (s : SessionState) (format : DurabilityFormat) (disk : Disk) (fault : Option SaveStep) :
    disk.Keeps (s.saveWorkspace format disk fault).1 := by
  unfold SessionState.saveWorkspace
  cases s.checkpointBytes format with
  | error e => exact fun present => present
  | ok bytes => exact writeCheckpoint_keeps format bytes fault SaveStep.all disk

/-- A save that succeeds leaves a checkpoint. -/
theorem saveWorkspace_saved {s : SessionState} {format : DurabilityFormat} {disk disk' : Disk} {fault : Option SaveStep}
    (saved : s.saveWorkspace format disk fault = (disk', .ok ())) : disk'.primary ≠ none := by
  unfold SessionState.saveWorkspace at saved
  cases encoded : s.checkpointBytes format with
  | error e => rw [encoded] at saved; cases saved
  | ok bytes =>
    rw [encoded] at saved
    cases fault with
    | none => cases saved; exact Option.some_ne_none bytes
    | some step => cases step <;> cases saved

namespace Workspace

theorem enableAutocommit_keeps (ws : Workspace) (format : DurabilityFormat) (path : String) (disk : Disk)
    (fault : Option SaveStep) : disk.Keeps (ws.enableAutocommit format path disk fault).2.1 := by
  have keeps := saveWorkspace_keeps ws.state format disk fault
  unfold enableAutocommit
  cases saved : ws.state.saveWorkspace format disk fault with
  | mk disk' result =>
    rw [saved] at keeps
    cases result <;> exact keeps

theorem enableAutocommit_ok {ws ws' : Workspace} {format : DurabilityFormat} {path : String} {disk disk' : Disk}
    {fault : Option SaveStep} (enabled : ws.enableAutocommit format path disk fault = (ws', disk', .ok ())) :
    ws'.path? = some path ∧ disk'.primary ≠ none := by
  unfold enableAutocommit at enabled
  cases saved : ws.state.saveWorkspace format disk fault with
  | mk after result =>
    rw [saved] at enabled
    cases result with
    | error e => cases enabled
    | ok _ => cases enabled; exact ⟨rfl, saveWorkspace_saved saved⟩

theorem load_path {format : DurabilityFormat} {disk : Disk} {ws : Workspace} (loaded : load format disk = .ok ws) :
    ws.path? = none := by
  obtain ⟨_, -, rfl⟩ := GrmResult.map_eq_ok.1 loaded
  rfl

theorem openAutocommit_keeps (format : DurabilityFormat) (path : String) (disk : Disk) (fault : Option SaveStep) :
    disk.Keeps (openAutocommit format path disk fault).1 := by
  unfold openAutocommit
  cases load format disk with
  | error e => exact fun present => present
  | ok ws => exact enableAutocommit_keeps ws format path disk fault

theorem openAutocommit_ok {format : DurabilityFormat} {path : String} {disk disk' : Disk} {fault : Option SaveStep}
    {ws : Workspace} (opened : openAutocommit format path disk fault = (disk', .ok ws)) :
    ws.path? = some path ∧ disk'.primary ≠ none := by
  unfold openAutocommit at opened
  cases loaded : load format disk with
  | error e => rw [loaded] at opened; cases opened
  | ok ws' =>
    rw [loaded] at opened
    dsimp only at opened
    cases enabled : ws'.enableAutocommit format path disk fault with
    | mk after rest =>
      obtain ⟨disk'', result⟩ := rest
      rw [enabled] at opened
      cases result with
      | error e => cases opened
      | ok _ => cases opened; exact enableAutocommit_ok enabled

theorem appendOps_keeps (faults : PersistFaults) (ops : List DurableOperation) (position : Nat)
    (target : WorkspaceAutocommitTarget) (disk : Disk) :
    (appendOps target disk faults position ops).1.path = target.path ∧
      disk.Keeps (appendOps target disk faults position ops).2.1 := by
  induction ops generalizing target disk position with
  | nil => exact ⟨rfl, fun present => present⟩
  | cons op ops ih =>
    unfold appendOps
    dsimp only
    cases (appendDurableOperation target.path disk.log op (faults.append position)).2 with
    | ok _ => exact ih ..
    | error e => exact ⟨rfl, fun present => present⟩

theorem checkpointAutocommit_keeps (ws : Workspace) (disk : Disk) (fault : Option SaveStep) :
    (ws.checkpointAutocommit disk fault).1.path? = ws.path? ∧ disk.Keeps (ws.checkpointAutocommit disk fault).2.1 := by
  unfold checkpointAutocommit
  cases located : ws.autocommit with
  | none => exact ⟨rfl, fun present => present⟩
  | some target =>
    have keeps := saveWorkspace_keeps ws.state target.format disk fault
    dsimp only
    cases saved : ws.state.saveWorkspace target.format disk fault with
    | mk disk' result =>
      rw [saved] at keeps
      cases result with
      | error e => exact ⟨rfl, keeps⟩
      | ok _ => exact ⟨by unfold path?; rw [located]; rfl, keeps⟩

theorem persistAutocommitOps_keeps (ws : Workspace) (disk : Disk) (ops : List DurableOperation)
    (faults : PersistFaults) :
    (ws.persistAutocommitOps disk ops faults).1.path? = ws.path? ∧
      disk.Keeps (ws.persistAutocommitOps disk ops faults).2.1 := by
  unfold persistAutocommitOps
  split
  · exact ⟨rfl, fun present => present⟩
  · cases located : ws.autocommit with
    | none => exact ⟨rfl, fun present => present⟩
    | some target =>
      obtain ⟨path, keeps⟩ := appendOps_keeps faults ops 0 target disk
      dsimp only
      cases appended : appendOps target disk faults 0 ops with
      | mk target' rest =>
        obtain ⟨disk', result⟩ := rest
        rw [appended] at path keeps
        have same : ({ ws with autocommit := some target' } : Workspace).path? = ws.path? := by
          unfold path?
          rw [located]
          exact congrArg some path
        cases result with
        | error e => exact ⟨same, keeps⟩
        | ok _ =>
          dsimp only
          split
          · obtain ⟨unmoved, kept⟩ := checkpointAutocommit_keeps { ws with autocommit := some target' } disk' faults.save
            exact ⟨unmoved.trans same, fun present => kept (keeps present)⟩
          · exact ⟨same, keeps⟩

/-- A request moves no workspace and keeps its checkpoint. -/
theorem executeRuntime_keeps [Externals] (ws : Workspace) (disk : Disk) (request : RuntimeRequest)
    (faults : PersistFaults) :
    (ws.executeRuntime disk request faults).1.path? = ws.path? ∧
      disk.Keeps (ws.executeRuntime disk request faults).2.1 := by
  cases executed : ws.state.executeRuntime request with
  | mk state result =>
    cases result with
    | error e =>
      rw [executeRuntime_fails executed]
      exact ⟨rfl, fun present => present⟩
    | ok outcome =>
      rw [executeRuntime_succeeds executed]
      exact persistAutocommitOps_keeps { ws with state } disk outcome.durableOps faults

end Workspace

end Files
