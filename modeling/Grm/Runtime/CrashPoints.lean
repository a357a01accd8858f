import Grm.Runtime.Recovery
import Grm.Runtime.Redo

/-!
# Crashes inside a checkpoint

A checkpoint replaces the primary file, then the backup, then removes the log. A crash in
between leaves a new checkpoint with the log of the steps that led to it, so a load
replays these steps over their own effects.
-/

open Std

set_option autoImplicit false

section Crash
variable [Codecs]

/-- Loading the files gives the durable part, with both ends of every relationship. -/
def Restores (format : DurabilityFormat) (disk : Disk) (memory : PersistedSession) : Prop :=
  ∃ loaded, Workspace.load format disk = .ok loaded ∧ loaded.state.persistedSession = memory ∧
    ∀ (id : Int) rel, loaded.state.store.rels[id]? = some rel →
      rel.fromId ∈ loaded.state.store.nodes ∧ rel.toId ∈ loaded.state.store.nodes

/-- The files restore the memory from the checkpoint, and from the backup whatever
undecodable file stands in the checkpoint's place. -/
structure CrashConsistent (format : DurabilityFormat) (memory : PersistedSession) (disk : Disk) : Prop where
  primary : WithinLimit format disk.primary → Restores format disk memory
  backup : ∀ file, Garbled format file → WithinLimit format disk.backup →
    Restores format { disk with primary := file } memory

/-- The files a save leaves when it stops before the operation. -/
def stoppedDisk (bytes : Bytes) (disk : Disk) : SaveStep → Disk
  | .writePrimary => disk
  | .syncPrimary | .writeBackup => { disk with primary := some bytes }
  | .syncBackup | .removeLog => { disk with primary := some bytes, backup := some bytes }
  | .syncLog => ⟨some bytes, some bytes, none⟩

/-- A save that stops does not succeed, and leaves the files of the operations before. -/
theorem saveWorkspace_stopped (s : SessionState) (format : DurabilityFormat) (disk : Disk) (step : SaveStep) :
    (∃ e, (s.saveWorkspace format disk (some step)).2 = .error e) ∧
      ((s.saveWorkspace format disk (some step)).1 = disk ∨
        ∃ bytes, s.checkpointBytes format = .ok bytes ∧
          (s.saveWorkspace format disk (some step)).1 = stoppedDisk bytes disk step) := by
  unfold SessionState.saveWorkspace
  cases encoded : s.checkpointBytes format with
  | error e => exact ⟨⟨e, rfl⟩, .inl rfl⟩
  | ok bytes => cases step <;> exact ⟨⟨_, rfl⟩, .inr ⟨bytes, rfl, rfl⟩⟩

variable [Externals]

omit [Codecs] in
theorem Conformant.both_ends {s : SessionState} (h : Conformant s.persistedSession) (id : Int) (rel : StoredRel)
    (found : s.store.rels[id]? = some rel) : rel.fromId ∈ s.store.nodes ∧ rel.toId ∈ s.store.nodes := by
  have source : rel.touches rel.fromId = true := by simp [StoredRel.touches]
  have target : rel.touches rel.toId = true := by simp [StoredRel.touches]
  exact ⟨h.ends found source, h.ends found target⟩

/-- What a load finishes with, from either file. -/
theorem restores_of_load {format : DurabilityFormat} {disk : Disk} {d memory : PersistedSession} {source : LoadSource}
    (h : Conformant memory) (own : d.graph.Own) {entries : List DurableOperation}
    (read : readOperations disk.log = .ok entries) (replays : d.replayAll entries = .ok memory)
    (loads : SessionState.new.loadWorkspace format disk = finishLoad (.ofPersisted d) disk.log source) :
    Restores format disk memory := by
  obtain ⟨loaded, load, same⟩ := load_replays own read replays loads
  exact ⟨loaded, load, same, Conformant.both_ends (same ▸ h)⟩

/-- Files whose checkpoint and backup, each with the log, lead to the memory. -/
theorem crashConsistent_of_replays (lawful : Codecs.Lawful) {format : DurabilityFormat} {disk : Disk}
    {d d' memory : PersistedSession} (h : Conformant memory) (primary : Checkpoints format disk.primary d)
    (backup : Checkpoints format disk.backup d') (own : d.graph.Own) (own' : d'.graph.Own)
    {entries : List DurableOperation} (read : readOperations disk.log = .ok entries)
    (replays : d.replayAll entries = .ok memory) (replays' : d'.replayAll entries = .ok memory) :
    CrashConsistent format memory disk where
  primary within := restores_of_load h own read replays (load_primary lawful primary within _)
  backup file garbled within := by
    have loads : SessionState.new.loadWorkspace format { disk with primary := file } =
        finishLoad (.ofPersisted d') disk.log .backup := by
      refine load_backup lawful garbled ?_ ?_ _
      · exact backup
      · exact within
    exact restores_of_load h own' read replays' loads

namespace Workspace

/-- The files of a recoverable workspace between checkpoints. -/
theorem Recoverable.crashConsistent (lawful : Codecs.Lawful) {ws : Workspace} {disk : Disk}
    (h : ws.Recoverable Conformant disk) {target : WorkspaceAutocommitTarget} (on : ws.autocommit = some target) :
    CrashConsistent target.format ws.state.persistedSession disk := by
  obtain ⟨target', base, on', -, journal⟩ := h.journal
  rw [on] at on'
  cases on'
  obtain ⟨entries, read, steps⟩ := journal.log
  have replays : base.replayAll entries = .ok ws.state.persistedSession := by
    rw [← PersistedSession.replayAll_openedAll]
    exact steps.replayAll
  exact crashConsistent_of_replays lawful h.memory journal.primary journal.backup journal.own journal.own read
    replays replays

/-- The files of a checkpoint that stopped anywhere. -/
theorem Recoverable.stopped (lawful : Codecs.Lawful) {ws : Workspace} {disk : Disk}
    (h : ws.Recoverable Conformant disk) {target : WorkspaceAutocommitTarget} (on : ws.autocommit = some target)
    (step : SaveStep)
    (settled : step ≠ .writePrimary →
      ∀ entries, readOperations (ws.state.saveWorkspace target.format disk (some step)).1.log = .ok entries →
        Settled (DurableOperation.openedAll entries)) :
    CrashConsistent target.format ws.state.persistedSession
      (ws.state.saveWorkspace target.format disk (some step)).1 := by
  obtain ⟨-, same | ⟨bytes, encoded, files⟩⟩ := saveWorkspace_stopped ws.state target.format disk step
  · rw [same]
    exact h.crashConsistent lawful on
  · rw [files] at settled ⊢
    obtain ⟨target', base, on', old, journal⟩ := h.journal
    rw [on] at on'
    cases on'
    obtain ⟨entries, read, steps⟩ := journal.log
    have fromBase : base.replayAll entries = .ok ws.state.persistedSession := by
      rw [← PersistedSession.replayAll_openedAll]
      exact steps.replayAll
    have again : Settled (DurableOperation.openedAll entries) →
        ws.state.persistedSession.replayAll entries = .ok ws.state.persistedSession := by
      intro calm
      rw [← PersistedSession.replayAll_openedAll]
      exact steps.redo_settled old calm
    have written : Checkpoints target.format (some bytes) ws.state.persistedSession := ⟨_, bytes, rfl, encoded, rfl⟩
    cases step with
    | writePrimary => exact h.crashConsistent lawful on
    | syncPrimary | writeBackup =>
      exact crashConsistent_of_replays lawful h.memory written journal.backup h.sound.own journal.own read
        (again (settled nofun entries read)) fromBase
    | syncBackup | removeLog =>
      exact crashConsistent_of_replays lawful h.memory written written h.sound.own h.sound.own read
        (again (settled nofun entries read)) (again (settled nofun entries read))
    | syncLog =>
      exact crashConsistent_of_replays lawful h.memory written written h.sound.own h.sound.own rfl rfl rfl

end Workspace

end Crash

/-! ## Two workspaces -/
