import Grm.Runtime.LogFile
import Grm.Runtime.Requests
import Grm.Runtime.Workspace

/-!
# Recovery

The files of an autocommit workspace are a journal of its memory: checkpoint and backup
hold an earlier durable part, and the log holds the admissible steps from there to the
current one. A load puts the checkpoint in place and replays the log.
-/

open Std

set_option autoImplicit false

/-! ## Reading a checkpoint back -/

section Checkpoint
variable [Codecs]

/-- The file is what a save of this durable part writes. -/
def Checkpoints (format : DurabilityFormat) (file : Option Bytes) (d : PersistedSession) : Prop :=
  ∃ (s : SessionState) (bytes : Bytes),
    s.persistedSession = d ∧ s.checkpointBytes format = .ok bytes ∧ file = some bytes

/-- A binary file is small enough to be loaded. -/
def WithinLimit (format : DurabilityFormat) (file : Option Bytes) : Prop :=
  format = .binary → ∀ bytes, file = some bytes → bytes.length ≤ maxBinarySessionFileBytes

/-- The file is there and within the limit, but no session decodes from it. -/
def Garbled (format : DurabilityFormat) (file : Option Bytes) : Prop :=
  match format with
  | .json => ∃ text, readToString file = some text ∧ Codecs.sessionFromStr text = none
  | .binary => ∃ bytes, readLimitedBinarySessionFile file = .ok bytes ∧
      Codecs.sessionDeserialize maxBinarySessionFileBytes bytes = none

omit [Codecs] in
theorem readToString_toUTF8 (text : String) : readToString (some text.toUTF8.data.toList) = some text := by
  show String.fromUTF8? ⟨text.toByteArray.data.toList.toArray⟩ = some text
  rw [Array.toArray_toList]
  unfold String.fromUTF8?
  rw [dif_pos text.isValidUTF8]
  rfl

theorem checkpointBytes_json {s : SessionState} {bytes : Bytes} (saved : s.checkpointBytes .json = .ok bytes) :
    ∃ json, Codecs.sessionToStringPretty s.persistedSession = some json ∧ bytes = json.toUTF8.data.toList := by
  unfold SessionState.checkpointBytes at saved
  cases encoded : Codecs.sessionToStringPretty s.persistedSession with
  | none => rw [encoded] at saved; cases saved
  | some json => rw [encoded] at saved; cases saved; exact ⟨json, rfl, rfl⟩

theorem checkpointBytes_binary {s : SessionState} {bytes : Bytes} (saved : s.checkpointBytes .binary = .ok bytes) :
    ∃ graph, s.store.toBinaryPersisted = .ok graph ∧
      Codecs.sessionSerialize { graph, catalog := s.catalog } = some bytes := by
  obtain ⟨graph, encoded, saved⟩ := GrmResult.bind_eq_ok.1 saved
  refine ⟨graph, encoded, ?_⟩
  cases serialized : Codecs.sessionSerialize { graph, catalog := s.catalog } with
  | none => rw [serialized] at saved; cases saved
  | some found => rw [serialized] at saved; cases saved; rfl

/-- A binary session that a save encoded is adopted as it was. -/
theorem adoptBinary_encoded (lawful : Codecs.Lawful) (s saved : SessionState) {graph : BinaryPersistedGraphStore}
    (encoded : saved.store.toBinaryPersisted = .ok graph) (log : Option Bytes) (source : LoadSource) :
    s.adoptBinary { graph, catalog := saved.catalog } log source =
      finishLoad (.ofPersisted saved.persistedSession) log source := by
  unfold SessionState.adoptBinary
  rw [GraphStore.fromBinaryPersisted_toBinaryPersisted lawful encoded]
  rfl

omit [Codecs] in
theorem readLimited_within {bytes : Bytes} (within : bytes.length ≤ maxBinarySessionFileBytes) :
    readLimitedBinarySessionFile (some bytes) = .ok bytes := by
  show (if maxBinarySessionFileBytes < bytes.length then _ else _) = _
  rw [if_neg (by omega)]

/-- A load of a checkpoint puts its durable part in place. -/
theorem load_primary (lawful : Codecs.Lawful) {format : DurabilityFormat} {disk : Disk} {d : PersistedSession}
    (checkpoint : Checkpoints format disk.primary d) (within : WithinLimit format disk.primary) (s : SessionState) :
    s.loadWorkspace format disk = finishLoad (.ofPersisted d) disk.log .primary := by
  obtain ⟨saved, bytes, rfl, encoded, file⟩ := checkpoint
  cases format with
  | json =>
    obtain ⟨json, text, rfl⟩ := checkpointBytes_json encoded
    unfold SessionState.loadWorkspace SessionState.loadFromJson
    rw [file, readToString_toUTF8]
    dsimp only
    rw [lawful.session _ _ text]
  | binary =>
    obtain ⟨graph, stored, serialized⟩ := checkpointBytes_binary encoded
    have small := within rfl bytes file
    unfold SessionState.loadWorkspace SessionState.loadFromBinary
    rw [file, readLimited_within small]
    dsimp only
    rw [lawful.binary _ _ _ serialized small]
    exact adoptBinary_encoded lawful s saved stored disk.log .primary

/-- A load whose checkpoint does not decode puts the backup's durable part in place. -/
theorem load_backup (lawful : Codecs.Lawful) {format : DurabilityFormat} {disk : Disk} {d : PersistedSession}
    (garbled : Garbled format disk.primary) (checkpoint : Checkpoints format disk.backup d)
    (within : WithinLimit format disk.backup) (s : SessionState) :
    s.loadWorkspace format disk = finishLoad (.ofPersisted d) disk.log .backup := by
  obtain ⟨saved, bytes, rfl, encoded, file⟩ := checkpoint
  cases format with
  | json =>
    obtain ⟨text, present, undecoded⟩ := garbled
    obtain ⟨json, saidText, rfl⟩ := checkpointBytes_json encoded
    unfold SessionState.loadWorkspace SessionState.loadFromJson
    rw [present]
    dsimp only
    rw [undecoded]
    dsimp only
    unfold SessionState.loadJsonBackup
    rw [file, readToString_toUTF8, Option.bind_some, lawful.session _ _ saidText]
  | binary =>
    obtain ⟨bad, present, undecoded⟩ := garbled
    obtain ⟨graph, stored, serialized⟩ := checkpointBytes_binary encoded
    have small := within rfl bytes file
    unfold SessionState.loadWorkspace SessionState.loadFromBinary
    rw [present]
    dsimp only
    rw [undecoded]
    dsimp only
    unfold SessionState.loadBinaryBackup
    rw [file, readLimited_within small]
    dsimp only
    rw [lawful.binary _ _ _ serialized small]
    exact adoptBinary_encoded lawful s saved stored disk.log .backup

/-- The log replayed over a durable part whose records are under their own ids. -/
theorem finishLoad_replays {d memory : PersistedSession} (own : d.graph.Own) {log : Option Bytes}
    {entries : List DurableOperation} (read : readOperations log = .ok entries)
    (replays : d.replayAll entries = .ok memory) (source : LoadSource) :
    ∃ loaded, finishLoad (.ofPersisted d) log source = (loaded, .ok source) ∧ loaded.persistedSession = memory := by
  obtain ⟨meaning, -⟩ := SessionState.applySessionLogEntries_refines (s := .ofPersisted d) own.indexed entries
  rw [SessionState.ofPersisted_persistedSession, replays] at meaning
  obtain ⟨loaded, applied, same⟩ := GrmResult.map_eq_ok.1 meaning
  refine ⟨loaded, ?_, same⟩
  have logged : applySessionLog (.ofPersisted d) log = .ok loaded := by
    unfold applySessionLog
    rw [read]
    cases entries with
    | nil => exact applied
    | cons entry entries =>
      dsimp only [Except.bind]
      rw [applied]
      rfl
  unfold finishLoad
  rw [logged]

/-- A load that puts a durable part in place and replays the log over it. -/
theorem load_replays {format : DurabilityFormat} {disk : Disk} {d memory : PersistedSession} {source : LoadSource}
    (own : d.graph.Own) {entries : List DurableOperation} (read : readOperations disk.log = .ok entries)
    (replays : d.replayAll entries = .ok memory)
    (loads : SessionState.new.loadWorkspace format disk = finishLoad (.ofPersisted d) disk.log source) :
    ∃ loaded, Workspace.load format disk = .ok loaded ∧ loaded.state.persistedSession = memory := by
  obtain ⟨loaded, finished, same⟩ := finishLoad_replays own read replays source
  refine ⟨⟨loaded, none⟩, ?_, same⟩
  unfold Workspace.load
  rw [loads, finished]
  rfl

end Checkpoint

/-! ## The journal of a workspace -/

section Journal
variable [Codecs] [Externals]

/-- The files hold an earlier durable part and the admissible steps from there to the
durable part in memory. -/
structure Journaled (format : DurabilityFormat) (base memory : PersistedSession) (disk : Disk) : Prop where
  primary : Checkpoints format disk.primary base
  backup : Checkpoints format disk.backup base
  own : base.graph.Own
  fresh : LineLog.Terminated newline (disk.log.getD [])
  log : ∃ entries, readOperations disk.log = .ok entries ∧ Steps base (DurableOperation.openedAll entries) memory

omit [Codecs] in
/-- The steps of a request are entries without batches, so packing and opening them gives
them back. -/
theorem Steps.opened_pack {d d' : PersistedSession} {ops : List DurableOperation} (steps : Steps d ops d') :
    DurableOperation.openedAll (packDurableOps ops) = ops := by
  have each : DurableOperation.openedAll ops = ops := by
    induction steps with
    | nil d => rfl
    | @cons d d' d'' op ops admissible _ _ ih =>
      rw [DurableOperation.openedAll, ih]
      cases admissible <;> rfl
  match ops with
  | [] => rfl
  | [op] => exact each
  | op :: next :: ops =>
    show DurableOperation.openedAll (op :: next :: ops) ++ [] = _
    rw [each]
    exact List.append_nil _

omit [Codecs] [Externals] in
/-- The records of a sound store are under their own ids. -/
theorem GraphStore.Sound.own {s : GraphStore} (sound : s.Sound) : s.toPersisted.Own :=
  ⟨sound.indexed.nodeId, sound.indexed.relId⟩

omit [Externals] in
/-- A save whose file operations all succeed. -/
theorem saveWorkspace_ok {s : SessionState} {format : DurabilityFormat} {disk disk' : Disk}
    (ok : s.saveWorkspace format disk none = (disk', .ok ())) :
    ∃ bytes, s.checkpointBytes format = .ok bytes ∧ disk' = ⟨some bytes, some bytes, none⟩ := by
  unfold SessionState.saveWorkspace at ok
  cases encoded : s.checkpointBytes format with
  | error e => rw [encoded] at ok; cases ok
  | ok bytes => rw [encoded] at ok; cases ok; exact ⟨bytes, rfl, rfl⟩

/-- After a save the files are a journal of the saved session with an empty log. -/
theorem journaled_save {s : SessionState} (sound : s.store.Sound) {format : DurabilityFormat} {disk disk' : Disk}
    (ok : s.saveWorkspace format disk none = (disk', .ok ())) :
    Journaled format s.persistedSession s.persistedSession disk' := by
  obtain ⟨bytes, encoded, rfl⟩ := saveWorkspace_ok ok
  exact ⟨⟨s, bytes, rfl, encoded, rfl⟩, ⟨s, bytes, rfl, encoded, rfl⟩, sound.own, .inl rfl, [], rfl, .nil _⟩

omit [Externals] in
/-- The appends of a request that all succeed: the log gains the operations. -/
theorem appendOps_ok (lawful : Codecs.Lawful) {faults : PersistFaults} (ops : List DurableOperation) (position : Nat)
    {target target' : WorkspaceAutocommitTarget} {disk disk' : Disk}
    (fresh : LineLog.Terminated newline (disk.log.getD [])) {entries : List DurableOperation}
    (read : readOperations disk.log = .ok entries)
    (ok : Workspace.appendOps target disk faults position ops = (target', disk', .ok ())) :
    target'.format = target.format ∧ disk'.primary = disk.primary ∧ disk'.backup = disk.backup ∧
      LineLog.Terminated newline (disk'.log.getD []) ∧ readOperations disk'.log = .ok (entries ++ ops) := by
  induction ops generalizing target disk entries position with
  | nil =>
    cases ok
    exact ⟨rfl, rfl, rfl, fresh, by rw [List.append_nil]; exact read⟩
  | cons op ops ih =>
    unfold Workspace.appendOps appendDurableOperation at ok
    dsimp only at ok
    cases appended : appendOperation disk.log op (faults.append position) with
    | mk log result =>
      rw [appended] at ok
      cases result with
      | error err => cases ok
      | ok done =>
        obtain ⟨freshAfter, readAfter⟩ := appendOperation_ok lawful fresh read appended
        have later : Workspace.appendOps { target with pendingEntries := target.pendingEntries + 1 } { disk with log } faults
            (position + 1) ops = (target', disk', .ok ()) := ok
        obtain ⟨format, primary, backup, last, all⟩ := ih (position + 1) freshAfter readAfter later
        rw [List.append_assoc, List.singleton_append] at all
        exact ⟨format, primary, backup, last, all⟩

/-- The journal after the appends of a request, before any checkpoint. -/
theorem Journaled.append (lawful : Codecs.Lawful) {format : DurabilityFormat} {base : PersistedSession}
    {s : SessionState} {disk disk' : Disk} (journal : Journaled format base s.persistedSession disk)
    {entries : List DurableOperation} {result : SessionState × GrmResult RuntimeDispatchOutcome}
    (executes : s.Executes entries result) {outcome : RuntimeDispatchOutcome} (succeeded : result.2 = .ok outcome)
    {faults : PersistFaults} {target target' : WorkspaceAutocommitTarget}
    (ok : Workspace.appendOps target disk faults 0 outcome.durableOps = (target', disk', .ok ())) :
    target'.format = target.format ∧ Journaled format base result.1.persistedSession disk' := by
  obtain ⟨logged, read, steps⟩ := journal.log
  obtain ⟨sameFormat, primary, backup, fresh, all⟩ := appendOps_ok lawful _ 0 journal.fresh read ok
  refine ⟨sameFormat, primary ▸ journal.primary, backup ▸ journal.backup, journal.own, fresh, _, all, ?_⟩
  rw [DurableOperation.openedAll_append, executes.reported outcome succeeded, executes.steps.opened_pack]
  exact steps.append executes.steps

/-- Loading the files of a journal gives the durable part in memory. -/
theorem Journaled.load (lawful : Codecs.Lawful) {format : DurabilityFormat} {base memory : PersistedSession} {disk : Disk}
    (journal : Journaled format base memory disk) (within : WithinLimit format disk.primary) :
    ∃ loaded, Workspace.load format disk = .ok loaded ∧ loaded.state.persistedSession = memory := by
  obtain ⟨entries, read, steps⟩ := journal.log
  have replays : base.replayAll entries = .ok memory := by
    rw [← PersistedSession.replayAll_openedAll]
    exact steps.replayAll
  exact load_replays journal.own read replays (load_primary lawful journal.primary within _)

end Journal

/-! ## Runs of an autocommit workspace -/

namespace Workspace
variable [Codecs] [Externals]

/-- Every workspace and its files that autocommit leads to from a session, with no
persistence failure: autocommit is enabled, requests are executed, whether they succeed
or fail in the session, and the workspace may be checkpointed between them. -/
inductive Autocommits (start : SessionState) : Workspace → Disk → Prop where
  | enabled {format : DurabilityFormat} {path : String} {disk disk' : Disk} {ws : Workspace}
      (ok : (fromState start).enableAutocommit format path disk none = (ws, disk', .ok ())) : Autocommits start ws disk'
  | executed {ws ws' : Workspace} {disk disk' : Disk} {request : RuntimeRequest}
      {result : GrmResult RuntimeDispatchOutcome} (before : Autocommits start ws disk)
      (done : ws.executeRuntime disk request {} = (ws', disk', result))
      (persisted : ∀ outcome, (ws.state.executeRuntime request).2 = .ok outcome → result = .ok outcome) :
      Autocommits start ws' disk'
  | checkpointed {ws : Workspace} {disk disk' : Disk} {target : WorkspaceAutocommitTarget}
      (before : Autocommits start ws disk) (on : ws.autocommit = some target)
      (ok : ws.checkpoint target.format disk none = (disk', .ok ())) : Autocommits start ws disk'

/-- A request with one durable operation, before the next checkpoint is due: its record is
appended. -/
theorem Autocommits.appended {start : SessionState} {state : SessionState} {target : WorkspaceAutocommitTarget}
    {disk : Disk} (before : Autocommits start ⟨state, some target⟩ disk) {request : RuntimeRequest} {state' : SessionState}
    {response : RuntimeResponse} {op : DurableOperation} {line : Bytes}
    (executed : state.executeRuntime request = (state', .ok { response, durableOps := [op] }))
    (encoded : Codecs.opToVec op = some line) (early : target.pendingEntries + 1 < autocommitCheckpointInterval) :
    Autocommits start ⟨state', some { target with pendingEntries := target.pendingEntries + 1 }⟩
      { disk with log := some (disk.log.getD [] ++ (line ++ [newline])) } := by
  have persisted : persistAutocommitOps ⟨state', some target⟩ disk [op] {} =
      (⟨state', some { target with pendingEntries := target.pendingEntries + 1 }⟩,
        { disk with log := some (disk.log.getD [] ++ (line ++ [newline])) }, .ok ()) := by
    unfold persistAutocommitOps
    simp only [List.isEmpty_cons, Bool.false_eq_true, if_false, appendOps, appendDurableOperation, appendOperation, encoded]
    exact if_neg (by omega)
  have whole := @executeRuntime_succeeds _ _ ⟨state, some target⟩ request state' _ executed disk {}
  rw [persisted] at whole
  refine .executed before whole fun outcome done => ?_
  have same : _ = Except.ok outcome := (congrArg Prod.snd executed).symm.trans done
  cases same
  rfl

/-- What every such workspace satisfies: its files are a journal of its memory. The
durable parts in the checkpoint and in memory have a property that steps keep. -/
structure Recoverable (fits : PersistedSession → Prop) (ws : Workspace) (disk : Disk) : Prop where
  sound : ws.state.store.Sound
  memory : fits ws.state.persistedSession
  journal : ∃ target base, ws.autocommit = some target ∧ fits base ∧
    Journaled target.format base ws.state.persistedSession disk

section Kept
variable {fits : PersistedSession → Prop}

theorem Recoverable.checkpoint {ws ws' : Workspace} {disk disk' : Disk} (h : ws.Recoverable fits disk)
    (ok : ws.checkpointAutocommit disk none = (ws', disk', .ok ())) : ws'.Recoverable fits disk' := by
  obtain ⟨target, base, on, -, -⟩ := h.journal
  unfold checkpointAutocommit at ok
  rw [on] at ok
  dsimp only at ok
  cases saved : ws.state.saveWorkspace target.format disk none with
  | mk after result =>
    rw [saved] at ok
    cases result with
    | error e => cases ok
    | ok done =>
      cases ok
      exact ⟨h.sound, h.memory, _, _, rfl, h.memory, journaled_save h.sound saved⟩

/-- A request whose appends succeed: the workspace and the files are recoverable once they
are done, and what follows is at most one checkpoint. -/
theorem Recoverable.persist (lawful : Codecs.Lawful) (closed : ∀ d ops d', Steps d ops d' → fits d → fits d')
    {ws : Workspace} {disk : Disk} (h : ws.Recoverable fits disk) {entries : List DurableOperation} {result : SessionState × GrmResult RuntimeDispatchOutcome}
    (executes : ws.state.Executes entries result) {outcome : RuntimeDispatchOutcome} (succeeded : result.2 = .ok outcome)
    (faults : PersistFaults)
    (appends : ∀ target, ws.autocommit = some target → (appendOps target disk faults 0 outcome.durableOps).2.2 = .ok ()) :
    ∃ (logged : Workspace) (files : Disk), logged.Recoverable fits files ∧
      (persistAutocommitOps { ws with state := result.1 } disk outcome.durableOps faults = (logged, files, .ok ()) ∨
        persistAutocommitOps { ws with state := result.1 } disk outcome.durableOps faults =
          logged.checkpointAutocommit files faults.save) := by
  obtain ⟨target, base, on, old, journal⟩ := h.journal
  cases appended : appendOps target disk faults 0 outcome.durableOps with
  | mk target' rest =>
    obtain ⟨files, done⟩ := rest
    obtain rfl : done = .ok () := by
      have ok := appends target on
      rw [appended] at ok
      exact ok
    obtain ⟨sameFormat, journal'⟩ := journal.append lawful executes succeeded appended
    have memory := closed _ _ _ executes.steps h.memory
    refine ⟨⟨result.1, some target'⟩, files,
      ⟨executes.sound, memory, target', base, rfl, old, sameFormat ▸ journal'⟩, ?_⟩
    unfold persistAutocommitOps
    cases ops : outcome.durableOps with
    | nil =>
      rw [ops] at appended
      cases appended
      exact .inl (by simp [on])
    | cons op ops' =>
      rw [ops] at appended
      simp only [List.isEmpty_cons, Bool.false_eq_true, if_false, on, appended]
      split
      · exact .inr rfl
      · exact .inl rfl

omit [Externals] in
/-- A request that persisted what it did appended all of it. -/
theorem appends_of_persisted {ws ws' : Workspace} {disk disk' : Disk} {ops : List DurableOperation}
    {faults : PersistFaults} (ok : ws.persistAutocommitOps disk ops faults = (ws', disk', .ok ()))
    {target : WorkspaceAutocommitTarget} (on : ws.autocommit = some target) :
    (appendOps target disk faults 0 ops).2.2 = .ok () := by
  cases ops with
  | nil => rfl
  | cons op ops =>
    unfold persistAutocommitOps at ok
    simp only [List.isEmpty_cons, Bool.false_eq_true, if_false, on] at ok
    cases appended : (appendOps target disk faults 0 (op :: ops)).2.2 with
    | ok done => rfl
    | error e => rw [appended] at ok; cases ok

/-- A request that fails in the session takes no step, so the journal still leads to it. -/
theorem Recoverable.refused {ws : Workspace} {disk : Disk} (h : ws.Recoverable fits disk)
    {entries : List DurableOperation} {result : SessionState × GrmResult RuntimeDispatchOutcome}
    (executes : ws.state.Executes entries result) {e : GrmError} (failed : result.2 = .error e) :
    Recoverable fits { ws with state := result.1 } disk := by
  have same : result.1.persistedSession = ws.state.persistedSession := by
    have steps := executes.steps
    rw [executes.failed e failed] at steps
    exact steps.of_nil
  obtain ⟨target, base, on, old, journal⟩ := h.journal
  exact ⟨executes.sound, same ▸ h.memory, target, base, on, old, same ▸ journal⟩

/-- A request that does not fail to persist keeps the files a journal of the memory. -/
theorem Recoverable.execute (lawful : Codecs.Lawful) (closed : ∀ d ops d', Steps d ops d' → fits d → fits d')
    {ws ws' : Workspace} {disk disk' : Disk} (h : ws.Recoverable fits disk) {request : RuntimeRequest}
    {result : GrmResult RuntimeDispatchOutcome} (done : ws.executeRuntime disk request {} = (ws', disk', result))
    (persisted : ∀ outcome, (ws.state.executeRuntime request).2 = .ok outcome → result = .ok outcome) :
    ws'.Recoverable fits disk' := by
  obtain ⟨entries, executes⟩ := SessionState.executeRuntime_executes h.sound request
  cases executed : (ws.state.executeRuntime request).2 with
  | error e =>
    rw [executeRuntime_fails (Prod.ext rfl executed)] at done
    cases done
    exact h.refused executes executed
  | ok outcome =>
    have kept := persisted outcome executed
    rw [executeRuntime_succeeds (Prod.ext rfl executed)] at done
    rcases tried : persistAutocommitOps { ws with state := (ws.state.executeRuntime request).1 } disk
      outcome.durableOps {} with ⟨after, files, saved⟩
    rw [tried] at done
    cases done
    obtain ⟨_, rfl, -⟩ := GrmResult.map_eq_ok.1 kept
    obtain ⟨logged, middle, recoverable, finished | checkpointed⟩ :=
      h.persist lawful closed executes executed {} fun target on => appends_of_persisted tried on
    · rw [tried] at finished
      cases finished
      exact recoverable
    · rw [tried] at checkpointed
      exact recoverable.checkpoint checkpointed.symm

/-- Every workspace that autocommit leads to is recoverable from its files. -/
theorem Autocommits.recoverable (lawful : Codecs.Lawful) (closed : ∀ d ops d', Steps d ops d' → fits d → fits d')
    {start : SessionState} (sound : start.store.Sound) (fit : fits start.persistedSession) {ws : Workspace} {disk : Disk}
    (run : Autocommits start ws disk) : ws.Recoverable fits disk := by
  induction run with
  | @enabled format path disk disk' ws ok =>
    unfold enableAutocommit fromState at ok
    dsimp only at ok
    cases saved : start.saveWorkspace format disk none with
    | mk after result =>
      rw [saved] at ok
      cases result with
      | error e => cases ok
      | ok done =>
        cases ok
        exact ⟨sound, fit, _, _, rfl, fit, journaled_save sound saved⟩
  | executed _ done persisted ih => exact ih.execute lawful closed done persisted
  | checkpointed _ on ok ih => exact ⟨ih.sound, ih.memory, _, _, on, ih.memory, journaled_save ih.sound ok⟩

end Kept

end Workspace

/-! ## A workspace with one definition -/

/-- The model of `schema.define-node User uid`. -/
def userModel : RuntimeNodeModel := ⟨"User", "User", "uid", .int64, .declared, []⟩

/-- A new session with that model. -/
def userSession : SessionState := ⟨GraphStore.empty, { nodeModels := (∅ : BTreeMap String RuntimeNodeModel).insert "User" userModel }⟩

/-- Its log record. -/
def userRecord : Bytes :=
  ("\x7b\"RegisterNodeModel\":\x7b\"model\":\x7b\"name\":\"User\",\"label\":\"User\",\"id_field_name\":\"uid\"," ++
    "\"id_type\":\"Int64\",\"origin\":\"declared\",\"fields\":[]\x7d\x7d\x7d").toUTF8.data.toList

/-- The checkpoint of a new session. -/
def newSessionText : String :=
  "\x7b\n  \"graph\": \x7b\n    \"next_node_id\": 1,\n    \"next_rel_id\": 1,\n    \"nodes\": \x7b\x7d,\n" ++
    "    \"rels\": \x7b\x7d\n  \x7d,\n  \"catalog\": \x7b\n    \"node_models\": \x7b\x7d,\n" ++
    "    \"rel_models\": \x7b\x7d\n  \x7d\n\x7d"

/-- The checkpoint of the session with the model. -/
def userSessionText : String :=
  "\x7b\n  \"graph\": \x7b\n    \"next_node_id\": 1,\n    \"next_rel_id\": 1,\n    \"nodes\": \x7b\x7d,\n" ++
    "    \"rels\": \x7b\x7d\n  \x7d,\n  \"catalog\": \x7b\n    \"node_models\": \x7b\n      \"User\": \x7b\n" ++
    "        \"name\": \"User\",\n        \"label\": \"User\",\n        \"id_field_name\": \"uid\",\n" ++
    "        \"id_type\": \"Int64\",\n        \"origin\": \"declared\",\n        \"fields\": []\n      \x7d\n" ++
    "    \x7d,\n    \"rel_models\": \x7b\x7d\n  \x7d\n\x7d"

/-- The codecs on these. -/
@[reducible] noncomputable def userCodecs : Codecs :=
  Codecs.listed [(.registerNodeModel userModel, userRecord)]
    [(SessionState.new.persistedSession, newSessionText), (userSession.persistedSession, userSessionText)]

theorem userCodecs_lawful : @Codecs.Lawful userCodecs :=
  Codecs.listed_lawful (by decide) (by decide) (by decide) (by decide)

theorem userCodecs_userSession :
    userCodecs.sessionToStringPretty userSession.persistedSession = some userSessionText := by
  have apart : SessionState.new.persistedSession ≠ userSession.persistedSession := by
    intro same
    cases congrArg (fun d => d.catalog.nodeModels.size) same
  exact (encodeListed_tail apart _ _).trans (encodeListed_head _ _ _)

/-- The checkpoint autocommit starts from. -/
def newSessionDisk : Disk := ⟨some newSessionText.toUTF8.data.toList, some newSessionText.toUTF8.data.toList, none⟩
