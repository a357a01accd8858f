import Grm.Lib.LineLog
import Grm.Runtime.Codecs

/-!
# The files of a durable session

`runtime/durability.rs`, `fsutil.rs` and the save and load paths of
`runtime/session.rs`, over the three files of one path: the checkpoint, its backup and
the append log. A file operation that fails leaves the effects of those before it. A
file is replaced by renaming a synced temporary one, so it is the old or the new one at
every point; an append may stop after any part of its record.
-/

open Std

set_option autoImplicit false

/-- The checkpoint at a path, its backup and its log; `none` is a missing file. -/
structure Disk where
  primary : Option Bytes
  backup : Option Bytes
  log : Option Bytes

/-- `DurabilityFormat`. -/
inductive DurabilityFormat where
  | json | binary
  deriving DecidableEq, Repr

/-- `LoadSource`. -/
inductive LoadSource where
  | primary | backup
  deriving DecidableEq, Repr

/-! ## The append log -/

/-- Where an append fails: opening the log, or after some bytes of the record were
written (all of them, when a sync fails). The text is the system's. -/
inductive AppendFault where
  | notOpened (text : String)
  | stopped (written : Nat) (text : String)

section Log
variable [Codecs]

/-- `append_operation`: the log after it, and its result. -/
def appendOperation (log : Option Bytes) (entry : DurableOperation) (fault : Option AppendFault) :
    Option Bytes × Except String Unit :=
  match fault with
  | some (.notOpened text) => (log, .error text)
  | some (.stopped written text) =>
    match Codecs.opToVec entry with
    | none => (some (log.getD []), .error "failed to serialize durable operation")
    | some line => (some (log.getD [] ++ (line ++ [newline]).take written), .error text)
  | none =>
    match Codecs.opToVec entry with
    | none => (some (log.getD []), .error "failed to serialize durable operation")
    | some line => (some (log.getD [] ++ (line ++ [newline])), .ok ())

/-- One terminated line of the log: blank lines are skipped. -/
def readRecord (entries : List DurableOperation) (line : Bytes) : GrmResult (List DurableOperation) :=
  if line.all isAsciiWhitespace then .ok entries
  else match Codecs.opFromSlice line with
    | some entry => .ok (entries ++ [entry])
    | none => .error (.loadAborted "malformed durable append log record")

/-- `read_operations`: what follows the last newline is ignored. -/
def readOperations (log : Option Bytes) : GrmResult (List DurableOperation) :=
  (LineLog.lines newline (log.getD [])).foldlM readRecord []

/-- `apply_session_log`. -/
def applySessionLog (s : SessionState) (log : Option Bytes) : GrmResult SessionState :=
  (readOperations log).bind fun entries =>
    if entries.isEmpty then .ok s
    else match applySessionLogEntries s entries with
      | .ok s => .ok s
      | .error _ => .error (.loadAborted "failed to apply session log file")

end Log

/-! ## Saving -/

/-- The file operations of a save, in order. -/
inductive SaveStep where
  | writePrimary | syncPrimary | writeBackup | syncBackup | removeLog | syncLog
  deriving DecidableEq, Repr

namespace SaveStep

def all : List SaveStep := [writePrimary, syncPrimary, writeBackup, syncBackup, removeLog, syncLog]

/-- The files after the operation. -/
def effect (bytes : Bytes) (disk : Disk) : SaveStep → Disk
  | writePrimary => { disk with primary := some bytes }
  | writeBackup => { disk with backup := some bytes }
  | removeLog => { disk with log := none }
  | syncPrimary | syncBackup | syncLog => disk

/-- The message of a save that fails at the operation. -/
def message (format : DurabilityFormat) : SaveStep → String
  | writePrimary | syncPrimary | writeBackup | syncBackup =>
    match format with
    | .json => "failed to write JSON session file"
    | .binary => "failed to write binary session file"
  | removeLog | syncLog => "failed to clear session log file"

end SaveStep

/-- `write_file_atomically_with_backup` and `clear_log`, up to the operation that fails. -/
def writeCheckpoint (format : DurabilityFormat) (bytes : Bytes) (fault : Option SaveStep) :
    List SaveStep → Disk → Disk × GrmResult Unit
  | [], disk => (disk, .ok ())
  | step :: steps, disk =>
    if fault = some step then (disk, .error (.saveAborted (step.message format)))
    else writeCheckpoint format bytes fault steps (step.effect bytes disk)

section Files
variable [Codecs]

/-- The bytes `save_to_json` and `save_to_binary` write. -/
def SessionState.checkpointBytes (s : SessionState) : DurabilityFormat → GrmResult Bytes
  | .json =>
    match Codecs.sessionToStringPretty s.persistedSession with
    | some json => .ok json.toUTF8.data.toList
    | none => .error (.saveAborted "failed to serialize session as JSON")
  | .binary => do
    let graph ← s.store.toBinaryPersisted
    match Codecs.sessionSerialize { graph, catalog := s.catalog } with
    | some bytes => return bytes
    | none => throw (.saveAborted "failed to serialize session as binary")

theorem SessionState.checkpointBytes_binary {s : SessionState} {graph : BinaryPersistedGraphStore} {bytes : Bytes}
    (lowered : s.store.toBinaryPersisted = .ok graph)
    (encoded : Codecs.sessionSerialize { graph, catalog := s.catalog } = some bytes) :
    s.checkpointBytes .binary = .ok bytes := by
  simp only [checkpointBytes, lowered, bind, Except.bind, encoded]
  rfl

/-- `save_workspace` and `checkpoint_durable`. -/
def SessionState.saveWorkspace (s : SessionState) (format : DurabilityFormat) (disk : Disk)
    (fault : Option SaveStep) : Disk × GrmResult Unit :=
  match s.checkpointBytes format with
  | .error e => (disk, .error e)
  | .ok bytes => writeCheckpoint format bytes fault SaveStep.all disk

/-! ## Loading -/

/-- `MAX_BINARY_SESSION_FILE_BYTES`. -/
def maxBinarySessionFileBytes : Nat := 128 * 1024 * 1024

/-- `fs::read_to_string`. -/
def readToString (file : Option Bytes) : Option String := file.bind fun bytes => String.fromUTF8? ⟨bytes.toArray⟩

/-- `read_limited_binary_session_file`. -/
def readLimitedBinarySessionFile (file : Option Bytes) : GrmResult Bytes :=
  match file with
  | none => .error (.loadAborted "failed to read binary session file")
  | some bytes =>
    if maxBinarySessionFileBytes < bytes.length then
      .error (.loadAborted "binary session file exceeds maximum supported size")
    else .ok bytes

/-- The state once a checkpoint is in place, and the log applied to it. A log that fails
leaves the checkpoint in place. -/
def finishLoad (s : SessionState) (log : Option Bytes) (source : LoadSource) : SessionState × GrmResult LoadSource :=
  match applySessionLog s log with
  | .ok s => (s, .ok source)
  | .error e => (s, .error e)

/-- `load_json_backup`. -/
def SessionState.loadJsonBackup (s : SessionState) (disk : Disk) : SessionState × GrmResult LoadSource :=
  match (readToString disk.backup).bind Codecs.sessionFromStr with
  | none => (s, .error (.loadAborted "failed to deserialize JSON session file"))
  | some persisted => finishLoad (ofPersisted persisted) disk.log .backup

/-- `load_from_json_with_source`. -/
def SessionState.loadFromJson (s : SessionState) (disk : Disk) : SessionState × GrmResult LoadSource :=
  match readToString disk.primary with
  | none => (s, .error (.loadAborted "failed to read JSON session file"))
  | some json =>
    match Codecs.sessionFromStr json with
    | some persisted => finishLoad (ofPersisted persisted) disk.log .primary
    | none => s.loadJsonBackup disk

/-- A decoded binary session put in place; its property values may still fail to decode. -/
def SessionState.adoptBinary (s : SessionState) (persisted : BinaryPersistedSession) (log : Option Bytes)
    (source : LoadSource) : SessionState × GrmResult LoadSource :=
  match GraphStore.fromBinaryPersisted persisted.graph with
  | .error e => (s, .error e)
  | .ok store => finishLoad ⟨store, persisted.catalog⟩ log source

/-- `load_binary_backup`. -/
def SessionState.loadBinaryBackup (s : SessionState) (disk : Disk) : SessionState × GrmResult LoadSource :=
  match readLimitedBinarySessionFile disk.backup with
  | .error e => (s, .error e)
  | .ok bytes =>
    match Codecs.sessionDeserialize maxBinarySessionFileBytes bytes with
    | none => (s, .error (.loadAborted "failed to deserialize binary session file"))
    | some persisted => s.adoptBinary persisted disk.log .backup

/-- `load_from_binary_with_source`. -/
def SessionState.loadFromBinary (s : SessionState) (disk : Disk) : SessionState × GrmResult LoadSource :=
  match readLimitedBinarySessionFile disk.primary with
  | .error e => (s, .error e)
  | .ok bytes =>
    match Codecs.sessionDeserialize maxBinarySessionFileBytes bytes with
    | some persisted => s.adoptBinary persisted disk.log .primary
    | none => s.loadBinaryBackup disk

/-- `load_workspace_with_source`. -/
def SessionState.loadWorkspace (s : SessionState) (format : DurabilityFormat) (disk : Disk) :
    SessionState × GrmResult LoadSource :=
  match format with
  | .json => s.loadFromJson disk
  | .binary => s.loadFromBinary disk

end Files
