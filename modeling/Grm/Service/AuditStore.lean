import Mathlib.Data.Countable.Basic
import Mathlib.Logic.Equiv.List
import Grm.Lib.LineLog
import Grm.Lib.Retention
import Grm.Service.AuditEvent

/-!
# The durable audit store

`DurableSecurityAuditStore`: a metadata file that is replaced by a rename, a log of one
record per line, and the state in memory. Every operation takes the faults its file
operations meet and gives the files and the state it leaves. Record lines and metadata
are `serde_json` text, taken as given like the codecs of the runtime. A poisoned lock
and the statistics of the instrumentation are left out.
-/

set_option autoImplicit false

/-- `StoreMetadata`. -/
structure StoreMetadata where
  version : Nat
  storeGenerationId : String
  reservedEventId : Nat
  reservedRequestId : Nat
  reservedServiceSequence : Nat
  acceptedEventId : Nat
  acceptedRequestId : Nat
  acceptedServiceSequence : Nat
  deriving DecidableEq, Repr

/-- `PersistedAuditRecord`. -/
structure PersistedAuditRecord where
  version : Nat
  storeGenerationId : String
  event : SecurityAuditEvent
  deriving DecidableEq, Repr

/-- `METADATA_VERSION`. -/
def metadataVersion : Nat := 1

/-- `RECORD_VERSION`. -/
def recordVersion : Nat := 1

/-- `COUNTER_RESERVATION_RANGE`. -/
def counterReservationRange : Nat := 64

/-- The codecs of the store's files, and the size of the event's struct. -/
class AuditExternals where
  recordToVec : PersistedAuditRecord → Option Bytes
  recordFromSlice : Bytes → Option PersistedAuditRecord
  metadataToVec : StoreMetadata → Option Bytes
  metadataFromSlice : Bytes → Option StoreMetadata
  eventStructSize : Nat

/-- What the codecs promise: decoding undoes encoding, also with a line break after it;
a record is one line that is not blank; metadata can be encoded, and no first part of
its text is other metadata. -/
structure AuditExternals.Lawful [AuditExternals] : Prop where
  record : ∀ entry bytes, recordToVec entry = some bytes → recordFromSlice bytes = some entry
  oneLine : ∀ entry bytes, recordToVec entry = some bytes → newline ∉ bytes
  visible : ∀ entry bytes, recordToVec entry = some bytes → bytes ≠ []
  metadata : ∀ m bytes, metadataToVec m = some bytes → metadataFromSlice (bytes ++ [newline]) = some m
  writable : ∀ m, ∃ bytes, metadataToVec m = some bytes
  torn : ∀ m bytes kept read, metadataToVec m = some bytes →
    metadataFromSlice ((bytes ++ [newline]).take kept) = some read → read = m

inductive SecurityAuditStoreOpenError where
  | unavailable | malformedMetadata | unsupportedMetadataVersion | malformedRecord | unsupportedRecordVersion
  | inconsistentStore | counterExhausted | invalidRetention | alreadyOpen
  deriving DecidableEq, Repr

inductive SecurityAuditSinkError where
  | unavailable | backpressure | eventTooLarge
  deriving DecidableEq, Repr

inductive SecurityAuditSinkHealth where
  | healthy | degraded
  deriving DecidableEq, Repr

/-- The retention limits of a store. -/
structure AuditLimits where
  maxEvents : Nat
  maxBytes : Nat
  maxAge : Duration
  deriving DecidableEq, Repr

/-- `StoreState`. A record is an event with its line's length: the source keeps the two
in deques that grow and shrink together. -/
structure StoreState where
  metadata : StoreMetadata
  records : List (SecurityAuditEvent × Nat)
  retainedBytes : Nat
  degraded : Bool
  nextEventId : Nat
  nextRequestId : Nat
  nextServiceSequence : Nat
  futureDatedRecords : Nat
  deriving DecidableEq, Repr

/-- The files of a store. A crash keeps `durable`, or one of the contents renamed into
place since the last directory sync. -/
structure AuditDisk where
  metadata : Option Bytes
  durable : Option Bytes
  renamed : List Bytes
  log : Option Bytes
  deriving DecidableEq, Repr

namespace AuditDisk

/-- A directory sync that succeeds. -/
def syncDir (disk : AuditDisk) : AuditDisk := { disk with durable := disk.metadata, renamed := [] }

/-- A rename over the metadata file. -/
def rename (disk : AuditDisk) (bytes : Bytes) : AuditDisk :=
  { disk with metadata := some bytes, renamed := bytes :: disk.renamed }

/-- The metadata file that a crash can leave. -/
def Survives (disk : AuditDisk) (file : Option Bytes) : Prop :=
  file = disk.durable ∨ ∃ bytes ∈ disk.renamed, file = some bytes

end AuditDisk

/-! ## File operations -/

/-- Where `replace_metadata` fails. -/
inductive ReplaceFault where
  | openTemp | write | sync | rename | directorySync
  deriving DecidableEq, Repr

/-- Where `append_and_sync` fails; a failed write has written some first bytes. -/
inductive LogFault where
  | openLog | write (kept : Nat) | sync
  deriving DecidableEq, Repr

/-- Where `compact` fails. -/
inductive CompactFault where
  | openTemp | write | sync | rename | directorySync
  deriving DecidableEq, Repr

/-- Where `write_new_metadata` and the directory sync after it fail. -/
inductive InitialFault where
  | create | write (kept : Nat) | sync | directorySync
  deriving DecidableEq, Repr

section Store
variable [AuditExternals]
open AuditExternals

/-- `replace_metadata`, and whether it succeeded. -/
def AuditDisk.replaceMetadata (disk : AuditDisk) (metadata : StoreMetadata) (fault : Option ReplaceFault) :
    AuditDisk × Bool :=
  match metadataToVec metadata with
  | none => (disk, false)
  | some bytes =>
    match fault with
    | none => ((disk.rename (bytes ++ [newline])).syncDir, true)
    | some .directorySync => (disk.rename (bytes ++ [newline]), false)
    | some _ => (disk, false)

/-- `append_and_sync`, and whether it succeeded. -/
def AuditDisk.appendAndSync (disk : AuditDisk) (line : Bytes) (fault : Option LogFault) : AuditDisk × Bool :=
  let written := disk.log.getD []
  match fault with
  | none => ({ disk with log := some (written ++ line) }, true)
  | some .openLog => (disk, false)
  | some (.write kept) => ({ disk with log := some (written ++ line.take kept) }, false)
  | some .sync => ({ disk with log := some (written ++ line) }, false)

/-- The lines of the log that `compact` writes. -/
def encodeRecords (generation : String) : List SecurityAuditEvent → Option Bytes
  | [] => some []
  | event :: rest => do
    let line ← recordToVec { version := recordVersion, storeGenerationId := generation, event }
    let more ← encodeRecords generation rest
    return line ++ newline :: more

/-- `compact`. -/
def AuditDisk.compact (disk : AuditDisk) (metadata : StoreMetadata) (events : List SecurityAuditEvent)
    (fault : Option CompactFault) : AuditDisk × Except SecurityAuditStoreOpenError Unit :=
  match encodeRecords metadata.storeGenerationId events with
  | none => (disk, .error .unavailable)
  | some bytes =>
    match fault with
    | none => ({ disk with log := some bytes }.syncDir, .ok ())
    | some .directorySync => ({ disk with log := some bytes }, .error .unavailable)
    | some _ => (disk, .error .unavailable)

/-- `read_metadata`. -/
def readMetadata (file : Option Bytes) : Except SecurityAuditStoreOpenError StoreMetadata :=
  match file with
  | none => .error .unavailable
  | some bytes =>
    match metadataFromSlice bytes with
    | none => .error .malformedMetadata
    | some metadata => .ok metadata

theorem readMetadata_some {bytes : Bytes} {m : StoreMetadata} :
    readMetadata (some bytes) = .ok m ↔ metadataFromSlice bytes = some m := by
  unfold readMetadata
  dsimp only
  cases metadataFromSlice bytes with
  | none => simp
  | some found => simp

/-- One line of `read_records`. -/
def decodeLine (metadata : StoreMetadata) (line : Bytes) :
    Except SecurityAuditStoreOpenError (SecurityAuditEvent × Nat) :=
  match recordFromSlice line with
  | none => .error .malformedRecord
  | some record =>
    if record.version ≠ recordVersion then .error .unsupportedRecordVersion
    else if record.storeGenerationId ≠ metadata.storeGenerationId then .error .inconsistentStore
    else .ok (record.event, line.length + 1)

/-- The loop of `read_records` over the complete lines. -/
def readLines (metadata : StoreMetadata) : List Bytes → Except SecurityAuditStoreOpenError (List (SecurityAuditEvent × Nat))
  | [] => .ok []
  | line :: rest =>
    if line.isEmpty then readLines metadata rest
    else do
      let record ← decodeLine metadata line
      let records ← readLines metadata rest
      return record :: records

/-- `read_records`: the records and whether the log ends in a torn one. -/
def readRecords (log : Option Bytes) (metadata : StoreMetadata) (maxBytes : Nat) :
    Except SecurityAuditStoreOpenError (List (SecurityAuditEvent × Nat) × Bool) :=
  match checkedAdd maxBytes securityAuditMaxEventBytes with
  | none => .error .unavailable
  | some maximumPhysicalBytes =>
    match log with
    | none => .ok ([], false)
    | some bytes =>
      if maximumPhysicalBytes < bytes.length then .error .malformedRecord
      else do
        let records ← readLines metadata (LineLog.lines newline bytes)
        return (records, !decide (LineLog.Terminated newline bytes))

/-! ## Retention -/

/-- The loop of `prune_retention`: what is left of the records, and of the retained bytes. -/
def pruneLoop (limits : AuditLimits) (cutoff : Option SystemTime) :
    List (SecurityAuditEvent × Nat) → Nat → List (SecurityAuditEvent × Nat) × Nat
  | [], retainedBytes => ([], retainedBytes)
  | (event, bytes) :: rest, retainedBytes =>
    if limits.maxEvents < rest.length + 1 ∨ limits.maxBytes < retainedBytes ∨
        (cutoff.any fun cutoff => decide (event.timestamp < cutoff)) = true then
      pruneLoop limits cutoff rest (retainedBytes - bytes)
    else ((event, bytes) :: rest, retainedBytes)

/-- `prune_retention`. -/
def StoreState.pruneRetention (state : StoreState) (limits : AuditLimits) (now : SystemTime) : StoreState :=
  let (records, retainedBytes) := pruneLoop limits (SystemTime.checkedSub now limits.maxAge) state.records state.retainedBytes
  { state with records, retainedBytes }

/-! ## Recovery of the records -/

/-- The variables of the loop that `open_with_instrumentation` and `try_recover` run over
the records. -/
structure RecoveryScan where
  records : List (SecurityAuditEvent × Nat)
  retainedBytes : Nat
  previousEvent : Nat
  previousSequence : Nat
  maxEvent : Nat
  maxRequest : Nat
  maxSequence : Nat
  futureDatedRecords : Nat
  deriving DecidableEq, Repr

/-- `validate_event_for_recovery`: whether the event is dated in the future. -/
def validateEventForRecovery (event : SecurityAuditEvent) (recordBytes maxBytes : Nat) (now : SystemTime) :
    Except SecurityAuditStoreOpenError Bool :=
  if !event.validateCommon eventStructSize || decide (securityAuditMaxEventBytes < recordBytes)
      || decide (maxBytes < recordBytes) then .error .malformedRecord
  else .ok (decide (now < event.timestamp))

namespace RecoveryScan

def start (metadata : StoreMetadata) : RecoveryScan where
  records := []
  retainedBytes := 0
  previousEvent := 0
  previousSequence := 0
  maxEvent := metadata.acceptedEventId
  maxRequest := metadata.acceptedRequestId
  maxSequence := metadata.acceptedServiceSequence
  futureDatedRecords := 0

/-- The body of the loop. -/
def record (scan : RecoveryScan) (maxBytes : Nat) (now : SystemTime) (entry : SecurityAuditEvent × Nat) :
    Except SecurityAuditStoreOpenError RecoveryScan :=
  match validateEventForRecovery entry.1 entry.2 maxBytes now with
  | .error error => .error error
  | .ok future =>
    if entry.1.eventId ≤ scan.previousEvent ∨ entry.1.serviceSequence ≤ scan.previousSequence then .error .inconsistentStore
    else
      match checkedAdd scan.retainedBytes entry.2 with
      | none => .error .inconsistentStore
      | some retainedBytes =>
        .ok {
          records := scan.records ++ [entry]
          retainedBytes
          previousEvent := entry.1.eventId
          previousSequence := entry.1.serviceSequence
          maxEvent := max scan.maxEvent entry.1.eventId
          maxRequest := max scan.maxRequest entry.1.requestId
          maxSequence := max scan.maxSequence entry.1.serviceSequence
          futureDatedRecords := if future then min (scan.futureDatedRecords + 1) u64Max else scan.futureDatedRecords }

/-- The loop. -/
def run (maxBytes : Nat) (now : SystemTime) (scan : RecoveryScan) :
    List (SecurityAuditEvent × Nat) → Except SecurityAuditStoreOpenError RecoveryScan
  | [] => .ok scan
  | entry :: rest => do
    let scan ← scan.record maxBytes now entry
    run maxBytes now scan rest

end RecoveryScan

/-- The test of the generation id: 32 hexadecimal digits. -/
def isGenerationId (generation : String) : Bool :=
  generation.utf8ByteSize == 32 && generation.toList.all fun c =>
    ('0' ≤ c && c ≤ '9') || ('a' ≤ c && c ≤ 'f') || ('A' ≤ c && c ≤ 'F')

/-! ## Opening -/

inductive SecurityAuditStoreOpenState where
  | initialized | reopened
  deriving DecidableEq, Repr

structure SecurityAuditStoreRecovery where
  openState : SecurityAuditStoreOpenState
  storeGenerationId : String
  retainedRecords : Nat
  ignoredTornFinalRecord : Bool
  nextEventId : Nat
  nextRequestId : Nat
  nextServiceSequence : Nat
  futureDatedRecords : Nat
  deriving DecidableEq, Repr

/-- The faults of an open. `directories` covers everything before the metadata file is
looked at. -/
structure OpenFaults where
  directories : Bool
  initial : Option InitialFault
  readMetadata : Bool
  readLog : Bool
  compaction : Option CompactFault
  deriving DecidableEq, Repr

def OpenFaults.none : OpenFaults := ⟨false, .none, false, false, .none⟩

/-- The metadata of a new store. -/
def newMetadata (generation : String) : StoreMetadata :=
  ⟨metadataVersion, generation, 0, 0, 0, 0, 0, 0⟩

/-- `write_new_metadata` and the directory sync after it. -/
def AuditDisk.writeNewMetadata (disk : AuditDisk) (metadata : StoreMetadata) (fault : Option InitialFault) :
    AuditDisk × Bool :=
  match metadataToVec metadata with
  | none => (disk, false)
  | some bytes =>
    let content := bytes ++ [newline]
    match fault with
    | none => ((disk.rename content).syncDir, true)
    | some .create => (disk, false)
    | some (.write kept) => (disk.rename (content.take kept), false)
    | some .sync => (disk.rename content, false)
    | some .directorySync => (disk.rename content, false)

/-- `read_records` and the loop over its records, with whether the log ends in a torn one. -/
def scanLog (limits : AuditLimits) (metadata : StoreMetadata) (log : Option Bytes) (now : SystemTime) :
    Except SecurityAuditStoreOpenError (RecoveryScan × Bool) :=
  match readRecords log metadata limits.maxBytes with
  | .error error => .error error
  | .ok (records, torn) =>
    match (RecoveryScan.start metadata).run limits.maxBytes now records with
    | .error error => .error error
    | .ok scan => .ok (scan, torn)

/-- An identifier read is above what is reserved. -/
def RecoveryScan.Unreserved (scan : RecoveryScan) (metadata : StoreMetadata) : Prop :=
  metadata.reservedEventId < scan.maxEvent ∨ metadata.reservedRequestId < scan.maxRequest ∨
    metadata.reservedServiceSequence < scan.maxSequence

instance (scan : RecoveryScan) (metadata : StoreMetadata) : Decidable (scan.Unreserved metadata) :=
  inferInstanceAs (Decidable (_ ∨ _ ∨ _))

/-- A reservation has no identifier after it. -/
def StoreMetadata.Exhausted (metadata : StoreMetadata) : Prop :=
  checkedAdd metadata.reservedEventId 1 = none ∨ checkedAdd metadata.reservedRequestId 1 = none ∨
    checkedAdd metadata.reservedServiceSequence 1 = none

instance (metadata : StoreMetadata) : Decidable metadata.Exhausted := inferInstanceAs (Decidable (_ ∨ _ ∨ _))

/-- The checks of `open_with_instrumentation` up to the recovered state, before pruning;
with whether the log ends in a torn record. -/
def openState (limits : AuditLimits) (metadata : StoreMetadata) (log : Option Bytes) (now : SystemTime) :
    Except SecurityAuditStoreOpenError (StoreState × Bool) :=
  if metadata.version ≠ metadataVersion then .error .unsupportedMetadataVersion
  else if isGenerationId metadata.storeGenerationId = false then .error .malformedMetadata
  else
    match scanLog limits metadata log now with
    | .error error => .error error
    | .ok (scan, torn) =>
      if scan.Unreserved metadata then .error .inconsistentStore
      else if metadata.Exhausted then .error .counterExhausted
      else
        .ok ({
          metadata
          records := scan.records
          retainedBytes := scan.retainedBytes
          degraded := false
          nextEventId := metadata.reservedEventId + 1
          nextRequestId := metadata.reservedRequestId + 1
          nextServiceSequence := metadata.reservedServiceSequence + 1
          futureDatedRecords := scan.futureDatedRecords }, torn)

/-- The end of `open_with_instrumentation`, once the metadata is there: recovery, and a
compaction where recovery left records out. -/
def AuditDisk.openFiles (disk : AuditDisk) (limits : AuditLimits) (metadata : StoreMetadata)
    (found : SecurityAuditStoreOpenState) (now : SystemTime) (faults : OpenFaults) :
    AuditDisk × Except SecurityAuditStoreOpenError (StoreState × SecurityAuditStoreRecovery) :=
  if faults.readLog then (disk, .error .unavailable)
  else
    match openState limits metadata disk.log now with
    | .error error => (disk, .error error)
    | .ok (recovered, torn) =>
      let state := recovered.pruneRetention limits now
      let recovery : SecurityAuditStoreRecovery := {
        openState := found
        storeGenerationId := metadata.storeGenerationId
        retainedRecords := state.records.length
        ignoredTornFinalRecord := torn
        nextEventId := metadata.reservedEventId + 1
        nextRequestId := metadata.reservedRequestId + 1
        nextServiceSequence := metadata.reservedServiceSequence + 1
        futureDatedRecords := recovered.futureDatedRecords }
      if torn || recovered.records.length != state.records.length || recovered.retainedBytes != state.retainedBytes then
        match disk.compact state.metadata (state.records.map Prod.fst) faults.compaction with
        | (disk, .error error) => (disk, .error error)
        | (disk, .ok ()) => (disk, .ok (state, recovery))
      else (disk, .ok (state, recovery))

/-- `open_with_instrumentation` on a directory that is not open in this process.
`generation` is what `random_generation_id` gives, if it is called. -/
def AuditDisk.openWithInstrumentation (disk : AuditDisk) (limits : AuditLimits) (generation : Option String)
    (now : SystemTime) (faults : OpenFaults) :
    AuditDisk × Except SecurityAuditStoreOpenError (StoreState × SecurityAuditStoreRecovery) :=
  if limits.maxEvents = 0 ∨ limits.maxBytes = 0 ∨ limits.maxAge = 0 then (disk, .error .invalidRetention)
  else if faults.directories then (disk, .error .unavailable)
  else
    match disk.metadata with
    | some _ =>
      if faults.readMetadata then (disk, .error .unavailable)
      else
        match readMetadata disk.metadata with
        | .error error => (disk, .error error)
        | .ok metadata => disk.openFiles limits metadata .reopened now faults
    | none =>
      match generation with
      | none => (disk, .error .unavailable)
      | some generation =>
        match disk.writeNewMetadata (newMetadata generation) faults.initial with
        | (disk, false) => (disk, .error .unavailable)
        | (disk, true) => disk.openFiles limits (newMetadata generation) .initialized now faults

/-- The limits that an open accepts. -/
structure AuditLimits.Valid (limits : AuditLimits) : Prop where
  events : limits.maxEvents ≠ 0
  bytes : limits.maxBytes ≠ 0
  age : limits.maxAge ≠ 0

/-- An open where there is a metadata file. -/
theorem AuditDisk.openWithInstrumentation_reopened {disk : AuditDisk} {limits : AuditLimits} (valid : limits.Valid)
    {metadata : StoreMetadata} (read : readMetadata disk.metadata = .ok metadata) (generation : Option String)
    (now : SystemTime) :
    disk.openWithInstrumentation limits generation now .none = disk.openFiles limits metadata .reopened now .none := by
  unfold openWithInstrumentation
  rw [if_neg (by simp [valid.events, valid.bytes, valid.age]), if_neg (by decide)]
  cases file : disk.metadata with
  | none => rw [file] at read; cases read
  | some bytes =>
    rw [file] at read
    dsimp only
    rw [if_neg (by decide), read]

/-! ## Identifiers -/

namespace StoreState

/-- The end of `allocate_request_id`. -/
def issueRequestId (state : StoreState) : StoreState × Except SecurityAuditSinkError Nat :=
  match checkedAdd state.nextRequestId 1 with
  | none => (state, .error .unavailable)
  | some next => ({ state with nextRequestId := next }, .ok state.nextRequestId)

/-- The end of `allocate_event_identity`. -/
def issueEventIdentity (state : StoreState) : StoreState × Except SecurityAuditSinkError (Nat × Nat) :=
  match checkedAdd state.nextEventId 1 with
  | none => (state, .error .unavailable)
  | some nextEvent =>
    let advanced := { state with nextEventId := nextEvent }
    match checkedAdd state.nextServiceSequence 1 with
    | none => (advanced, .error .unavailable)
    | some nextSequence =>
      ({ advanced with nextServiceSequence := nextSequence }, .ok (state.nextEventId, state.nextServiceSequence))

end StoreState

/-- `allocate_request_id`. -/
def StoreState.allocateRequestId (state : StoreState) (disk : AuditDisk) (fault : Option ReplaceFault) :
    AuditDisk × StoreState × Except SecurityAuditSinkError Nat :=
  if state.metadata.reservedRequestId < state.nextRequestId then
    match checkedAdd state.metadata.reservedRequestId counterReservationRange with
    | none => (disk, state, .error .unavailable)
    | some reserved =>
      let metadata := { state.metadata with reservedRequestId := reserved }
      match disk.replaceMetadata metadata fault with
      | (disk, false) => (disk, { state with degraded := true }, .error .unavailable)
      | (disk, true) => (disk, { state with metadata }.issueRequestId)
  else (disk, state.issueRequestId)

/-- `allocate_event_identity`. Where the sequence cannot be reserved, the event
reservation in memory has already moved. -/
def StoreState.allocateEventIdentity (state : StoreState) (disk : AuditDisk) (fault : Option ReplaceFault) :
    AuditDisk × StoreState × Except SecurityAuditSinkError (Nat × Nat) :=
  if state.metadata.reservedEventId < state.nextEventId ∨ state.metadata.reservedServiceSequence < state.nextServiceSequence then
    match checkedAdd state.metadata.reservedEventId counterReservationRange with
    | none => (disk, state, .error .unavailable)
    | some reservedEvent =>
      let moved := { state.metadata with reservedEventId := reservedEvent }
      match checkedAdd state.metadata.reservedServiceSequence counterReservationRange with
      | none => (disk, { state with metadata := moved }, .error .unavailable)
      | some reservedSequence =>
        let metadata := { moved with reservedServiceSequence := reservedSequence }
        match disk.replaceMetadata metadata fault with
        | (disk, false) => (disk, { state with degraded := true }, .error .unavailable)
        | (disk, true) => (disk, { state with metadata }.issueEventIdentity)
  else (disk, state.issueEventIdentity)

/-! ## Appending -/

/-- The faults of an append. -/
structure AppendFaults where
  log : Option LogFault
  firstDirectorySync : Bool
  compaction : Option CompactFault
  metadata : Option ReplaceFault
  deriving DecidableEq, Repr

def AppendFaults.none : AppendFaults := ⟨.none, false, .none, .none⟩

/-- The write of a record: the line, and the directory sync of a new log. -/
def AuditDisk.acceptLine (disk : AuditDisk) (line : Bytes) (faults : AppendFaults) : AuditDisk × Bool :=
  match disk.appendAndSync line faults.log with
  | (written, false) => (written, false)
  | (written, true) =>
    if disk.log.isSome then (written, true)
    else if faults.firstDirectorySync then (written, false)
    else (written.syncDir, true)

/-- The state once a record is accepted in the log. -/
def StoreState.accept (state : StoreState) (event : SecurityAuditEvent) (length : Nat) : StoreState :=
  { state with
    metadata := { state.metadata with
      acceptedEventId := max state.metadata.acceptedEventId event.eventId
      acceptedRequestId := max state.metadata.acceptedRequestId event.requestId
      acceptedServiceSequence := max state.metadata.acceptedServiceSequence event.serviceSequence }
    retainedBytes := state.retainedBytes + length
    records := state.records ++ [(event, length)] }

/-- The compaction of `append`, where retention dropped records. -/
def AuditDisk.compactPruned (disk : AuditDisk) (accepted pruned : StoreState) (fault : Option CompactFault) :
    AuditDisk × Except SecurityAuditStoreOpenError Unit :=
  if pruned.records.length ≠ accepted.records.length then
    disk.compact pruned.metadata (pruned.records.map Prod.fst) fault
  else (disk, .ok ())

/-- What `append` does after the record is in the log: retention, compaction, and the
metadata. -/
def StoreState.afterAccept (accepted : StoreState) (limits : AuditLimits) (disk : AuditDisk) (later : SystemTime)
    (faults : AppendFaults) : AuditDisk × StoreState × Except SecurityAuditSinkError Unit :=
  let state := accepted.pruneRetention limits later
  match disk.compactPruned accepted state faults.compaction with
  | (disk, .error _) => (disk, { state with degraded := true }, .error .unavailable)
  | (disk, .ok ()) =>
    match disk.replaceMetadata state.metadata faults.metadata with
    | (disk, false) => (disk, { state with degraded := true }, .error .unavailable)
    | (disk, true) => (disk, { state with degraded := false }, .ok ())

/-- `append`. The clock reads `now` for the validation and `later` for retention. -/
def StoreState.append (state : StoreState) (limits : AuditLimits) (disk : AuditDisk) (event : SecurityAuditEvent)
    (now later : SystemTime) (faults : AppendFaults) : AuditDisk × StoreState × Except SecurityAuditSinkError Unit :=
  if !event.validateForAppend eventStructSize now then (disk, state, .error .eventTooLarge)
  else
    match recordToVec { version := recordVersion, storeGenerationId := state.metadata.storeGenerationId, event } with
    | none => (disk, state, .error .unavailable)
    | some bytes =>
      let line := bytes ++ [newline]
      if securityAuditMaxEventBytes < line.length ∨ limits.maxBytes < line.length then (disk, state, .error .eventTooLarge)
      else if state.metadata.reservedEventId < event.eventId ∨ state.metadata.reservedRequestId < event.requestId ∨
          state.metadata.reservedServiceSequence < event.serviceSequence then
        (disk, { state with degraded := true }, .error .unavailable)
      else
        match disk.acceptLine line faults with
        | (disk, false) => (disk, { state with degraded := true }, .error .unavailable)
        | (disk, true) => (state.accept event line.length).afterAccept limits disk later faults

/-- `health`. -/
def StoreState.health (state : StoreState) : SecurityAuditSinkHealth := if state.degraded then .degraded else .healthy

/-! ## In-process recovery -/

/-- The faults of a `try_recover`. -/
structure RecoverFaults where
  readMetadata : Bool
  readLog : Bool
  compaction : Option CompactFault
  logSync : Bool
  metadata : Option ReplaceFault
  directorySync : Bool
  deriving DecidableEq, Repr

def RecoverFaults.none : RecoverFaults := ⟨false, false, .none, false, .none, false⟩

/-- What `try_recover` reads: the candidate state before pruning, whether the log ends in
a torn record, and the scan with the largest identifiers. -/
def StoreState.recoverCandidate (state : StoreState) (limits : AuditLimits) (disk : AuditDisk) (now : SystemTime)
    (faults : RecoverFaults) : Except SecurityAuditStoreOpenError (StoreState × Bool × RecoveryScan) :=
  if faults.readMetadata then .error .unavailable
  else
    match readMetadata disk.metadata with
    | .error error => .error error
    | .ok metadata =>
      if metadata.version ≠ metadataVersion ∨ metadata.storeGenerationId ≠ state.metadata.storeGenerationId ∨
          isGenerationId metadata.storeGenerationId = false ∨ metadata.reservedEventId < metadata.acceptedEventId ∨
          metadata.reservedRequestId < metadata.acceptedRequestId ∨
          metadata.reservedServiceSequence < metadata.acceptedServiceSequence then .error .inconsistentStore
      else if metadata.Exhausted then .error .counterExhausted
      else if faults.readLog then .error .unavailable
      else
        match scanLog limits metadata disk.log now with
        | .error error => .error error
        | .ok (scan, torn) =>
          if scan.Unreserved metadata then .error .inconsistentStore
          else
            .ok ({
              metadata
              records := scan.records
              retainedBytes := scan.retainedBytes
              degraded := true
              nextEventId := max state.nextEventId (metadata.reservedEventId + 1)
              nextRequestId := max state.nextRequestId (metadata.reservedRequestId + 1)
              nextServiceSequence := max state.nextServiceSequence (metadata.reservedServiceSequence + 1)
              futureDatedRecords := scan.futureDatedRecords }, torn, scan)

/-- The repair of the log in `try_recover`: a compaction, or a sync of the log as it is. -/
def AuditDisk.repairLog (disk : AuditDisk) (candidate : StoreState) (compacted : Bool) (faults : RecoverFaults) :
    AuditDisk × Except SecurityAuditStoreOpenError Unit :=
  if compacted then disk.compact candidate.metadata (candidate.records.map Prod.fst) faults.compaction
  else
    match disk.log with
    | some _ => (disk, if faults.logSync then .error .unavailable else .ok ())
    | none => (disk, if candidate.records.isEmpty then .ok () else .error .unavailable)

/-- `try_recover`. -/
def StoreState.tryRecover (state : StoreState) (limits : AuditLimits) (disk : AuditDisk) (now : SystemTime)
    (faults : RecoverFaults) : AuditDisk × StoreState × Except SecurityAuditSinkError SecurityAuditSinkHealth :=
  let refused (disk : AuditDisk) : AuditDisk × StoreState × Except SecurityAuditSinkError SecurityAuditSinkHealth :=
    (disk, { state with degraded := true }, .error .unavailable)
  match state.recoverCandidate limits disk now faults with
  | .error _ => refused disk
  | .ok (recovered, torn, scan) =>
    let candidate := recovered.pruneRetention limits now
    let compacted := torn || recovered.records.length != candidate.records.length ||
      recovered.retainedBytes != candidate.retainedBytes
    match disk.repairLog candidate compacted faults with
    | (disk, .error _) => refused disk
    | (disk, .ok ()) =>
      let metadata := { candidate.metadata with
        acceptedEventId := scan.maxEvent
        acceptedRequestId := scan.maxRequest
        acceptedServiceSequence := scan.maxSequence }
      match disk.replaceMetadata metadata faults.metadata with
      | (disk, false) => refused disk
      | (disk, true) =>
        if faults.directorySync then refused disk
        else (disk.syncDir, { candidate with metadata, degraded := false }, .ok .healthy)

end Store

/-! ## Codecs of listed records -/

theorem toNat_injective : Function.Injective Char.toNat := fun _ _ same => Char.ext (UInt32.toNat_inj.1 same)

theorem toList_injective : Function.Injective String.toList := fun _ _ => String.toList_inj.1

instance countable_char : Countable Char := toNat_injective.countable

instance countable_string : Countable String := toList_injective.countable

/-- The fields of metadata. -/
def StoreMetadata.fields (m : StoreMetadata) : String × List Nat :=
  (m.storeGenerationId, [m.version, m.reservedEventId, m.reservedRequestId, m.reservedServiceSequence, m.acceptedEventId,
    m.acceptedRequestId, m.acceptedServiceSequence])

theorem StoreMetadata.fields_injective : Function.Injective StoreMetadata.fields := by
  intro a b same
  cases a
  cases b
  simp_all [fields]

instance : Countable StoreMetadata := StoreMetadata.fields_injective.countable

/-- The listed text of metadata, or else a text of as many letters as its number. -/
noncomputable def metadataText (table : List (StoreMetadata × Bytes)) (m : StoreMetadata) : Bytes :=
  (encodeListed table m).getD (List.replicate ((Countable.exists_injective_nat StoreMetadata).choose m + 1) 65)

theorem newline_not_mem_metadataText {table : List (StoreMetadata × Bytes)}
    (lines : ∀ bytes ∈ table.map Prod.snd, newline ∉ bytes) (m : StoreMetadata) : newline ∉ metadataText table m := by
  unfold metadataText
  cases found : encodeListed table m with
  | none =>
    intro member
    cases List.eq_of_mem_replicate member
  | some bytes => exact lines bytes (List.mem_map_of_mem (encodeListed_some found))

theorem metadataText_injective {table : List (StoreMetadata × Bytes)} (distinct : (table.map Prod.snd).Nodup)
    (objects : ∀ bytes ∈ table.map Prod.snd, bytes.head? = some 123) : Function.Injective (metadataText table) := by
  have listed : ∀ a b bytes, encodeListed table a = some bytes → encodeListed table b = none →
      metadataText table a ≠ metadataText table b := by
    intro a b bytes first second same
    unfold metadataText at same
    rw [first, second] at same
    have opens := objects bytes (List.mem_map_of_mem (encodeListed_some first))
    dsimp only [Option.getD_some, Option.getD_none] at same
    rw [same, List.replicate_succ, List.head?_cons] at opens
    cases opens
  intro a b same
  cases first : encodeListed table a with
  | none =>
    cases second : encodeListed table b with
    | none =>
      unfold metadataText at same
      rw [first, second] at same
      have numbers := congrArg List.length same
      simp only [Option.getD_none, List.length_replicate, Nat.add_right_cancel_iff] at numbers
      exact (Countable.exists_injective_nat StoreMetadata).choose_spec numbers
    | some bytes => exact absurd same.symm (listed b a bytes second first)
  | some bytes =>
    cases second : encodeListed table b with
    | none => exact absurd same (listed a b bytes first second)
    | some other =>
      unfold metadataText at same
      rw [first, second] at same
      cases same
      have left := decodeListed_encodeListed distinct first
      rw [decodeListed_encodeListed distinct second] at left
      exact (Option.some.inj left).symm

open Classical in
/-- The metadata that has a text, read with the line break after it. -/
noncomputable def metadataOfText (table : List (StoreMetadata × Bytes)) (bytes : Bytes) : Option StoreMetadata :=
  if written : ∃ m, metadataText table m ++ [newline] = bytes then some written.choose else none

theorem metadataOfText_eq_some {table : List (StoreMetadata × Bytes)} (distinct : (table.map Prod.snd).Nodup)
    (objects : ∀ bytes ∈ table.map Prod.snd, bytes.head? = some 123) {bytes : Bytes} {m : StoreMetadata} :
    metadataOfText table bytes = some m ↔ metadataText table m ++ [newline] = bytes := by
  unfold metadataOfText
  constructor
  · intro found
    split at found
    next written =>
      rw [← Option.some.inj found]
      exact written.choose_spec
    next => cases found
  · intro text
    have written : ∃ m, metadataText table m ++ [newline] = bytes := ⟨m, text⟩
    rw [dif_pos written]
    have same := written.choose_spec.trans text.symm
    exact congrArg some (metadataText_injective distinct objects (List.append_cancel_right same))

/-- Codecs that have the given texts for the listed records and metadata. Other records
cannot be encoded; other metadata has some text. -/
@[reducible] noncomputable def AuditExternals.listed (records : List (PersistedAuditRecord × Bytes))
    (table : List (StoreMetadata × Bytes)) : AuditExternals where
  recordToVec := encodeListed records
  recordFromSlice := decodeListed records
  metadataToVec m := some (metadataText table m)
  metadataFromSlice := metadataOfText table
  eventStructSize := 280

theorem AuditExternals.listed_lawful {records : List (PersistedAuditRecord × Bytes)} {table : List (StoreMetadata × Bytes)}
    (distinctRecords : (records.map Prod.snd).Nodup) (lines : ∀ bytes ∈ records.map Prod.snd, newline ∉ bytes)
    (visible : ∀ bytes ∈ records.map Prod.snd, bytes ≠ []) (distinct : (table.map Prod.snd).Nodup)
    (objects : ∀ bytes ∈ table.map Prod.snd, bytes.head? = some 123)
    (metadataLines : ∀ bytes ∈ table.map Prod.snd, newline ∉ bytes) :
    @AuditExternals.Lawful (AuditExternals.listed records table) := by
  let := AuditExternals.listed records table
  constructor
  · intro entry bytes encoded
    exact decodeListed_encodeListed distinctRecords encoded
  · intro entry bytes encoded
    exact lines bytes (List.mem_map_of_mem (encodeListed_some encoded))
  · intro entry bytes encoded
    exact visible bytes (List.mem_map_of_mem (encodeListed_some encoded))
  · intro m bytes encoded
    cases encoded
    exact (metadataOfText_eq_some distinct objects).2 rfl
  · intro m
    exact ⟨_, rfl⟩
  · intro m bytes kept read encoded found
    cases encoded
    have cut := (metadataOfText_eq_some distinct objects).1 found
    rcases Nat.lt_or_ge (metadataText table m).length kept with whole | part
    · rw [List.take_of_length_le (by rw [List.length_append]; exact whole)] at cut
      exact metadataText_injective distinct objects (List.append_cancel_right cut)
    · rw [List.take_append_of_le_length part] at cut
      have member : newline ∈ (metadataText table m).take kept := by
        rw [← cut]
        exact List.mem_append_right _ List.mem_cons_self
      exact absurd (List.mem_of_mem_take member) (newline_not_mem_metadataText metadataLines m)
