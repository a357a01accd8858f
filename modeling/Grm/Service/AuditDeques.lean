import Grm.Service.AuditStore

/-!
# The two deques of the audit store

`StoreState` as the source has it: the events and the lengths of their lines are two
deques, and `prune_retention` takes from the front of both until the first is short enough
and the byte count is small enough. Nothing in the types makes the deques agree, so the
loop of `prune_retention` need not end; it runs on fuel here, and without enough of it an
operation has no result. The operations read the clock a second time for retention.
-/

set_option autoImplicit false

/-- `StoreState`, with its two deques. -/
structure StoreDeques where
  metadata : StoreMetadata
  events : List SecurityAuditEvent
  recordBytes : List Nat
  retainedBytes : Nat
  degraded : Bool
  nextEventId : Nat
  nextRequestId : Nat
  nextServiceSequence : Nat
  futureDatedRecords : Nat
  deriving DecidableEq, Repr

/-- The state with each record taken apart. -/
def StoreState.deques (state : StoreState) : StoreDeques where
  metadata := state.metadata
  events := state.records.map Prod.fst
  recordBytes := state.records.map Prod.snd
  retainedBytes := state.retainedBytes
  degraded := state.degraded
  nextEventId := state.nextEventId
  nextRequestId := state.nextRequestId
  nextServiceSequence := state.nextServiceSequence
  futureDatedRecords := state.futureDatedRecords

namespace StoreDeques

/-! ## Retention -/

/-- The condition of the loop of `prune_retention`. -/
def Exceeds (state : StoreDeques) (limits : AuditLimits) (cutoff : Option SystemTime) : Prop :=
  limits.maxEvents < state.events.length ∨ limits.maxBytes < state.retainedBytes ∨
    (cutoff.any fun cutoff => state.events.head?.any fun event => decide (event.timestamp < cutoff)) = true

instance (state : StoreDeques) (limits : AuditLimits) (cutoff : Option SystemTime) :
    Decidable (state.Exceeds limits cutoff) := inferInstanceAs (Decidable (_ ∨ _ ∨ _))

/-- The body of the loop. -/
def popFront (state : StoreDeques) : StoreDeques :=
  { state with
    events := state.events.tail
    recordBytes := state.recordBytes.tail
    retainedBytes :=
      match state.recordBytes.head? with
      | some bytes => state.retainedBytes - bytes
      | none => state.retainedBytes }

/-- The loop. -/
def pruneLoop (limits : AuditLimits) (cutoff : Option SystemTime) : Nat → StoreDeques → Option StoreDeques
  | 0, _ => none
  | fuel + 1, state => if state.Exceeds limits cutoff then pruneLoop limits cutoff fuel state.popFront else some state

/-- `prune_retention`. -/
def pruneRetention (state : StoreDeques) (limits : AuditLimits) (now : SystemTime) (fuel : Nat) : Option StoreDeques :=
  pruneLoop limits (SystemTime.checkedSub now limits.maxAge) fuel state

end StoreDeques

section Store
variable [AuditExternals]
open AuditExternals

/-! ## Opening -/

/-- `compact_if_pruned`. -/
def AuditDisk.compactIfPruned (disk : AuditDisk) (state : StoreDeques) (fault : Option CompactFault) :
    AuditDisk × Except SecurityAuditStoreOpenError Unit :=
  if state.events.length = state.recordBytes.length then disk.compact state.metadata state.events fault
  else (disk, .ok ())

/-- The end of `open_with_instrumentation`, once the metadata is there. -/
def AuditDisk.openDequeFiles (disk : AuditDisk) (limits : AuditLimits) (metadata : StoreMetadata)
    (found : SecurityAuditStoreOpenState) (now later : SystemTime) (faults : OpenFaults) (fuel : Nat) :
    Option (AuditDisk × Except SecurityAuditStoreOpenError (StoreDeques × SecurityAuditStoreRecovery)) :=
  if faults.readLog then some (disk, .error .unavailable)
  else
    match openState limits metadata disk.log now with
    | .error error => some (disk, .error error)
    | .ok (recovered, torn) =>
      (recovered.deques.pruneRetention limits later fuel).map fun state =>
        let recovery : SecurityAuditStoreRecovery := {
          openState := found
          storeGenerationId := metadata.storeGenerationId
          retainedRecords := state.events.length
          ignoredTornFinalRecord := torn
          nextEventId := metadata.reservedEventId + 1
          nextRequestId := metadata.reservedRequestId + 1
          nextServiceSequence := metadata.reservedServiceSequence + 1
          futureDatedRecords := recovered.futureDatedRecords }
        if torn || recovered.deques.events.length != state.events.length || recovered.retainedBytes != state.retainedBytes then
          match disk.compactIfPruned state faults.compaction with
          | (disk, .error error) => (disk, .error error)
          | (disk, .ok ()) => (disk, .ok (state, recovery))
        else (disk, .ok (state, recovery))

/-- `open_with_instrumentation` on a directory that is not open in this process. -/
def AuditDisk.openDeques (disk : AuditDisk) (limits : AuditLimits) (generation : Option String) (now later : SystemTime)
    (faults : OpenFaults) (fuel : Nat) :
    Option (AuditDisk × Except SecurityAuditStoreOpenError (StoreDeques × SecurityAuditStoreRecovery)) :=
  if limits.maxEvents = 0 ∨ limits.maxBytes = 0 ∨ limits.maxAge = 0 then some (disk, .error .invalidRetention)
  else if faults.directories then some (disk, .error .unavailable)
  else
    match disk.metadata with
    | some _ =>
      if faults.readMetadata then some (disk, .error .unavailable)
      else
        match readMetadata disk.metadata with
        | .error error => some (disk, .error error)
        | .ok metadata => disk.openDequeFiles limits metadata .reopened now later faults fuel
    | none =>
      match generation with
      | none => some (disk, .error .unavailable)
      | some generation =>
        match disk.writeNewMetadata (newMetadata generation) faults.initial with
        | (disk, false) => some (disk, .error .unavailable)
        | (disk, true) => disk.openDequeFiles limits (newMetadata generation) .initialized now later faults fuel

namespace StoreDeques

/-! ## Identifiers -/

/-- The fields besides the deques. -/
def counters (state : StoreDeques) : StoreState where
  metadata := state.metadata
  records := []
  retainedBytes := 0
  degraded := state.degraded
  nextEventId := state.nextEventId
  nextRequestId := state.nextRequestId
  nextServiceSequence := state.nextServiceSequence
  futureDatedRecords := state.futureDatedRecords

/-- The deques with other fields besides them. -/
def withCounters (state : StoreDeques) (counters : StoreState) : StoreDeques :=
  { state with
    metadata := counters.metadata
    degraded := counters.degraded
    nextEventId := counters.nextEventId
    nextRequestId := counters.nextRequestId
    nextServiceSequence := counters.nextServiceSequence
    futureDatedRecords := counters.futureDatedRecords }

/-- `allocate_request_id`, which does not touch the deques. -/
def allocateRequestId (state : StoreDeques) (disk : AuditDisk) (fault : Option ReplaceFault) :
    AuditDisk × StoreDeques × Except SecurityAuditSinkError Nat :=
  let (disk, counters, result) := state.counters.allocateRequestId disk fault
  (disk, state.withCounters counters, result)

/-- `allocate_event_identity`, which does not touch the deques. -/
def allocateEventIdentity (state : StoreDeques) (disk : AuditDisk) (fault : Option ReplaceFault) :
    AuditDisk × StoreDeques × Except SecurityAuditSinkError (Nat × Nat) :=
  let (disk, counters, result) := state.counters.allocateEventIdentity disk fault
  (disk, state.withCounters counters, result)

/-! ## Appending -/

/-- The state once a record is accepted in the log. -/
def accept (state : StoreDeques) (event : SecurityAuditEvent) (length : Nat) : StoreDeques :=
  { state with
    metadata := { state.metadata with
      acceptedEventId := max state.metadata.acceptedEventId event.eventId
      acceptedRequestId := max state.metadata.acceptedRequestId event.requestId
      acceptedServiceSequence := max state.metadata.acceptedServiceSequence event.serviceSequence }
    retainedBytes := state.retainedBytes + length
    recordBytes := state.recordBytes ++ [length]
    events := state.events ++ [event] }

/-- The end of `append`, after retention. -/
def afterPrune (state : StoreDeques) (before : Nat) (disk : AuditDisk) (faults : AppendFaults) :
    AuditDisk × StoreDeques × Except SecurityAuditSinkError Unit :=
  let compacted :=
    if state.events.length ≠ before then disk.compact state.metadata state.events faults.compaction else (disk, .ok ())
  match compacted with
  | (disk, .error _) => (disk, { state with degraded := true }, .error .unavailable)
  | (disk, .ok ()) =>
    match disk.replaceMetadata state.metadata faults.metadata with
    | (disk, false) => (disk, { state with degraded := true }, .error .unavailable)
    | (disk, true) => (disk, { state with degraded := false }, .ok ())

/-- `append`. -/
def append (state : StoreDeques) (limits : AuditLimits) (disk : AuditDisk) (event : SecurityAuditEvent)
    (now later : SystemTime) (faults : AppendFaults) (fuel : Nat) :
    Option (AuditDisk × StoreDeques × Except SecurityAuditSinkError Unit) :=
  if !event.validateForAppend eventStructSize now then some (disk, state, .error .eventTooLarge)
  else
    match recordToVec { version := recordVersion, storeGenerationId := state.metadata.storeGenerationId, event } with
    | none => some (disk, state, .error .unavailable)
    | some bytes =>
      let line := bytes ++ [newline]
      if securityAuditMaxEventBytes < line.length ∨ limits.maxBytes < line.length then
        some (disk, state, .error .eventTooLarge)
      else if state.metadata.reservedEventId < event.eventId ∨ state.metadata.reservedRequestId < event.requestId ∨
          state.metadata.reservedServiceSequence < event.serviceSequence then
        some (disk, { state with degraded := true }, .error .unavailable)
      else
        match disk.acceptLine line faults with
        | (disk, false) => some (disk, { state with degraded := true }, .error .unavailable)
        | (disk, true) =>
          let accepted := state.accept event line.length
          (accepted.pruneRetention limits later fuel).map fun state =>
            state.afterPrune accepted.events.length disk faults

/-! ## In-process recovery -/

/-- The repair of the log in `try_recover`: a compaction, or a sync of the log as it is. -/
def repairLog (candidate : StoreDeques) (disk : AuditDisk) (compacted : Bool) (faults : RecoverFaults) :
    AuditDisk × Except SecurityAuditStoreOpenError Unit :=
  if compacted then disk.compact candidate.metadata candidate.events faults.compaction
  else
    match disk.log with
    | some _ => (disk, if faults.logSync then .error .unavailable else .ok ())
    | none => (disk, if candidate.events.isEmpty then .ok () else .error .unavailable)

/-- The end of `try_recover`, after retention: the state is replaced where all succeeds. -/
def adopt (state candidate : StoreDeques) (scan : RecoveryScan) (disk : AuditDisk) (compacted : Bool)
    (faults : RecoverFaults) : AuditDisk × StoreDeques × Except SecurityAuditSinkError SecurityAuditSinkHealth :=
  match candidate.repairLog disk compacted faults with
  | (disk, .error _) => (disk, { state with degraded := true }, .error .unavailable)
  | (disk, .ok ()) =>
    let metadata := { candidate.metadata with
      acceptedEventId := scan.maxEvent
      acceptedRequestId := scan.maxRequest
      acceptedServiceSequence := scan.maxSequence }
    match disk.replaceMetadata metadata faults.metadata with
    | (disk, false) => (disk, { state with degraded := true }, .error .unavailable)
    | (disk, true) =>
      if faults.directorySync then (disk, { state with degraded := true }, .error .unavailable)
      else (disk.syncDir, { candidate with metadata, degraded := false }, .ok .healthy)

/-- `try_recover`. -/
def tryRecover (state : StoreDeques) (limits : AuditLimits) (disk : AuditDisk) (now later : SystemTime)
    (faults : RecoverFaults) (fuel : Nat) :
    Option (AuditDisk × StoreDeques × Except SecurityAuditSinkError SecurityAuditSinkHealth) :=
  match state.counters.recoverCandidate limits disk now faults with
  | .error _ => some (disk, { state with degraded := true }, .error .unavailable)
  | .ok (recovered, torn, scan) =>
    (recovered.deques.pruneRetention limits later fuel).map fun candidate =>
      let compacted := torn || recovered.deques.events.length != candidate.events.length ||
        recovered.retainedBytes != candidate.retainedBytes
      state.adopt candidate scan disk compacted faults

end StoreDeques

/-! ## Runs -/

/-- The files, and the store and its limits if it is open. -/
structure AuditProcess where
  disk : AuditDisk
  store : Option (AuditLimits × StoreDeques)

/-- What can happen to a store: its operations, each with the faults its file operations
meet, the end of its process, and a crash that leaves one of the surviving metadata files
and any log. -/
inductive AuditOperation where
  | openStore (limits : AuditLimits) (generation : Option String) (now later : SystemTime) (faults : OpenFaults)
  | drop
  | allocateRequestId (fault : Option ReplaceFault)
  | allocateEventIdentity (fault : Option ReplaceFault)
  | append (event : SecurityAuditEvent) (now later : SystemTime) (faults : AppendFaults)
  | tryRecover (now later : SystemTime) (faults : RecoverFaults)
  | crash (file log : Option Bytes)

/-- No file operation fails. -/
def AuditOperation.FaultFree : AuditOperation → Prop
  | openStore _ _ _ _ faults => faults = .none
  | drop => True
  | allocateRequestId fault => fault = none
  | allocateEventIdentity fault => fault = none
  | append _ _ _ faults => faults = .none
  | tryRecover _ _ faults => faults = .none
  | crash _ _ => False

instance (disk : AuditDisk) (file : Option Bytes) : Decidable (disk.Survives file) :=
  inferInstanceAs (Decidable (_ ∨ ∃ bytes ∈ disk.renamed, file = some bytes))

namespace AuditProcess

/-- One operation. A store is opened at most once at a time; the others need one. -/
def step (fuel : Nat) (p : AuditProcess) (operation : AuditOperation) : Option AuditProcess :=
  match p.store, operation with
  | none, .openStore limits generation now later faults =>
    (p.disk.openDeques limits generation now later faults fuel).map fun done =>
      ⟨done.1, done.2.toOption.map fun opened => (limits, opened.1)⟩
  | some _, .drop => some ⟨p.disk, none⟩
  | some (limits, state), .allocateRequestId fault =>
    let done := state.allocateRequestId p.disk fault
    some ⟨done.1, some (limits, done.2.1)⟩
  | some (limits, state), .allocateEventIdentity fault =>
    let done := state.allocateEventIdentity p.disk fault
    some ⟨done.1, some (limits, done.2.1)⟩
  | some (limits, state), .append event now later faults =>
    (state.append limits p.disk event now later faults fuel).map fun done => ⟨done.1, some (limits, done.2.1)⟩
  | some (limits, state), .tryRecover now later faults =>
    (state.tryRecover limits p.disk now later faults fuel).map fun done => ⟨done.1, some (limits, done.2.1)⟩
  | _, .crash file log => some (if p.disk.Survives file then ⟨⟨file, file, [], log⟩, none⟩ else p)
  | _, _ => some p

/-- Some operation was run to its end. -/
def Step (p p' : AuditProcess) : Prop := ∃ operation fuel, p.step fuel operation = some p'

/-- Some operation without faults was run to its end. -/
def CleanStep (p p' : AuditProcess) : Prop := ∃ operation fuel, operation.FaultFree ∧ p.step fuel operation = some p'

end AuditProcess
end Store
