import Grm.Service.AuditIdentity

/-!
# In-process recovery and reopening

`try_recover` and `open_with_instrumentation` validate the same files separately. Both
accept the same files, and take over the same records from them. The one check that only
`try_recover` makes, of the accepted marks in the metadata, follows from the other
checks, because the largest identifier of a scan starts at the accepted mark.
-/

open Relation

set_option autoImplicit false

section Recovery
variable [AuditExternals]

/-! ## The scan -/

namespace RecoveryScan

variable {maxBytes : Nat} {now : SystemTime} {scan scan' : RecoveryScan}

/-- What one record of an accepted log does to the scan. -/
theorem record_ok {entry : SecurityAuditEvent × Nat} (done : scan.record maxBytes now entry = .ok scan') :
    validateEventForRecovery entry.1 entry.2 maxBytes now = .ok (decide (now < entry.1.timestamp)) ∧
      scan.previousEvent < entry.1.eventId ∧ scan.previousSequence < entry.1.serviceSequence ∧
      scan.retainedBytes + entry.2 ≤ u64Max ∧
      scan' = {
        records := scan.records ++ [entry]
        retainedBytes := scan.retainedBytes + entry.2
        previousEvent := entry.1.eventId
        previousSequence := entry.1.serviceSequence
        maxEvent := max scan.maxEvent entry.1.eventId
        maxRequest := max scan.maxRequest entry.1.requestId
        maxSequence := max scan.maxSequence entry.1.serviceSequence
        futureDatedRecords :=
          if now < entry.1.timestamp then min (scan.futureDatedRecords + 1) u64Max else scan.futureDatedRecords } := by
  unfold record at done
  cases valid : validateEventForRecovery entry.1 entry.2 maxBytes now with
  | error error => rw [valid] at done; cases done
  | ok future =>
    have dated : future = decide (now < entry.1.timestamp) := by
      unfold validateEventForRecovery at valid
      split at valid
      · cases valid
      · exact (Except.ok.inj valid).symm
    subst dated
    rw [valid] at done
    dsimp only at done
    split at done
    · cases done
    case isFalse increasing =>
      rw [not_or, Nat.not_le, Nat.not_le] at increasing
      cases total : checkedAdd scan.retainedBytes entry.2 with
      | none => rw [total] at done; cases done
      | some sum =>
        obtain ⟨bound, rfl⟩ := checkedAdd_eq_some.1 total
        rw [total] at done
        refine ⟨rfl, increasing.1, increasing.2, bound, ?_⟩
        simpa using (Except.ok.inj done).symm

theorem run_cons_ok {entry : SecurityAuditEvent × Nat} {rest : List (SecurityAuditEvent × Nat)}
    (done : run maxBytes now scan (entry :: rest) = .ok scan') :
    ∃ middle, scan.record maxBytes now entry = .ok middle ∧ run maxBytes now middle rest = .ok scan' := by
  unfold run at done
  cases first : scan.record maxBytes now entry with
  | error error => rw [first] at done; cases done
  | ok middle =>
    rw [first] at done
    exact ⟨middle, rfl, done⟩

/-- A scan that accepts takes over the records as they are, and its largest identifiers do
not fall. -/
theorem run_ok {records : List (SecurityAuditEvent × Nat)} (done : run maxBytes now scan records = .ok scan') :
    scan'.records = scan.records ++ records ∧ scan.maxEvent ≤ scan'.maxEvent ∧ scan.maxRequest ≤ scan'.maxRequest ∧
      scan.maxSequence ≤ scan'.maxSequence := by
  induction records generalizing scan with
  | nil =>
    cases done
    exact ⟨(List.append_nil _).symm, Nat.le_refl _, Nat.le_refl _, Nat.le_refl _⟩
  | cons entry rest ih =>
    obtain ⟨middle, first, later⟩ := run_cons_ok done
    obtain ⟨-, -, -, -, rfl⟩ := record_ok first
    obtain ⟨records, event, request, sequence⟩ := ih later
    refine ⟨?_, ?_, ?_, ?_⟩
    · rw [records, List.append_assoc, List.singleton_append]
    · exact (Nat.le_max_left _ _).trans event
    · exact (Nat.le_max_left _ _).trans request
    · exact (Nat.le_max_left _ _).trans sequence

end RecoveryScan

/-- The parts of a scan of the log. -/
theorem scanLog_ok {limits : AuditLimits} {metadata : StoreMetadata} {log : Option Bytes} {now : SystemTime}
    {scan : RecoveryScan} {torn : Bool} (done : scanLog limits metadata log now = .ok (scan, torn)) :
    ∃ records, readRecords log metadata limits.maxBytes = .ok (records, torn) ∧
      (RecoveryScan.start metadata).run limits.maxBytes now records = .ok scan := by
  unfold scanLog at done
  cases read : readRecords log metadata limits.maxBytes with
  | error error => rw [read] at done; cases done
  | ok found =>
    obtain ⟨records, tornRead⟩ := found
    rw [read] at done
    dsimp only at done
    cases scanned : (RecoveryScan.start metadata).run limits.maxBytes now records with
    | error error => rw [scanned] at done; cases done
    | ok result =>
      rw [scanned] at done
      cases done
      exact ⟨records, rfl, scanned⟩

/-- Without a log there are no records. -/
theorem scanLog_none {limits : AuditLimits} {metadata : StoreMetadata} {now : SystemTime} {scan : RecoveryScan} {torn : Bool}
    (done : scanLog limits metadata none now = .ok (scan, torn)) : scan.records = [] ∧ torn = false := by
  obtain ⟨records, read, scanned⟩ := scanLog_ok done
  unfold readRecords at read
  split at read
  · cases read
  · cases read
    cases scanned
    exact ⟨rfl, rfl⟩

/-! ## The recovered state -/

variable {limits : AuditLimits} {disk : AuditDisk} {metadata : StoreMetadata} {now : SystemTime} {state opened : StoreState}
  {torn : Bool}

/-- What an open that accepts the files has checked. -/
theorem openState_ok (found : openState limits metadata disk.log now = .ok (opened, torn)) :
    ∃ scan, metadata.version = metadataVersion ∧ isGenerationId metadata.storeGenerationId = true ∧
      scanLog limits metadata disk.log now = .ok (scan, torn) ∧ ¬scan.Unreserved metadata ∧ ¬metadata.Exhausted ∧
      opened = {
        metadata
        records := scan.records
        retainedBytes := scan.retainedBytes
        degraded := false
        nextEventId := metadata.reservedEventId + 1
        nextRequestId := metadata.reservedRequestId + 1
        nextServiceSequence := metadata.reservedServiceSequence + 1
        futureDatedRecords := scan.futureDatedRecords } := by
  unfold openState at found
  split at found
  · cases found
  case isFalse version =>
    split at found
    · cases found
    case isFalse generation =>
      cases scanned : scanLog limits metadata disk.log now with
      | error error => rw [scanned] at found; cases found
      | ok result =>
        obtain ⟨scan, tornScan⟩ := result
        rw [scanned] at found
        dsimp only at found
        split at found
        · cases found
        case isFalse reserved =>
          split at found
          · cases found
          case isFalse room =>
            cases found
            exact ⟨scan, Decidable.not_not.1 version, by simpa using generation, rfl, reserved, room, rfl⟩

/-- The state that `try_recover` takes over where an open would take over `opened`. -/
def StoreState.candidate (state opened : StoreState) : StoreState :=
  { opened with
    degraded := true
    nextEventId := max state.nextEventId opened.nextEventId
    nextRequestId := max state.nextRequestId opened.nextRequestId
    nextServiceSequence := max state.nextServiceSequence opened.nextServiceSequence }

/-- Where an open accepts the files, `try_recover` has a candidate. -/
theorem recoverCandidate_of_opened (shown : disk.Shows metadata)
    (same : metadata.storeGenerationId = state.metadata.storeGenerationId)
    (found : openState limits metadata disk.log now = .ok (opened, torn)) :
    ∃ scan, state.recoverCandidate limits disk now .none = .ok (state.candidate opened, torn, scan) := by
  obtain ⟨scan, version, generation, scanned, reserved, room, rfl⟩ := openState_ok found
  obtain ⟨records, -, run⟩ := scanLog_ok scanned
  obtain ⟨-, event, request, sequence⟩ := RecoveryScan.run_ok run
  have inRange : ¬(metadata.version ≠ metadataVersion ∨ metadata.storeGenerationId ≠ state.metadata.storeGenerationId ∨
      isGenerationId metadata.storeGenerationId = false ∨ metadata.reservedEventId < metadata.acceptedEventId ∨
      metadata.reservedRequestId < metadata.acceptedRequestId ∨
      metadata.reservedServiceSequence < metadata.acceptedServiceSequence) := by
    simp only [RecoveryScan.Unreserved, RecoveryScan.start] at reserved event request sequence
    rintro (other | other | digits | marks)
    · exact other version
    · exact other same
    · exact Bool.false_ne_true (digits.symm.trans generation)
    · omega
  refine ⟨scan, ?_⟩
  unfold StoreState.recoverCandidate
  rw [if_neg (by decide), show readMetadata disk.metadata = .ok metadata from shown]
  dsimp only
  rw [if_neg inRange, if_neg room, if_neg (by decide), scanned]
  dsimp only
  rw [if_neg reserved]
  rfl

/-- Where `try_recover` has a candidate, an open accepts the files. -/
theorem opened_of_recoverCandidate {recovered : StoreState} {scan : RecoveryScan}
    (found : state.recoverCandidate limits disk now .none = .ok (recovered, torn, scan)) :
    ∃ metadata, disk.Shows metadata ∧ ∃ opened, openState limits metadata disk.log now = .ok (opened, torn) := by
  unfold StoreState.recoverCandidate at found
  rw [if_neg (by decide)] at found
  cases shown : readMetadata disk.metadata with
  | error error => rw [shown] at found; cases found
  | ok metadata =>
    rw [shown] at found
    dsimp only at found
    split at found
    · cases found
    case isFalse accepted =>
      split at found
      · cases found
      case isFalse room =>
        rw [if_neg (by decide)] at found
        cases scanned : scanLog limits metadata disk.log now with
        | error error => rw [scanned] at found; cases found
        | ok result =>
          obtain ⟨scan, tornScan⟩ := result
          rw [scanned] at found
          dsimp only at found
          split at found
          · cases found
          case isFalse reserved =>
            cases found
            simp only [not_or, ne_eq, Decidable.not_not, Bool.not_eq_false] at accepted
            refine ⟨metadata, shown, ?_⟩
            unfold openState
            rw [if_neg (Decidable.not_not.2 accepted.1), if_neg (by simp [accepted.2.2.1]), scanned]
            dsimp only
            rw [if_neg reserved, if_neg room]
            exact ⟨_, rfl⟩

/-! ## The repair -/

/-- The files are left as they are: nothing was torn off and nothing was dropped. -/
def StoreState.Intact (opened : StoreState) (limits : AuditLimits) (now : SystemTime) (torn : Bool) : Prop :=
  (torn || opened.records.length != (opened.pruneRetention limits now).records.length ||
    opened.retainedBytes != (opened.pruneRetention limits now).retainedBytes) = false

/-- A repair succeeds where the retained records can be written again, or need not be. -/
def StoreState.Repairable (opened : StoreState) (limits : AuditLimits) (now : SystemTime) (torn : Bool) : Prop :=
  opened.Intact limits now torn ∨
    (encodeRecords opened.metadata.storeGenerationId ((opened.pruneRetention limits now).records.map Prod.fst)).isSome

theorem compact_none_ok (disk : AuditDisk) (metadata : StoreMetadata) (events : List SecurityAuditEvent) :
    (disk.compact metadata events none).2 = .ok () ↔ (encodeRecords metadata.storeGenerationId events).isSome := by
  unfold AuditDisk.compact
  cases encodeRecords metadata.storeGenerationId events with
  | none => simp
  | some bytes => simp

/-- An open of files that it accepts succeeds where the repair does, with the retained
records. -/
theorem openFiles_of_opened (found : openState limits metadata disk.log now = .ok (opened, torn))
    {mode : SecurityAuditStoreOpenState} {disk' : AuditDisk}
    {result : Except SecurityAuditStoreOpenError (StoreState × SecurityAuditStoreRecovery)}
    (done : disk.openFiles limits metadata mode now .none = (disk', result)) :
    (opened.Repairable limits now torn → ∃ recovery, result = .ok (opened.pruneRetention limits now, recovery)) ∧
      (¬opened.Repairable limits now torn → ∃ error, result = .error error) := by
  have written := compact_none_ok disk opened.metadata ((opened.pruneRetention limits now).records.map Prod.fst)
  unfold AuditDisk.openFiles at done
  rw [if_neg (by decide), found] at done
  dsimp only at done
  split at done
  case isTrue changed =>
    have repairs : opened.Repairable limits now torn ↔ (encodeRecords opened.metadata.storeGenerationId
        ((opened.pruneRetention limits now).records.map Prod.fst)).isSome :=
      or_iff_right fun intact => Bool.false_ne_true (intact.symm.trans changed)
    rw [← written] at repairs
    rw [show OpenFaults.none.compaction = none from rfl,
      show (opened.pruneRetention limits now).metadata = opened.metadata from rfl] at done
    cases compacted : disk.compact opened.metadata ((opened.pruneRetention limits now).records.map Prod.fst) none with
    | mk after outcome =>
      rw [compacted] at done repairs
      cases outcome with
      | error error =>
        cases done
        exact ⟨fun repairable => (by cases repairs.1 repairable), fun _ => ⟨_, rfl⟩⟩
      | ok u =>
        cases done
        exact ⟨fun _ => ⟨_, rfl⟩, fun stuck => absurd (repairs.2 rfl) stuck⟩
  case isFalse intact =>
    cases done
    exact ⟨fun _ => ⟨_, rfl⟩, fun stuck => absurd (.inl (Bool.eq_false_iff.2 intact)) stuck⟩

/-- The repair that `try_recover` makes of files that an open accepts. -/
theorem repairLog_of_opened (found : openState limits metadata disk.log now = .ok (opened, torn))
    (state : StoreState) :
    (disk.repairLog ((state.candidate opened).pruneRetention limits now)
        (torn || opened.records.length != (opened.pruneRetention limits now).records.length ||
          opened.retainedBytes != (opened.pruneRetention limits now).retainedBytes) .none).2 = .ok () ↔
      opened.Repairable limits now torn := by
  unfold AuditDisk.repairLog
  split
  case isTrue changed =>
    refine (compact_none_ok disk _ _).trans (or_iff_right fun intact => ?_).symm
    exact Bool.false_ne_true (intact.symm.trans changed)
  case isFalse intact =>
    refine iff_of_true ?_ (.inl (Bool.eq_false_iff.2 intact))
    obtain ⟨scan, -, -, scanned, -, -, rfl⟩ := openState_ok found
    cases log : disk.log with
    | some bytes => rfl
    | none =>
      rw [log] at scanned
      have nothing : scan.records = [] := (scanLog_none scanned).1
      simp [StoreState.candidate, StoreState.pruneRetention, nothing, pruneLoop]

/-- `try_recover` of files that an open accepts. -/
theorem tryRecover_of_opened (lawful : AuditExternals.Lawful) (shown : disk.Shows metadata)
    (same : metadata.storeGenerationId = state.metadata.storeGenerationId)
    (found : openState limits metadata disk.log now = .ok (opened, torn)) {disk' : AuditDisk} {state' : StoreState}
    {result : Except SecurityAuditSinkError SecurityAuditSinkHealth}
    (done : state.tryRecover limits disk now .none = (disk', state', result)) :
    (opened.Repairable limits now torn → result = .ok .healthy ∧ ∃ event request sequence, state' =
        { (state.candidate opened).pruneRetention limits now with
          degraded := false
          metadata := { opened.metadata with
            acceptedEventId := event, acceptedRequestId := request, acceptedServiceSequence := sequence } }) ∧
      (¬opened.Repairable limits now torn → ∃ error, result = .error error) := by
  obtain ⟨scan, candidate⟩ := recoverCandidate_of_opened shown same found
  have repairs := repairLog_of_opened found state
  unfold StoreState.tryRecover at done
  rw [candidate] at done
  dsimp only at done
  rw [show (state.candidate opened).records = opened.records from rfl,
    show (state.candidate opened).retainedBytes = opened.retainedBytes from rfl,
    show ((state.candidate opened).pruneRetention limits now).records = (opened.pruneRetention limits now).records from rfl,
    show ((state.candidate opened).pruneRetention limits now).retainedBytes =
      (opened.pruneRetention limits now).retainedBytes from rfl] at done
  cases repaired : disk.repairLog ((state.candidate opened).pruneRetention limits now)
      (torn || opened.records.length != (opened.pruneRetention limits now).records.length ||
        opened.retainedBytes != (opened.pruneRetention limits now).retainedBytes) .none with
  | mk middle outcome =>
    rw [repaired] at done repairs
    cases outcome with
    | error error =>
      cases done
      exact ⟨fun repairable => (by cases repairs.2 repairable), fun _ => ⟨_, rfl⟩⟩
    | ok u =>
      refine ⟨fun _ => ?_, fun stuck => absurd (repairs.1 rfl) stuck⟩
      have writes : ∀ m, ∃ last, middle.replaceMetadata m none = (last, true) := by
        intro m
        obtain ⟨bytes, encoded⟩ := lawful.writable m
        unfold AuditDisk.replaceMetadata
        rw [encoded]
        exact ⟨_, rfl⟩
      dsimp only at done
      obtain ⟨last, replaced⟩ := writes
        { ((state.candidate opened).pruneRetention limits now).metadata with
          acceptedEventId := scan.maxEvent, acceptedRequestId := scan.maxRequest, acceptedServiceSequence := scan.maxSequence }
      rw [show RecoverFaults.none.metadata = none from rfl, replaced] at done
      dsimp only at done
      rw [if_neg (by decide)] at done
      cases done
      exact ⟨rfl, scan.maxEvent, scan.maxRequest, scan.maxSequence, rfl⟩

/-- At the same clock, `try_recover` succeeds exactly when an open of the same files with
the same limits does; both then have the same records, retained bytes and future-dated
count, and also the same next identifiers where the files are those of the store's own
run. A `try_recover` that fails only marks the store degraded. -/
theorem recovery_agrees_with_reopening (lawful : AuditExternals.Lawful) (valid : limits.Valid)
    (file : disk.metadata.isSome)
    (same : ∀ m, disk.Shows m → m.storeGenerationId = state.metadata.storeGenerationId) (generation : Option String)
    {disk₁ disk₂ : AuditDisk} {state₁ : StoreState} {result₁ : Except SecurityAuditSinkError SecurityAuditSinkHealth}
    {result₂ : Except SecurityAuditStoreOpenError (StoreState × SecurityAuditStoreRecovery)}
    (recovered : state.tryRecover limits disk now .none = (disk₁, state₁, result₁))
    (reopened : disk.openWithInstrumentation limits generation now .none = (disk₂, result₂)) :
    ((∃ health, result₁ = .ok health) ↔ ∃ store, result₂ = .ok store) ∧
      (∀ health store recovery, result₁ = .ok health → result₂ = .ok (store, recovery) →
        state₁.records = store.records ∧ state₁.retainedBytes = store.retainedBytes ∧
        state₁.futureDatedRecords = store.futureDatedRecords ∧
        ∀ log issued, ReflTransGen AuditWorld.Step (.new log) ⟨disk, some state, issued⟩ →
          state₁.nextEventId = store.nextEventId ∧ state₁.nextRequestId = store.nextRequestId ∧
          state₁.nextServiceSequence = store.nextServiceSequence) ∧
      ∀ error, result₁ = .error error → state₁ = { state with degraded := true } := by
  have failed : ∀ error, result₁ = .error error → state₁ = { state with degraded := true } := by
    rintro error rfl
    exact (StoreState.tryRecover_refused lawful recovered).1
  have bothFail : (∃ error, result₁ = .error error) → (∃ error, result₂ = .error error) →
      ((∃ health, result₁ = .ok health) ↔ ∃ store, result₂ = .ok store) ∧
      (∀ health store recovery, result₁ = .ok health → result₂ = .ok (store, recovery) →
        state₁.records = store.records ∧ state₁.retainedBytes = store.retainedBytes ∧
        state₁.futureDatedRecords = store.futureDatedRecords ∧
        ∀ log issued, ReflTransGen AuditWorld.Step (.new log) ⟨disk, some state, issued⟩ →
          state₁.nextEventId = store.nextEventId ∧ state₁.nextRequestId = store.nextRequestId ∧
          state₁.nextServiceSequence = store.nextServiceSequence) := by
    rintro ⟨error, rfl⟩ ⟨other, rfl⟩
    exact ⟨by simp, fun _ _ _ ok => by cases ok⟩
  refine and_assoc.1 ⟨?_, failed⟩
  cases shown : readMetadata disk.metadata with
  | error error =>
    -- neither gets past the metadata
    refine bothFail ?_ ?_
    · unfold StoreState.tryRecover StoreState.recoverCandidate at recovered
      rw [if_neg (by decide), shown] at recovered
      cases recovered
      exact ⟨_, rfl⟩
    · obtain ⟨bytes, there⟩ := Option.isSome_iff_exists.1 file
      unfold AuditDisk.openWithInstrumentation at reopened
      rw [if_neg (by simp [valid.events, valid.bytes, valid.age]), if_neg (by decide), there] at reopened
      dsimp only at reopened
      rw [if_neg (by decide), ← there, shown] at reopened
      cases reopened
      exact ⟨_, rfl⟩
  | ok metadata =>
    have own := same metadata shown
    rw [AuditDisk.openWithInstrumentation_reopened valid shown] at reopened
    cases found : openState limits metadata disk.log now with
    | error error =>
      refine bothFail ?_ ?_
      · cases outcome : result₁ with
        | error error => exact ⟨error, rfl⟩
        | ok health =>
          unfold StoreState.tryRecover at recovered
          cases candidate : state.recoverCandidate limits disk now .none with
          | error error =>
            rw [candidate] at recovered
            cases recovered
            cases outcome
          | ok result =>
            obtain ⟨after, torn, scan⟩ := result
            obtain ⟨m, visible, opened, accepted⟩ := opened_of_recoverCandidate candidate
            cases Except.ok.inj (shown.symm.trans visible)
            rw [found] at accepted
            cases accepted
      · unfold AuditDisk.openFiles at reopened
        rw [if_neg (by decide), found] at reopened
        cases reopened
        exact ⟨_, rfl⟩
    | ok result =>
      obtain ⟨opened, torn⟩ := result
      obtain ⟨recovers, stuck⟩ := tryRecover_of_opened lawful shown own found recovered
      obtain ⟨opens, unopened⟩ := openFiles_of_opened found reopened
      by_cases repairable : opened.Repairable limits now torn
      · obtain ⟨rfl, event, request, sequence, rfl⟩ := recovers repairable
        obtain ⟨recovery, rfl⟩ := opens repairable
        refine ⟨by simp, fun health store other _ taken => ?_⟩
        cases taken
        refine ⟨rfl, rfl, rfl, fun log issued run => ?_⟩
        have sound := (AuditWorld.sound_new log).run lawful run
        obtain ⟨-, nextEvent, nextRequest, nextSequence⟩ := openState_metadata found
        have eventShown := sound.event.shown state rfl metadata shown own
        have requestShown := sound.request.shown state rfl metadata shown own
        have sequenceShown := sound.sequence.shown state rfl metadata shown own
        refine ⟨Nat.max_eq_right ?_, Nat.max_eq_right ?_, Nat.max_eq_right ?_⟩
        · rw [nextEvent]
          exact eventShown
        · rw [nextRequest]
          exact requestShown
        · rw [nextSequence]
          exact sequenceShown
      · exact bothFail (stuck repairable) (unopened repairable)

end Recovery

/-! ## A log with a torn last record -/

/-- The first event of a request, as `audit_append` makes it. -/
def attemptEvent (id request : Nat) : SecurityAuditEvent where
  schemaVersion := 1
  eventId := id
  requestId := request
  serviceSequence := id
  timestamp := 0
  serviceIdentity := "grm"
  mode := .mandatory
  stage := .attempt
  transportPeer := ⟨true, false⟩
  authenticatedPrincipal := none
  assertedActor := none
  workspace := none
  operations := []
  policyVersion := none
  decision := .notApplicable
  reason := .requestReceived
  runtimeOutcome := .notReached
  durabilityOutcome := .notApplicable
  deliveryOutcome := .notReached

def attemptRecord (id request : Nat) : PersistedAuditRecord := ⟨recordVersion, zeros, attemptEvent id request⟩

/-- That record as `serde_json` writes it. -/
def attemptText (id request : String) : Bytes :=
  ("\x7b\"version\":1,\"store_generation_id\":\"" ++ zeros ++ "\",\"event\":\x7b\"schema_version\":1,\"event_id\":" ++ id ++
    ",\"request_id\":" ++ request ++ ",\"service_sequence\":" ++ id ++
    ",\"timestamp\":\x7b\"secs_since_epoch\":0,\"nanos_since_epoch\":0\x7d,\"service_identity\":\"grm\"," ++
    "\"mode\":\"Mandatory\",\"stage\":\"Attempt\",\"transport_peer\":\x7b\"remote_address_present\":true," ++
    "\"client_certificate_present\":false\x7d,\"authenticated_principal\":null,\"asserted_actor\":null," ++
    "\"workspace\":null,\"operations\":[],\"policy_version\":null,\"decision\":\"NotApplicable\"," ++
    "\"reason\":\"RequestReceived\",\"runtime_outcome\":\"NotReached\",\"durability_outcome\":\"NotApplicable\"," ++
    "\"delivery_outcome\":\"NotReached\"\x7d\x7d").toUTF8.data.toList

def attemptRecords : List (PersistedAuditRecord × Bytes) :=
  [(attemptRecord 1 1, attemptText "1" "1"), (attemptRecord 2 2, attemptText "2" "2")]

/-- Metadata of the generation: what is reserved, and the same mark for all that is accepted. -/
def attemptMetadata (event request accepted : Nat) : StoreMetadata :=
  ⟨metadataVersion, zeros, event, request, event, accepted, accepted, accepted⟩

/-- That metadata as `serde_json` writes it. -/
def attemptMetadataText (event request accepted : String) : Bytes :=
  ("\x7b\"version\":1,\"store_generation_id\":\"" ++ zeros ++ "\",\"reserved_event_id\":" ++ event ++
    ",\"reserved_request_id\":" ++ request ++ ",\"reserved_service_sequence\":" ++ event ++
    ",\"accepted_event_id\":" ++ accepted ++ ",\"accepted_request_id\":" ++ accepted ++
    ",\"accepted_service_sequence\":" ++ accepted ++ "\x7d").toUTF8.data.toList

def attemptTable : List (StoreMetadata × Bytes) :=
  [(attemptMetadata 0 0 0, attemptMetadataText "0" "0" "0"), (attemptMetadata 0 64 0, attemptMetadataText "0" "64" "0"),
    (attemptMetadata 64 64 0, attemptMetadataText "64" "64" "0"), (attemptMetadata 64 64 1, attemptMetadataText "64" "64" "1"),
    (attemptMetadata 64 64 2, attemptMetadataText "64" "64" "2")]

/-- The codecs on the two records and on the metadata. -/
@[reducible] noncomputable def attemptCodecs : AuditExternals := .listed attemptRecords attemptTable

theorem attemptCodecs_lawful : @AuditExternals.Lawful attemptCodecs :=
  AuditExternals.listed_lawful (by decide +kernel) (by decide +kernel) (by decide +kernel) (by decide +kernel)
    (by decide +kernel) (by decide +kernel)

/-- The store after the append of the first event, and then a write that left one byte. -/
def tornState : StoreState where
  metadata := attemptMetadata 64 64 1
  records := [(attemptEvent 1 1, (attemptText "1" "1").length + 1)]
  retainedBytes := (attemptText "1" "1").length + 1
  degraded := true
  nextEventId := 3
  nextRequestId := 3
  nextServiceSequence := 3
  futureDatedRecords := 0

/-- What an open takes over from its files. -/
def reopenedState : StoreState :=
  { tornState with degraded := false, nextEventId := 65, nextRequestId := 65, nextServiceSequence := 65 }

noncomputable def tornDisk : AuditDisk where
  metadata := some (metadataText attemptTable (attemptMetadata 64 64 1) ++ [newline])
  durable := some (metadataText attemptTable (attemptMetadata 64 64 1) ++ [newline])
  renamed := []
  log := some (attemptText "1" "1" ++ [newline, 123])

theorem torn_log_recovered :
    letI := attemptCodecs
    ∃ disk₁ state₁ disk₂ store recovery, tornState.tryRecover zerosLimits tornDisk 0 .none = (disk₁, state₁, .ok .healthy) ∧
      tornDisk.openWithInstrumentation zerosLimits none 0 .none = (disk₂, .ok (store, recovery)) ∧
      state₁.records = store.records := by
  let := attemptCodecs
  have shown : readMetadata tornDisk.metadata = .ok (attemptMetadata 64 64 1) :=
    readMetadata_some.2 ((metadataOfText_eq_some (by decide +kernel) (by decide +kernel)).2 rfl)
  have found : openState zerosLimits (attemptMetadata 64 64 1) tornDisk.log 0 = .ok (reopenedState, true) := by decide +kernel
  have repairable : reopenedState.Repairable zerosLimits 0 true := by
    refine .inr ?_
    have kept : (reopenedState.pruneRetention zerosLimits 0).records.map Prod.fst = [attemptEvent 1 1] := by decide +kernel
    have encoded : AuditExternals.recordToVec ⟨recordVersion, reopenedState.metadata.storeGenerationId, attemptEvent 1 1⟩ =
        some (attemptText "1" "1") := encodeListed_head _ _ _
    rw [kept, encodeRecords, encoded]
    rfl
  obtain ⟨disk₁, state₁, result₁, recovered⟩ :
      ∃ disk₁ state₁ result₁, tornState.tryRecover zerosLimits tornDisk 0 .none = (disk₁, state₁, result₁) := ⟨_, _, _, rfl⟩
  obtain ⟨disk₂, result₂, reopened⟩ :
      ∃ disk₂ result₂, tornDisk.openWithInstrumentation zerosLimits none 0 .none = (disk₂, result₂) := ⟨_, _, rfl⟩
  have valid : zerosLimits.Valid := ⟨by decide, by decide, by decide⟩
  have agree := recovery_agrees_with_reopening attemptCodecs_lawful valid rfl
    (fun m visible => congrArg StoreMetadata.storeGenerationId (Except.ok.inj (visible.symm.trans shown))) none recovered reopened
  have opens := AuditDisk.openWithInstrumentation_reopened valid shown none 0
  obtain ⟨rfl, -⟩ := (tryRecover_of_opened attemptCodecs_lawful shown rfl found recovered).1 repairable
  obtain ⟨recovery, rfl⟩ := (openFiles_of_opened found (opens.symm.trans reopened)).1 repairable
  exact ⟨_, _, _, _, _, recovered, reopened, (agree.2.1 _ _ _ rfl rfl).1⟩
