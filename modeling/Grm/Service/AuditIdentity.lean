import Mathlib.Logic.Relation
import Grm.Service.AuditStore

/-!
# Audit identifiers are never reused

Identifiers come from ranges that the metadata file reserves before they are given out.
What carries the runs, for each counter: every metadata file that a crash can leave
reserves all that was given out, and while the range in memory is not used up, each such
file reserves that range too.
-/

open Relation

set_option autoImplicit false

/-! ## What a run gives out -/

/-- Identifiers given out under a store generation. -/
inductive Issued where
  | request (generation : String) (id : Nat)
  | event (generation : String) (id sequence : Nat)
  deriving DecidableEq, Repr

namespace Issued

def generation : Issued → String
  | request generation _ => generation
  | event generation _ _ => generation

end Issued

/-- The request ids given out in a generation, in order. -/
def requestIds (generation : String) (issued : List Issued) : List Nat :=
  issued.filterMap fun
    | .request g id => if g = generation then some id else none
    | .event .. => none

/-- The event ids given out in a generation, in order. -/
def eventIds (generation : String) (issued : List Issued) : List Nat :=
  issued.filterMap fun
    | .request .. => none
    | .event g id _ => if g = generation then some id else none

/-- The service sequences given out in a generation, in order. -/
def serviceSequences (generation : String) (issued : List Issued) : List Nat :=
  issued.filterMap fun
    | .request .. => none
    | .event g _ sequence => if g = generation then some sequence else none

/-- The files, the store if it is open, and all that was given out. -/
structure AuditWorld where
  disk : AuditDisk
  store : Option StoreState
  issued : List Issued

section Runs
variable [AuditExternals]

/-- One step: an open, a drop, an operation of the store, or a crash that leaves one of the
surviving metadata files and any log. Every file operation can fail, and an operation
cut off by a crash is one that fails there, then the crash. The random generation of a
new store is one that nothing was given out in. -/
inductive AuditWorld.Step : AuditWorld → AuditWorld → Prop where
  | openStore {disk : AuditDisk} {issued : List Issued} (limits : AuditLimits) (generation : Option String) (now : SystemTime) (faults : OpenFaults)
      (fresh : ∀ g, generation = some g → ∀ i ∈ issued, i.generation ≠ g) {disk' : AuditDisk}
      {result : Except SecurityAuditStoreOpenError (StoreState × SecurityAuditStoreRecovery)}
      (done : disk.openWithInstrumentation limits generation now faults = (disk', result)) :
      Step ⟨disk, none, issued⟩ ⟨disk', result.toOption.map Prod.fst, issued⟩
  | drop {disk : AuditDisk} {state : StoreState} {issued : List Issued} :
      Step ⟨disk, some state, issued⟩ ⟨disk, none, issued⟩
  | allocateRequestId {disk : AuditDisk} {state : StoreState} {issued : List Issued} (fault : Option ReplaceFault)
      {disk' : AuditDisk} {state' : StoreState} {result : Except SecurityAuditSinkError Nat}
      (done : state.allocateRequestId disk fault = (disk', state', result)) :
      Step ⟨disk, some state, issued⟩ ⟨disk', some state',
        issued ++ (result.toOption.map (Issued.request state.metadata.storeGenerationId)).toList⟩
  | allocateEventIdentity {disk : AuditDisk} {state : StoreState} {issued : List Issued} (fault : Option ReplaceFault)
      {disk' : AuditDisk} {state' : StoreState} {result : Except SecurityAuditSinkError (Nat × Nat)}
      (done : state.allocateEventIdentity disk fault = (disk', state', result)) :
      Step ⟨disk, some state, issued⟩ ⟨disk', some state',
        issued ++ (result.toOption.map fun i => Issued.event state.metadata.storeGenerationId i.1 i.2).toList⟩
  | append {disk : AuditDisk} {state : StoreState} {issued : List Issued} (limits : AuditLimits) (event : SecurityAuditEvent)
      (now later : SystemTime) (faults : AppendFaults) {disk' : AuditDisk} {state' : StoreState}
      {result : Except SecurityAuditSinkError Unit} (done : state.append limits disk event now later faults = (disk', state', result)) :
      Step ⟨disk, some state, issued⟩ ⟨disk', some state', issued⟩
  | tryRecover {disk : AuditDisk} {state : StoreState} {issued : List Issued} (limits : AuditLimits) (now : SystemTime) (faults : RecoverFaults)
      {disk' : AuditDisk} {state' : StoreState} {result : Except SecurityAuditSinkError SecurityAuditSinkHealth}
      (done : state.tryRecover limits disk now faults = (disk', state', result)) :
      Step ⟨disk, some state, issued⟩ ⟨disk', some state', issued⟩
  | crash {disk : AuditDisk} {store : Option StoreState} {issued : List Issued} {file : Option Bytes} (log : Option Bytes)
      (survives : disk.Survives file) : Step ⟨disk, store, issued⟩ ⟨⟨file, file, [], log⟩, none, issued⟩

/-! ## The metadata on disk -/

namespace AuditDisk

/-- The metadata file reads as `m`. -/
def Shows (disk : AuditDisk) (m : StoreMetadata) : Prop := readMetadata disk.metadata = .ok m

/-- Some metadata file that is there, or that a crash can leave, reads as `m`. -/
def Holds (disk : AuditDisk) (m : StoreMetadata) : Prop :=
  disk.Shows m ∨ ∃ file, disk.Survives file ∧ readMetadata file = .ok m

/-- Every metadata file of the one disk is a file of the other or reads as listed. -/
structure Within (disk' disk : AuditDisk) (written : StoreMetadata → Prop) : Prop where
  holds : ∀ m, disk'.Holds m → written m ∨ disk.Holds m
  shows : ∀ m, disk'.Shows m → written m ∨ disk.Shows m

theorem Within.refl (disk : AuditDisk) (written : StoreMetadata → Prop) : disk.Within disk written :=
  ⟨fun _ => .inr, fun _ => .inr⟩

theorem Within.trans {a b c : AuditDisk} {written : StoreMetadata → Prop} (first : b.Within a written)
    (second : c.Within b written) : c.Within a written :=
  ⟨fun m h => (second.holds m h).elim .inl (first.holds m), fun m h => (second.shows m h).elim .inl (first.shows m)⟩

theorem Within.mono {a b : AuditDisk} {written more : StoreMetadata → Prop} (within : b.Within a written)
    (weaker : ∀ m, written m → more m) : b.Within a more :=
  ⟨fun m h => (within.holds m h).imp_left (weaker m), fun m h => (within.shows m h).imp_left (weaker m)⟩

theorem holds_of_shows {disk : AuditDisk} {m : StoreMetadata} (shown : disk.Shows m) : disk.Holds m := .inl shown

/-- A directory sync leaves only the visible file. -/
theorem holds_syncDir {disk : AuditDisk} {m : StoreMetadata} : disk.syncDir.Holds m ↔ disk.Shows m := by
  constructor
  · rintro (shown | ⟨file, rfl | ⟨bytes, renamed, -⟩, read⟩)
    · exact shown
    · exact read
    · cases renamed
  · exact .inl

theorem within_syncDir (disk : AuditDisk) (written : StoreMetadata → Prop) : disk.syncDir.Within disk written :=
  ⟨fun _ h => .inr (.inl (holds_syncDir.1 h)), fun _ h => .inr h⟩

theorem within_log (disk : AuditDisk) (log : Option Bytes) (written : StoreMetadata → Prop) :
    { disk with log }.Within disk written :=
  ⟨fun _ => .inr, fun _ => .inr⟩

theorem within_rename (disk : AuditDisk) (bytes : Bytes) :
    (disk.rename bytes).Within disk fun m => readMetadata (some bytes) = .ok m := by
  refine ⟨fun m h => ?_, fun m h => .inl h⟩
  rcases h with shown | ⟨file, rfl | ⟨other, renamed, rfl⟩, read⟩
  · exact .inl shown
  · exact .inr (.inr ⟨_, .inl rfl, read⟩)
  · rcases List.mem_cons.1 renamed with rfl | earlier
    · exact .inl read
    · exact .inr (.inr ⟨_, .inr ⟨other, earlier, rfl⟩, read⟩)

theorem readMetadata_written (lawful : AuditExternals.Lawful) {m read : StoreMetadata} {bytes : Bytes}
    (encoded : AuditExternals.metadataToVec m = some bytes) (found : readMetadata (some (bytes ++ [newline])) = .ok read) :
    read = m := by
  rw [readMetadata_some, lawful.metadata m bytes encoded] at found
  exact (Option.some.inj found).symm

/-- What `replace_metadata` leaves: the files there were, and the new one. -/
theorem replaceMetadata_within (lawful : AuditExternals.Lawful) (disk : AuditDisk) (metadata : StoreMetadata)
    (fault : Option ReplaceFault) : (disk.replaceMetadata metadata fault).1.Within disk (· = metadata) := by
  unfold replaceMetadata
  cases encoded : AuditExternals.metadataToVec metadata with
  | none => exact .refl disk _
  | some bytes =>
    have renamed : (disk.rename (bytes ++ [newline])).Within disk (· = metadata) :=
      (within_rename disk _).mono fun m read => readMetadata_written lawful encoded read
    cases fault with
    | none => exact renamed.trans (within_syncDir _ _)
    | some f =>
      cases f with
      | directorySync => exact renamed
      | _ => exact .refl disk _

/-- After a `replace_metadata` that succeeds there is only the new file. -/
theorem replaceMetadata_ok (lawful : AuditExternals.Lawful) {disk disk' : AuditDisk} {metadata : StoreMetadata}
    {fault : Option ReplaceFault} (done : disk.replaceMetadata metadata fault = (disk', true)) {m : StoreMetadata}
    (held : disk'.Holds m) : m = metadata := by
  unfold replaceMetadata at done
  cases encoded : AuditExternals.metadataToVec metadata with
  | none => rw [encoded] at done; cases done
  | some bytes =>
    rw [encoded] at done
    cases fault with
    | none =>
      cases done
      exact readMetadata_written lawful encoded (holds_syncDir.1 held)
    | some f => cases f <;> cases done

theorem compact_within (disk : AuditDisk) (metadata : StoreMetadata) (events : List SecurityAuditEvent)
    (fault : Option CompactFault) (written : StoreMetadata → Prop) : (disk.compact metadata events fault).1.Within disk written := by
  unfold compact
  cases encodeRecords metadata.storeGenerationId events with
  | none => exact .refl disk _
  | some bytes =>
    cases fault with
    | none => exact (within_log disk (some bytes) written).trans (within_syncDir _ _)
    | some f =>
      cases f with
      | directorySync => exact within_log disk (some bytes) written
      | _ => exact .refl disk _

theorem appendAndSync_within (disk : AuditDisk) (line : Bytes) (fault : Option LogFault) (written : StoreMetadata → Prop) :
    (disk.appendAndSync line fault).1.Within disk written := by
  unfold appendAndSync
  cases fault with
  | none => exact within_log disk _ written
  | some f => cases f <;> first | exact .refl disk _ | exact within_log disk _ written

theorem acceptLine_within (disk : AuditDisk) (line : Bytes) (faults : AppendFaults) (written : StoreMetadata → Prop) :
    (disk.acceptLine line faults).1.Within disk written := by
  have appended := appendAndSync_within disk line faults.log written
  unfold acceptLine
  cases result : disk.appendAndSync line faults.log with
  | mk after ok =>
    rw [result] at appended
    cases ok with
    | false => exact appended
    | true =>
      dsimp only
      split
      · exact appended
      · split
        · exact appended
        · exact appended.trans (within_syncDir _ _)

end AuditDisk

/-! ## What each operation does to the reservations -/

/-- Metadata of one generation with the same reservations. -/
structure StoreMetadata.SameReservations (a b : StoreMetadata) : Prop where
  generation : a.storeGenerationId = b.storeGenerationId
  event : a.reservedEventId = b.reservedEventId
  request : a.reservedRequestId = b.reservedRequestId
  sequence : a.reservedServiceSequence = b.reservedServiceSequence

/-- States with the same reservations and the same next identifiers. -/
structure StoreState.SameRanges (a b : StoreState) : Prop where
  metadata : a.metadata.SameReservations b.metadata
  event : a.nextEventId = b.nextEventId
  request : a.nextRequestId = b.nextRequestId
  sequence : a.nextServiceSequence = b.nextServiceSequence

omit [AuditExternals] in
theorem StoreMetadata.SameReservations.refl (m : StoreMetadata) : m.SameReservations m := ⟨rfl, rfl, rfl, rfl⟩

omit [AuditExternals] in
theorem StoreState.SameRanges.refl (state : StoreState) : state.SameRanges state := ⟨.refl _, rfl, rfl, rfl⟩

theorem AuditDisk.compactPruned_within (disk : AuditDisk) (accepted pruned : StoreState) (fault : Option CompactFault)
    (written : StoreMetadata → Prop) : (disk.compactPruned accepted pruned fault).1.Within disk written := by
  unfold compactPruned
  split
  · exact compact_within disk _ _ fault written
  · exact .refl disk _

theorem StoreState.afterAccept_ranges (lawful : AuditExternals.Lawful) {accepted state' : StoreState} {limits : AuditLimits}
    {disk disk' : AuditDisk} {later : SystemTime} {faults : AppendFaults} {result : Except SecurityAuditSinkError Unit}
    (done : accepted.afterAccept limits disk later faults = (disk', state', result)) :
    disk'.Within disk (· = accepted.metadata) ∧ state'.SameRanges accepted := by
  have first := disk.compactPruned_within accepted (accepted.pruneRetention limits later) faults.compaction (· = accepted.metadata)
  unfold afterAccept at done
  dsimp only at done
  cases compacted : disk.compactPruned accepted (accepted.pruneRetention limits later) faults.compaction with
  | mk middle outcome =>
    rw [compacted] at done first
    cases outcome with
    | error error =>
      cases done
      exact ⟨first, ⟨.refl _, rfl, rfl, rfl⟩⟩
    | ok u =>
      dsimp only at done
      have second := middle.replaceMetadata_within lawful accepted.metadata faults.metadata
      have same : (accepted.pruneRetention limits later).metadata = accepted.metadata := rfl
      rw [same] at done
      cases replaced : middle.replaceMetadata accepted.metadata faults.metadata with
      | mk last ok =>
        rw [replaced] at done second
        cases ok <;> cases done <;> exact ⟨first.trans second, ⟨.refl _, rfl, rfl, rfl⟩⟩

theorem StoreState.append_ranges (lawful : AuditExternals.Lawful) {state state' : StoreState} {limits : AuditLimits}
    {disk disk' : AuditDisk} {event : SecurityAuditEvent} {now later : SystemTime} {faults : AppendFaults}
    {result : Except SecurityAuditSinkError Unit}
    (done : state.append limits disk event now later faults = (disk', state', result)) :
    (disk'.Within disk fun m => m.SameReservations state.metadata) ∧ state'.SameRanges state := by
  unfold append at done
  split at done
  · cases done
    exact ⟨.refl _ _, .refl _⟩
  · split at done
    · cases done
      exact ⟨.refl _ _, .refl _⟩
    · dsimp only at done
      split at done
      · cases done
        exact ⟨.refl _ _, .refl _⟩
      · split at done
        · cases done
          exact ⟨.refl _ _, ⟨.refl _, rfl, rfl, rfl⟩⟩
        · next bytes _ _ _ =>
          have first := disk.acceptLine_within (bytes ++ [newline]) faults fun m => m.SameReservations state.metadata
          cases written : disk.acceptLine (bytes ++ [newline]) faults with
          | mk middle ok =>
            rw [written] at done first
            cases ok with
            | false =>
              cases done
              exact ⟨first, ⟨.refl _, rfl, rfl, rfl⟩⟩
            | true =>
              obtain ⟨second, ranges⟩ := StoreState.afterAccept_ranges lawful done
              refine ⟨first.trans (second.mono ?_), ⟨⟨?_, ?_, ?_, ?_⟩, ranges.event, ranges.request, ranges.sequence⟩⟩
              · rintro m rfl
                exact ⟨rfl, rfl, rfl, rfl⟩
              · exact ranges.metadata.generation
              · exact ranges.metadata.event
              · exact ranges.metadata.request
              · exact ranges.metadata.sequence

theorem AuditDisk.repairLog_within (disk : AuditDisk) (candidate : StoreState) (compacted : Bool) (faults : RecoverFaults)
    (written : StoreMetadata → Prop) : (disk.repairLog candidate compacted faults).1.Within disk written := by
  unfold repairLog
  split
  · exact compact_within disk _ _ faults.compaction written
  · split <;> exact .refl disk _

/-- What a candidate of `try_recover` takes over: the metadata file, and the counters that
are further on. -/
theorem StoreState.recoverCandidate_metadata {state recovered : StoreState} {limits : AuditLimits} {disk : AuditDisk}
    {now : SystemTime} {faults : RecoverFaults} {torn : Bool} {scan : RecoveryScan}
    (found : state.recoverCandidate limits disk now faults = .ok (recovered, torn, scan)) :
    disk.Shows recovered.metadata ∧ recovered.metadata.storeGenerationId = state.metadata.storeGenerationId ∧
      recovered.nextEventId = max state.nextEventId (recovered.metadata.reservedEventId + 1) ∧
      recovered.nextRequestId = max state.nextRequestId (recovered.metadata.reservedRequestId + 1) ∧
      recovered.nextServiceSequence = max state.nextServiceSequence (recovered.metadata.reservedServiceSequence + 1) := by
  unfold recoverCandidate at found
  split at found
  · cases found
  · split at found
    · cases found
    · next metadata shown =>
      split at found
      · cases found
      · next accepted =>
        split at found
        · cases found
        · split at found
          · cases found
          · split at found
            · cases found
            · split at found
              · cases found
              · cases found
                simp only [not_or, ne_eq, Decidable.not_not] at accepted
                exact ⟨shown, accepted.2.1, rfl, rfl, rfl⟩

/-- A `try_recover` that is refused leaves the state, and at most the metadata that was
there with other accepted marks. -/
theorem StoreState.tryRecover_refused (lawful : AuditExternals.Lawful) {state state' : StoreState} {limits : AuditLimits}
    {disk disk' : AuditDisk} {now : SystemTime} {faults : RecoverFaults} {error : SecurityAuditSinkError}
    (done : state.tryRecover limits disk now faults = (disk', state', .error error)) :
    state' = { state with degraded := true } ∧ disk'.Within disk fun m =>
      ∃ shown, disk.Shows shown ∧ shown.storeGenerationId = state.metadata.storeGenerationId ∧ m.SameReservations shown := by
  unfold tryRecover at done
  dsimp only at done
  split at done
  · cases done
    exact ⟨rfl, .refl _ _⟩
  · next recovered torn scan found =>
    obtain ⟨shown, generation, -⟩ := recoverCandidate_metadata found
    have first := disk.repairLog_within (recovered.pruneRetention limits now)
      (torn || recovered.records.length != (recovered.pruneRetention limits now).records.length ||
        recovered.retainedBytes != (recovered.pruneRetention limits now).retainedBytes) faults fun m =>
      ∃ shown, disk.Shows shown ∧ shown.storeGenerationId = state.metadata.storeGenerationId ∧ m.SameReservations shown
    split at done
    · next repaired =>
      rw [repaired] at first
      cases done
      exact ⟨rfl, first⟩
    · next middle repaired =>
      rw [repaired] at first
      have second := middle.replaceMetadata_within lawful
        { (recovered.pruneRetention limits now).metadata with
          acceptedEventId := scan.maxEvent, acceptedRequestId := scan.maxRequest, acceptedServiceSequence := scan.maxSequence }
        faults.metadata
      have written := first.trans (second.mono fun m same => ⟨recovered.metadata, shown, generation, by
        subst same
        exact ⟨rfl, rfl, rfl, rfl⟩⟩)
      split at done
      · next replaced =>
        rw [replaced] at written
        cases done
        exact ⟨rfl, written⟩
      · next replaced =>
        rw [replaced] at written
        split at done
        · cases done
          exact ⟨rfl, written⟩
        · cases done

/-- A `try_recover` that succeeds takes over the reservations of the metadata file, and
that file is then the only one. -/
theorem StoreState.tryRecover_healthy (lawful : AuditExternals.Lawful) {state state' : StoreState} {limits : AuditLimits}
    {disk disk' : AuditDisk} {now : SystemTime} {faults : RecoverFaults} {health : SecurityAuditSinkHealth}
    (done : state.tryRecover limits disk now faults = (disk', state', .ok health)) :
    ∃ shown, disk.Shows shown ∧ shown.storeGenerationId = state.metadata.storeGenerationId ∧
      state'.metadata.SameReservations shown ∧ (∀ m, disk'.Holds m → m = state'.metadata) ∧
      state'.nextEventId = max state.nextEventId (shown.reservedEventId + 1) ∧
      state'.nextRequestId = max state.nextRequestId (shown.reservedRequestId + 1) ∧
      state'.nextServiceSequence = max state.nextServiceSequence (shown.reservedServiceSequence + 1) := by
  unfold tryRecover at done
  dsimp only at done
  split at done
  · cases done
  · next recovered torn scan found =>
    obtain ⟨shown, generation, counters⟩ := recoverCandidate_metadata found
    split at done
    · cases done
    · next middle repaired =>
      split at done
      · cases done
      · next last replaced =>
        split at done
        · cases done
        · cases done
          refine ⟨recovered.metadata, shown, generation, ⟨rfl, rfl, rfl, rfl⟩, ?_, counters⟩
          intro m held
          exact AuditDisk.replaceMetadata_ok lawful replaced (.inl (AuditDisk.holds_syncDir.1 held))

theorem openState_metadata {limits : AuditLimits} {metadata : StoreMetadata} {log : Option Bytes} {now : SystemTime}
    {state : StoreState} {torn : Bool} (found : openState limits metadata log now = .ok (state, torn)) :
    state.metadata = metadata ∧ state.nextEventId = metadata.reservedEventId + 1 ∧
      state.nextRequestId = metadata.reservedRequestId + 1 ∧
      state.nextServiceSequence = metadata.reservedServiceSequence + 1 := by
  unfold openState at found
  split at found
  · cases found
  · split at found
    · cases found
    · split at found
      · cases found
      · split at found
        · cases found
        · split at found
          · cases found
          · cases found
            exact ⟨rfl, rfl, rfl, rfl⟩

theorem AuditDisk.openFiles_metadata {disk disk' : AuditDisk} {limits : AuditLimits} {metadata : StoreMetadata}
    {found : SecurityAuditStoreOpenState} {now : SystemTime} {faults : OpenFaults}
    {result : Except SecurityAuditStoreOpenError (StoreState × SecurityAuditStoreRecovery)}
    (done : disk.openFiles limits metadata found now faults = (disk', result)) :
    (∀ written, disk'.Within disk written) ∧ ∀ state, result.toOption.map Prod.fst = some state →
      state.metadata = metadata ∧ state.nextEventId = metadata.reservedEventId + 1 ∧
      state.nextRequestId = metadata.reservedRequestId + 1 ∧
      state.nextServiceSequence = metadata.reservedServiceSequence + 1 := by
  unfold openFiles at done
  split at done
  · cases done
    exact ⟨fun _ => .refl _ _, nofun⟩
  · split at done
    · cases done
      exact ⟨fun _ => .refl _ _, nofun⟩
    · next recovered torn opened =>
      have taken := openState_metadata opened
      dsimp only at done
      split at done
      · have within := disk.compact_within (recovered.pruneRetention limits now).metadata
          ((recovered.pruneRetention limits now).records.map Prod.fst) faults.compaction
        split at done
        · next compacted =>
          rw [compacted] at within
          cases done
          exact ⟨within, nofun⟩
        · next compacted =>
          rw [compacted] at within
          cases done
          refine ⟨within, fun state same => ?_⟩
          cases same
          exact taken
      · cases done
        refine ⟨fun _ => .refl _ _, fun state same => ?_⟩
        cases same
        exact taken

theorem AuditDisk.writeNewMetadata_within (lawful : AuditExternals.Lawful) (disk : AuditDisk) (metadata : StoreMetadata)
    (fault : Option InitialFault) : (disk.writeNewMetadata metadata fault).1.Within disk (· = metadata) := by
  unfold writeNewMetadata
  cases encoded : AuditExternals.metadataToVec metadata with
  | none => exact .refl disk _
  | some bytes =>
    have renamed : (disk.rename (bytes ++ [newline])).Within disk (· = metadata) :=
      (within_rename disk _).mono fun m read => readMetadata_written lawful encoded read
    cases fault with
    | none => exact renamed.trans (within_syncDir _ _)
    | some f =>
      cases f with
      | create => exact .refl disk _
      | write kept =>
        refine (within_rename disk _).mono fun m read => ?_
        exact lawful.torn metadata bytes kept m encoded (readMetadata_some.1 read)
      | sync => exact renamed
      | directorySync => exact renamed

theorem AuditDisk.writeNewMetadata_log (disk : AuditDisk) (metadata : StoreMetadata) (fault : Option InitialFault) :
    (disk.writeNewMetadata metadata fault).1.log = disk.log := by
  unfold AuditDisk.writeNewMetadata
  cases AuditExternals.metadataToVec metadata with
  | none => rfl
  | some bytes =>
    rcases fault with - | fault
    · rfl
    · cases fault <;> rfl

/-- An open takes over the metadata file, or writes that of a new generation. -/
theorem AuditDisk.openWithInstrumentation_metadata (lawful : AuditExternals.Lawful) {disk disk' : AuditDisk}
    {limits : AuditLimits} {generation : Option String} {now : SystemTime} {faults : OpenFaults}
    {result : Except SecurityAuditStoreOpenError (StoreState × SecurityAuditStoreRecovery)}
    (done : disk.openWithInstrumentation limits generation now faults = (disk', result)) :
    (disk'.Within disk fun m => ∃ g, generation = some g ∧ m = newMetadata g) ∧
      ∀ state, result.toOption.map Prod.fst = some state →
        (∀ m, disk'.Shows m → m = state.metadata) ∧
        (disk.Shows state.metadata ∨ ∃ g, generation = some g ∧ state.metadata = newMetadata g) ∧
        state.nextEventId = state.metadata.reservedEventId + 1 ∧
        state.nextRequestId = state.metadata.reservedRequestId + 1 ∧
        state.nextServiceSequence = state.metadata.reservedServiceSequence + 1 := by
  unfold openWithInstrumentation at done
  split at done
  · cases done
    exact ⟨.refl _ _, nofun⟩
  · split at done
    · cases done
      exact ⟨.refl _ _, nofun⟩
    · split at done
      · split at done
        · cases done
          exact ⟨.refl _ _, nofun⟩
        · split at done
          · cases done
            exact ⟨.refl _ _, nofun⟩
          · next metadata shown =>
            obtain ⟨within, taken⟩ := openFiles_metadata done
            refine ⟨within _, fun state same => ?_⟩
            obtain ⟨rfl, counters⟩ := taken state same
            refine ⟨fun m visible => ?_, .inl shown, counters⟩
            rcases (within fun _ => False).shows m visible with none | before
            · exact none.elim
            · exact Except.ok.inj (before.symm.trans shown)
      · next absent =>
        split at done
        · cases done
          exact ⟨.refl _ _, nofun⟩
        · next g =>
          have first : (disk.writeNewMetadata (newMetadata g) faults.initial).1.Within disk fun m =>
              ∃ g', some g = some g' ∧ m = newMetadata g' :=
            (writeNewMetadata_within lawful disk (newMetadata g) faults.initial).mono fun m same => ⟨g, rfl, same⟩
          split at done
          · next written =>
            rw [written] at first
            cases done
            exact ⟨first, nofun⟩
          · next middle written =>
            rw [written] at first
            obtain ⟨within, taken⟩ := openFiles_metadata done
            refine ⟨first.trans (within _), fun state same => ?_⟩
            obtain ⟨fresh, counters⟩ := taken state same
            rw [fresh]
            refine ⟨fun m visible => ?_, .inr ⟨g, rfl, rfl⟩, counters⟩
            rcases (first.trans (within _)).shows m visible with ⟨g', same, rfl⟩ | before
            · cases same
              rfl
            · unfold Shows at before
              rw [absent] at before
              cases before

/-! ## One counter -/

/-- One of the three counters: what metadata reserves, the next identifier, and what a run
gave out. -/
structure Counter where
  reserved : StoreMetadata → Nat
  next : StoreState → Nat
  given : String → List Issued → List Nat

namespace Counter

/-- The invariant of a counter. -/
structure Sound (c : Counter) (w : AuditWorld) : Prop where
  increasing : ∀ g, (c.given g w.issued).Pairwise (· < ·)
  onDisk : ∀ m, w.disk.Holds m → ∀ id ∈ c.given m.storeGenerationId w.issued, id ≤ c.reserved m
  below : ∀ state, w.store = some state → ∀ id ∈ c.given state.metadata.storeGenerationId w.issued, id < c.next state
  inRange : ∀ state, w.store = some state → c.next state ≤ c.reserved state.metadata + 1
  shown : ∀ state, w.store = some state → ∀ m, w.disk.Shows m →
    m.storeGenerationId = state.metadata.storeGenerationId → c.next state ≤ c.reserved m + 1
  covered : ∀ state, w.store = some state → c.next state ≤ c.reserved state.metadata →
    ∀ m, w.disk.Holds m → m.storeGenerationId = state.metadata.storeGenerationId → c.reserved state.metadata ≤ c.reserved m

variable {c : Counter} {disk disk' : AuditDisk} {state state' : StoreState} {issued issued' : List Issued}

/-- A step that leaves the counter and writes only metadata that reserves as much. -/
theorem Sound.keep (h : c.Sound ⟨disk, some state, issued⟩)
    (within : disk'.Within disk fun m =>
      m.storeGenerationId = state.metadata.storeGenerationId ∧ c.reserved state.metadata ≤ c.reserved m)
    (generation : state'.metadata.storeGenerationId = state.metadata.storeGenerationId)
    (next : c.next state' = c.next state) (reserved : c.reserved state'.metadata = c.reserved state.metadata)
    (same : ∀ g, c.given g issued' = c.given g issued) :
    c.Sound ⟨disk', some state', issued'⟩ := by
  have within' := h.inRange state rfl
  constructor
  · intro g
    rw [same]
    exact h.increasing g
  · intro m held id member
    rw [same] at member
    rcases within.holds m held with ⟨own, more⟩ | before
    · rw [own] at member
      have := h.below state rfl id member
      omega
    · exact h.onDisk m before id member
  · intro s open_ id member
    cases open_
    rw [same, generation] at member
    rw [next]
    exact h.below state rfl id member
  · intro s open_
    cases open_
    rw [next, reserved]
    exact within'
  · intro s open_ m visible own
    cases open_
    rw [generation] at own
    rw [next]
    rcases within.shows m visible with ⟨-, more⟩ | before
    · omega
    · exact h.shown state rfl m before own
  · intro s open_ room m held own
    cases open_
    rw [generation] at own
    rw [next, reserved] at room
    rw [reserved]
    rcases within.holds m held with ⟨-, more⟩ | before
    · exact more
    · exact h.covered state rfl room m before own

/-- Metadata that reserves what the metadata file did, written over it. -/
theorem Sound.rewritten (h : c.Sound ⟨disk, some state, issued⟩)
    (respects : ∀ a b : StoreMetadata, a.SameReservations b → c.reserved a = c.reserved b)
    (within : disk'.Within disk fun m => ∃ shown, disk.Shows shown ∧ m.SameReservations shown) :
    c.Sound ⟨disk', some state, issued⟩ := by
  have held : ∀ m, disk'.Holds m → ∃ x, disk.Holds x ∧ m.storeGenerationId = x.storeGenerationId ∧ c.reserved m = c.reserved x := by
    intro m held
    rcases within.holds m held with ⟨x, shown, same⟩ | before
    · exact ⟨x, AuditDisk.holds_of_shows shown, same.generation, respects m x same⟩
    · exact ⟨m, before, rfl, rfl⟩
  constructor
  · exact h.increasing
  · intro m there id member
    obtain ⟨x, before, own, same⟩ := held m there
    rw [own] at member
    rw [same]
    exact h.onDisk x before id member
  · exact h.below
  · exact h.inRange
  · intro s open_ m visible own
    cases open_
    rcases within.shows m visible with ⟨x, shown, same⟩ | before
    · rw [respects m x same]
      exact h.shown state rfl x shown (same.generation.symm.trans own)
    · exact h.shown state rfl m before own
  · intro s open_ room m there own
    cases open_
    obtain ⟨x, before, generation, same⟩ := held m there
    rw [same]
    exact h.covered state rfl room x before (generation.symm.trans own)

/-- A reservation that reached the disk. -/
theorem Sound.reserve (h : c.Sound ⟨disk, some state, issued⟩)
    (generation : state'.metadata.storeGenerationId = state.metadata.storeGenerationId)
    (next : c.next state' = c.next state) (reserved : c.reserved state.metadata ≤ c.reserved state'.metadata)
    (only : ∀ m, disk'.Holds m → m = state'.metadata) : c.Sound ⟨disk', some state', issued⟩ := by
  have within := h.inRange state rfl
  constructor
  · exact h.increasing
  · intro m held id member
    obtain rfl := only m held
    rw [generation] at member
    have := h.below state rfl id member
    omega
  · intro s open_ id member
    cases open_
    rw [generation] at member
    rw [next]
    exact h.below state rfl id member
  · intro s open_
    cases open_
    rw [next]
    omega
  · intro s open_ m visible _
    cases open_
    rw [only m (AuditDisk.holds_of_shows visible), next]
    omega
  · intro s open_ _ m held _
    cases open_
    rw [only m held]

/-- The next identifier is given out, or passed over, within the range. -/
theorem Sound.advance (h : c.Sound ⟨disk, some state, issued⟩) (room : c.next state ≤ c.reserved state.metadata)
    (metadata : state'.metadata = state.metadata) (next : c.next state' = c.next state + 1)
    (given : ∀ g, c.given g issued' = c.given g issued ∨
      (g = state.metadata.storeGenerationId ∧ c.given g issued' = c.given g issued ++ [c.next state])) :
    c.Sound ⟨disk, some state', issued'⟩ := by
  have covers := h.covered state rfl room
  have old : ∀ g, ∀ id ∈ c.given g issued', id ∈ c.given g issued ∨ (g = state.metadata.storeGenerationId ∧ id = c.next state) := by
    intro g id member
    rcases given g with same | ⟨own, more⟩
    · rw [same] at member
      exact .inl member
    · rw [more, List.mem_append, List.mem_singleton] at member
      exact member.imp_right fun last => ⟨own, last⟩
  constructor
  · intro g
    rcases given g with same | ⟨rfl, more⟩
    · rw [same]
      exact h.increasing g
    · rw [more, List.pairwise_append]
      refine ⟨h.increasing _, List.pairwise_singleton _ _, ?_⟩
      intro id member last same
      rw [List.mem_singleton] at same
      rw [same]
      exact h.below state rfl id member
  · intro m held id member
    rcases old _ id member with before | ⟨own, rfl⟩
    · exact h.onDisk m held id before
    · exact room.trans (covers m held own)
  · intro s open_ id member
    cases open_
    rw [metadata] at member
    rw [next]
    rcases old _ id member with before | ⟨-, rfl⟩
    · have := h.below state rfl id before
      omega
    · omega
  · intro s open_
    cases open_
    rw [next, metadata]
    omega
  · intro s open_ m visible own
    cases open_
    rw [metadata] at own
    rw [next]
    have := covers m (AuditDisk.holds_of_shows visible) own
    omega
  · intro s open_ _ m held own
    cases open_
    rw [metadata] at own ⊢
    exact covers m held own

/-- A recovery that took over the metadata file. -/
theorem Sound.recover (h : c.Sound ⟨disk, some state, issued⟩) {m : StoreMetadata} (shown : disk.Shows m)
    (own : m.storeGenerationId = state.metadata.storeGenerationId)
    (generation : state'.metadata.storeGenerationId = m.storeGenerationId)
    (reserved : c.reserved state'.metadata = c.reserved m) (only : ∀ m, disk'.Holds m → m = state'.metadata)
    (next : c.next state' = max (c.next state) (c.reserved m + 1)) : c.Sound ⟨disk', some state', issued⟩ := by
  have bound := h.shown state rfl m shown own
  have first : c.next state' = c.reserved m + 1 := by omega
  constructor
  · exact h.increasing
  · intro x held id member
    obtain rfl := only x held
    rw [generation] at member
    rw [reserved]
    exact h.onDisk m (AuditDisk.holds_of_shows shown) id member
  · intro s open_ id member
    cases open_
    rw [generation] at member
    have := h.onDisk m (AuditDisk.holds_of_shows shown) id member
    omega
  · intro s open_
    cases open_
    omega
  · intro s open_ x visible _
    cases open_
    rw [only x (AuditDisk.holds_of_shows visible), reserved]
    omega
  · intro s open_ room
    cases open_
    omega

/-- With no store open: files that each were there, or belong to a generation in which
nothing was given out. -/
theorem Sound.closed {store : Option StoreState} (h : c.Sound ⟨disk, store, issued⟩)
    (held : ∀ m, disk'.Holds m → c.given m.storeGenerationId issued = [] ∨ disk.Holds m) : c.Sound ⟨disk', none, issued⟩ := by
  refine ⟨h.increasing, fun m there id member => ?_, nofun, nofun, nofun, nofun⟩
  rcases held m there with fresh | before
  · rw [fresh] at member
    cases member
  · exact h.onDisk m before id member

/-- A store opened on the metadata it takes over. -/
theorem Sound.opened (h : c.Sound ⟨disk', none, issued⟩) (onlyShown : ∀ m, disk'.Shows m → m = state.metadata)
    (reserves : ∀ id ∈ c.given state.metadata.storeGenerationId issued, id ≤ c.reserved state.metadata)
    (next : c.next state = c.reserved state.metadata + 1) : c.Sound ⟨disk', some state, issued⟩ := by
  refine ⟨h.increasing, h.onDisk, ?_, ?_, ?_, ?_⟩
  · intro s open_ id member
    cases open_
    have := reserves id member
    omega
  · intro s open_
    cases open_
    omega
  · intro s open_ m visible _
    cases open_
    rw [onlyShown m visible]
    omega
  · intro s open_ room
    cases open_
    omega

end Counter


/-! ## The three counters -/

def requestCounter : Counter where
  reserved := StoreMetadata.reservedRequestId
  next := StoreState.nextRequestId
  given := requestIds

def eventCounter : Counter where
  reserved := StoreMetadata.reservedEventId
  next := StoreState.nextEventId
  given := eventIds

def sequenceCounter : Counter where
  reserved := StoreMetadata.reservedServiceSequence
  next := StoreState.nextServiceSequence
  given := serviceSequences

/-- Event ids and service sequences are reserved and given out together. -/
structure AuditWorld.Paired (w : AuditWorld) : Prop where
  held : ∀ m, w.disk.Holds m → m.reservedEventId = m.reservedServiceSequence
  reserved : ∀ state, w.store = some state → state.metadata.reservedEventId = state.metadata.reservedServiceSequence
  next : ∀ state, w.store = some state → state.nextEventId = state.nextServiceSequence

/-- The invariant of a run. -/
structure AuditWorld.Sound (w : AuditWorld) : Prop where
  request : requestCounter.Sound w
  event : eventCounter.Sound w
  sequence : sequenceCounter.Sound w
  paired : w.Paired

omit [AuditExternals] in
theorem requestIds_append (g : String) (issued more : List Issued) :
    requestIds g (issued ++ more) = requestIds g issued ++ requestIds g more := List.filterMap_append

omit [AuditExternals] in
theorem eventIds_append (g : String) (issued more : List Issued) :
    eventIds g (issued ++ more) = eventIds g issued ++ eventIds g more := List.filterMap_append

omit [AuditExternals] in
theorem serviceSequences_append (g : String) (issued more : List Issued) :
    serviceSequences g (issued ++ more) = serviceSequences g issued ++ serviceSequences g more := List.filterMap_append

omit [AuditExternals] in
/-- A generation in which nothing was given out has no identifiers. -/
theorem given_fresh {g : String} {issued : List Issued} (fresh : ∀ i ∈ issued, i.generation ≠ g) :
    requestIds g issued = [] ∧ eventIds g issued = [] ∧ serviceSequences g issued = [] := by
  refine ⟨?_, ?_, ?_⟩
  all_goals
    refine List.filterMap_eq_nil_iff.2 fun i member => ?_
    have other := fresh i member
    cases i with
    | request g' id => first | rfl | exact if_neg other
    | event g' id sequence => first | rfl | exact if_neg other

variable {disk disk' : AuditDisk} {state state' : StoreState} {issued : List Issued} {limits : AuditLimits}

/-- Every counter keeps what an operation leaves that gives nothing out and writes
reservations that are the store's own. -/
theorem AuditWorld.Sound.keep (h : AuditWorld.Sound ⟨disk, some state, issued⟩)
    (within : disk'.Within disk fun m => m.SameReservations state.metadata) (ranges : state'.SameRanges state) :
    AuditWorld.Sound ⟨disk', some state', issued⟩ := by
  refine ⟨h.request.keep (within.mono ?_) ranges.metadata.generation ranges.request ranges.metadata.request fun _ => rfl,
    h.event.keep (within.mono ?_) ranges.metadata.generation ranges.event ranges.metadata.event fun _ => rfl,
    h.sequence.keep (within.mono ?_) ranges.metadata.generation ranges.sequence ranges.metadata.sequence fun _ => rfl,
    ?_, ?_, ?_⟩
  · intro m same
    exact ⟨same.generation, same.request.ge⟩
  · intro m same
    exact ⟨same.generation, same.event.ge⟩
  · intro m same
    exact ⟨same.generation, same.sequence.ge⟩
  · intro m held
    rcases within.holds m held with same | before
    · rw [same.event, same.sequence]
      exact h.paired.reserved state rfl
    · exact h.paired.held m before
  · intro s open_
    cases open_
    rw [ranges.metadata.event, ranges.metadata.sequence]
    exact h.paired.reserved state rfl
  · intro s open_
    cases open_
    rw [ranges.event, ranges.sequence]
    exact h.paired.next state rfl

theorem AuditWorld.Sound.append (lawful : AuditExternals.Lawful) (h : AuditWorld.Sound ⟨disk, some state, issued⟩)
    {event : SecurityAuditEvent} {now later : SystemTime} {faults : AppendFaults} {result : Except SecurityAuditSinkError Unit}
    (done : state.append limits disk event now later faults = (disk', state', result)) :
    AuditWorld.Sound ⟨disk', some state', issued⟩ := by
  obtain ⟨within, ranges⟩ := StoreState.append_ranges lawful done
  exact h.keep within ranges

theorem AuditWorld.Sound.tryRecover (lawful : AuditExternals.Lawful) (h : AuditWorld.Sound ⟨disk, some state, issued⟩)
    {now : SystemTime} {faults : RecoverFaults} {result : Except SecurityAuditSinkError SecurityAuditSinkHealth}
    (done : state.tryRecover limits disk now faults = (disk', state', result)) :
    AuditWorld.Sound ⟨disk', some state', issued⟩ := by
  cases result with
  | error error =>
    obtain ⟨rfl, within⟩ := StoreState.tryRecover_refused lawful done
    have rewritten : disk'.Within disk fun m => ∃ shown, disk.Shows shown ∧ m.SameReservations shown :=
      within.mono fun m ⟨shown, visible, _, same⟩ => ⟨shown, visible, same⟩
    have request := h.request.rewritten (fun _ _ same => same.request) rewritten
    have event := h.event.rewritten (fun _ _ same => same.event) rewritten
    have sequence := h.sequence.rewritten (fun _ _ same => same.sequence) rewritten
    refine ⟨request.keep (.refl _ _) rfl rfl rfl fun _ => rfl, event.keep (.refl _ _) rfl rfl rfl fun _ => rfl,
      sequence.keep (.refl _ _) rfl rfl rfl fun _ => rfl, ?_, ?_, ?_⟩
    · intro m held
      rcases rewritten.holds m held with written | before
      · obtain ⟨shown, visible, same⟩ := written
        rw [same.event, same.sequence]
        exact h.paired.held shown (AuditDisk.holds_of_shows visible)
      · exact h.paired.held m before
    · intro s open_
      cases open_
      exact h.paired.reserved state rfl
    · intro s open_
      cases open_
      exact h.paired.next state rfl
  | ok health =>
    obtain ⟨m, shown, own, same, only, event, request, sequence⟩ := StoreState.tryRecover_healthy lawful done
    have paired := h.paired.held m (AuditDisk.holds_of_shows shown)
    refine ⟨h.request.recover shown own same.generation same.request only request,
      h.event.recover shown own same.generation same.event only event,
      h.sequence.recover shown own same.generation same.sequence only sequence, ?_, ?_, ?_⟩
    · intro x held
      rw [only x held, same.event, same.sequence]
      exact paired
    · intro s open_
      cases open_
      rw [same.event, same.sequence]
      exact paired
    · intro s open_
      cases open_
      rw [event, sequence, paired, h.paired.next state rfl]

theorem AuditWorld.Sound.openStore (lawful : AuditExternals.Lawful) (h : AuditWorld.Sound ⟨disk, none, issued⟩)
    {generation : Option String} (fresh : ∀ g, generation = some g → ∀ i ∈ issued, i.generation ≠ g)
    {now : SystemTime} {faults : OpenFaults}
    {result : Except SecurityAuditStoreOpenError (StoreState × SecurityAuditStoreRecovery)}
    (done : disk.openWithInstrumentation limits generation now faults = (disk', result)) :
    AuditWorld.Sound ⟨disk', result.toOption.map Prod.fst, issued⟩ := by
  obtain ⟨within, taken⟩ := AuditDisk.openWithInstrumentation_metadata lawful done
  have closed : AuditWorld.Sound ⟨disk', none, issued⟩ := by
    have new : ∀ m, disk'.Holds m → (∀ i ∈ issued, i.generation ≠ m.storeGenerationId) ∨ disk.Holds m := by
      intro m held
      rcases within.holds m held with drawn | before
      · obtain ⟨g, drawn, rfl⟩ := drawn
        exact .inl (fresh g drawn)
      · exact .inr before
    refine ⟨h.request.closed fun m held => (new m held).imp_left fun unused => (given_fresh unused).1,
      h.event.closed fun m held => (new m held).imp_left fun unused => (given_fresh unused).2.1,
      h.sequence.closed fun m held => (new m held).imp_left fun unused => (given_fresh unused).2.2, ?_, ?_, ?_⟩
    · intro m held
      rcases within.holds m held with drawn | before
      · obtain ⟨g, -, rfl⟩ := drawn
        rfl
      · exact h.paired.held m before
    · intro s open_
      cases open_
    · intro s open_
      cases open_
  cases opened : result.toOption.map Prod.fst with
  | none => exact closed
  | some state =>
    obtain ⟨only, origin, event, request, sequence⟩ := taken state opened
    have reserves : ∀ c : Counter, c.Sound ⟨disk, none, issued⟩ →
        (∀ g, generation = some g → c.given g issued = []) →
        ∀ id ∈ c.given state.metadata.storeGenerationId issued, id ≤ c.reserved state.metadata := by
      intro c sound unused id member
      rcases origin with shown | ⟨g, drawn, new⟩
      · exact sound.onDisk state.metadata (AuditDisk.holds_of_shows shown) id member
      · rw [new] at member
        rw [show (newMetadata g).storeGenerationId = g from rfl, unused g drawn] at member
        cases member
    have paired : state.metadata.reservedEventId = state.metadata.reservedServiceSequence := by
      rcases origin with shown | ⟨g, -, new⟩
      · exact h.paired.held state.metadata (AuditDisk.holds_of_shows shown)
      · rw [new]
        rfl
    refine ⟨closed.request.opened only (reserves _ h.request fun g drawn => (given_fresh (fresh g drawn)).1) request,
      closed.event.opened only (reserves _ h.event fun g drawn => (given_fresh (fresh g drawn)).2.1) event,
      closed.sequence.opened only (reserves _ h.sequence fun g drawn => (given_fresh (fresh g drawn)).2.2) sequence,
      closed.paired.held, ?_, ?_⟩
    · intro s open_
      cases open_
      exact paired
    · intro s open_
      cases open_
      rw [event, sequence, paired]

theorem AuditWorld.Sound.close {store : Option StoreState} (h : AuditWorld.Sound ⟨disk, store, issued⟩)
    (held : ∀ m, disk'.Holds m → disk.Holds m) : AuditWorld.Sound ⟨disk', none, issued⟩ :=
  ⟨h.request.closed fun m there => .inr (held m there), h.event.closed fun m there => .inr (held m there),
    h.sequence.closed fun m there => .inr (held m there),
    fun m there => h.paired.held m (held m there), nofun, nofun⟩

/-- What a crash leaves was there before it. -/
theorem AuditDisk.holds_crash {file log : Option Bytes} (survives : disk.Survives file) (m : StoreMetadata)
    (held : (AuditDisk.mk file file [] log).Holds m) : disk.Holds m := by
  rcases held with shown | ⟨other, rfl | ⟨bytes, renamed, -⟩, read⟩
  · exact .inr ⟨file, survives, shown⟩
  · exact .inr ⟨_, survives, read⟩
  · cases renamed

theorem AuditWorld.Sound.issueRequest (h : AuditWorld.Sound ⟨disk, some state, issued⟩)
    (room : state.nextRequestId ≤ state.metadata.reservedRequestId) {result : Except SecurityAuditSinkError Nat}
    (done : state.issueRequestId = (state', result)) :
    AuditWorld.Sound ⟨disk, some state',
      issued ++ (result.toOption.map (Issued.request state.metadata.storeGenerationId)).toList⟩ := by
  unfold StoreState.issueRequestId at done
  cases added : checkedAdd state.nextRequestId 1 with
  | none =>
    rw [added] at done
    cases done
    rw [show (Except.error SecurityAuditSinkError.unavailable : Except _ Nat).toOption.map _ = none from rfl,
      Option.toList_none, List.append_nil]
    exact h
  | some next =>
    obtain ⟨-, rfl⟩ := checkedAdd_eq_some.1 added
    rw [added] at done
    cases done
    refine ⟨h.request.advance room rfl rfl ?_, h.event.keep (.refl _ _) rfl rfl rfl ?_,
      h.sequence.keep (.refl _ _) rfl rfl rfl ?_, h.paired.held, ?_, ?_⟩
    · intro g
      show requestIds g _ = _ ∨ _ ∧ requestIds g _ = _
      rw [requestIds_append]
      by_cases own : state.metadata.storeGenerationId = g
      · exact .inr ⟨own.symm, congrArg _ (by simp [Except.toOption, requestIds, own, requestCounter])⟩
      · exact .inl (by simp [Except.toOption, requestIds, own, requestCounter])
    · intro g
      show eventIds g _ = eventIds g _
      rw [eventIds_append]
      exact List.append_nil _
    · intro g
      show serviceSequences g _ = serviceSequences g _
      rw [serviceSequences_append]
      exact List.append_nil _
    · intro s open_
      cases open_
      exact h.paired.reserved state rfl
    · intro s open_
      cases open_
      exact h.paired.next state rfl

/-- Metadata of the same generation that reserves at least as much. -/
structure StoreMetadata.Extends (a b : StoreMetadata) : Prop where
  generation : a.storeGenerationId = b.storeGenerationId
  event : b.reservedEventId ≤ a.reservedEventId
  request : b.reservedRequestId ≤ a.reservedRequestId
  sequence : b.reservedServiceSequence ≤ a.reservedServiceSequence
  paired : b.reservedEventId = b.reservedServiceSequence → a.reservedEventId = a.reservedServiceSequence

/-- A reservation that `replace_metadata` did not finish. -/
theorem AuditWorld.Sound.unreserved (lawful : AuditExternals.Lawful) (h : AuditWorld.Sound ⟨disk, some state, issued⟩)
    {metadata : StoreMetadata} (more : metadata.Extends state.metadata) {fault : Option ReplaceFault}
    (replaced : disk.replaceMetadata metadata fault = (disk', false)) :
    AuditWorld.Sound ⟨disk', some { state with degraded := true }, issued⟩ := by
  have within := disk.replaceMetadata_within lawful metadata fault
  rw [replaced] at within
  refine ⟨h.request.keep (within.mono ?_) rfl rfl rfl fun _ => rfl,
    h.event.keep (within.mono ?_) rfl rfl rfl fun _ => rfl,
    h.sequence.keep (within.mono ?_) rfl rfl rfl fun _ => rfl, ?_, ?_, ?_⟩
  · rintro m rfl
    exact ⟨more.generation, more.request⟩
  · rintro m rfl
    exact ⟨more.generation, more.event⟩
  · rintro m rfl
    exact ⟨more.generation, more.sequence⟩
  · intro m held
    rcases within.holds m held with rfl | before
    · exact more.paired (h.paired.reserved state rfl)
    · exact h.paired.held m before
  · intro s open_
    cases open_
    exact h.paired.reserved state rfl
  · intro s open_
    cases open_
    exact h.paired.next state rfl

/-- A reservation that `replace_metadata` finished. -/
theorem AuditWorld.Sound.reserved (lawful : AuditExternals.Lawful) (h : AuditWorld.Sound ⟨disk, some state, issued⟩)
    {metadata : StoreMetadata} (more : metadata.Extends state.metadata) {fault : Option ReplaceFault}
    (replaced : disk.replaceMetadata metadata fault = (disk', true)) :
    AuditWorld.Sound ⟨disk', some { state with metadata }, issued⟩ := by
  have only : ∀ m, disk'.Holds m → m = metadata := fun m held => AuditDisk.replaceMetadata_ok lawful replaced held
  have paired := more.paired (h.paired.reserved state rfl)
  refine ⟨h.request.reserve more.generation rfl more.request only, h.event.reserve more.generation rfl more.event only,
    h.sequence.reserve more.generation rfl more.sequence only, ?_, ?_, ?_⟩
  · intro m held
    rw [only m held]
    exact paired
  · intro s open_
    cases open_
    exact paired
  · intro s open_
    cases open_
    exact h.paired.next state rfl

theorem AuditWorld.Sound.allocateRequestId (lawful : AuditExternals.Lawful) (h : AuditWorld.Sound ⟨disk, some state, issued⟩)
    {fault : Option ReplaceFault} {result : Except SecurityAuditSinkError Nat}
    (done : state.allocateRequestId disk fault = (disk', state', result)) :
    AuditWorld.Sound ⟨disk', some state',
      issued ++ (result.toOption.map (Issued.request state.metadata.storeGenerationId)).toList⟩ := by
  have unchanged : issued ++ ((Except.error SecurityAuditSinkError.unavailable : Except _ Nat).toOption.map
      (Issued.request state.metadata.storeGenerationId)).toList = issued := List.append_nil _
  unfold StoreState.allocateRequestId at done
  split at done
  case isFalse inRange =>
    cases given : state.issueRequestId with
    | mk after outcome =>
      rw [given] at done
      cases done
      exact h.issueRequest (Nat.not_lt.1 inRange) given
  case isTrue =>
    cases added : checkedAdd state.metadata.reservedRequestId counterReservationRange with
    | none =>
      rw [added] at done
      cases done
      rw [unchanged]
      exact h
    | some reserved =>
      obtain ⟨-, rfl⟩ := checkedAdd_eq_some.1 added
      rw [added] at done
      dsimp only at done
      have more : StoreMetadata.Extends
          { state.metadata with reservedRequestId := state.metadata.reservedRequestId + counterReservationRange }
          state.metadata := ⟨rfl, Nat.le_refl _, Nat.le_add_right _ _, Nat.le_refl _, id⟩
      split at done
      · next replaced =>
        cases done
        rw [unchanged]
        exact h.unreserved lawful more replaced
      · next middle replaced =>
        have reserved := h.reserved lawful more replaced
        have room := h.request.inRange state rfl
        cases given : { state with metadata := { state.metadata with
            reservedRequestId := state.metadata.reservedRequestId + counterReservationRange } }.issueRequestId with
        | mk after outcome =>
          rw [given] at done
          cases done
          refine reserved.issueRequest ?_ given
          show state.nextRequestId ≤ state.metadata.reservedRequestId + 64
          simp only [requestCounter] at room
          omega

theorem AuditWorld.Sound.issueEvent (h : AuditWorld.Sound ⟨disk, some state, issued⟩)
    (room : state.nextEventId ≤ state.metadata.reservedEventId ∧ state.nextServiceSequence ≤ state.metadata.reservedServiceSequence)
    {result : Except SecurityAuditSinkError (Nat × Nat)} (done : state.issueEventIdentity = (state', result)) :
    AuditWorld.Sound ⟨disk, some state',
      issued ++ (result.toOption.map fun i => Issued.event state.metadata.storeGenerationId i.1 i.2).toList⟩ := by
  have unchanged : issued ++ ((Except.error SecurityAuditSinkError.unavailable : Except _ (Nat × Nat)).toOption.map
      fun i => Issued.event state.metadata.storeGenerationId i.1 i.2).toList = issued := List.append_nil _
  have paired := h.paired.next state rfl
  unfold StoreState.issueEventIdentity at done
  cases eventAdded : checkedAdd state.nextEventId 1 with
  | none =>
    rw [eventAdded] at done
    cases done
    rw [unchanged]
    exact h
  | some nextEvent =>
    obtain ⟨-, rfl⟩ := checkedAdd_eq_some.1 eventAdded
    rw [eventAdded] at done
    dsimp only at done
    cases sequenceAdded : checkedAdd state.nextServiceSequence 1 with
    | none =>
      -- the two counters are at the same number, so that neither overflows alone
      rw [← paired, eventAdded] at sequenceAdded
      cases sequenceAdded
    | some nextSequence =>
      obtain ⟨-, rfl⟩ := checkedAdd_eq_some.1 sequenceAdded
      rw [sequenceAdded] at done
      cases done
      refine ⟨h.request.keep (.refl _ _) rfl rfl rfl ?_, h.event.advance room.1 rfl rfl ?_,
        h.sequence.advance room.2 rfl rfl ?_, h.paired.held, ?_, ?_⟩
      · intro g
        show requestIds g _ = requestIds g _
        rw [requestIds_append]
        exact List.append_nil _
      · intro g
        show eventIds g _ = _ ∨ _ ∧ eventIds g _ = _
        rw [eventIds_append]
        by_cases own : state.metadata.storeGenerationId = g
        · exact .inr ⟨own.symm, congrArg _ (by simp [Except.toOption, eventIds, own, eventCounter])⟩
        · exact .inl (by simp [Except.toOption, eventIds, own, eventCounter])
      · intro g
        show serviceSequences g _ = _ ∨ _ ∧ serviceSequences g _ = _
        rw [serviceSequences_append]
        by_cases own : state.metadata.storeGenerationId = g
        · exact .inr ⟨own.symm, congrArg _ (by simp [Except.toOption, serviceSequences, own, sequenceCounter])⟩
        · exact .inl (by simp [Except.toOption, serviceSequences, own, sequenceCounter])
      · intro s open_
        cases open_
        exact h.paired.reserved state rfl
      · intro s open_
        cases open_
        exact congrArg (· + 1) paired

theorem AuditWorld.Sound.allocateEventIdentity (lawful : AuditExternals.Lawful)
    (h : AuditWorld.Sound ⟨disk, some state, issued⟩) {fault : Option ReplaceFault}
    {result : Except SecurityAuditSinkError (Nat × Nat)}
    (done : state.allocateEventIdentity disk fault = (disk', state', result)) :
    AuditWorld.Sound ⟨disk', some state',
      issued ++ (result.toOption.map fun i => Issued.event state.metadata.storeGenerationId i.1 i.2).toList⟩ := by
  have unchanged : issued ++ ((Except.error SecurityAuditSinkError.unavailable : Except _ (Nat × Nat)).toOption.map
      fun i => Issued.event state.metadata.storeGenerationId i.1 i.2).toList = issued := List.append_nil _
  unfold StoreState.allocateEventIdentity at done
  split at done
  case isFalse inRange =>
    rw [not_or, Nat.not_lt, Nat.not_lt] at inRange
    cases given : state.issueEventIdentity with
    | mk after outcome =>
      rw [given] at done
      cases done
      exact h.issueEvent inRange given
  case isTrue used =>
    cases eventAdded : checkedAdd state.metadata.reservedEventId counterReservationRange with
    | none =>
      rw [eventAdded] at done
      cases done
      rw [unchanged]
      exact h
    | some reservedEvent =>
      obtain ⟨-, rfl⟩ := checkedAdd_eq_some.1 eventAdded
      rw [eventAdded] at done
      dsimp only at done
      cases sequenceAdded : checkedAdd state.metadata.reservedServiceSequence counterReservationRange with
      | none =>
        rw [← h.paired.reserved state rfl, eventAdded] at sequenceAdded
        cases sequenceAdded
      | some reservedSequence =>
        obtain ⟨-, rfl⟩ := checkedAdd_eq_some.1 sequenceAdded
        rw [sequenceAdded] at done
        dsimp only at done
        have more : StoreMetadata.Extends
            { state.metadata with
              reservedEventId := state.metadata.reservedEventId + counterReservationRange
              reservedServiceSequence := state.metadata.reservedServiceSequence + counterReservationRange }
            state.metadata :=
          ⟨rfl, Nat.le_add_right _ _, Nat.le_refl _, Nat.le_add_right _ _, congrArg (· + counterReservationRange)⟩
        split at done
        · next replaced =>
          cases done
          rw [unchanged]
          exact h.unreserved lawful more replaced
        · next middle replaced =>
          have reserved := h.reserved lawful more replaced
          have eventRoom := h.event.inRange state rfl
          have sequenceRoom := h.sequence.inRange state rfl
          cases given : { state with metadata := { state.metadata with
              reservedEventId := state.metadata.reservedEventId + counterReservationRange
              reservedServiceSequence := state.metadata.reservedServiceSequence + counterReservationRange } }.issueEventIdentity with
          | mk after outcome =>
            rw [given] at done
            cases done
            refine reserved.issueEvent ?_ given
            show state.nextEventId ≤ state.metadata.reservedEventId + 64 ∧
              state.nextServiceSequence ≤ state.metadata.reservedServiceSequence + 64
            simp only [eventCounter] at eventRoom
            simp only [sequenceCounter] at sequenceRoom
            omega

/-! ## Whole runs -/

omit [AuditExternals] in
/-- A directory without a store: no metadata file, and any log. -/
def AuditWorld.new (log : Option Bytes) : AuditWorld := ⟨⟨none, none, [], log⟩, none, []⟩

theorem AuditWorld.sound_new (log : Option Bytes) : (AuditWorld.new log).Sound := by
  have nothing : ∀ m, ¬(AuditWorld.new log).disk.Holds m := by
    rintro m (shown | ⟨file, rfl | ⟨bytes, renamed, -⟩, read⟩)
    · cases shown
    · cases read
    · cases renamed
  have counter : ∀ c : Counter, (∀ g, c.given g [] = []) → c.Sound (AuditWorld.new log) := by
    intro c none
    refine ⟨fun g => ?_, fun m held => absurd held (nothing m), ?_, ?_, ?_, ?_⟩
    · show (c.given g []).Pairwise _
      rw [none]
      exact .nil
    all_goals
      intro state open_
      cases open_
  refine ⟨counter _ fun _ => rfl, counter _ fun _ => rfl, counter _ fun _ => rfl, fun m held => absurd held (nothing m), ?_, ?_⟩
  all_goals
    intro state open_
    cases open_

theorem AuditWorld.Sound.step (lawful : AuditExternals.Lawful) {w w' : AuditWorld} (h : w.Sound) (step : w.Step w') :
    w'.Sound := by
  cases step with
  | openStore limits generation now faults fresh done => exact h.openStore lawful fresh done
  | drop => exact h.close fun _ => id
  | allocateRequestId fault done => exact h.allocateRequestId lawful done
  | allocateEventIdentity fault done => exact h.allocateEventIdentity lawful done
  | append limits event now later faults done => exact h.append lawful done
  | tryRecover limits now faults done => exact h.tryRecover lawful done
  | crash log survives => exact h.close fun m held => AuditDisk.holds_crash survives m held

theorem AuditWorld.Sound.run (lawful : AuditExternals.Lawful) {w w' : AuditWorld} (h : w.Sound)
    (steps : ReflTransGen AuditWorld.Step w w') : w'.Sound := by
  induction steps with
  | refl => exact h
  | tail _ step ih => exact ih.step lawful step

/-- Whatever fails or crashes, the request ids, event ids and service sequences given out
in a store generation strictly increase, so that none is given out twice. -/
theorem identifiers_never_reused (lawful : AuditExternals.Lawful) {log : Option Bytes} {w : AuditWorld}
    (run : ReflTransGen AuditWorld.Step (.new log) w) (generation : String) :
    (requestIds generation w.issued).Pairwise (· < ·) ∧ (eventIds generation w.issued).Pairwise (· < ·) ∧
      (serviceSequences generation w.issued).Pairwise (· < ·) := by
  have sound := (AuditWorld.sound_new log).run lawful run
  exact ⟨sound.request.increasing generation, sound.event.increasing generation, sound.sequence.increasing generation⟩

end Runs

/-! ## A crash between two requests -/

def zeros : String := "00000000000000000000000000000000"

/-- Metadata of that generation as `serde_json` writes it. -/
def zerosText (reservedRequest : String) : Bytes :=
  ("\x7b\"version\":1,\"store_generation_id\":\"" ++ zeros ++ "\",\"reserved_event_id\":0,\"reserved_request_id\":" ++
    reservedRequest ++ ",\"reserved_service_sequence\":0,\"accepted_event_id\":0,\"accepted_request_id\":0," ++
    "\"accepted_service_sequence\":0\x7d").toUTF8.data.toList

def zerosMetadata (reservedRequest : Nat) : StoreMetadata := { newMetadata zeros with reservedRequestId := reservedRequest }

def zerosTable : List (StoreMetadata × Bytes) :=
  [(zerosMetadata 0, zerosText "0"), (zerosMetadata 64, zerosText "64"), (zerosMetadata 128, zerosText "128")]

/-- The codecs on the three metadata files of the run. -/
@[reducible] noncomputable def zerosCodecs : AuditExternals := .listed [] zerosTable

theorem zerosCodecs_lawful : @AuditExternals.Lawful zerosCodecs :=
  AuditExternals.listed_lawful (by decide) (by decide) (by decide) (by decide) (by decide) (by decide)

def zerosLimits : AuditLimits := ⟨256, 262144, 86400000000000⟩

/-- The state of a store that has just taken over the metadata. -/
def zerosState (reservedRequest : Nat) : StoreState where
  metadata := zerosMetadata reservedRequest
  records := []
  retainedBytes := 0
  degraded := false
  nextEventId := 1
  nextRequestId := reservedRequest + 1
  nextServiceSequence := 1
  futureDatedRecords := 0

noncomputable def zerosFile (reservedRequest : Nat) : Option Bytes := some (metadataText zerosTable (zerosMetadata reservedRequest) ++ [newline])

noncomputable def zerosDisk (reservedRequest : Nat) : AuditDisk :=
  ⟨zerosFile reservedRequest, zerosFile reservedRequest, [], none⟩

/-- An open of the files after the first reservation takes over their metadata. -/
theorem zerosDisk_opens :
    letI := zerosCodecs
    ∃ recovery, (zerosDisk 64).openWithInstrumentation zerosLimits none 0 .none =
      (zerosDisk 64, .ok (zerosState 64, recovery)) := by
  let := zerosCodecs
  have read : readMetadata (zerosDisk 64).metadata = .ok (zerosMetadata 64) :=
    readMetadata_some.2 ((metadataOfText_eq_some (by decide) (by decide)).2 rfl)
  have opened : (zerosDisk 64).openFiles zerosLimits (zerosMetadata 64) .reopened 0 .none =
      (zerosDisk 64, .ok (zerosState 64, ⟨.reopened, zeros, 0, false, 1, 65, 1, 0⟩)) := rfl
  exact ⟨_, (AuditDisk.openWithInstrumentation_reopened ⟨by decide, by decide, by decide⟩ read none 0).trans opened⟩

theorem ids_after_crash :
    letI := zerosCodecs
    ∃ w, ReflTransGen AuditWorld.Step (.new none) w ∧ requestIds zeros w.issued = [1, 65] ∧
      (requestIds zeros w.issued).Pairwise (· < ·) := by
  let := zerosCodecs
  have first : AuditWorld.Step (.new none) ⟨zerosDisk 0, some (zerosState 0), []⟩ :=
    .openStore zerosLimits (some zeros) 0 .none (fun _ _ _ member => by cases member) rfl
  have second : AuditWorld.Step ⟨zerosDisk 0, some (zerosState 0), []⟩
      ⟨zerosDisk 64, some { zerosState 0 with metadata := zerosMetadata 64, nextRequestId := 2 }, [.request zeros 1]⟩ :=
    .allocateRequestId none rfl
  have third : AuditWorld.Step
      ⟨zerosDisk 64, some { zerosState 0 with metadata := zerosMetadata 64, nextRequestId := 2 }, [.request zeros 1]⟩
      ⟨zerosDisk 64, none, [.request zeros 1]⟩ := .crash none (.inl rfl)
  obtain ⟨recovery, opened⟩ := zerosDisk_opens
  have fourth : AuditWorld.Step ⟨zerosDisk 64, none, [.request zeros 1]⟩
      ⟨zerosDisk 64, some (zerosState 64), [.request zeros 1]⟩ :=
    .openStore zerosLimits none 0 .none (fun _ drawn => by cases drawn) opened
  have fifth : AuditWorld.Step ⟨zerosDisk 64, some (zerosState 64), [.request zeros 1]⟩
      ⟨zerosDisk 128, some { zerosState 64 with metadata := zerosMetadata 128, nextRequestId := 66 },
        [.request zeros 1, .request zeros 65]⟩ := .allocateRequestId none rfl
  have run := ((((ReflTransGen.single first).tail second).tail third).tail fourth).tail fifth
  exact ⟨_, run, rfl, (identifiers_never_reused zerosCodecs_lawful run zeros).1⟩
