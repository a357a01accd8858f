import Mathlib.Logic.Relation
import Grm.Service.AuditDeques
import Grm.Service.AuditLog

/-!
# What the two deques of the audit store represent

The deques stay equally long and the byte count stays their sum, which is what makes the
loop of `prune_retention` end. Whatever fails, an open store is within its limits and has
accepted nothing that is not reserved.
-/

open Relation

set_option autoImplicit false

namespace StoreDeques

/-! ## Pruning ends -/

/-- The deques agree with each other and with the byte count. -/
structure Balanced (state : StoreDeques) : Prop where
  lengths : state.events.length = state.recordBytes.length
  bytes : state.retainedBytes = state.recordBytes.sum

/-- The oldest records are taken away, and nothing else but the byte count is changed. -/
def PrunedFrom (pruned state : StoreDeques) : Prop :=
  ∃ k, pruned = { state with
    events := state.events.drop k, recordBytes := state.recordBytes.drop k, retainedBytes := pruned.retainedBytes }

theorem PrunedFrom.events {pruned state : StoreDeques} (h : pruned.PrunedFrom state) :
    ∃ removed, state.events = removed ++ pruned.events := by
  obtain ⟨k, same⟩ := h
  refine ⟨state.events.take k, ?_⟩
  rw [same]
  exact (List.take_append_drop k _).symm

theorem PrunedFrom.metadata {pruned state : StoreDeques} (h : pruned.PrunedFrom state) :
    pruned.metadata = state.metadata := by
  obtain ⟨k, same⟩ := h
  rw [same]

/-- Whenever the loop ends it has removed a first part, and its condition fails. -/
theorem pruneLoop_prunedFrom {limits : AuditLimits} {cutoff : Option SystemTime} {fuel : Nat} {state pruned : StoreDeques}
    (done : pruneLoop limits cutoff fuel state = some pruned) :
    pruned.PrunedFrom state ∧ ¬pruned.Exceeds limits cutoff := by
  induction fuel generalizing state with
  | zero => cases done
  | succ fuel ih =>
    rw [pruneLoop] at done
    split at done
    case isTrue =>
      obtain ⟨⟨k, same⟩, within⟩ := ih done
      refine ⟨⟨k + 1, ?_⟩, within⟩
      rw [same]
      simp [popFront]
    case isFalse within =>
      cases done
      exact ⟨⟨0, rfl⟩, within⟩

/-- A turn of the loop that its condition allows has a record to remove. -/
theorem Balanced.not_exceeds_nil {state : StoreDeques} (h : state.Balanced) (empty : state.events = [])
    (limits : AuditLimits) (cutoff : Option SystemTime) : ¬state.Exceeds limits cutoff := by
  have noBytes : state.recordBytes = [] := by
    rw [← List.length_eq_zero_iff, ← h.lengths, empty]
    rfl
  have zero : state.retainedBytes = 0 := by rw [h.bytes, noBytes, List.sum_nil]
  rw [Exceeds, empty, zero]
  cases cutoff <;> simp

theorem Balanced.popFront {state : StoreDeques} (h : state.Balanced) : state.popFront.Balanced := by
  obtain ⟨lengths, bytes⟩ := h
  refine ⟨?_, ?_⟩
  · rw [StoreDeques.popFront]
    simp only [List.length_tail, lengths]
  · rw [StoreDeques.popFront]
    cases counts : state.recordBytes with
    | nil => simpa [counts] using bytes
    | cons first rest =>
      rw [counts, List.sum_cons] at bytes
      simp only [List.head?_cons, List.tail_cons]
      omega

/-- On deques that agree the loop ends after at most as many turns as there are events. -/
theorem pruneLoop_returns {limits : AuditLimits} {cutoff : Option SystemTime} {fuel : Nat} {state : StoreDeques}
    (h : state.Balanced) (enough : state.events.length < fuel) :
    ∃ pruned, pruneLoop limits cutoff fuel state = some pruned ∧ pruned.Balanced := by
  induction fuel generalizing state with
  | zero => exact absurd enough (Nat.not_lt_zero _)
  | succ fuel ih =>
    rw [pruneLoop]
    by_cases exceeds : state.Exceeds limits cutoff
    · rw [if_pos exceeds]
      have some : state.events ≠ [] := fun empty => h.not_exceeds_nil empty limits cutoff exceeds
      have shorter : state.popFront.events.length < fuel := by
        have positive := List.length_pos_iff.2 some
        simp only [StoreDeques.popFront, List.length_tail]
        omega
      exact ih h.popFront shorter
    · rw [if_neg exceeds]
      exact ⟨state, rfl, h⟩

/-- `prune_retention` ends, having removed only a first part of the records. -/
def Prunes (state : StoreDeques) (limits : AuditLimits) (now : SystemTime) : Prop :=
  ∃ fuel pruned removed, state.pruneRetention limits now fuel = some pruned ∧ state.events = removed ++ pruned.events

theorem Balanced.prunes {state : StoreDeques} (h : state.Balanced) (limits : AuditLimits) (now : SystemTime) :
    state.Prunes limits now := by
  obtain ⟨pruned, done, -⟩ := pruneLoop_returns h (Nat.lt_succ_self _)
  obtain ⟨removed, split⟩ := (pruneLoop_prunedFrom done).1.events
  exact ⟨_, pruned, removed, done, split⟩

/-- The result of a loop does not depend on its fuel. -/
theorem pruneLoop_unique {limits : AuditLimits} {cutoff : Option SystemTime} {fuel more : Nat}
    {state pruned other : StoreDeques} (done : pruneLoop limits cutoff fuel state = some pruned)
    (again : pruneLoop limits cutoff more state = some other) : pruned = other := by
  induction fuel generalizing state more with
  | zero => cases done
  | succ fuel ih =>
    cases more with
    | zero => cases again
    | succ more =>
      rw [pruneLoop] at done again
      split at done
      case isTrue exceeds =>
        rw [if_pos exceeds] at again
        exact ih done again
      case isFalse within =>
        rw [if_neg within] at again
        exact Option.some.inj (done.symm.trans again)

/-! ## The representation -/

end StoreDeques

/-- Nothing is accepted that is not reserved. -/
structure StoreMetadata.Accounted (metadata : StoreMetadata) : Prop where
  event : metadata.acceptedEventId ≤ metadata.reservedEventId
  request : metadata.acceptedRequestId ≤ metadata.reservedRequestId
  sequence : metadata.acceptedServiceSequence ≤ metadata.reservedServiceSequence

/-- The representation invariant of an open store. -/
structure StoreDeques.Represents (state : StoreDeques) (limits : AuditLimits) : Prop where
  lengths : state.events.length = state.recordBytes.length
  bytes : state.retainedBytes = state.recordBytes.sum
  eventsWithin : state.events.length ≤ limits.maxEvents
  bytesWithin : state.retainedBytes ≤ limits.maxBytes
  accounted : state.metadata.Accounted

namespace StoreDeques

theorem Represents.balanced {state : StoreDeques} {limits : AuditLimits} (h : state.Represents limits) : state.Balanced :=
  ⟨h.lengths, h.bytes⟩

/-- A state with the same deques. -/
theorem Represents.of_same {state other : StoreDeques} {limits : AuditLimits} (h : state.Represents limits)
    (events : other.events = state.events) (recordBytes : other.recordBytes = state.recordBytes)
    (retainedBytes : other.retainedBytes = state.retainedBytes) (accounted : other.metadata.Accounted) :
    other.Represents limits := by
  refine ⟨?_, ?_, ?_, ?_, accounted⟩
  · rw [events, recordBytes]
    exact h.lengths
  · rw [retainedBytes, recordBytes]
    exact h.bytes
  · rw [events]
    exact h.eventsWithin
  · rw [retainedBytes]
    exact h.bytesWithin

/-- What pruning leaves is within the limits. -/
theorem Balanced.pruned {state pruned : StoreDeques} (h : state.Balanced) {limits : AuditLimits} {now : SystemTime}
    {fuel : Nat} (done : state.pruneRetention limits now fuel = some pruned) (accounted : state.metadata.Accounted) :
    pruned.Represents limits := by
  obtain ⟨from_, within⟩ := pruneLoop_prunedFrom done
  obtain ⟨other, ends, balanced⟩ := @pruneLoop_returns limits _ _ state h (Nat.lt_succ_self _)
  obtain rfl := pruneLoop_unique done ends
  rw [Exceeds, not_or, not_or, Nat.not_lt, Nat.not_lt] at within
  refine ⟨balanced.lengths, balanced.bytes, within.1, within.2.1, ?_⟩
  rw [from_.metadata]
  exact accounted

end StoreDeques

section Store
variable [AuditExternals]
open AuditExternals

/-! ## What the operations keep -/

theorem AuditDisk.replaceMetadata_log (disk : AuditDisk) (metadata : StoreMetadata) (fault : Option ReplaceFault) :
    (disk.replaceMetadata metadata fault).1.log = disk.log := by
  unfold AuditDisk.replaceMetadata
  cases metadataToVec metadata with
  | none => rfl
  | some bytes =>
    rcases fault with - | fault
    · rfl
    · cases fault <;> rfl

omit [AuditExternals] in
theorem StoreState.issueRequestId_metadata (state : StoreState) : state.issueRequestId.1.metadata = state.metadata := by
  unfold StoreState.issueRequestId
  cases checkedAdd state.nextRequestId 1 <;> rfl

omit [AuditExternals] in
theorem StoreState.issueEventIdentity_metadata (state : StoreState) :
    state.issueEventIdentity.1.metadata = state.metadata := by
  unfold StoreState.issueEventIdentity
  cases checkedAdd state.nextEventId 1 with
  | none => rfl
  | some next => cases checkedAdd state.nextServiceSequence 1 <;> rfl

/-- Metadata of the same generation that reserves more. -/
structure StoreMetadata.Raises (raised metadata : StoreMetadata) : Prop where
  generation : raised.storeGenerationId = metadata.storeGenerationId
  accounted : metadata.Accounted → raised.Accounted

omit [AuditExternals] in
theorem StoreMetadata.Raises.refl (metadata : StoreMetadata) : metadata.Raises metadata := ⟨rfl, id⟩

/-- A reservation of request ids leaves the log, and the metadata of the generation. -/
theorem StoreState.allocateRequestId_keeps (state : StoreState) (disk : AuditDisk) (fault : Option ReplaceFault) :
    (state.allocateRequestId disk fault).1.log = disk.log ∧
      (state.allocateRequestId disk fault).2.1.metadata.Raises state.metadata := by
  unfold StoreState.allocateRequestId
  split
  case isFalse => exact ⟨rfl, by rw [state.issueRequestId_metadata]; exact .refl _⟩
  case isTrue =>
    cases added : checkedAdd state.metadata.reservedRequestId counterReservationRange with
    | none => exact ⟨rfl, .refl _⟩
    | some reserved =>
      obtain ⟨-, rfl⟩ := checkedAdd_eq_some.1 added
      have log := disk.replaceMetadata_log
        { state.metadata with reservedRequestId := state.metadata.reservedRequestId + counterReservationRange } fault
      dsimp only
      split
      next replaced =>
        rw [replaced] at log
        exact ⟨log, .refl _⟩
      next replaced =>
        rw [replaced] at log
        refine ⟨log, ?_⟩
        rw [StoreState.issueRequestId_metadata]
        exact ⟨rfl, fun h => ⟨h.event, h.request.trans (Nat.le_add_right _ _), h.sequence⟩⟩

/-- A reservation of event identities leaves the log, and the metadata of the generation. -/
theorem StoreState.allocateEventIdentity_keeps (state : StoreState) (disk : AuditDisk) (fault : Option ReplaceFault) :
    (state.allocateEventIdentity disk fault).1.log = disk.log ∧
      (state.allocateEventIdentity disk fault).2.1.metadata.Raises state.metadata := by
  unfold StoreState.allocateEventIdentity
  split
  case isFalse => exact ⟨rfl, by rw [state.issueEventIdentity_metadata]; exact .refl _⟩
  case isTrue =>
    cases event : checkedAdd state.metadata.reservedEventId counterReservationRange with
    | none => exact ⟨rfl, .refl _⟩
    | some reservedEvent =>
      obtain ⟨-, rfl⟩ := checkedAdd_eq_some.1 event
      dsimp only
      cases sequence : checkedAdd state.metadata.reservedServiceSequence counterReservationRange with
      | none => exact ⟨rfl, rfl, fun h => ⟨h.event.trans (Nat.le_add_right _ _), h.request, h.sequence⟩⟩
      | some reservedSequence =>
        obtain ⟨-, rfl⟩ := checkedAdd_eq_some.1 sequence
        have log := disk.replaceMetadata_log
          { state.metadata with
            reservedEventId := state.metadata.reservedEventId + counterReservationRange
            reservedServiceSequence := state.metadata.reservedServiceSequence + counterReservationRange } fault
        dsimp only
        split
        next replaced =>
          rw [replaced] at log
          exact ⟨log, .refl _⟩
        next replaced =>
          rw [replaced] at log
          refine ⟨log, ?_⟩
          rw [StoreState.issueEventIdentity_metadata]
          exact ⟨rfl, fun h => ⟨h.event.trans (Nat.le_add_right _ _), h.request, h.sequence.trans (Nat.le_add_right _ _)⟩⟩

/-! ## Opening and recovery start from deques that agree -/

/-- A scan counts the bytes of its records. -/
theorem RecoveryScan.run_bytes {maxBytes : Nat} {now : SystemTime} {scan scan' : RecoveryScan} {records : List AuditRecord}
    (done : run maxBytes now scan records = .ok scan') : scan'.retainedBytes = scan.retainedBytes + bytesOf records := by
  induction records generalizing scan with
  | nil =>
    cases done
    rfl
  | cons entry rest ih =>
    obtain ⟨middle, first, later⟩ := run_cons_ok done
    obtain ⟨-, -, -, -, rfl⟩ := record_ok first
    have total : bytesOf (entry :: rest) = entry.2 + bytesOf rest := List.sum_cons
    rw [ih later, total]
    exact Nat.add_assoc _ _ _

/-- What a scan of the log says about the records it read and about the metadata. -/
theorem scanLog_reads {limits : AuditLimits} {metadata : StoreMetadata} {log : Option Bytes} {now : SystemTime}
    {scan : RecoveryScan} {torn : Bool} (done : scanLog limits metadata log now = .ok (scan, torn)) :
    readRecords log metadata limits.maxBytes = .ok (scan.records, torn) ∧ scan.retainedBytes = bytesOf scan.records ∧
      metadata.acceptedEventId ≤ scan.maxEvent ∧ metadata.acceptedRequestId ≤ scan.maxRequest ∧
      metadata.acceptedServiceSequence ≤ scan.maxSequence := by
  obtain ⟨records, read, run⟩ := scanLog_ok done
  obtain ⟨same, event, request, sequence⟩ := RecoveryScan.run_ok run
  have bytes := RecoveryScan.run_bytes run
  rw [RecoveryScan.start, List.nil_append] at same
  rw [RecoveryScan.start, Nat.zero_add] at bytes
  subst same
  exact ⟨read, bytes, event, request, sequence⟩

/-- What `try_recover` has checked where it has a candidate. -/
theorem recoverCandidate_ok {state recovered : StoreState} {limits : AuditLimits} {disk : AuditDisk} {now : SystemTime}
    {faults : RecoverFaults} {torn : Bool} {scan : RecoveryScan}
    (found : state.recoverCandidate limits disk now faults = .ok (recovered, torn, scan)) :
    recovered.metadata.storeGenerationId = state.metadata.storeGenerationId ∧
      scanLog limits recovered.metadata disk.log now = .ok (scan, torn) ∧ ¬scan.Unreserved recovered.metadata ∧
      recovered.records = scan.records ∧ recovered.retainedBytes = scan.retainedBytes := by
  unfold StoreState.recoverCandidate at found
  split at found
  · cases found
  · cases shown : readMetadata disk.metadata with
    | error error => rw [shown] at found; cases found
    | ok metadata =>
      rw [shown] at found
      dsimp only at found
      split at found
      · cases found
      case isFalse accepted =>
        split at found
        · cases found
        · split at found
          · cases found
          · cases scanned : scanLog limits metadata disk.log now with
            | error error => rw [scanned] at found; cases found
            | ok result =>
              obtain ⟨scan, tornScan⟩ := result
              rw [scanned] at found
              dsimp only at found
              split at found
              · cases found
              case isFalse reserved =>
                cases found
                simp only [not_or, ne_eq, Decidable.not_not] at accepted
                exact ⟨accepted.2.1, scanned, reserved, rfl, rfl⟩

omit [AuditExternals] in
theorem StoreState.deques_balanced {state : StoreState} (bytes : state.retainedBytes = bytesOf state.records) :
    state.deques.Balanced := ⟨by simp [StoreState.deques], bytes⟩

/-- An open that accepts the files starts with deques that agree. -/
theorem openState_balanced {limits : AuditLimits} {metadata : StoreMetadata} {log : Option Bytes} {now : SystemTime}
    {opened : StoreState} {torn : Bool} (found : openState limits metadata log now = .ok (opened, torn)) :
    opened.deques.Balanced ∧ opened.metadata = metadata ∧ metadata.Accounted := by
  obtain ⟨scan, -, -, scanned, reserved, -, rfl⟩ := @openState_ok _ limits ⟨none, none, [], log⟩ _ _ _ _ found
  obtain ⟨-, bytes, event, request, sequence⟩ := scanLog_reads scanned
  refine ⟨StoreState.deques_balanced bytes, rfl, ?_⟩
  rw [RecoveryScan.Unreserved] at reserved
  exact ⟨by omega, by omega, by omega⟩

/-- A candidate of `try_recover` starts with deques that agree, and with identifiers that are reserved. -/
theorem recoverCandidate_balanced {state recovered : StoreState} {limits : AuditLimits} {disk : AuditDisk}
    {now : SystemTime} {faults : RecoverFaults} {torn : Bool} {scan : RecoveryScan}
    (found : state.recoverCandidate limits disk now faults = .ok (recovered, torn, scan)) :
    recovered.deques.Balanced ∧ recovered.metadata.Accounted ∧ ¬scan.Unreserved recovered.metadata := by
  obtain ⟨-, scanned, reserved, records, bytes⟩ := recoverCandidate_ok found
  obtain ⟨-, total, event, request, sequence⟩ := scanLog_reads scanned
  refine ⟨StoreState.deques_balanced ?_, ?_, reserved⟩
  · rw [records, bytes, total]
  · rw [RecoveryScan.Unreserved] at reserved
    exact ⟨by omega, by omega, by omega⟩

/-! ## The representation invariant of a run -/

namespace StoreDeques
variable {state : StoreDeques} {limits : AuditLimits} {disk : AuditDisk}

omit [AuditExternals] in
theorem Balanced.accept (h : state.Balanced) (event : SecurityAuditEvent) (length : Nat) :
    (state.accept event length).Balanced := by
  refine ⟨?_, ?_⟩
  · simp [StoreDeques.accept, h.lengths]
  · simp [StoreDeques.accept, h.bytes]

omit [AuditExternals] in
theorem Represents.withCounters (h : state.Represents limits) {counters : StoreState}
    (raises : counters.metadata.Raises state.metadata) : (state.withCounters counters).Represents limits :=
  h.of_same rfl rfl rfl (raises.accounted h.accounted)

omit [AuditExternals] in
theorem Represents.degrade (h : state.Represents limits) (degraded : Bool) :
    { state with degraded }.Represents limits := h.of_same rfl rfl rfl h.accounted

theorem Represents.afterPrune (h : state.Represents limits) (before : Nat) (disk : AuditDisk) (faults : AppendFaults) :
    (state.afterPrune before disk faults).2.1.Represents limits := by
  unfold StoreDeques.afterPrune
  dsimp only
  split
  · exact h.degrade true
  · split
    · exact h.degrade true
    · exact h.degrade false

/-- The event of an append that is accepted is reserved. -/
theorem Represents.append (h : state.Represents limits) {event : SecurityAuditEvent} {now later : SystemTime}
    {faults : AppendFaults} {fuel : Nat} {done : AuditDisk × StoreDeques × Except SecurityAuditSinkError Unit}
    (ran : state.append limits disk event now later faults fuel = some done) : done.2.1.Represents limits := by
  unfold StoreDeques.append at ran
  split at ran
  · cases ran
    exact h
  · split at ran
    · cases ran
      exact h
    next bytes _ =>
      dsimp only at ran
      split at ran
      · cases ran
        exact h
      · split at ran
        · cases ran
          exact h.degrade true
        case isFalse reserved =>
          split at ran
          · cases ran
            exact h.degrade true
          · obtain ⟨pruned, done', rfl⟩ := Option.map_eq_some_iff.1 ran
            refine ((h.balanced.accept event _).pruned done' ?_).afterPrune _ _ _
            simp only [not_or, Nat.not_lt] at reserved
            exact ⟨max_le h.accounted.event reserved.1, max_le h.accounted.request reserved.2.1,
              max_le h.accounted.sequence reserved.2.2⟩

/-- A recovery keeps the state or replaces it by one that is within the limits. -/
theorem Represents.tryRecover (h : state.Represents limits) {now later : SystemTime} {faults : RecoverFaults} {fuel : Nat}
    {done : AuditDisk × StoreDeques × Except SecurityAuditSinkError SecurityAuditSinkHealth}
    (ran : state.tryRecover limits disk now later faults fuel = some done) : done.2.1.Represents limits := by
  unfold StoreDeques.tryRecover at ran
  cases found : state.counters.recoverCandidate limits disk now faults with
  | error error =>
    rw [found] at ran
    cases ran
    exact h.degrade true
  | ok result =>
    obtain ⟨recovered, torn, scan⟩ := result
    rw [found] at ran
    obtain ⟨candidate, pruned, rfl⟩ := Option.map_eq_some_iff.1 ran
    obtain ⟨balanced, accounted, reserved⟩ := recoverCandidate_balanced found
    have within := balanced.pruned pruned accounted
    have same : candidate.metadata = recovered.metadata := (pruneLoop_prunedFrom pruned).1.metadata
    dsimp only
    unfold StoreDeques.adopt
    dsimp only
    split
    · exact h.degrade true
    · split
      · exact h.degrade true
      · split
        · exact h.degrade true
        · refine within.of_same rfl rfl rfl ?_
          rw [same]
          simp only [RecoveryScan.Unreserved, not_or, Nat.not_lt] at reserved
          exact ⟨reserved.1, reserved.2.1, reserved.2.2⟩

end StoreDeques

/-- A store that opens is within its limits. -/
theorem AuditDisk.openDequeFiles_represents {disk : AuditDisk} {limits : AuditLimits} {metadata : StoreMetadata}
    {mode : SecurityAuditStoreOpenState} {now later : SystemTime} {faults : OpenFaults} {fuel : Nat}
    {done : AuditDisk × Except SecurityAuditStoreOpenError (StoreDeques × SecurityAuditStoreRecovery)}
    (ran : disk.openDequeFiles limits metadata mode now later faults fuel = some done) {state : StoreDeques}
    {recovery : SecurityAuditStoreRecovery} (opened : done.2 = .ok (state, recovery)) : state.Represents limits := by
  unfold AuditDisk.openDequeFiles at ran
  split at ran
  · cases ran
    cases opened
  · cases found : openState limits metadata disk.log now with
    | error error =>
      rw [found] at ran
      cases ran
      cases opened
    | ok result =>
      obtain ⟨recovered, torn⟩ := result
      rw [found] at ran
      obtain ⟨pruned, retained, rfl⟩ := Option.map_eq_some_iff.1 ran
      obtain ⟨balanced, same, accounted⟩ := openState_balanced found
      have within : pruned.Represents limits := by
        refine balanced.pruned retained ?_
        show recovered.metadata.Accounted
        rw [same]
        exact accounted
      dsimp only at opened
      split at opened
      · split at opened
        · cases opened
        · cases opened
          exact within
      · cases opened
        exact within

theorem AuditDisk.openDeques_represents {disk : AuditDisk} {limits : AuditLimits} {generation : Option String}
    {now later : SystemTime} {faults : OpenFaults} {fuel : Nat}
    {done : AuditDisk × Except SecurityAuditStoreOpenError (StoreDeques × SecurityAuditStoreRecovery)}
    (ran : disk.openDeques limits generation now later faults fuel = some done) {state : StoreDeques}
    {recovery : SecurityAuditStoreRecovery} (opened : done.2 = .ok (state, recovery)) : state.Represents limits := by
  unfold AuditDisk.openDeques at ran
  split at ran
  · cases ran
    cases opened
  · split at ran
    · cases ran
      cases opened
    · split at ran
      · split at ran
        · cases ran
          cases opened
        · split at ran
          · cases ran
            cases opened
          · exact openDequeFiles_represents ran opened
      · split at ran
        · cases ran
          cases opened
        · split at ran
          · cases ran
            cases opened
          · exact openDequeFiles_represents ran opened

namespace AuditProcess

/-- The store that is open, if one is, keeps the representation invariant. -/
def Represents (p : AuditProcess) : Prop := ∀ limits state, p.store = some (limits, state) → state.Represents limits

omit [AuditExternals] in
theorem Represents.closed (disk : AuditDisk) : Represents ⟨disk, none⟩ := nofun

omit [AuditExternals] in
theorem Represents.opened (disk : AuditDisk) {limits : AuditLimits} {state : StoreDeques} (h : state.Represents limits) :
    Represents ⟨disk, some (limits, state)⟩ := by
  rintro _ _ ⟨⟩
  exact h

omit [AuditExternals] in
theorem Represents.crash {p : AuditProcess} (h : p.Represents) (file log : Option Bytes) :
    Represents (if p.disk.Survives file then ⟨⟨file, file, [], log⟩, none⟩ else p) := by
  split
  · exact .closed _
  · exact h

theorem Represents.step {p p' : AuditProcess} (h : p.Represents) {fuel : Nat} {operation : AuditOperation}
    (ran : p.step fuel operation = some p') : p'.Represents := by
  obtain ⟨disk, store⟩ := p
  cases store with
  | none =>
    cases operation with
    | openStore limits generation now later faults =>
      obtain ⟨⟨after, result⟩, opens, rfl⟩ := Option.map_eq_some_iff.1 ran
      cases result with
      | error error => exact .closed _
      | ok opened => exact .opened _ (AuditDisk.openDeques_represents opens rfl)
    | crash file log =>
      cases ran
      exact h.crash file log
    | _ =>
      cases ran
      exact h
  | some current =>
    obtain ⟨limits, state⟩ := current
    have represents : state.Represents limits := h limits state rfl
    cases operation with
    | openStore =>
      cases ran
      exact h
    | drop =>
      cases ran
      exact .closed _
    | allocateRequestId fault =>
      cases ran
      exact .opened _ (represents.withCounters (state.counters.allocateRequestId_keeps disk fault).2)
    | allocateEventIdentity fault =>
      cases ran
      exact .opened _ (represents.withCounters (state.counters.allocateEventIdentity_keeps disk fault).2)
    | append event now later faults =>
      obtain ⟨done, appends, rfl⟩ := Option.map_eq_some_iff.1 ran
      exact .opened _ (represents.append appends)
    | tryRecover now later faults =>
      obtain ⟨done, recovers, rfl⟩ := Option.map_eq_some_iff.1 ran
      exact .opened _ (represents.tryRecover recovers)
    | crash file log =>
      cases ran
      exact h.crash file log

theorem Represents.run {p p' : AuditProcess} (h : p.Represents) (run : ReflTransGen Step p p') : p'.Represents := by
  induction run with
  | refl => exact h
  | tail _ step ih =>
    obtain ⟨operation, fuel, ran⟩ := step
    exact ih.step ran

end AuditProcess

/-! ## Every operation ends -/

theorem AuditDisk.openDequeFiles_returns (disk : AuditDisk) (limits : AuditLimits) (metadata : StoreMetadata)
    (mode : SecurityAuditStoreOpenState) (now later : SystemTime) (faults : OpenFaults) :
    ∃ fuel done, disk.openDequeFiles limits metadata mode now later faults fuel = some done := by
  unfold AuditDisk.openDequeFiles
  split
  · exact ⟨0, _, rfl⟩
  · split
    · exact ⟨0, _, rfl⟩
    next recovered torn found =>
      obtain ⟨fuel, pruned, -, done, -⟩ := (openState_balanced found).1.prunes limits later
      exact ⟨fuel, _, by rw [done]; rfl⟩

theorem AuditDisk.openDeques_returns (disk : AuditDisk) (limits : AuditLimits) (generation : Option String)
    (now later : SystemTime) (faults : OpenFaults) :
    ∃ fuel done, disk.openDeques limits generation now later faults fuel = some done := by
  unfold AuditDisk.openDeques
  split
  · exact ⟨0, _, rfl⟩
  · split
    · exact ⟨0, _, rfl⟩
    · split
      · split
        · exact ⟨0, _, rfl⟩
        · split
          · exact ⟨0, _, rfl⟩
          · exact openDequeFiles_returns ..
      · split
        · exact ⟨0, _, rfl⟩
        · split
          · exact ⟨0, _, rfl⟩
          · exact openDequeFiles_returns ..

theorem StoreDeques.Balanced.append_returns {state : StoreDeques} (h : state.Balanced) (limits : AuditLimits)
    (disk : AuditDisk) (event : SecurityAuditEvent) (now later : SystemTime) (faults : AppendFaults) :
    ∃ fuel done, state.append limits disk event now later faults fuel = some done := by
  unfold StoreDeques.append
  split
  · exact ⟨0, _, rfl⟩
  · split
    · exact ⟨0, _, rfl⟩
    next bytes _ =>
      dsimp only
      split
      · exact ⟨0, _, rfl⟩
      · split
        · exact ⟨0, _, rfl⟩
        · split
          · exact ⟨0, _, rfl⟩
          · obtain ⟨fuel, pruned, -, done, -⟩ := (h.accept event (bytes ++ [newline]).length).prunes limits later
            exact ⟨fuel, _, by rw [done]; rfl⟩

theorem StoreDeques.tryRecover_returns (state : StoreDeques) (limits : AuditLimits) (disk : AuditDisk)
    (now later : SystemTime) (faults : RecoverFaults) :
    ∃ fuel done, state.tryRecover limits disk now later faults fuel = some done := by
  unfold StoreDeques.tryRecover
  split
  · exact ⟨0, _, rfl⟩
  next recovered torn scan found =>
    obtain ⟨fuel, pruned, -, done, -⟩ := (recoverCandidate_balanced found).1.prunes limits later
    exact ⟨fuel, _, by rw [done]; rfl⟩

namespace AuditProcess

theorem Represents.returns {p : AuditProcess} (h : p.Represents) (operation : AuditOperation) :
    ∃ fuel p', p.step fuel operation = some p' := by
  obtain ⟨disk, store⟩ := p
  cases store with
  | none =>
    cases operation with
    | openStore limits generation now later faults =>
      obtain ⟨fuel, done, opens⟩ := disk.openDeques_returns limits generation now later faults
      exact ⟨fuel, _, Option.map_eq_some_iff.2 ⟨done, opens, rfl⟩⟩
    | _ => exact ⟨0, _, rfl⟩
  | some current =>
    obtain ⟨limits, state⟩ := current
    cases operation with
    | append event now later faults =>
      obtain ⟨fuel, done, appends⟩ := (h limits state rfl).balanced.append_returns limits disk event now later faults
      exact ⟨fuel, _, Option.map_eq_some_iff.2 ⟨done, appends, rfl⟩⟩
    | tryRecover now later faults =>
      obtain ⟨fuel, done, recovers⟩ := state.tryRecover_returns limits disk now later faults
      exact ⟨fuel, _, Option.map_eq_some_iff.2 ⟨done, recovers, rfl⟩⟩
    | _ => exact ⟨0, _, rfl⟩

/-- The representation invariant of a process: that of its store; each pruning that an
operation does from here on ends, having removed a first part; and so does the operation. -/
structure Sound (p : AuditProcess) : Prop where
  represents : p.Represents
  openPrunes : ∀ limits metadata now later recovered torn,
    openState limits metadata p.disk.log now = .ok (recovered, torn) → recovered.deques.Prunes limits later
  appendPrunes : ∀ limits state, p.store = some (limits, state) →
    ∀ event length later, (state.accept event length).Prunes limits later
  recoverPrunes : ∀ limits state, p.store = some (limits, state) → ∀ now later faults recovered torn scan,
    state.counters.recoverCandidate limits p.disk now faults = .ok (recovered, torn, scan) →
      recovered.deques.Prunes limits later
  returns : ∀ operation, ∃ fuel p', p.step fuel operation = some p'

theorem Represents.sound {p : AuditProcess} (h : p.Represents) : p.Sound where
  represents := h
  openPrunes limits _ _ later _ _ found := (openState_balanced found).1.prunes limits later
  appendPrunes limits state opened event length later := ((h limits state opened).balanced.accept event length).prunes limits later
  recoverPrunes limits _ _ _ later _ _ _ _ found := (recoverCandidate_balanced found).1.prunes limits later
  returns := h.returns

/-- A directory without a store, and any log. -/
def new (log : Option Bytes) : AuditProcess := ⟨⟨none, none, [], log⟩, none⟩

end AuditProcess

end Store
