import Mathlib.Algebra.Order.BigOperators.Group.List
import Mathlib.Algebra.Order.Ring.Nat
import Grm.Service.AuditRecover

/-!
# Logs that recovery accepts

What a log and its metadata must be for recovery to accept them, in terms of the list of
records that the log holds: the lines of those records, and perhaps a torn one. Pruning
the records is a first-in first-out retention.
-/

set_option autoImplicit false

/-- A record: an event with its line's length. -/
abbrev AuditRecord := SecurityAuditEvent × Nat

/-! ## Pruning is a retention -/

/-- The bytes of records. -/
def bytesOf (records : List AuditRecord) : Nat := (records.map Prod.snd).sum

@[simp] theorem bytesOf_append (a b : List AuditRecord) : bytesOf (a ++ b) = bytesOf a + bytesOf b := by
  simp [bytesOf]

theorem bytesOf_sublist {a b : List AuditRecord} (sublist : a.Sublist b) : bytesOf a ≤ bytesOf b :=
  (sublist.map Prod.snd).sum_le_sum fun _ _ => Nat.zero_le _

/-- A record is past its age at a clock reading. -/
def AuditLimits.stale (limits : AuditLimits) (now : SystemTime) (record : AuditRecord) : Bool :=
  (SystemTime.checkedSub now limits.maxAge).any fun cutoff => decide (record.1.timestamp < cutoff)

/-- Records that retention leaves as they are. -/
def AuditLimits.fits (limits : AuditLimits) (now : SystemTime) (records : List AuditRecord) : Bool :=
  decide (records.length ≤ limits.maxEvents) && decide (bytesOf records ≤ limits.maxBytes) &&
    !(records.head?.any (limits.stale now))

theorem AuditLimits.fits_nil (limits : AuditLimits) (now : SystemTime) : limits.fits now [] = true := by
  simp [fits, bytesOf]

theorem pruneLoop_eq (limits : AuditLimits) (now : SystemTime) (records : List AuditRecord) :
    pruneLoop limits (SystemTime.checkedSub now limits.maxAge) records (bytesOf records) =
      (Retention.retain (limits.fits now) records, bytesOf (Retention.retain (limits.fits now) records)) := by
  induction records with
  | nil => rfl
  | cons record rest ih =>
    have bytes : bytesOf (record :: rest) = record.2 + bytesOf rest := List.sum_cons
    have drops : (limits.maxEvents < rest.length + 1 ∨ limits.maxBytes < bytesOf (record :: rest) ∨
        ((SystemTime.checkedSub now limits.maxAge).any fun cutoff => decide (record.1.timestamp < cutoff)) = true) ↔
        ¬limits.fits now (record :: rest) = true := by
      simp only [AuditLimits.fits, AuditLimits.stale, List.length_cons, List.head?_cons, Option.any_some, Bool.and_eq_true,
        decide_eq_true_eq, Bool.not_eq_true', Bool.not_eq_false, not_and_or, Nat.not_le, or_assoc]
    rw [pruneLoop, Retention.retain]
    by_cases kept : limits.fits now (record :: rest) = true
    · rw [if_neg (fun dropped => drops.1 dropped kept), if_pos kept]
    · rw [if_pos (drops.2 kept), if_neg kept, bytes, Nat.add_sub_cancel_left]
      exact ih

/-- Pruning of a state whose retained bytes are those of its records. -/
theorem StoreState.pruneRetention_eq {state : StoreState} (bytes : state.retainedBytes = bytesOf state.records)
    (limits : AuditLimits) (now : SystemTime) :
    state.pruneRetention limits now = { state with
      records := Retention.retain (limits.fits now) state.records
      retainedBytes := bytesOf (Retention.retain (limits.fits now) state.records) } := by
  unfold pruneRetention
  rw [bytes, pruneLoop_eq]

section Log
variable [AuditExternals]
open AuditExternals

/-! ## The lines of a log -/

/-- A record that recovery accepts: its event can be encoded, its length is that of its
line, and it passes the checks of a single record. -/
structure AuditRecord.Recoverable (limits : AuditLimits) (generation : String) (record : AuditRecord) : Prop where
  line : ∃ bytes, recordToVec ⟨recordVersion, generation, record.1⟩ = some bytes ∧ record.2 = bytes.length + 1
  valid : record.1.validateCommon eventStructSize = true
  bounded : record.2 ≤ securityAuditMaxEventBytes
  fits : record.2 ≤ limits.maxBytes

/-- Identifiers increase from record to record. -/
def AuditRecord.Before (a b : AuditRecord) : Prop := a.1.eventId < b.1.eventId ∧ a.1.serviceSequence < b.1.serviceSequence

/-- Records in the order that recovery demands. -/
structure InOrder (records : List AuditRecord) : Prop where
  positive : ∀ record ∈ records, 0 < record.1.eventId ∧ 0 < record.1.serviceSequence
  increasing : records.Pairwise AuditRecord.Before

/-- The identifiers of a record are reserved. -/
structure AuditRecord.Reserved (metadata : StoreMetadata) (record : AuditRecord) : Prop where
  event : record.1.eventId ≤ metadata.reservedEventId
  request : record.1.requestId ≤ metadata.reservedRequestId
  sequence : record.1.serviceSequence ≤ metadata.reservedServiceSequence

variable {limits : AuditLimits} {generation : String} {records more : List AuditRecord} {bytes tail : Bytes}

omit [AuditExternals] in
theorem InOrder.sublist (inOrder : InOrder records) (sublist : more.Sublist records) : InOrder more :=
  ⟨fun record member => inOrder.positive record (sublist.subset member), inOrder.increasing.sublist sublist⟩

/-- The records can be encoded, and their lines have their lengths. -/
theorem encodeRecords_recoverable (recoverable : ∀ record ∈ records, record.Recoverable limits generation) :
    ∃ bytes, encodeRecords generation (records.map Prod.fst) = some bytes ∧ bytes.length = bytesOf records := by
  induction records with
  | nil => exact ⟨[], rfl, rfl⟩
  | cons record rest ih =>
    obtain ⟨line, encoded, length⟩ := (recoverable record List.mem_cons_self).line
    obtain ⟨more, written, total⟩ := ih fun other member => recoverable other (List.mem_cons_of_mem _ member)
    refine ⟨line ++ newline :: more, ?_, ?_⟩
    · rw [List.map_cons, encodeRecords, encoded, written]
      rfl
    · show _ = record.2 + bytesOf rest
      rw [List.length_append, List.length_cons, total, length]
      omega

/-- The lines of a log are those of its records. -/
theorem encodeRecords_append {events later : List SecurityAuditEvent} {first second : Bytes}
    (start : encodeRecords generation events = some first) (rest : encodeRecords generation later = some second) :
    encodeRecords generation (events ++ later) = some (first ++ second) := by
  induction events generalizing first with
  | nil =>
    cases start
    exact rest
  | cons event events ih =>
    unfold encodeRecords at start
    cases encoded : recordToVec ⟨recordVersion, generation, event⟩ with
    | none => rw [encoded] at start; cases start
    | some line =>
      rw [encoded] at start
      cases written : encodeRecords generation events with
      | none => rw [written] at start; cases start
      | some more =>
        rw [written] at start
        cases start
        rw [List.cons_append, encodeRecords, encoded, ih written]
        show some (line ++ newline :: (more ++ second)) = some ((line ++ newline :: more) ++ second)
        rw [List.append_assoc, List.cons_append]

/-- What `read_records` reads from the lines of recoverable records, and from a torn line
after them. -/
theorem readLines_encoded (lawful : AuditExternals.Lawful) {metadata : StoreMetadata}
    (recoverable : ∀ record ∈ records, record.Recoverable limits metadata.storeGenerationId)
    (encoded : encodeRecords metadata.storeGenerationId (records.map Prod.fst) = some bytes) (torn : newline ∉ tail) :
    readLines metadata (LineLog.lines newline (bytes ++ tail)) = .ok records := by
  induction records generalizing bytes with
  | nil =>
    cases encoded
    rw [List.nil_append, LineLog.lines_unterminated torn]
    rfl
  | cons record rest ih =>
    obtain ⟨line, encodedLine, length⟩ := (recoverable record List.mem_cons_self).line
    rw [List.map_cons, encodeRecords, encodedLine] at encoded
    cases written : encodeRecords metadata.storeGenerationId (rest.map Prod.fst) with
    | none => rw [written] at encoded; cases encoded
    | some more =>
      rw [written] at encoded
      cases encoded
      have decoded : decodeLine metadata line = .ok record := by
        unfold decodeLine
        rw [lawful.record _ _ encodedLine]
        dsimp only
        rw [if_neg (fun other => other rfl), if_neg (fun other => other rfl), ← length]
      have someLine : line.isEmpty = false := by
        rw [List.isEmpty_eq_false_iff]
        exact lawful.visible _ _ encodedLine
      rw [List.append_assoc, List.cons_append, LineLog.lines_cons (lawful.oneLine _ _ encodedLine), readLines, someLine,
        if_neg Bool.false_ne_true, decoded,
        ih (fun other member => recoverable other (List.mem_cons_of_mem _ member)) written]
      rfl

/-- The end of the lines of a log is the end of a line. -/
theorem terminated_encoded (encoded : encodeRecords generation (records.map Prod.fst) = some bytes) :
    LineLog.Terminated newline bytes := by
  induction records generalizing bytes with
  | nil =>
    cases encoded
    exact .inl rfl
  | cons record rest ih =>
    rw [List.map_cons, encodeRecords] at encoded
    cases line : recordToVec ⟨recordVersion, generation, record.1⟩ with
    | none => rw [line] at encoded; cases encoded
    | some first =>
      rw [line] at encoded
      cases written : encodeRecords generation (rest.map Prod.fst) with
      | none => rw [written] at encoded; cases encoded
      | some more =>
        rw [written] at encoded
        cases encoded
        have whole : LineLog.Terminated newline (first ++ [newline]) := LineLog.terminated_concat first
        have ended := whole.append (ih written)
        rwa [List.append_assoc] at ended

/-! ## Recovery of a sound log -/

/-- A log that holds the records, and perhaps a torn line after them, within the size that
recovery reads. -/
structure LogHolds (limits : AuditLimits) (generation : String) (log : Option Bytes) (records : List AuditRecord)
    (tail : Bytes) : Prop where
  lines : (log = none ∧ records = [] ∧ tail = []) ∨ ∃ bytes, encodeRecords generation (records.map Prod.fst) = some bytes ∧
    log = some (bytes ++ tail)
  torn : newline ∉ tail
  recoverable : ∀ record ∈ records, record.Recoverable limits generation
  inOrder : InOrder records
  size : (log.getD []).length ≤ limits.maxBytes + securityAuditMaxEventBytes

end Log
