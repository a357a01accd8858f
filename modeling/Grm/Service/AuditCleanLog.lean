import Grm.Service.AuditRepresentation

/-!
# The log of a run without faults

Where no file operation fails, the log is the lines of the retained events: an accepted
event adds its line, and whenever pruning removes events the log is written again. What
carries the runs is that such a log is read back as the records it was written from.
-/

open Relation

set_option autoImplicit false

section Store
variable [AuditExternals]
open AuditExternals

/-! ## The lines of records -/

/-- The length of a record's line. -/
def lineLength (generation : String) (event : SecurityAuditEvent) : Nat :=
  ((recordToVec ⟨recordVersion, generation, event⟩).getD []).length + 1

theorem encodeRecords_length {generation : String} {events : List SecurityAuditEvent} {bytes : Bytes}
    (encoded : encodeRecords generation events = some bytes) : bytes.length = (events.map (lineLength generation)).sum := by
  induction events generalizing bytes with
  | nil =>
    cases encoded
    rfl
  | cons event rest ih =>
    rw [encodeRecords] at encoded
    obtain ⟨line, encodedLine, encoded⟩ := Option.bind_eq_some_iff.1 encoded
    obtain ⟨more, written, encoded⟩ := Option.bind_eq_some_iff.1 encoded
    cases encoded
    rw [List.length_append, List.length_cons, ih written, List.map_cons, List.sum_cons, lineLength, encodedLine,
      Option.getD_some]
    omega

/-- The lines of a list of records are those of its two parts. -/
theorem encodeRecords_split {generation : String} {first second : List SecurityAuditEvent} {bytes : Bytes}
    (encoded : encodeRecords generation (first ++ second) = some bytes) :
    ∃ later, encodeRecords generation second = some later := by
  induction first generalizing bytes with
  | nil => exact ⟨bytes, encoded⟩
  | cons event first ih =>
    rw [List.cons_append, encodeRecords] at encoded
    obtain ⟨line, -, encoded⟩ := Option.bind_eq_some_iff.1 encoded
    obtain ⟨more, written, -⟩ := Option.bind_eq_some_iff.1 encoded
    exact ih written

/-- What is read from the lines of records are the records. -/
theorem readLines_written (lawful : AuditExternals.Lawful) {generation : String} {events : List SecurityAuditEvent}
    {bytes : Bytes} (encoded : encodeRecords generation events = some bytes) {metadata : StoreMetadata}
    {records : List AuditRecord} (read : readLines metadata (LineLog.lines newline bytes) = .ok records) :
    records = events.map (fun event => (event, lineLength generation event)) ∧
      (events = [] ∨ metadata.storeGenerationId = generation) := by
  induction events generalizing bytes records with
  | nil =>
    cases encoded
    cases read
    exact ⟨rfl, .inl rfl⟩
  | cons event rest ih =>
    rw [encodeRecords] at encoded
    obtain ⟨line, encodedLine, encoded⟩ := Option.bind_eq_some_iff.1 encoded
    obtain ⟨more, written, encoded⟩ := Option.bind_eq_some_iff.1 encoded
    cases encoded
    have someLine : line.isEmpty = false := by
      rw [List.isEmpty_eq_false_iff]
      exact lawful.visible _ _ encodedLine
    rw [LineLog.lines_cons (lawful.oneLine _ _ encodedLine), readLines, someLine, if_neg Bool.false_ne_true] at read
    cases decoded : decodeLine metadata line with
    | error error => rw [decoded] at read; cases read
    | ok record =>
      rw [decoded] at read
      cases later : readLines metadata (LineLog.lines newline more) with
      | error error => rw [later] at read; cases read
      | ok others =>
        rw [later] at read
        cases read
        obtain ⟨rfl, -⟩ := ih written later
        unfold decodeLine at decoded
        rw [lawful.record _ _ encodedLine] at decoded
        dsimp only at decoded
        rw [if_neg (fun other => other rfl)] at decoded
        split at decoded
        · cases decoded
        case isFalse same =>
          cases decoded
          refine ⟨?_, .inr (Decidable.not_not.1 same).symm⟩
          rw [List.map_cons, lineLength, encodedLine, Option.getD_some]

/-- The log is the lines of some records. -/
def LogWritten (log : Option Bytes) : Prop := ∃ generation events, encodeRecords generation events = some (log.getD [])

/-- The log is the lines of the retained events, and their lengths are those of the lines. -/
structure StoreDeques.Matches (state : StoreDeques) (log : Option Bytes) : Prop where
  written : encodeRecords state.metadata.storeGenerationId state.events = some (log.getD [])
  lengths : state.recordBytes = state.events.map (lineLength state.metadata.storeGenerationId)

theorem StoreDeques.Matches.logWritten {state : StoreDeques} {log : Option Bytes} (h : state.Matches log) : LogWritten log :=
  ⟨_, _, h.written⟩

/-- Such a log is read as the records it was written from. -/
theorem readRecords_written (lawful : AuditExternals.Lawful) {log : Option Bytes} (written : LogWritten log)
    {metadata : StoreMetadata} {maxBytes : Nat} {records : List AuditRecord} {torn : Bool}
    (read : readRecords log metadata maxBytes = .ok (records, torn)) :
    torn = false ∧ encodeRecords metadata.storeGenerationId (records.map Prod.fst) = some (log.getD []) ∧
      records.map Prod.snd = (records.map Prod.fst).map (lineLength metadata.storeGenerationId) := by
  obtain ⟨generation, events, encoded⟩ := written
  unfold readRecords at read
  split at read
  · cases read
  · split at read
    · cases read
      exact ⟨rfl, rfl, rfl⟩
    next bytes =>
      split at read
      · cases read
      · cases lines : readLines metadata (LineLog.lines newline bytes) with
        | error error => rw [lines] at read; cases read
        | ok found =>
          rw [lines] at read
          cases read
          have whole : encodeRecords generation ((events.map fun event => (event, 0)).map Prod.fst) = some bytes := by
            rw [List.map_map]
            simpa [Function.comp_def] using encoded
          have ended := terminated_encoded whole
          refine ⟨by simp [ended], ?_⟩
          obtain ⟨rfl, none | same⟩ := readLines_written lawful encoded lines
          · subst none
            exact ⟨encoded, rfl⟩
          · rw [same, List.map_map, List.map_map, List.map_map]
            refine ⟨?_, rfl⟩
            simpa [Function.comp_def] using encoded

namespace StoreDeques
variable {state pruned : StoreDeques} {log : Option Bytes} {limits : AuditLimits} {disk : AuditDisk}

/-- The retained events can be written again. -/
theorem Matches.retained (h : state.Matches log) (prunes : pruned.PrunedFrom state) :
    ∃ bytes, pruned.Matches (some bytes) := by
  obtain ⟨k, same⟩ := prunes
  have split : encodeRecords state.metadata.storeGenerationId (state.events.take k ++ state.events.drop k) =
      some (log.getD []) := by
    rw [List.take_append_drop]
    exact h.written
  obtain ⟨bytes, encoded⟩ := encodeRecords_split split
  refine ⟨bytes, ?_, ?_⟩
  · rw [same]
    exact encoded
  · rw [same]
    simp only [h.lengths, List.map_drop]

/-- Where nothing was removed the log is still that of the events. -/
theorem Matches.intact (h : state.Matches log) (prunes : pruned.PrunedFrom state)
    (same : pruned.events.length = state.events.length) : pruned.Matches log := by
  obtain ⟨bytes, again⟩ := h.retained prunes
  obtain ⟨k, changed⟩ := prunes
  have events : pruned.events = state.events := by
    have suffix : pruned.events <:+ state.events := by
      rw [changed]
      exact List.drop_suffix k _
    exact suffix.eq_of_length same
  have metadata : pruned.metadata = state.metadata := by rw [changed]
  refine ⟨?_, again.lengths⟩
  rw [events, metadata]
  exact h.written

theorem compact_matches {bytes : Bytes} (h : pruned.Matches (some bytes)) (disk : AuditDisk) :
    disk.compact pruned.metadata pruned.events none = ({ disk with log := some bytes }.syncDir, .ok ()) := by
  unfold AuditDisk.compact
  rw [h.written]
  rfl

theorem Matches.afterPrune (h : state.Matches disk.log) (prunes : pruned.PrunedFrom state) :
    (pruned.afterPrune state.events.length disk .none).2.1.Matches
      (pruned.afterPrune state.events.length disk .none).1.log := by
  have replaced : ∀ {disk : AuditDisk}, pruned.Matches disk.log →
      pruned.Matches (disk.replaceMetadata pruned.metadata none).1.log := by
    intro disk matched
    rw [disk.replaceMetadata_log]
    exact matched
  unfold StoreDeques.afterPrune
  rw [show AppendFaults.none.compaction = none from rfl, show AppendFaults.none.metadata = none from rfl]
  dsimp only
  by_cases same : pruned.events.length = state.events.length
  · rw [if_neg (not_not.2 same)]
    have last := replaced (h.intact prunes same)
    dsimp only
    split
    next disk' done =>
      rw [done] at last
      exact ⟨last.written, last.lengths⟩
    next disk' done =>
      rw [done] at last
      exact ⟨last.written, last.lengths⟩
  · obtain ⟨bytes, again⟩ := h.retained prunes
    rw [if_pos same, compact_matches again]
    have last := @replaced ({ disk with log := some bytes }.syncDir) again
    dsimp only
    split
    next disk' done =>
      rw [done] at last
      exact ⟨last.written, last.lengths⟩
    next disk' done =>
      rw [done] at last
      exact ⟨last.written, last.lengths⟩

omit [AuditExternals] in
theorem acceptLine_none (disk : AuditDisk) (line : Bytes) :
    ∃ written, disk.acceptLine line .none = (written, true) ∧ written.log = some (disk.log.getD [] ++ line) := by
  unfold AuditDisk.acceptLine AuditDisk.appendAndSync
  rw [show AppendFaults.none.log = none from rfl]
  dsimp only
  split
  · exact ⟨_, rfl, rfl⟩
  · rw [if_neg (by decide)]
    exact ⟨_, rfl, rfl⟩

/-- An event whose line is at the end of the log. -/
theorem Matches.accept (h : state.Matches log) {event : SecurityAuditEvent} {bytes : Bytes}
    (encoded : recordToVec ⟨recordVersion, state.metadata.storeGenerationId, event⟩ = some bytes) :
    (state.accept event (bytes ++ [newline]).length).Matches (some (log.getD [] ++ (bytes ++ [newline]))) := by
  have last : encodeRecords state.metadata.storeGenerationId [event] = some (bytes ++ [newline]) := by
    rw [encodeRecords, encoded]
    rfl
  refine ⟨encodeRecords_append h.written last, ?_⟩
  have length : lineLength state.metadata.storeGenerationId event = (bytes ++ [newline]).length := by
    rw [lineLength, encoded, Option.getD_some, List.length_append]
    rfl
  show state.recordBytes ++ [_] = (state.events ++ [event]).map (lineLength state.metadata.storeGenerationId)
  rw [h.lengths, List.map_append, List.map_singleton, length]

theorem Matches.append (h : state.Matches disk.log) {event : SecurityAuditEvent} {now later : SystemTime} {fuel : Nat}
    {done : AuditDisk × StoreDeques × Except SecurityAuditSinkError Unit}
    (ran : state.append limits disk event now later .none fuel = some done) : done.2.1.Matches done.1.log := by
  unfold StoreDeques.append at ran
  split at ran
  · cases ran
    exact h
  · split at ran
    · cases ran
      exact h
    next bytes encoded =>
      dsimp only at ran
      split at ran
      · cases ran
        exact h
      · split at ran
        · cases ran
          exact ⟨h.written, h.lengths⟩
        · obtain ⟨written, accepts, log⟩ := acceptLine_none disk (bytes ++ [newline])
          rw [accepts] at ran
          obtain ⟨pruned, retained, rfl⟩ := Option.map_eq_some_iff.1 ran
          refine Matches.afterPrune ?_ (pruneLoop_prunedFrom retained).1
          rw [log]
          exact h.accept encoded

theorem Matches.withCounters {log' : Option Bytes} (h : state.Matches log) {counters : StoreState}
    (raises : counters.metadata.Raises state.metadata) (same : log' = log) :
    (state.withCounters counters).Matches log' := by
  refine ⟨?_, ?_⟩
  · show encodeRecords counters.metadata.storeGenerationId state.events = some (log'.getD [])
    rw [raises.generation, same]
    exact h.written
  · show state.recordBytes = state.events.map (lineLength counters.metadata.storeGenerationId)
    rw [raises.generation]
    exact h.lengths

/-- What was read from a log of records matches it. -/
theorem matches_of_read (lawful : AuditExternals.Lawful) (written : LogWritten log) {recovered : StoreState} {maxBytes : Nat}
    {torn : Bool} (read : readRecords log recovered.metadata maxBytes = .ok (recovered.records, torn)) :
    torn = false ∧ recovered.deques.Matches log := by
  obtain ⟨whole, encoded, lengths⟩ := readRecords_written lawful written read
  exact ⟨whole, encoded, lengths⟩

/-- A repair without faults leaves the log of the candidate's events, or is refused and changes nothing. -/
theorem Matches.repairLog (h : state.Matches disk.log) (prunes : pruned.PrunedFrom state) (compacted : Bool)
    (unchanged : compacted = false → pruned.events.length = state.events.length) :
    (∃ disk', pruned.repairLog disk compacted .none = (disk', .ok ()) ∧ pruned.Matches disk'.log) ∨
      ∃ error, pruned.repairLog disk compacted .none = (disk, .error error) := by
  unfold StoreDeques.repairLog
  rw [show RecoverFaults.none.compaction = none from rfl, show RecoverFaults.none.logSync = false from rfl]
  cases compacted with
  | true =>
    obtain ⟨bytes, again⟩ := h.retained prunes
    rw [if_pos rfl, compact_matches again]
    exact .inl ⟨_, rfl, again⟩
  | false =>
    have same := h.intact prunes (unchanged rfl)
    rw [if_neg Bool.false_ne_true]
    cases log : disk.log with
    | some bytes => exact .inl ⟨disk, rfl, same⟩
    | none =>
      dsimp only
      split
      · exact .inl ⟨disk, rfl, same⟩
      · exact .inr ⟨_, rfl⟩

theorem replaceMetadata_none (lawful : AuditExternals.Lawful) (disk : AuditDisk) (metadata : StoreMetadata) :
    ∃ disk', disk.replaceMetadata metadata none = (disk', true) ∧ disk'.log = disk.log := by
  obtain ⟨bytes, encoded⟩ := lawful.writable metadata
  unfold AuditDisk.replaceMetadata
  rw [encoded]
  exact ⟨_, rfl, rfl⟩

omit [AuditExternals] in
/-- The compaction test fails only where the events are all kept. -/
theorem length_of_unchanged {torn : Bool} {before after bytes retained : Nat}
    (unchanged : (torn || before != after || bytes != retained) = false) : after = before := by
  simp only [Bool.or_eq_false_iff, bne_eq_false_iff_eq] at unchanged
  exact unchanged.1.2.symm

theorem Matches.tryRecover (lawful : AuditExternals.Lawful) (h : state.Matches disk.log) {now later : SystemTime}
    {fuel : Nat} {done : AuditDisk × StoreDeques × Except SecurityAuditSinkError SecurityAuditSinkHealth}
    (ran : state.tryRecover limits disk now later .none fuel = some done) : done.2.1.Matches done.1.log := by
  unfold StoreDeques.tryRecover at ran
  cases found : state.counters.recoverCandidate limits disk now .none with
  | error error =>
    rw [found] at ran
    cases ran
    exact ⟨h.written, h.lengths⟩
  | ok result =>
    obtain ⟨recovered, torn, scan⟩ := result
    rw [found] at ran
    obtain ⟨candidate, retained, rfl⟩ := Option.map_eq_some_iff.1 ran
    obtain ⟨-, scanned, -, records, -⟩ := recoverCandidate_ok found
    have read := (scanLog_reads scanned).1
    rw [← records] at read
    have start := (matches_of_read lawful h.logWritten read).2
    have prunes := (pruneLoop_prunedFrom retained).1
    dsimp only
    unfold StoreDeques.adopt
    rcases start.repairLog prunes _ length_of_unchanged with ⟨disk', repaired, matched⟩ | ⟨error, refused⟩
    · rw [repaired]
      dsimp only
      rw [show RecoverFaults.none.metadata = none from rfl, show RecoverFaults.none.directorySync = false from rfl]
      obtain ⟨replaced, done, log⟩ := replaceMetadata_none lawful disk' { candidate.metadata with
        acceptedEventId := scan.maxEvent
        acceptedRequestId := scan.maxRequest
        acceptedServiceSequence := scan.maxSequence }
      rw [done]
      dsimp only
      rw [if_neg Bool.false_ne_true]
      refine ⟨?_, matched.lengths⟩
      show encodeRecords candidate.metadata.storeGenerationId candidate.events = some (replaced.log.getD [])
      rw [log]
      exact matched.written
    · rw [refused]
      exact ⟨h.written, h.lengths⟩

end StoreDeques

/-! Opening -/

theorem AuditDisk.openDequeFiles_matches (lawful : AuditExternals.Lawful) {disk : AuditDisk} (written : LogWritten disk.log)
    {limits : AuditLimits} {metadata : StoreMetadata} {mode : SecurityAuditStoreOpenState} {now later : SystemTime}
    {fuel : Nat} {done : AuditDisk × Except SecurityAuditStoreOpenError (StoreDeques × SecurityAuditStoreRecovery)}
    (ran : disk.openDequeFiles limits metadata mode now later .none fuel = some done) :
    LogWritten done.1.log ∧ ∀ state recovery, done.2 = .ok (state, recovery) → state.Matches done.1.log := by
  unfold AuditDisk.openDequeFiles at ran
  rw [if_neg (by decide)] at ran
  cases found : openState limits metadata disk.log now with
  | error error =>
    rw [found] at ran
    cases ran
    exact ⟨written, nofun⟩
  | ok result =>
    obtain ⟨recovered, torn⟩ := result
    rw [found] at ran
    obtain ⟨pruned, retained, rfl⟩ := Option.map_eq_some_iff.1 ran
    obtain ⟨scan, -, -, scanned, -, -, same⟩ := openState_ok found
    have read := (scanLog_reads scanned).1
    rw [show metadata = recovered.metadata by rw [same], show scan.records = recovered.records by rw [same]] at read
    have start := (StoreDeques.matches_of_read lawful written read).2
    have prunes := (StoreDeques.pruneLoop_prunedFrom retained).1
    have balanced : pruned.Balanced := by
      obtain ⟨other, ends, balanced⟩ := StoreDeques.pruneLoop_returns (openState_balanced found).1 (Nat.lt_succ_self _)
      rwa [StoreDeques.pruneLoop_unique retained ends]
    dsimp only
    split
    case isTrue =>
      obtain ⟨bytes, again⟩ := start.retained prunes
      unfold AuditDisk.compactIfPruned
      rw [if_pos balanced.lengths, show OpenFaults.none.compaction = none from rfl, StoreDeques.compact_matches again]
      refine ⟨again.logWritten, ?_⟩
      rintro _ _ ⟨⟩
      exact again
    case isFalse unchanged =>
      have kept := start.intact prunes (StoreDeques.length_of_unchanged (Bool.eq_false_iff.2 unchanged))
      refine ⟨written, ?_⟩
      rintro _ _ ⟨⟩
      exact kept

theorem AuditDisk.openDeques_matches (lawful : AuditExternals.Lawful) {disk : AuditDisk} (written : LogWritten disk.log)
    {limits : AuditLimits} {generation : Option String} {now later : SystemTime} {fuel : Nat}
    {done : AuditDisk × Except SecurityAuditStoreOpenError (StoreDeques × SecurityAuditStoreRecovery)}
    (ran : disk.openDeques limits generation now later .none fuel = some done) :
    LogWritten done.1.log ∧ ∀ state recovery, done.2 = .ok (state, recovery) → state.Matches done.1.log := by
  unfold AuditDisk.openDeques at ran
  split at ran
  · cases ran
    exact ⟨written, nofun⟩
  · rw [if_neg (by decide)] at ran
    split at ran
    · rw [if_neg (by decide)] at ran
      split at ran
      · cases ran
        exact ⟨written, nofun⟩
      · exact openDequeFiles_matches lawful written ran
    · split at ran
      · cases ran
        exact ⟨written, nofun⟩
      next generation =>
        have log := disk.writeNewMetadata_log (newMetadata generation) OpenFaults.none.initial
        split at ran
        next created =>
          rw [created] at log
          cases ran
          refine ⟨?_, nofun⟩
          rw [log]
          exact written
        next created =>
          rw [created] at log
          refine openDequeFiles_matches lawful ?_ ran
          rw [log]
          exact written

namespace AuditProcess

/-- The log is the lines of records, and of the retained events where a store is open. -/
structure Clean (p : AuditProcess) : Prop where
  written : LogWritten p.disk.log
  retained : ∀ limits state, p.store = some (limits, state) → state.Matches p.disk.log

theorem Clean.opened {disk : AuditDisk} {state : StoreDeques} (limits : AuditLimits) (h : state.Matches disk.log) :
    Clean ⟨disk, some (limits, state)⟩ := by
  refine ⟨h.logWritten, ?_⟩
  rintro _ _ ⟨⟩
  exact h

theorem Clean.step (lawful : AuditExternals.Lawful) {p p' : AuditProcess} (h : p.Clean) {fuel : Nat}
    {operation : AuditOperation} (clean : operation.FaultFree) (ran : p.step fuel operation = some p') : p'.Clean := by
  obtain ⟨disk, store⟩ := p
  cases store with
  | none =>
    cases operation with
    | openStore limits generation now later faults =>
      cases clean
      obtain ⟨⟨after, result⟩, opens, rfl⟩ := Option.map_eq_some_iff.1 ran
      obtain ⟨written, retained⟩ := AuditDisk.openDeques_matches lawful h.written opens
      cases result with
      | error error => exact ⟨written, nofun⟩
      | ok opened => exact .opened limits (retained opened.1 opened.2 rfl)
    | crash => exact clean.elim
    | _ =>
      cases ran
      exact h
  | some current =>
    obtain ⟨limits, state⟩ := current
    have matched : state.Matches disk.log := h.retained limits state rfl
    cases operation with
    | openStore =>
      cases ran
      exact h
    | drop =>
      cases ran
      exact ⟨h.written, nofun⟩
    | allocateRequestId fault =>
      cases ran
      obtain ⟨log, raises⟩ := state.counters.allocateRequestId_keeps disk fault
      exact .opened limits (matched.withCounters raises log)
    | allocateEventIdentity fault =>
      cases ran
      obtain ⟨log, raises⟩ := state.counters.allocateEventIdentity_keeps disk fault
      exact .opened limits (matched.withCounters raises log)
    | append event now later faults =>
      cases clean
      obtain ⟨done, appends, rfl⟩ := Option.map_eq_some_iff.1 ran
      exact .opened limits (matched.append appends)
    | tryRecover now later faults =>
      cases clean
      obtain ⟨done, recovers, rfl⟩ := Option.map_eq_some_iff.1 ran
      exact .opened limits (matched.tryRecover lawful recovers)
    | crash => exact clean.elim

theorem Clean.run (lawful : AuditExternals.Lawful) {p p' : AuditProcess} (h : p.Clean) (run : ReflTransGen CleanStep p p') :
    p'.Clean := by
  induction run with
  | refl => exact h
  | tail _ step ih =>
    obtain ⟨operation, fuel, clean, ran⟩ := step
    exact ih.step lawful clean ran

theorem CleanStep.step {p p' : AuditProcess} (clean : p.CleanStep p') : p.Step p' := by
  obtain ⟨operation, fuel, -, ran⟩ := clean
  exact ⟨operation, fuel, ran⟩

end AuditProcess

/-- Whatever fails, the deques of an open store represent records within the limits, with
identifiers that are reserved; and where nothing fails, the log is the lines of the
retained events, as long as the retained bytes. -/
theorem audit_store_representation (lawful : AuditExternals.Lawful) :
    (∀ log p, ReflTransGen AuditProcess.Step (AuditProcess.new log) p → p.Sound) ∧
      ∀ p, ReflTransGen AuditProcess.CleanStep (AuditProcess.new none) p →
        ∀ limits state, p.store = some (limits, state) →
          encodeRecords state.metadata.storeGenerationId state.events = some (p.disk.log.getD []) ∧
            (p.disk.log.getD []).length = state.retainedBytes := by
  refine ⟨fun log p run => ?_, fun p run limits state opened => ?_⟩
  · have start : (AuditProcess.new log).Represents := .closed _
    exact (start.run run).sound
  · have empty : (AuditProcess.new none).Clean := ⟨⟨"", [], rfl⟩, nofun⟩
    have start : (AuditProcess.new none).Represents := .closed _
    have matched := (empty.run lawful run).retained limits state opened
    have steps : ReflTransGen AuditProcess.Step (AuditProcess.new none) p :=
      ReflTransGen.mono (fun _ _ step => AuditProcess.CleanStep.step step) _ _ run
    have represents := start.run steps limits state opened
    refine ⟨matched.written, ?_⟩
    rw [encodeRecords_length matched.written, represents.bytes, matched.lengths]

end Store

/-! ## A first record -/

/-- The store of the generation, with all it reserved given out. -/
def attemptDeques (reservedEvent reservedRequest accepted nextEvent nextRequest : Nat) (events : List SecurityAuditEvent)
    (bytes : List Nat) : StoreDeques where
  metadata := attemptMetadata reservedEvent reservedRequest accepted
  events := events
  recordBytes := bytes
  retainedBytes := bytes.sum
  degraded := false
  nextEventId := nextEvent
  nextRequestId := nextRequest
  nextServiceSequence := nextEvent
  futureDatedRecords := 0

/-- The files with that metadata. -/
noncomputable def attemptFiles (reservedEvent reservedRequest accepted : Nat) (log : Option Bytes) : AuditDisk where
  metadata := some (metadataText attemptTable (attemptMetadata reservedEvent reservedRequest accepted) ++ [newline])
  durable := some (metadataText attemptTable (attemptMetadata reservedEvent reservedRequest accepted) ++ [newline])
  renamed := []
  log := log

/-- The line of the first event. -/
def attemptLine : Bytes := attemptText "1" "1" ++ [newline]

/-- The first event is accepted in a log that was not there. -/
theorem attempt_appends :
    letI := attemptCodecs
    (attemptDeques 64 64 0 2 2 [] []).append zerosLimits (attemptFiles 64 64 0 none) (attemptEvent 1 1) 0 0 .none 2 =
      some (attemptFiles 64 64 1 (some attemptLine), attemptDeques 64 64 1 2 2 [attemptEvent 1 1] [attemptLine.length],
        .ok ()) := by
  let := attemptCodecs
  have encoded : AuditExternals.recordToVec ⟨recordVersion, (attemptDeques 64 64 0 2 2 [] []).metadata.storeGenerationId,
      attemptEvent 1 1⟩ = some (attemptText "1" "1") := encodeListed_head _ _ _
  have kept : ((attemptDeques 64 64 0 2 2 [] []).accept (attemptEvent 1 1) attemptLine.length).pruneRetention zerosLimits 0 2 =
      some ((attemptDeques 64 64 0 2 2 [] []).accept (attemptEvent 1 1) attemptLine.length) := by decide +kernel
  have accepts : (attemptFiles 64 64 0 none).acceptLine attemptLine .none =
      (attemptFiles 64 64 0 (some attemptLine), true) := rfl
  have after : ∀ line : Bytes,
      ((attemptDeques 64 64 0 2 2 [] []).accept (attemptEvent 1 1) line.length).afterPrune 1
          (attemptFiles 64 64 0 (some line)) .none =
        (attemptFiles 64 64 1 (some line), attemptDeques 64 64 1 2 2 [attemptEvent 1 1] [line.length], .ok ()) := by
    intro line
    have count : 0 + line.length = [line.length].sum := by simp
    unfold StoreDeques.afterPrune StoreDeques.accept attemptDeques
    dsimp only
    rw [← count]
    rfl
  unfold StoreDeques.append
  rw [if_neg (by decide +kernel), encoded]
  dsimp only
  rw [if_neg (by decide +kernel), if_neg (by decide +kernel), ← attemptLine, accepts]
  dsimp only
  rw [kept, Option.map_some]
  exact congrArg some (after _)

theorem first_record_in_log :
    letI := attemptCodecs
    ∃ p limits state, ReflTransGen AuditProcess.CleanStep (AuditProcess.new none) p ∧ p.store = some (limits, state) ∧
      state.events = [attemptEvent 1 1] ∧ state.Represents limits ∧ (p.disk.log.getD []).length = state.retainedBytes := by
  let := attemptCodecs
  have opens : AuditProcess.CleanStep (AuditProcess.new none)
      ⟨attemptFiles 0 0 0 none, some (zerosLimits, attemptDeques 0 0 0 1 1 [] [])⟩ :=
    ⟨.openStore zerosLimits (some zeros) 0 0 .none, 2, rfl, rfl⟩
  have request : AuditProcess.CleanStep ⟨attemptFiles 0 0 0 none, some (zerosLimits, attemptDeques 0 0 0 1 1 [] [])⟩
      ⟨attemptFiles 0 64 0 none, some (zerosLimits, attemptDeques 0 64 0 1 2 [] [])⟩ :=
    ⟨.allocateRequestId none, 2, rfl, rfl⟩
  have event : AuditProcess.CleanStep ⟨attemptFiles 0 64 0 none, some (zerosLimits, attemptDeques 0 64 0 1 2 [] [])⟩
      ⟨attemptFiles 64 64 0 none, some (zerosLimits, attemptDeques 64 64 0 2 2 [] [])⟩ :=
    ⟨.allocateEventIdentity none, 2, rfl, rfl⟩
  have append : AuditProcess.CleanStep ⟨attemptFiles 64 64 0 none, some (zerosLimits, attemptDeques 64 64 0 2 2 [] [])⟩
      ⟨attemptFiles 64 64 1 (some attemptLine),
        some (zerosLimits, attemptDeques 64 64 1 2 2 [attemptEvent 1 1] [attemptLine.length])⟩ :=
    ⟨.append (attemptEvent 1 1) 0 0 .none, 2, rfl, Option.map_eq_some_iff.2 ⟨_, attempt_appends, rfl⟩⟩
  have run := (((ReflTransGen.single opens).tail request).tail event).tail append
  have steps : ReflTransGen AuditProcess.Step (AuditProcess.new none) _ :=
    ReflTransGen.mono (fun _ _ step => AuditProcess.CleanStep.step step) _ _ run
  have holds := audit_store_representation attemptCodecs_lawful
  exact ⟨_, _, _, run, rfl, rfl, (holds.1 none _ steps).represents _ _ rfl, (holds.2 _ run _ _ rfl).2⟩
