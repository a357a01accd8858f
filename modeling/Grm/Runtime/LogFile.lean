import Grm.Runtime.Durability

/-!
# The append log under failing appends

A log whose last write was torn is read without its tail. The next append continues
after the torn bytes, so its record is read as part of a longer line. A history of
appends keeps every acknowledged operation when each record that gets its newline
starts on a fresh line.
-/

set_option autoImplicit false

section Log
variable [Codecs]

/-- What reading does on the lines of a log. -/
theorem readOperations_append_torn (log : Option Bytes) {torn : Bytes} (absent : newline ∉ torn) :
    readOperations (some (log.getD [] ++ torn)) = readOperations log := by
  unfold readOperations
  rw [Option.getD_some, LineLog.lines_append_torn _ absent]

/-- A record on a fresh line is read after the entries before it. -/
theorem readOperations_append_record (lawful : Codecs.Lawful) {log : Option Bytes}
    (fresh : LineLog.Terminated newline (log.getD [])) {entries : List DurableOperation}
    (read : readOperations log = .ok entries) {entry : DurableOperation} {line : Bytes}
    (encoded : Codecs.opToVec entry = some line) :
    readOperations (some (log.getD [] ++ (line ++ [newline]))) = .ok (entries ++ [entry]) := by
  have decoded := lawful.op entry line encoded
  have visible : ¬ line.all isAsciiWhitespace = true := by
    intro blank
    rw [lawful.blank line blank] at decoded
    cases decoded
  unfold readOperations at read ⊢
  rw [Option.getD_some, LineLog.lines_append fresh, LineLog.lines_cons (lawful.oneLine entry line encoded),
    List.foldlM_append, read]
  show readRecord entries line >>= pure = _
  rw [readRecord, if_neg visible, decoded]
  rfl

/-- An append that succeeds on a fresh line adds its entry and leaves a fresh line. -/
theorem appendOperation_ok (lawful : Codecs.Lawful) {log log' : Option Bytes}
    (fresh : LineLog.Terminated newline (log.getD [])) {entries : List DurableOperation}
    (read : readOperations log = .ok entries) {entry : DurableOperation} {fault : Option AppendFault}
    (ok : appendOperation log entry fault = (log', .ok ())) :
    LineLog.Terminated newline (log'.getD []) ∧ readOperations log' = .ok (entries ++ [entry]) := by
  unfold appendOperation at ok
  split at ok
  · cases ok
  · split at ok <;> cases ok
  · split at ok
    · cases ok
    case h_2 line encoded =>
      cases ok
      refine ⟨?_, readOperations_append_record lawful fresh read encoded⟩
      rw [Option.getD_some, ← List.append_assoc]
      exact LineLog.terminated_concat _

/-! ## Histories of appends -/

/-- One call of `append_operation`, and how it fails if it does. -/
structure AppendAttempt where
  entry : DurableOperation
  fault : Option AppendFault

/-- The log file and the operations whose append returned `Ok`. -/
structure LogHistory where
  log : Option Bytes
  acknowledged : List DurableOperation

/-- The history after one more call. -/
def LogHistory.attempt (h : LogHistory) (a : AppendAttempt) : LogHistory :=
  match appendOperation h.log a.entry a.fault with
  | (log, .ok ()) => { log, acknowledged := h.acknowledged ++ [a.entry] }
  | (log, .error _) => { h with log }

/-- The call writes its record up to the newline. -/
def AppendAttempt.Completes (a : AppendAttempt) : Prop :=
  ∃ line, Codecs.opToVec a.entry = some line ∧
    match a.fault with
    | none => True
    | some (.notOpened _) => False
    | some (.stopped written _) => line.length < written

/-- Every call that writes its newline finds a log that is empty or ends with one. -/
def LogHistory.Clean (h : LogHistory) : List AppendAttempt → Prop
  | [] => True
  | a :: calls => (a.Completes → LineLog.Terminated newline (h.log.getD [])) ∧ (h.attempt a).Clean calls

/-- The log reads, and what it reads contains the acknowledged operations in order. -/
def LogHistory.Intact (h : LogHistory) : Prop :=
  ∃ entries, readOperations h.log = .ok entries ∧ h.acknowledged.Sublist entries

/-- One call on an intact log. -/
theorem LogHistory.Intact.attempt (lawful : Codecs.Lawful) {h : LogHistory} (intact : h.Intact) {a : AppendAttempt}
    (clean : a.Completes → LineLog.Terminated newline (h.log.getD [])) : (h.attempt a).Intact := by
  obtain ⟨entries, read, kept⟩ := intact
  obtain ⟨entry, fault⟩ := a
  -- a failed call acknowledges nothing, and what it leaves reads as before or with its entry
  have unwritten : readOperations (some (h.log.getD [])) = .ok entries := by
    rw [← List.append_nil (h.log.getD []), readOperations_append_torn h.log List.not_mem_nil]
    exact read
  unfold LogHistory.attempt appendOperation
  cases fault with
  | none =>
    cases encoded : Codecs.opToVec entry with
    | none => exact ⟨entries, unwritten, kept⟩
    | some line =>
      exact ⟨entries ++ [entry], readOperations_append_record lawful (clean ⟨line, encoded, trivial⟩) read encoded,
        kept.append (.refl [entry])⟩
  | some fault => cases fault with
    | notOpened text => exact ⟨entries, read, kept⟩
    | stopped written text =>
      cases encoded : Codecs.opToVec entry with
      | none => exact ⟨entries, unwritten, kept⟩
      | some line =>
        by_cases whole : line.length < written
        · have all : (line ++ [newline]).take written = line ++ [newline] := by
            apply List.take_of_length_le
            rw [List.length_append, List.length_singleton]
            omega
          refine ⟨entries ++ [entry], ?_, kept.trans (List.sublist_append_left _ _)⟩
          dsimp only
          rw [all]
          exact readOperations_append_record lawful (clean ⟨line, encoded, whole⟩) read encoded
        · refine ⟨entries, ?_, kept⟩
          dsimp only
          rw [List.take_append_of_le_length (by omega), readOperations_append_torn]
          · exact read
          · exact fun torn => lawful.oneLine entry line encoded (List.mem_of_mem_take torn)

end Log

/-! ## A log with one record -/
