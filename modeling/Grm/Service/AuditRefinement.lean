import Grm.Service.AuditRepresentation

/-!
# Records for deques

`StoreState` keeps each event with the length of its line. On deques that agree the
operations do on the deques what they do on the records, so that what is proved of the
records is proved of the deques. Openings and recoveries read the clock once here.
-/

set_option autoImplicit false

theorem deques_pruneLoop (limits : AuditLimits) (cutoff : Option SystemTime) (state : StoreState)
    (records : List AuditRecord) {fuel : Nat} (enough : records.length < fuel) :
    StoreDeques.pruneLoop limits cutoff fuel { state with records, retainedBytes := bytesOf records }.deques =
      some { state with
        records := (pruneLoop limits cutoff records (bytesOf records)).1
        retainedBytes := (pruneLoop limits cutoff records (bytesOf records)).2 }.deques := by
  induction records generalizing fuel with
  | nil =>
    obtain ⟨fuel, rfl⟩ := Nat.exists_eq_succ_of_ne_zero (Nat.ne_of_gt enough)
    have balanced : { state with records := [], retainedBytes := bytesOf [] }.deques.Balanced :=
      StoreState.deques_balanced rfl
    rw [StoreDeques.pruneLoop, if_neg (balanced.not_exceeds_nil rfl limits cutoff)]
    rfl
  | cons record rest ih =>
    obtain ⟨fuel, rfl⟩ := Nat.exists_eq_succ_of_ne_zero (Nat.ne_of_gt (Nat.lt_of_le_of_lt (Nat.zero_le _) enough))
    have total : bytesOf (record :: rest) = record.2 + bytesOf rest := List.sum_cons
    have left : bytesOf (record :: rest) - record.2 = bytesOf rest := by omega
    have popped : { state with records := record :: rest, retainedBytes := bytesOf (record :: rest) }.deques.popFront =
        { state with records := rest, retainedBytes := bytesOf rest }.deques := by
      rw [← left]
      rfl
    have exceeds : { state with records := record :: rest, retainedBytes := bytesOf (record :: rest) }.deques.Exceeds
        limits cutoff ↔ limits.maxEvents < rest.length + 1 ∨ limits.maxBytes < bytesOf (record :: rest) ∨
          (cutoff.any fun cutoff => decide (record.1.timestamp < cutoff)) = true := by
      simp [StoreDeques.Exceeds, StoreState.deques]
    rw [StoreDeques.pruneLoop, pruneLoop, left, popped]
    by_cases excess : limits.maxEvents < rest.length + 1 ∨ limits.maxBytes < bytesOf (record :: rest) ∨
        (cutoff.any fun cutoff => decide (record.1.timestamp < cutoff)) = true
    · rw [if_pos (exceeds.2 excess), if_pos excess]
      exact ih (Nat.lt_of_succ_lt_succ enough)
    · rw [if_neg fun more => excess (exceeds.1 more), if_neg excess]

/-- Pruning the deques is pruning the records. -/
theorem deques_pruneRetention {state : StoreState} (bytes : state.retainedBytes = bytesOf state.records)
    (limits : AuditLimits) (now : SystemTime) {fuel : Nat} (enough : state.records.length < fuel) :
    state.deques.pruneRetention limits now fuel = some (state.pruneRetention limits now).deques := by
  have looped := deques_pruneLoop limits (SystemTime.checkedSub now limits.maxAge) state state.records enough
  rw [← bytes] at looped
  exact looped

/-- The outcome of an operation on records, with the records taken apart. -/
def ofRecords {α : Type} (done : AuditDisk × StoreState × α) : AuditDisk × StoreDeques × α :=
  (done.1, done.2.1.deques, done.2.2)

section Store
variable [AuditExternals]
open AuditExternals

theorem deques_afterPrune (accepted : StoreState) (limits : AuditLimits) (disk : AuditDisk) (later : SystemTime)
    (faults : AppendFaults) :
    (accepted.pruneRetention limits later).deques.afterPrune accepted.deques.events.length disk faults =
      ofRecords (accepted.afterAccept limits disk later faults) := by
  generalize pruning : accepted.pruneRetention limits later = pruned
  have compacted : (if pruned.deques.events.length ≠ accepted.deques.events.length then
      disk.compact pruned.deques.metadata pruned.deques.events faults.compaction else (disk, .ok ())) =
      disk.compactPruned accepted pruned faults.compaction := by
    rw [show accepted.deques.events.length = accepted.records.length from List.length_map _,
      show pruned.deques.events.length = pruned.records.length from List.length_map _]
    rfl
  unfold StoreDeques.afterPrune StoreState.afterAccept
  dsimp only
  rw [compacted, pruning, show pruned.deques.metadata = pruned.metadata from rfl]
  rcases disk.compactPruned accepted pruned faults.compaction with ⟨disk, error | ⟨⟨⟩⟩⟩
  · rfl
  · dsimp only
    rcases disk.replaceMetadata pruned.metadata faults.metadata with ⟨disk, replaced⟩
    cases replaced <;> rfl

/-- Appending to the deques is appending to the records. -/
theorem deques_append {state : StoreState} (bytes : state.retainedBytes = bytesOf state.records) (limits : AuditLimits)
    (disk : AuditDisk) (event : SecurityAuditEvent) (now later : SystemTime) (faults : AppendFaults) :
    ∃ fuel, state.deques.append limits disk event now later faults fuel =
      some (ofRecords (state.append limits disk event now later faults)) := by
  unfold StoreDeques.append StoreState.append
  split
  · exact ⟨0, rfl⟩
  · rw [show state.deques.metadata = state.metadata from rfl]
    cases recordToVec ⟨recordVersion, state.metadata.storeGenerationId, event⟩ with
    | none => exact ⟨0, rfl⟩
    | some line =>
      dsimp only
      split
      · exact ⟨0, rfl⟩
      · split
        · exact ⟨0, rfl⟩
        · rcases disk.acceptLine (line ++ [newline]) faults with ⟨disk, accepts⟩
          cases accepts with
          | false => exact ⟨0, rfl⟩
          | true =>
            have grown : (state.accept event (line ++ [newline]).length).retainedBytes =
                bytesOf (state.accept event (line ++ [newline]).length).records := by
              rw [StoreState.accept, bytesOf_append, ← bytes]
              rfl
            refine ⟨(state.accept event (line ++ [newline]).length).records.length + 1, ?_⟩
            have taken : state.deques.accept event (line ++ [newline]).length =
                (state.accept event (line ++ [newline]).length).deques := by
              simp [StoreDeques.accept, StoreState.accept, StoreState.deques]
            dsimp only
            rw [taken, deques_pruneRetention grown limits later (Nat.lt_succ_self _), Option.map_some, deques_afterPrune]

/-- Opening the files at one clock reading takes over the same records. -/
theorem deques_openFiles (disk : AuditDisk) (limits : AuditLimits) (metadata : StoreMetadata)
    (found : SecurityAuditStoreOpenState) (now : SystemTime) (faults : OpenFaults) :
    ∃ fuel, disk.openDequeFiles limits metadata found now now faults fuel =
      some ((disk.openFiles limits metadata found now faults).1,
        (disk.openFiles limits metadata found now faults).2.map fun opened => (opened.1.deques, opened.2)) := by
  unfold AuditDisk.openDequeFiles AuditDisk.openFiles
  split
  · exact ⟨0, rfl⟩
  · cases read : openState limits metadata disk.log now with
    | error error => exact ⟨0, rfl⟩
    | ok result =>
      obtain ⟨recovered, torn⟩ := result
      have bytes : recovered.retainedBytes = bytesOf recovered.records := (openState_balanced read).1.bytes
      refine ⟨recovered.records.length + 1, ?_⟩
      dsimp only
      rw [deques_pruneRetention bytes limits now (Nat.lt_succ_self _), Option.map_some]
      generalize recovered.pruneRetention limits now = pruned
      rw [show recovered.deques.events.length = recovered.records.length from List.length_map _,
        show pruned.deques.events.length = pruned.records.length from List.length_map _,
        show pruned.deques.retainedBytes = pruned.retainedBytes from rfl]
      have compacts : disk.compactIfPruned pruned.deques faults.compaction =
          disk.compact pruned.metadata (pruned.records.map Prod.fst) faults.compaction := by
        rw [AuditDisk.compactIfPruned]
        exact if_pos (by simp [StoreState.deques])
      rw [compacts]
      split
      · rcases disk.compact pruned.metadata (pruned.records.map Prod.fst) faults.compaction with ⟨disk, error | ⟨⟨⟩⟩⟩ <;> rfl
      · rfl

/-- An open at one clock reading opens the same store. -/
theorem deques_open (disk : AuditDisk) (limits : AuditLimits) (generation : Option String) (now : SystemTime)
    (faults : OpenFaults) :
    ∃ fuel, disk.openDeques limits generation now now faults fuel =
      some ((disk.openWithInstrumentation limits generation now faults).1,
        (disk.openWithInstrumentation limits generation now faults).2.map fun opened => (opened.1.deques, opened.2)) := by
  unfold AuditDisk.openDeques AuditDisk.openWithInstrumentation
  split
  · exact ⟨0, rfl⟩
  · split
    · exact ⟨0, rfl⟩
    · cases disk.metadata with
      | some file =>
        dsimp only
        split
        · exact ⟨0, rfl⟩
        · cases readMetadata (some file) with
          | error error => exact ⟨0, rfl⟩
          | ok metadata => exact deques_openFiles ..
      | none =>
        cases generation with
        | none => exact ⟨0, rfl⟩
        | some generation =>
          dsimp only
          rcases disk.writeNewMetadata (newMetadata generation) faults.initial with ⟨disk, created⟩
          cases created with
          | false => exact ⟨0, rfl⟩
          | true => exact deques_openFiles ..

/-- A recovery at one clock reading takes over the same records. -/
theorem deques_tryRecover {state : StoreState} (limits : AuditLimits) (disk : AuditDisk) (now : SystemTime)
    (faults : RecoverFaults) :
    ∃ fuel, state.deques.tryRecover limits disk now now faults fuel =
      some (ofRecords (state.tryRecover limits disk now faults)) := by
  have same : state.deques.counters.recoverCandidate limits disk now faults =
      state.recoverCandidate limits disk now faults := by
    unfold StoreState.recoverCandidate
    rw [show state.deques.counters.metadata = state.metadata from rfl,
      show state.deques.counters.nextEventId = state.nextEventId from rfl,
      show state.deques.counters.nextRequestId = state.nextRequestId from rfl,
      show state.deques.counters.nextServiceSequence = state.nextServiceSequence from rfl]
  unfold StoreDeques.tryRecover StoreState.tryRecover
  rw [same]
  cases found : state.recoverCandidate limits disk now faults with
  | error error => exact ⟨0, rfl⟩
  | ok result =>
    obtain ⟨recovered, torn, scan⟩ := result
    have bytes : recovered.retainedBytes = bytesOf recovered.records := (recoverCandidate_balanced found).1.bytes
    refine ⟨recovered.records.length + 1, ?_⟩
    dsimp only
    rw [deques_pruneRetention bytes limits now (Nat.lt_succ_self _), Option.map_some]
    generalize recovered.pruneRetention limits now = pruned
    rw [show recovered.deques.events.length = recovered.records.length from List.length_map _,
      show pruned.deques.events.length = pruned.records.length from List.length_map _,
      show pruned.deques.retainedBytes = pruned.retainedBytes from rfl]
    generalize (torn || recovered.records.length != pruned.records.length || recovered.retainedBytes != pruned.retainedBytes) =
      compacted
    have repairs : pruned.deques.repairLog disk compacted faults = disk.repairLog pruned compacted faults := by
      unfold StoreDeques.repairLog AuditDisk.repairLog
      cases disk.log with
      | none => simp [StoreState.deques]
      | some log => rfl
    unfold StoreDeques.adopt
    rw [repairs]
    rcases disk.repairLog pruned compacted faults with ⟨disk, error | ⟨⟨⟩⟩⟩
    · rfl
    · dsimp only
      rw [show pruned.deques.metadata = pruned.metadata from rfl]
      rcases disk.replaceMetadata { pruned.metadata with
        acceptedEventId := scan.maxEvent
        acceptedRequestId := scan.maxRequest
        acceptedServiceSequence := scan.maxSequence } faults.metadata with ⟨disk, replaced⟩
      cases replaced with
      | false => rfl
      | true =>
        dsimp only
        split <;> rfl

end Store
