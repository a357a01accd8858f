import Grm.Service.AuditLog

/-!
# Retrying a first open

A first open creates the metadata file and writes it in place, where `replace_metadata`
writes a temporary file and renames it. An open that stops between the two leaves a file
that is there and is not metadata, and every later open of the directory refuses it.
-/

open Relation

set_option autoImplicit false

section Store
variable [AuditExternals]
open AuditExternals

/-! ## First opens -/

/-- The arguments of an open, what `random_generation_id` gives, and the faults. -/
structure OpenAttempt where
  limits : AuditLimits
  generation : Option String
  now : SystemTime
  faults : OpenFaults
  digits : ∀ g, generation = some g → isGenerationId g = true

namespace AuditDisk

/-- A service root without an audit store. -/
def fresh : AuditDisk := ⟨none, none, [], none⟩

/-- An open with the arguments of the attempt. -/
def attempt (disk : AuditDisk) (a : OpenAttempt) :
    AuditDisk × Except SecurityAuditStoreOpenError (StoreState × SecurityAuditStoreRecovery) :=
  disk.openWithInstrumentation a.limits a.generation a.now a.faults

/-- An attempt that fails, or is cut off by a crash that leaves one of the surviving
metadata files. -/
inductive FirstOpen (a : OpenAttempt) : AuditDisk → AuditDisk → Prop where
  | failed {disk disk' : AuditDisk} {error : SecurityAuditStoreOpenError} (done : disk.attempt a = (disk', .error error)) :
      FirstOpen a disk disk'
  | crashed {disk disk' : AuditDisk} {result : Except SecurityAuditStoreOpenError (StoreState × SecurityAuditStoreRecovery)}
      {file : Option Bytes} (done : disk.attempt a = (disk', result)) (survives : disk'.Survives file) :
      FirstOpen a disk ⟨file, file, [], disk'.log⟩

/-- The attempt does not stop within the write of new metadata where what it has written is
not the metadata yet. -/
def Whole (disk : AuditDisk) (a : OpenAttempt) : Prop :=
  ∀ g kept bytes, disk.metadata = none → a.generation = some g → a.faults.initial = some (.write kept) →
    metadataToVec (newMetadata g) = some bytes → (metadataFromSlice ((bytes ++ [newline]).take kept)).isSome

/-- An open without faults succeeds, and nothing is retained. -/
def OpensEmpty (disk : AuditDisk) (limits : AuditLimits) (generation : String) (now : SystemTime) : Prop :=
  ∃ disk' state recovery, disk.openWithInstrumentation limits (some generation) now .none = (disk', .ok (state, recovery)) ∧
    state.records = []

/-! ## What a first open leaves -/

/-- Without a log there is nothing to read and nothing to compact. -/
theorem openFiles_unlogged {disk : AuditDisk} (unlogged : disk.log = none) (limits : AuditLimits) (metadata : StoreMetadata)
    (found : SecurityAuditStoreOpenState) (now : SystemTime) (faults : OpenFaults) :
    (disk.openFiles limits metadata found now faults).1 = disk := by
  unfold openFiles
  split
  · rfl
  · cases read : openState limits metadata disk.log now with
    | error error => rfl
    | ok result =>
      obtain ⟨recovered, torn⟩ := result
      obtain ⟨scan, -, -, scanned, -, -, rfl⟩ := openState_ok read
      rw [unlogged] at scanned
      obtain ⟨nothing, rfl⟩ := scanLog_none scanned
      simp [StoreState.pruneRetention, nothing, pruneLoop]

/-- A first open leaves the files, or writes the metadata of its generation. -/
theorem attempt_disk {disk : AuditDisk} (unlogged : disk.log = none) (a : OpenAttempt) :
    (disk.attempt a).1 = disk ∨ ∃ g, disk.metadata = none ∧ a.generation = some g ∧
      (disk.attempt a).1 = (disk.writeNewMetadata (newMetadata g) a.faults.initial).1 := by
  unfold attempt openWithInstrumentation
  split
  · exact .inl rfl
  · split
    · exact .inl rfl
    · split
      · split
        · exact .inl rfl
        · split
          · exact .inl rfl
          · exact .inl (openFiles_unlogged unlogged ..)
      next absent =>
        split
        · exact .inl rfl
        next g generated =>
          refine .inr ⟨g, absent, generated, ?_⟩
          have log := disk.writeNewMetadata_log (newMetadata g) a.faults.initial
          split
          next written => rw [written]
          next written =>
            rw [written] at log ⊢
            exact openFiles_unlogged (log.trans unlogged) ..

/-- The metadata files of a store that is not open yet: those of new generations, and no
log. -/
structure Initial (disk : AuditDisk) : Prop where
  unlogged : disk.log = none
  holds : ∀ m, disk.Holds m → ∃ g, isGenerationId g = true ∧ m = newMetadata g

/-- Every metadata file that is there, or that a crash can leave, is metadata. -/
def Readable (disk : AuditDisk) : Prop :=
  ∀ bytes, disk.metadata = some bytes ∨ disk.Survives (some bytes) → ∃ m, readMetadata (some bytes) = .ok m

theorem initial_fresh : fresh.Initial := by
  refine ⟨rfl, fun m held => ?_⟩
  rcases held with shown | ⟨file, rfl | ⟨bytes, renamed, -⟩, read⟩
  · cases shown
  · cases read
  · cases renamed

theorem readable_fresh : fresh.Readable := by
  rintro bytes (there | there | ⟨other, renamed, -⟩)
  · cases there
  · cases there
  · cases renamed

theorem Initial.attempt (lawful : AuditExternals.Lawful) {disk : AuditDisk} (h : disk.Initial) (a : OpenAttempt) :
    (disk.attempt a).1.Initial := by
  refine ⟨?_, fun m held => ?_⟩
  · rcases attempt_disk h.unlogged a with same | ⟨g, -, -, written⟩
    · rw [same]
      exact h.unlogged
    · rw [written, writeNewMetadata_log]
      exact h.unlogged
  · have within := (@openWithInstrumentation_metadata _ lawful disk _ a.limits a.generation a.now a.faults _ rfl).1
    rcases within.holds m held with ⟨g, generated, rfl⟩ | before
    · exact ⟨g, a.digits g generated, rfl⟩
    · exact h.holds m before

theorem Initial.firstOpen (lawful : AuditExternals.Lawful) {disk disk' : AuditDisk} (h : disk.Initial) {a : OpenAttempt}
    (step : FirstOpen a disk disk') : disk'.Initial := by
  have after := h.attempt lawful a
  cases step with
  | failed done =>
    rw [done] at after
    exact after
  | crashed done survives =>
    rw [done] at after
    exact ⟨after.unlogged, fun m held => after.holds m (holds_crash survives m held)⟩

/-- Any first open. -/
def FirstOpens (before after : AuditDisk) : Prop := ∃ a, FirstOpen a before after

/-- A first open that is whole. -/
def WholeFirstOpens (before after : AuditDisk) : Prop := ∃ a, before.Whole a ∧ FirstOpen a before after

theorem Initial.run (lawful : AuditExternals.Lawful) {disk : AuditDisk} (run : ReflTransGen FirstOpens fresh disk) :
    disk.Initial := by
  induction run with
  | refl => exact initial_fresh
  | tail _ step ih =>
    obtain ⟨a, step⟩ := step
    exact ih.firstOpen lawful step

theorem Readable.rename {disk : AuditDisk} (h : disk.Readable) {bytes : Bytes} {m : StoreMetadata}
    (read : metadataFromSlice bytes = some m) : (disk.rename bytes).Readable := by
  have new : readMetadata (some bytes) = .ok m := readMetadata_some.2 read
  rintro other (there | there | ⟨listed, renamed, same⟩)
  · cases there
    exact ⟨m, new⟩
  · exact h other (.inr (.inl there))
  · cases same
    rcases List.mem_cons.1 renamed with rfl | earlier
    · exact ⟨m, new⟩
    · exact h other (.inr (.inr ⟨other, earlier, rfl⟩))

theorem Readable.syncDir {disk : AuditDisk} (h : disk.Readable) : disk.syncDir.Readable := by
  rintro bytes (there | there | ⟨other, renamed, -⟩)
  · exact h bytes (.inl there)
  · exact h bytes (.inl there.symm)
  · cases renamed

/-- An attempt that is whole leaves only metadata. -/
theorem Readable.attempt (lawful : AuditExternals.Lawful) {disk : AuditDisk} (unlogged : disk.log = none)
    (h : disk.Readable) {a : OpenAttempt} (whole : disk.Whole a) : (disk.attempt a).1.Readable := by
  rcases attempt_disk unlogged a with same | ⟨g, absent, generated, written⟩
  · rw [same]
    exact h
  · obtain ⟨bytes, encoded⟩ := lawful.writable (newMetadata g)
    have complete := h.rename (lawful.metadata _ _ encoded)
    rw [written]
    unfold writeNewMetadata
    rw [encoded]
    cases fault : a.faults.initial with
    | none => exact complete.syncDir
    | some fault' =>
      cases fault' with
      | create => exact h
      | write kept =>
        obtain ⟨m, read⟩ := Option.isSome_iff_exists.1 (whole g kept bytes absent generated fault encoded)
        exact h.rename read
      | sync => exact complete
      | directorySync => exact complete

theorem Readable.firstOpen (lawful : AuditExternals.Lawful) {disk disk' : AuditDisk} (unlogged : disk.log = none)
    (h : disk.Readable) {a : OpenAttempt} (whole : disk.Whole a) (step : FirstOpen a disk disk') : disk'.Readable := by
  have after := h.attempt lawful unlogged whole
  cases step with
  | failed done =>
    rw [done] at after
    exact after
  | crashed done survives =>
    rw [done] at after
    rintro bytes (rfl | rfl | ⟨other, renamed, -⟩)
    · exact after bytes (.inr survives)
    · exact after bytes (.inr survives)
    · cases renamed

theorem Readable.run (lawful : AuditExternals.Lawful) {disk : AuditDisk} (run : ReflTransGen WholeFirstOpens fresh disk) :
    disk.Initial ∧ disk.Readable := by
  induction run with
  | refl => exact ⟨initial_fresh, readable_fresh⟩
  | tail _ step ih =>
    obtain ⟨a, whole, step⟩ := step
    exact ⟨ih.1.firstOpen lawful step, ih.2.firstOpen lawful ih.1.unlogged whole step⟩

/-! ## The open after them -/

/-- New metadata without a log opens, with nothing retained. -/
theorem openFiles_new {disk : AuditDisk} (unlogged : disk.log = none) {limits : AuditLimits}
    (room : limits.maxBytes + securityAuditMaxEventBytes ≤ u64Max) {generation : String}
    (digits : isGenerationId generation = true) (found : SecurityAuditStoreOpenState) (now : SystemTime) :
    ∃ state recovery, disk.openFiles limits (newMetadata generation) found now .none = (disk, .ok (state, recovery)) ∧
      state.records = [] := by
  have added : checkedAdd limits.maxBytes securityAuditMaxEventBytes = some _ := checkedAdd_eq_some.2 ⟨room, rfl⟩
  have scanned : scanLog limits (newMetadata generation) disk.log now =
      .ok (RecoveryScan.start (newMetadata generation), false) := by
    unfold scanLog readRecords
    rw [added, unlogged]
    rfl
  have reserved : ¬(RecoveryScan.start (newMetadata generation)).Unreserved (newMetadata generation) := by
    simp [RecoveryScan.Unreserved, RecoveryScan.start, newMetadata]
  have usable : ¬(newMetadata generation).Exhausted := by
    simp [StoreMetadata.Exhausted, newMetadata, checkedAdd, u64Max]
  unfold openFiles openState
  rw [if_neg (by decide), if_neg (by simp [newMetadata]), if_neg (by simp [newMetadata, digits]), scanned]
  dsimp only
  rw [if_neg reserved, if_neg usable]
  exact ⟨_, _, rfl, rfl⟩

/-- The limits that an open accepts, with room for one record more than they retain. -/
structure Usable (limits : AuditLimits) : Prop where
  valid : limits.Valid
  room : limits.maxBytes + securityAuditMaxEventBytes ≤ u64Max

/-- An open that succeeds had usable limits, and took over metadata or wrote it. -/
theorem OpensEmpty.usable {disk : AuditDisk} {limits : AuditLimits} {generation : String} {now : SystemTime}
    (opens : disk.OpensEmpty limits generation now) : Usable limits ∧ (disk.metadata = none ∨ ∃ m, disk.Shows m) := by
  have room : ∀ {disk disk' : AuditDisk} {metadata : StoreMetadata} {found : SecurityAuditStoreOpenState}
      {opened : StoreState × SecurityAuditStoreRecovery},
      disk.openFiles limits metadata found now .none = (disk', .ok opened) →
        limits.maxBytes + securityAuditMaxEventBytes ≤ u64Max := by
    intro disk disk' metadata found opened done
    unfold openFiles at done
    rw [if_neg (by decide)] at done
    cases read : openState limits metadata disk.log now with
    | error error => rw [read] at done; cases done
    | ok result =>
      obtain ⟨scan, -, -, scanned, -⟩ := openState_ok read
      obtain ⟨records, listed, -⟩ := scanLog_ok scanned
      unfold readRecords at listed
      split at listed
      · cases listed
      next sum added => exact (checkedAdd_eq_some.1 added).1
  obtain ⟨disk', state, recovery, opened, -⟩ := opens
  unfold openWithInstrumentation at opened
  split at opened
  · cases opened
  case isFalse positive =>
    simp only [not_or] at positive
    have valid : limits.Valid := ⟨positive.1, positive.2.1, positive.2.2⟩
    rw [if_neg (by decide)] at opened
    cases file : disk.metadata with
    | none =>
      rw [file] at opened
      dsimp only at opened
      split at opened
      · cases opened
      · exact ⟨⟨valid, room opened⟩, .inl rfl⟩
    | some bytes =>
      rw [file] at opened
      dsimp only at opened
      rw [if_neg (by decide)] at opened
      cases shown : readMetadata (some bytes) with
      | error error => rw [shown] at opened; cases opened
      | ok m =>
        rw [shown] at opened
        refine ⟨⟨valid, room opened⟩, .inr ⟨m, ?_⟩⟩
        rw [Shows, file]
        exact shown

/-- After first opens, an open with usable limits succeeds where there is no metadata file,
or one that is metadata. -/
theorem Initial.opensEmpty (lawful : AuditExternals.Lawful) {disk : AuditDisk} (h : disk.Initial) {limits : AuditLimits}
    (usable : Usable limits) {generation : String} (digits : isGenerationId generation = true) (now : SystemTime)
    (metadata : disk.metadata = none ∨ ∃ m, disk.Shows m) : disk.OpensEmpty limits generation now := by
  rcases metadata with absent | ⟨m, shown⟩
  · obtain ⟨bytes, encoded⟩ := lawful.writable (newMetadata generation)
    have unlogged : (disk.rename (bytes ++ [newline])).syncDir.log = none := h.unlogged
    obtain ⟨state, recovery, opened, empty⟩ := openFiles_new unlogged usable.room digits .initialized now
    have written : disk.writeNewMetadata (newMetadata generation) OpenFaults.none.initial =
        ((disk.rename (bytes ++ [newline])).syncDir, true) := by
      unfold writeNewMetadata
      rw [encoded]
      rfl
    refine ⟨(disk.rename (bytes ++ [newline])).syncDir, state, recovery, ?_, empty⟩
    unfold openWithInstrumentation
    rw [if_neg (by simp [usable.valid.events, usable.valid.bytes, usable.valid.age]), if_neg (by decide), absent]
    dsimp only
    rw [written]
    exact opened
  · obtain ⟨g, genuine, rfl⟩ := h.holds m (.inl shown)
    obtain ⟨state, recovery, opened, empty⟩ := openFiles_new h.unlogged usable.room genuine .reopened now
    exact ⟨disk, state, recovery, (openWithInstrumentation_reopened usable.valid shown _ now).trans opened, empty⟩

/-- After first opens none of which stopped with a part of the metadata written, an open
with usable limits succeeds with nothing retained; after any first opens it does exactly
where, besides, the metadata file is not there or is metadata. -/
theorem first_open_retried (lawful : AuditExternals.Lawful) {generation : String} (digits : isGenerationId generation = true)
    (limits : AuditLimits) (now : SystemTime) :
    (∀ disk, ReflTransGen WholeFirstOpens fresh disk → (disk.OpensEmpty limits generation now ↔ Usable limits)) ∧
      ∀ disk, ReflTransGen FirstOpens fresh disk →
        (disk.OpensEmpty limits generation now ↔ Usable limits ∧ (disk.metadata = none ∨ ∃ m, disk.Shows m)) := by
  refine ⟨fun disk run => ⟨fun opens => opens.usable.1, fun usable => ?_⟩, fun disk run => ⟨OpensEmpty.usable, ?_⟩⟩
  · obtain ⟨initial, readable⟩ := Readable.run lawful run
    refine initial.opensEmpty lawful usable digits now ?_
    cases file : disk.metadata with
    | none => exact .inl rfl
    | some bytes =>
      obtain ⟨m, read⟩ := readable bytes (.inl file)
      refine .inr ⟨m, ?_⟩
      rw [Shows, file]
      exact read
  · rintro ⟨usable, metadata⟩
    exact (Initial.run lawful run).opensEmpty lawful usable digits now metadata

end AuditDisk
end Store

/-- A first open that stops at a fault of its initialization. -/
def zerosAttempt (fault : InitialFault) : OpenAttempt where
  limits := zerosLimits
  generation := some zeros
  now := 0
  faults := { OpenFaults.none with initial := some fault }
  digits := by
    rintro g ⟨⟩
    decide

/-- An open after one that could not sync the directory. -/
theorem first_open_retried_unsynced :
    letI := zerosCodecs
    ∃ disk, ReflTransGen AuditDisk.WholeFirstOpens .fresh disk ∧ disk.OpensEmpty zerosLimits zeros 0 := by
  let := zerosCodecs
  obtain ⟨disk, outcome, failed⟩ : ∃ disk outcome, AuditDisk.fresh.attempt (zerosAttempt .directorySync) = (disk, outcome) :=
    ⟨_, _, rfl⟩
  have refused : outcome = .error .unavailable := by
    rw [show outcome = (AuditDisk.fresh.attempt (zerosAttempt .directorySync)).2 by rw [failed]]
    rfl
  subst refused
  have step : AuditDisk.WholeFirstOpens .fresh disk := ⟨zerosAttempt .directorySync, nofun, .failed failed⟩
  have holds := @AuditDisk.first_open_retried _ zerosCodecs_lawful zeros (by decide) zerosLimits 0
  exact ⟨disk, .single step, (holds.1 disk (.single step)).2 ⟨⟨by decide, by decide, by decide⟩, by decide⟩⟩

/-- A first open that stops right after it has created the metadata file leaves a store that
no open accepts. -/
theorem empty_metadata_never_opens :
    letI := zerosCodecs
    ∃ disk, ReflTransGen AuditDisk.FirstOpens .fresh disk ∧
      ∀ limits generation now faults, ∃ error, (disk.openWithInstrumentation limits generation now faults).2 = .error error := by
  let := zerosCodecs
  have stops : AuditDisk.fresh.attempt (zerosAttempt (.write 0)) = (AuditDisk.fresh.rename [], .error .unavailable) := rfl
  have unreadable : readMetadata (some []) = .error .malformedMetadata := by
    unfold readMetadata
    dsimp only
    cases read : AuditExternals.metadataFromSlice [] with
    | none => rfl
    | some m =>
      have text := (metadataOfText_eq_some (by decide) (by decide)).1 read
      simp at text
  refine ⟨_, .single ⟨_, .failed stops⟩, fun limits generation now faults => ?_⟩
  unfold AuditDisk.openWithInstrumentation
  rw [show (AuditDisk.fresh.rename []).metadata = some [] from rfl]
  dsimp only
  split
  · exact ⟨_, rfl⟩
  · split
    · exact ⟨_, rfl⟩
    · split
      · exact ⟨_, rfl⟩
      · rw [unreadable]
        exact ⟨_, rfl⟩
