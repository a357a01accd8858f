import Grm.Runtime.Recovery

/-!
# What a load replaces and what a save promises

A load puts the checkpoint, or the backup, in place before it reads the log, so a log that
fails leaves the session with the checkpoint alone. A save writes a binary session of any
size, a load refuses one past its limit.
-/

open Std

set_option autoImplicit false

section Load
variable [Codecs]

/-- A binary session decoded down to its property values. -/
def BinaryPersistedSession.decoded (persisted : BinaryPersistedSession) : GrmResult PersistedSession := do
  let nodes ← BTreeMap.tryMap BinaryStoredNode.toStored persisted.graph.nodes
  let rels ← BTreeMap.tryMap BinaryStoredRel.toStored persisted.graph.rels
  return ⟨⟨persisted.graph.nextNodeId, persisted.graph.nextRelId, nodes, rels⟩, persisted.catalog⟩

/-- The durable part that a load takes from the files before it reads the log. -/
def takenCheckpoint (format : DurabilityFormat) (disk : Disk) : Option PersistedSession :=
  match format with
  | .json =>
    (readToString disk.primary).bind fun json =>
      (Codecs.sessionFromStr json).or ((readToString disk.backup).bind Codecs.sessionFromStr)
  | .binary =>
    (readLimitedBinarySessionFile disk.primary).toOption.bind fun bytes =>
      match Codecs.sessionDeserialize maxBinarySessionFileBytes bytes with
      | some persisted => persisted.decoded.toOption
      | none => (readLimitedBinarySessionFile disk.backup).toOption.bind fun bytes =>
          (Codecs.sessionDeserialize maxBinarySessionFileBytes bytes).bind fun persisted => persisted.decoded.toOption

theorem adoptBinary_eq (s : SessionState) (persisted : BinaryPersistedSession) (log : Option Bytes) (source : LoadSource) :
    s.adoptBinary persisted log source =
      match persisted.decoded with
      | .ok d => finishLoad (.ofPersisted d) log source
      | .error e => (s, .error e) := by
  unfold SessionState.adoptBinary BinaryPersistedSession.decoded GraphStore.fromBinaryPersisted
  cases BTreeMap.tryMap BinaryStoredNode.toStored persisted.graph.nodes with
  | error e => rfl
  | ok nodes =>
    cases BTreeMap.tryMap BinaryStoredRel.toStored persisted.graph.rels with
    | error e => rfl
    | ok rels => rfl

/-- A load that takes no checkpoint fails and leaves the session alone; one that takes a
checkpoint puts it in place and goes on with the log. -/
theorem loadWorkspace_cases (s : SessionState) (format : DurabilityFormat) (disk : Disk) :
    (takenCheckpoint format disk = none ∧ ∃ e, s.loadWorkspace format disk = (s, .error e)) ∨
      ∃ d source, takenCheckpoint format disk = some d ∧
        s.loadWorkspace format disk = finishLoad (.ofPersisted d) disk.log source := by
  cases format with
  | json =>
    unfold takenCheckpoint SessionState.loadWorkspace SessionState.loadFromJson
    dsimp only
    cases text : readToString disk.primary with
    | none => exact .inl ⟨rfl, _, rfl⟩
    | some json =>
      dsimp only [Option.bind_some]
      cases decoded : Codecs.sessionFromStr json with
      | some d => exact .inr ⟨d, .primary, rfl, rfl⟩
      | none =>
        unfold SessionState.loadJsonBackup
        rw [Option.none_or]
        dsimp only
        cases backup : (readToString disk.backup).bind Codecs.sessionFromStr with
        | none => exact .inl ⟨rfl, _, rfl⟩
        | some d => exact .inr ⟨d, .backup, rfl, rfl⟩
  | binary =>
    unfold takenCheckpoint SessionState.loadWorkspace SessionState.loadFromBinary
    dsimp only
    cases file : readLimitedBinarySessionFile disk.primary with
    | error e => exact .inl ⟨rfl, _, rfl⟩
    | ok bytes =>
      dsimp only [Except.toOption, Option.bind_some]
      cases primary : Codecs.sessionDeserialize maxBinarySessionFileBytes bytes with
      | some persisted =>
        dsimp only
        rw [adoptBinary_eq]
        cases persisted.decoded with
        | error e => exact .inl ⟨rfl, _, rfl⟩
        | ok d => exact .inr ⟨d, .primary, rfl, rfl⟩
      | none =>
        unfold SessionState.loadBinaryBackup
        dsimp only
        cases backupFile : readLimitedBinarySessionFile disk.backup with
        | error e => exact .inl ⟨rfl, _, rfl⟩
        | ok bytes =>
          dsimp only [Option.bind_some]
          cases Codecs.sessionDeserialize maxBinarySessionFileBytes bytes with
          | none => exact .inl ⟨rfl, _, rfl⟩
          | some persisted =>
            dsimp only [Option.bind_some]
            rw [adoptBinary_eq]
            cases persisted.decoded with
            | error e => exact .inl ⟨rfl, _, rfl⟩
            | ok d => exact .inr ⟨d, .backup, rfl, rfl⟩

/-- A failed load leaves the durable part of the session alone exactly when the log applies
to the checkpoint it takes, or that checkpoint is what the session has. -/
theorem failed_load_atomic_iff (s : SessionState) (format : DurabilityFormat) (disk : Disk) :
    (∀ e, (s.loadWorkspace format disk).2 = .error e →
      (s.loadWorkspace format disk).1.persistedSession = s.persistedSession) ↔
    ∀ d, takenCheckpoint format disk = some d →
      (∃ loaded, applySessionLog (.ofPersisted d) disk.log = .ok loaded) ∨ d = s.persistedSession := by
  rcases loadWorkspace_cases s format disk with ⟨untaken, e, load⟩ | ⟨d, source, taken, load⟩
  · rw [untaken, load]
    exact ⟨fun _ _ => nofun, fun _ _ _ => rfl⟩
  · rw [taken, load]
    unfold finishLoad
    cases applied : applySessionLog (.ofPersisted d) disk.log with
    | ok loaded =>
      refine ⟨fun _ d' same => ?_, fun _ _ => nofun⟩
      cases same
      exact .inl ⟨loaded, applied⟩
    | error e =>
      constructor
      · intro atomic d' same
        cases same
        have unchanged := atomic e rfl
        rw [SessionState.ofPersisted_persistedSession] at unchanged
        exact .inr unchanged
      · intro condition e' _
        rcases condition d rfl with ⟨loaded, succeeds⟩ | same
        · rw [applied] at succeeds
          cases succeeds
        · exact (SessionState.ofPersisted_persistedSession d).trans same

end Load

/-- The checkpoint of a new session with a log line that is no record, loaded into the
session with a model: the load fails and the model is gone. -/
theorem malformed_log_replaces_session :
    letI := userCodecs
    let disk : Disk := ⟨some newSessionText.toUTF8.data.toList, none, some [120, newline]⟩
    (userSession.loadWorkspace .json disk).2 = .error (.loadAborted "malformed durable append log record") ∧
      (userSession.loadWorkspace .json disk).1.persistedSession ≠ userSession.persistedSession := by
  let := userCodecs
  have session : Codecs.sessionToStringPretty SessionState.new.persistedSession = some newSessionText :=
    encodeListed_head _ _ _
  have saved : SessionState.new.checkpointBytes .json = .ok newSessionText.toUTF8.data.toList := by
    unfold SessionState.checkpointBytes
    rw [session]
  intro disk
  have written : Checkpoints .json disk.primary SessionState.new.persistedSession := ⟨_, _, rfl, saved, rfl⟩
  have malformed : applySessionLog (.ofPersisted SessionState.new.persistedSession) disk.log =
      .error (.loadAborted "malformed durable append log record") := rfl
  rw [load_primary userCodecs_lawful written nofun]
  unfold finishLoad
  rw [malformed]
  refine ⟨rfl, fun same => ?_⟩
  rw [SessionState.ofPersisted_persistedSession] at same
  cases congrArg (fun d => d.catalog.nodeModels.size) same

/-! ## Saved sessions -/

theorem readLimited_large {bytes : Bytes} (large : maxBinarySessionFileBytes < bytes.length) :
    readLimitedBinarySessionFile (some bytes) =
      .error (.loadAborted "binary session file exceeds maximum supported size") :=
  if_pos large

section Save
variable [Codecs]

/-- A binary checkpoint past the limit does not load, whatever its backup. -/
theorem load_large (t : SessionState) {disk : Disk} {bytes : Bytes} (primary : disk.primary = some bytes)
    (large : maxBinarySessionFileBytes < bytes.length) :
    t.loadWorkspace .binary disk = (t, .error (.loadAborted "binary session file exceeds maximum supported size")) := by
  unfold SessionState.loadWorkspace SessionState.loadFromBinary
  dsimp only
  rw [primary, readLimited_large large]

/-- What a save wrote loads to the saved session exactly when it is JSON or within the
limit of the binary loader. -/
theorem saved_loads_iff (lawful : Codecs.Lawful) {s : SessionState} {format : DurabilityFormat} {disk disk' : Disk}
    (ok : s.saveWorkspace format disk none = (disk', .ok ())) (t : SessionState) :
    (∃ loaded source, t.loadWorkspace format disk' = (loaded, .ok source) ∧
      loaded.persistedSession = s.persistedSession) ↔
    (format = .binary → ∀ bytes, s.checkpointBytes .binary = .ok bytes → bytes.length ≤ maxBinarySessionFileBytes) := by
  obtain ⟨bytes, encoded, rfl⟩ := saveWorkspace_ok ok
  have written : Checkpoints format (some bytes) s.persistedSession := ⟨s, bytes, rfl, encoded, rfl⟩
  constructor
  · rintro ⟨loaded, source, load, -⟩ rfl other same
    cases encoded.symm.trans same
    apply Classical.byContradiction
    intro large
    rw [load_large t rfl (by omega)] at load
    cases load
  · intro small
    have within : WithinLimit format (some bytes) := by
      rintro rfl other ⟨⟩
      exact small rfl bytes encoded
    have loads : t.loadWorkspace format ⟨some bytes, some bytes, none⟩ =
        finishLoad (.ofPersisted s.persistedSession) none .primary := by
      refine load_primary lawful ?_ ?_ t
      · exact written
      · exact within
    rw [loads]
    exact ⟨_, .primary, rfl, SessionState.ofPersisted_persistedSession _⟩

end Save

/-- A saved session with one model, loaded into any session. -/
theorem saved_definition_loads :
    letI := userCodecs
    ∃ disk, userSession.saveWorkspace .json ⟨none, none, none⟩ none = (disk, .ok ()) ∧
      ∀ t : SessionState, ∃ loaded source, t.loadWorkspace .json disk = (loaded, .ok source) ∧
        loaded.persistedSession = userSession.persistedSession := by
  let := userCodecs
  have ok : userSession.saveWorkspace .json ⟨none, none, none⟩ none =
      (⟨some userSessionText.toUTF8.data.toList, some userSessionText.toUTF8.data.toList, none⟩, .ok ()) := by
    unfold SessionState.saveWorkspace SessionState.checkpointBytes
    dsimp only
    rw [userCodecs_userSession]
    rfl
  exact ⟨_, ok, fun t => (saved_loads_iff userCodecs_lawful ok t).2 nofun⟩

/-! ## A session past the limit -/

/-- The letters of a model name of `2 ^ 26` bytes. -/
def longName : String := String.ofList (List.replicate (2 ^ 26) 'A')

def longModel : RuntimeNodeModel := ⟨longName, longName, "uid", .int64, .declared, []⟩

/-- A new session with a model of that name. -/
def longSession : SessionState :=
  ⟨GraphStore.empty, { nodeModels := (∅ : BTreeMap String RuntimeNodeModel).insert longName longModel }⟩

/-- A fixed-width little-endian integer of `width` bytes. -/
def fixint (width n : Nat) : Bytes := (List.range width).map fun i => UInt8.ofNat (n / 256 ^ i)

/-- The name in `bincode`: its length and its bytes. -/
def longNameBytes : Bytes := fixint 8 (2 ^ 26) ++ List.replicate (2 ^ 26) 65

/-- The session in `bincode`: counters, no records, and a catalog with the one model, whose
name is written as the key, the name and the label. -/
def longSessionBytes : Bytes :=
  fixint 8 1 ++ fixint 8 1 ++ fixint 8 0 ++ fixint 8 0 ++
    (fixint 8 1 ++ longNameBytes ++
      (longNameBytes ++ longNameBytes ++ (fixint 8 3 ++ [117, 105, 100]) ++ fixint 4 0 ++ fixint 4 0 ++ fixint 8 0)) ++
    fixint 8 0

theorem length_fixint (width n : Nat) : (fixint width n).length = width := by
  rw [fixint, List.length_map, List.length_range]

theorem length_longNameBytes : longNameBytes.length = 8 + 2 ^ 26 := by
  rw [longNameBytes, List.length_append, length_fixint, List.length_replicate]

theorem longSessionBytes_large : maxBinarySessionFileBytes < longSessionBytes.length := by
  simp only [longSessionBytes, List.length_append, length_fixint, length_longNameBytes, List.length_cons,
    List.length_nil, maxBinarySessionFileBytes]
  omega

/-- Its binary form, which has no property to encode. -/
def longBinary : BinaryPersistedSession := ⟨⟨1, 1, ∅, ∅⟩, longSession.catalog⟩

/-- The codecs on that session alone; past the limit nothing is decoded. -/
@[reducible] noncomputable def longCodecs : Codecs where
  opToVec _ := none
  opFromSlice _ := none
  sessionToStringPretty _ := none
  sessionFromStr _ := none
  valueToVec _ := none
  valueFromSlice _ := none
  sessionSerialize := encodeListed [(longBinary, longSessionBytes)]
  sessionDeserialize limit bytes :=
    if bytes.length ≤ limit then decodeListed [(longBinary, longSessionBytes)] bytes else none

theorem longCodecs_lawful : @Codecs.Lawful longCodecs :=
  letI := longCodecs
  { op := nofun
    oneLine := nofun
    blank := fun _ _ => rfl
    session := nofun
    value := nofun
    binary := fun d bytes limit encoded within =>
      (if_pos within).trans (decodeListed_encodeListed (by simp) encoded) }

/-- The save of the session succeeds, and every load of what it wrote fails. -/
theorem large_session_saved_not_loadable :
    letI := longCodecs
    Codecs.Lawful ∧ ∃ disk, longSession.saveWorkspace .binary ⟨none, none, none⟩ none = (disk, .ok ()) ∧
      ∀ t : SessionState, (t.loadWorkspace .binary disk).2 =
        .error (.loadAborted "binary session file exceeds maximum supported size") := by
  let := longCodecs
  have encoded : longSession.checkpointBytes .binary = .ok longSessionBytes := by
    have bytes : Codecs.sessionSerialize longBinary = some longSessionBytes := encodeListed_head _ _ _
    exact SessionState.checkpointBytes_binary rfl bytes
  refine ⟨longCodecs_lawful, ⟨some longSessionBytes, some longSessionBytes, none⟩, ?_, fun t => ?_⟩
  · unfold SessionState.saveWorkspace
    rw [encoded]
    rfl
  · rw [load_large t rfl longSessionBytes_large]
