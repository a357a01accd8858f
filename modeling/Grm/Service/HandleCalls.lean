import Grm.Service.HandleTables

/-!
# The calls on the handle tables

What each call does to the tables, in terms of the four changes that keep them consistent,
and the handles it gives out. A name that is free has no checkpoint, so a workspace is
created at a path that is not live.
-/

set_option autoImplicit false

open Service

theorem Disks.at_insert (disks : Disks) (path other : String) (disk : Disk) :
    Disks.at (disks.insert path disk) other = if path = other then disk else disks.at other := by
  unfold Disks.at
  rw [BTreeMap.get_insert]
  split <;> rfl

/-- Replacing the files of one path, checkpoint kept, keeps the checkpoints of all. -/
theorem Disks.keeps_insert (disks : Disks) {path : String} {disk : Disk} (keeps : (disks.at path).Keeps disk)
    (other : String) : (disks.at other).Keeps (Disks.at (disks.insert path disk) other) := by
  rw [Disks.at_insert]
  split
  · next same =>
    subst same
    exact keeps
  · exact fun present => present

namespace InProcessWorkspaceService
variable {s s' : InProcessWorkspaceService} {disks : Disks} {inspect : String → Option String}

theorem anyExists_false {workspace : WorkspaceRef} {files : List (String × Bool)}
    (absent : anyExists workspace inspect files = .ok false) : ∀ file ∈ files, file.2 = false := by
  induction files with
  | nil => exact nofun
  | cons file files ih =>
    obtain ⟨path, present⟩ := file
    unfold anyExists at absent
    split at absent
    · cases absent
    · cases present with
      | true => cases absent
      | false =>
        intro other listed
        rcases List.mem_cons.1 listed with rfl | listed
        · rfl
        · exact ih absent other listed

/-- The files of the binary format are looked for first. -/
theorem localWorkspaceExists_ok {workspace : WorkspaceRef} {found : Bool}
    (ok : s.localWorkspaceExists disks inspect workspace = .ok found) :
    ∃ binary, s.localWorkspacePath workspace .binary = .ok binary ∧
      (anyExists workspace inspect (artifacts binary (disks.at binary)) = .ok true ∧ found = true ∨
        anyExists workspace inspect (artifacts binary (disks.at binary)) = .ok false ∧
          ∃ json, s.localWorkspacePath workspace .json = .ok json ∧
            anyExists workspace inspect (artifacts json (disks.at json)) = .ok found) := by
  unfold localWorkspaceExists at ok
  cases binary : s.localWorkspacePath workspace .binary with
  | error e =>
    rw [binary] at ok
    cases ok
  | ok binaryPath =>
    refine ⟨binaryPath, rfl, ?_⟩
    cases first : anyExists workspace inspect (artifacts binaryPath (disks.at binaryPath)) with
    | error e =>
      simp only [binary, first, bind, Except.bind] at ok
      cases ok
    | ok there =>
      simp only [binary, first, bind, Except.bind] at ok
      cases there with
      | true =>
        cases ok
        exact .inl ⟨rfl, rfl⟩
      | false =>
        cases json : s.localWorkspacePath workspace .json with
        | error e =>
          rw [json] at ok
          cases ok
        | ok jsonPath =>
          rw [json] at ok
          exact .inr ⟨rfl, jsonPath, rfl, ok⟩

/-- A name that is free has no checkpoint in either format. -/
theorem localWorkspaceExists_false {workspace : WorkspaceRef}
    (absent : s.localWorkspaceExists disks inspect workspace = .ok false) {format : DurabilityFormat} {path : String}
    (located : s.localWorkspacePath workspace format = .ok path) : (disks.at path).primary = none := by
  have noCheckpoint : ∀ {p : String}, anyExists workspace inspect (artifacts p (disks.at p)) = .ok false →
      (disks.at p).primary = none := by
    intro p free
    have primary := anyExists_false free (p, (disks.at p).primary.isSome) List.mem_cons_self
    exact Option.isNone_iff_eq_none.1 (Option.isSome_eq_false_iff.1 primary)
  obtain ⟨binary, binaryAt, ⟨-, present⟩ | ⟨first, json, jsonAt, second⟩⟩ := localWorkspaceExists_ok absent
  · cases present
  · cases format with
    | json =>
      cases jsonAt.symm.trans located
      exact noCheckpoint second
    | binary =>
      cases binaryAt.symm.trans located
      exact noCheckpoint first

/-- Looking for a name only counts, and a name that is found is free. -/
theorem nextAvailableWorkspaceRef_ok {tries : Nat} {result : WorkspaceServiceResult WorkspaceRef}
    (found : nextAvailableWorkspaceRef disks inspect tries s = some (s', result)) :
    (∃ counted, s' = { s with nextWorkspaceRefId := counted }) ∧
      ∀ ref, result = .ok ref → s'.localWorkspaceExists disks inspect ref = .ok false := by
  induction tries generalizing s with
  | zero => cases found
  | succ tries ih =>
    unfold nextAvailableWorkspaceRef nextWorkspaceRef at found
    dsimp only at found
    split at found
    · cases found
      exact ⟨⟨_, rfl⟩, nofun⟩
    · next free =>
      cases found
      exact ⟨⟨_, rfl⟩, fun ref same => by cases same; exact free⟩
    · obtain ⟨⟨counted, rfl⟩, free⟩ := ih found
      exact ⟨⟨counted, rfl⟩, free⟩

theorem newWorkspaceRef_ok {tries : Nat} {request : Option WorkspaceRef} {result : WorkspaceServiceResult WorkspaceRef}
    (found : s.newWorkspaceRef disks inspect tries request = some (s', result)) :
    (∃ counted, s' = { s with nextWorkspaceRefId := counted }) ∧
      ∀ ref, result = .ok ref → s'.localWorkspaceExists disks inspect ref = .ok false := by
  cases request with
  | none => exact nextAvailableWorkspaceRef_ok found
  | some workspace =>
    cases found
    refine ⟨⟨s.nextWorkspaceRefId, rfl⟩, fun ref accepted => ?_⟩
    cases valid : validateWorkspaceRef workspace with
    | error e =>
      rw [valid] at accepted
      cases accepted
    | ok _ =>
      cases exists_ : s.localWorkspaceExists disks inspect workspace with
      | error e =>
        rw [valid, exists_] at accepted
        cases accepted
      | ok present =>
        rw [valid, exists_] at accepted
        cases present with
        | true => cases accepted
        | false =>
          cases accepted
          exact exists_

end InProcessWorkspaceService

namespace InProcessWorkspaceService

/-- The tables of handles and workspaces are the same. -/
structure SameTables (s s' : InProcessWorkspaceService) : Prop where
  workspaces : s'.workspaces = s.workspaces
  handles : s'.workspaceHandles = s.workspaceHandles
  paths : s'.liveWorkspacePaths = s.liveWorkspacePaths
  refs : s'.workspaceRefs = s.workspaceRefs

theorem SameTables.rfl {s : InProcessWorkspaceService} : SameTables s s := ⟨.refl _, .refl _, .refl _, .refl _⟩

theorem Consistent.congr {s s' : InProcessWorkspaceService} (h : s.Consistent) (same : SameTables s s') :
    s'.Consistent := by
  constructor
  · rw [same.handles, same.workspaces]
    exact h.live
  · rw [same.handles, same.workspaces]
    exact h.held
  · rw [same.paths, same.workspaces]
    exact h.paths
  · rw [same.paths, same.workspaces]
    exact h.single
  · rw [same.refs, same.handles]
    exact h.refs

/-- What a call does to the tables, the handle it closes and the handles it gives out. -/
inductive Effect (s s' : InProcessWorkspaceService) (disks' : Disks) : Option WorkspaceHandle → List String → Prop where
  | unchanged (same : SameTables s s') : Effect s s' disks' none []
  | loaded (handle : WorkspaceHandle) (ws : Workspace) (ref : Option WorkspaceRef) (detached : ws.path? = none)
      (same : SameTables (s.register handle ws ref) s') : Effect s s' disks' none [handle.id]
  | placed (handle : WorkspaceHandle) (ws : Workspace) (ref : Option WorkspaceRef) (path : String)
      (located : ws.path? = some path) (free : path ∉ s.liveWorkspacePaths) (saved : (disks'.at path).primary ≠ none)
      (same : SameTables { s.register handle ws ref with
        liveWorkspacePaths := s.liveWorkspacePaths.insert path handle.id } s') : Effect s s' disks' none [handle.id]
  | shared (handle : WorkspaceHandle) (ref : Option WorkspaceRef) (id : String) (ws : Workspace)
      (there : s.workspaces[id]? = some ws)
      (same : SameTables { s with
        workspaceHandles := s.workspaceHandles.insert handle.id id
        workspaceRefs := s.workspaceRefs.insert handle.id ref } s') : Effect s s' disks' none [handle.id]
  | replaced (id : String) (ws ws' : Workspace) (there : s.workspaces[id]? = some ws) (unmoved : ws'.path? = ws.path?)
      (same : SameTables { s with workspaces := s.workspaces.insert id ws' } s') : Effect s s' disks' none []
  | closed (handle : WorkspaceHandle) (same : SameTables (s.closeWorkspace handle).1 s') : Effect s s' disks' (some handle) []

theorem closeWorkspace_counted (s : InProcessWorkspaceService) (counted : Nat) (handle : WorkspaceHandle) :
    (closeWorkspace { s with nextWorkspaceRefId := counted } handle).1 =
      { (s.closeWorkspace handle).1 with nextWorkspaceRefId := counted } := by
  unfold closeWorkspace
  dsimp only
  cases s.workspaceHandles[handle.id]? with
  | none => rfl
  | some id =>
    dsimp only
    split <;> rfl

/-- The counter of names is in no table. -/
theorem Effect.of_counted {s s' : InProcessWorkspaceService} {counted : Nat} {disks' : Disks}
    {closing : Option WorkspaceHandle} {handles : List String}
    (effect : Effect { s with nextWorkspaceRefId := counted } s' disks' closing handles) :
    Effect s s' disks' closing handles := by
  cases effect with
  | unchanged same => exact .unchanged ⟨same.workspaces, same.handles, same.paths, same.refs⟩
  | loaded handle ws ref detached same =>
    exact .loaded handle ws ref detached ⟨same.workspaces, same.handles, same.paths, same.refs⟩
  | placed handle ws ref path located free saved same =>
    exact .placed handle ws ref path located free saved ⟨same.workspaces, same.handles, same.paths, same.refs⟩
  | shared handle ref id ws there same =>
    exact .shared handle ref id ws there ⟨same.workspaces, same.handles, same.paths, same.refs⟩
  | replaced id ws ws' there unmoved same =>
    exact .replaced id ws ws' there unmoved ⟨same.workspaces, same.handles, same.paths, same.refs⟩
  | closed handle same =>
    rw [closeWorkspace_counted] at same
    exact .closed handle ⟨same.workspaces, same.handles, same.paths, same.refs⟩

variable {s s' : InProcessWorkspaceService} {disks disks' : Disks} {random : Option (List UInt8)}
  {result : WorkspaceServiceResult WorkspaceHandleResponse}

theorem nextWorkspaceHandle_ok {handle : WorkspaceHandle} (drawn : nextWorkspaceHandle random = .ok handle) :
    random.map workspaceHandleOf = some handle := by
  cases random with
  | none => cases drawn
  | some bytes => cases drawn; rfl

/-- The handle of a result. -/
def givenOut : WorkspaceServiceResult WorkspaceHandleResponse → List String
  | .ok response => [response.handle.id]
  | .error _ => []

/-- The handle is one on the live workspace, which keeps its files at the path. -/
def Serves (s : InProcessWorkspaceService) (handle id : String) (path? : Option String) : Prop :=
  s.workspaceHandles[handle]? = some id ∧ ∃ ws, s.workspaces[id]? = some ws ∧ ws.path? = path?

/-- A call that gives out its random handle, or none; a handle on a named workspace is at the path of the name. -/
structure Opens (s : InProcessWorkspaceService) (disks : Disks) (random : Option (List UInt8))
    (s' : InProcessWorkspaceService) (disks' : Disks) (result : WorkspaceServiceResult WorkspaceHandleResponse) : Prop where
  effect : Effect s s' disks' none (givenOut result)
  kept : ∀ path, (disks.at path).Keeps (disks'.at path)
  drawn : ∀ response, result = .ok response → random.map workspaceHandleOf = some response.handle
  named : ∀ response ref, result = .ok response → response.workspace = some ref →
    ∃ format path id, s.localWorkspacePath ref format = .ok path ∧ s'.Serves response.handle.id id (some path)

theorem opens_refused {e : WorkspaceServiceError} (kept : ∀ path, (disks.at path).Keeps (disks'.at path)) :
    Opens s disks random s disks' (.error e) := ⟨.unchanged .rfl, kept, nofun, nofun⟩

/-- A workspace without files has no name. -/
theorem opens_loaded {handle : WorkspaceHandle} {ws : Workspace} (given : random.map workspaceHandleOf = some handle)
    (detached : ws.path? = none) : Opens s disks random (s.register handle ws none) disks (.ok ⟨handle, none⟩) where
  effect := .loaded handle ws none detached .rfl
  kept := fun _ present => present
  drawn := fun _ same => by cases same; exact given
  named := fun _ _ same named => by cases same; cases named

theorem opens_placed {handle : WorkspaceHandle} {ws : Workspace} {ref : WorkspaceRef} {format : DurabilityFormat}
    {path : String} (given : random.map workspaceHandleOf = some handle)
    (located : s.localWorkspacePath ref format = .ok path) (at_ : ws.path? = some path)
    (free : path ∉ s.liveWorkspacePaths) (saved : (disks'.at path).primary ≠ none)
    (kept : ∀ path, (disks.at path).Keeps (disks'.at path)) :
    Opens s disks random
      { s.register handle ws (some ref) with liveWorkspacePaths := s.liveWorkspacePaths.insert path handle.id } disks'
      (.ok ⟨handle, some ref⟩) where
  effect := .placed handle ws (some ref) path at_ free saved .rfl
  kept := kept
  drawn := fun _ same => by cases same; exact given
  named := by
    intro _ _ same named
    cases same
    cases named
    exact ⟨format, path, handle.id, located, BTreeMap.get_insert_self .., ws, BTreeMap.get_insert_self .., at_⟩

theorem openLoaded_opens {ws : Workspace} {ref : Option WorkspaceRef} {format : DurabilityFormat}
    (detached : ref = none → ws.path? = none)
    (placed : ∀ name path, ref = some name → s.localWorkspacePath name format = .ok path →
      ws.path? = some path ∧ path ∉ s.liveWorkspacePaths ∧ (disks.at path).primary ≠ none)
    (opened : s.openLoaded disks ws ref format random = (s', disks', result)) :
    Opens s disks random s' disks' result ∧ disks' = disks := by
  unfold openLoaded at opened
  cases drawn : nextWorkspaceHandle random with
  | error e =>
    rw [drawn] at opened
    cases opened
    exact ⟨opens_refused fun _ present => present, rfl⟩
  | ok handle =>
    have given := nextWorkspaceHandle_ok drawn
    rw [drawn] at opened
    cases ref with
    | none =>
      cases opened
      exact ⟨opens_loaded given (detached rfl), rfl⟩
    | some name =>
      dsimp only at opened
      cases located : s.localWorkspacePath name format with
      | error e =>
        rw [located] at opened
        cases opened
        exact ⟨opens_refused fun _ present => present, rfl⟩
      | ok path =>
        rw [located] at opened
        cases opened
        obtain ⟨at_, free, saved⟩ := placed name path rfl located
        exact ⟨opens_placed given located at_ free saved fun _ present => present, rfl⟩

theorem workspaceOf_ok {handle : WorkspaceHandle} {id : String} {ws : Workspace}
    (found : s.workspaceOf handle = .ok (id, ws)) :
    s.workspaceHandles[handle.id]? = some id ∧ s.workspaces[id]? = some ws := by
  unfold workspaceOf at found
  split at found
  · cases found
  · split at found
    · cases found
    · cases found
      exact ⟨by assumption, by assumption⟩

section Files
variable [Codecs]

theorem createLocal_opens {ref : WorkspaceRef} {format : DurabilityFormat} {fault : Option SaveStep}
    (free : ∀ path, s.localWorkspacePath ref format = .ok path → path ∉ s.liveWorkspacePaths)
    (created : s.createLocal disks ref format random fault = (s', disks', result)) :
    Opens s disks random s' disks' result := by
  unfold createLocal at created
  cases located : s.localWorkspacePath ref format with
  | error e =>
    rw [located] at created
    cases created
    exact opens_refused fun _ present => present
  | ok path =>
    rw [located] at created
    dsimp only at created
    have keeps := Workspace.enableAutocommit_keeps Workspace.new format path (disks.at path) fault
    cases enabled : Workspace.new.enableAutocommit format path (disks.at path) fault with
    | mk ws rest =>
      obtain ⟨disk, outcome⟩ := rest
      rw [enabled] at created keeps
      have kept := Disks.keeps_insert disks keeps
      cases outcome with
      | error e =>
        cases created
        exact opens_refused kept
      | ok _ =>
        obtain ⟨at_, saved⟩ := Workspace.enableAutocommit_ok enabled
        cases drawn : nextWorkspaceHandle random with
        | error e =>
          rw [drawn] at created
          cases created
          exact opens_refused kept
        | ok handle =>
          have given := nextWorkspaceHandle_ok drawn
          rw [drawn] at created
          cases created
          refine opens_placed given located at_ (free path located) ?_ kept
          rw [Disks.at_insert, if_pos rfl]
          exact saved

theorem openRef_opens (h : s.Consistent) {ref : WorkspaceRef} {format : DurabilityFormat} {fault : Option SaveStep}
    (opened : s.openRef disks ref format random fault = (s', disks', result)) :
    Opens s disks random s' disks' result := by
  unfold openRef at opened
  cases located : s.localWorkspacePath ref format with
  | error e =>
    rw [located] at opened
    cases opened
    exact opens_refused fun _ present => present
  | ok path =>
    rw [located] at opened
    dsimp only at opened
    cases named : s.liveWorkspacePaths[path]? with
    | some id =>
      rw [named] at opened
      cases drawn : nextWorkspaceHandle random with
      | error e =>
        rw [drawn] at opened
        cases opened
        exact opens_refused fun _ present => present
      | ok handle =>
        have given := nextWorkspaceHandle_ok drawn
        rw [drawn] at opened
        cases opened
        obtain ⟨ws, there, at_⟩ := h.paths path id named
        refine ⟨.shared handle (some ref) id ws there .rfl, fun _ present => present, fun _ same => ?_, fun _ _ same name => ?_⟩
        · cases same
          exact given
        · cases same
          cases name
          exact ⟨format, path, id, located, BTreeMap.get_insert_self .., ws, there, at_⟩
    | none =>
      rw [named] at opened
      dsimp only at opened
      have keeps := Workspace.openAutocommit_keeps format path (disks.at path) fault
      cases loaded : Workspace.openAutocommit format path (disks.at path) fault with
      | mk disk outcome =>
        rw [loaded] at opened keeps
        have kept := Disks.keeps_insert disks keeps
        cases outcome with
        | error e =>
          cases opened
          exact opens_refused kept
        | ok ws =>
          obtain ⟨at_, saved⟩ := Workspace.openAutocommit_ok loaded
          have placed : ∀ name path', some ref = some name → s.localWorkspacePath name format = .ok path' →
              ws.path? = some path' ∧ path' ∉ s.liveWorkspacePaths ∧
                (Disks.at (disks.insert path disk) path').primary ≠ none := by
            intro name path' same located'
            cases same
            cases located.symm.trans located'
            rw [Disks.at_insert, if_pos rfl]
            exact ⟨at_, BTreeMap.not_mem_iff_get.2 named, saved⟩
          obtain ⟨opens, rfl⟩ := openLoaded_opens (fun none_ => absurd none_ (Option.some_ne_none ref)) placed opened
          exact ⟨opens.effect, kept, opens.drawn, opens.named⟩

theorem openSnapshot_opens {snapshot : SnapshotHandle} {format : DurabilityFormat}
    (opened : s.openSnapshot disks snapshot format random = (s', disks', result)) :
    Opens s disks random s' disks' result := by
  unfold openSnapshot at opened
  cases found : s.localSnapshots[snapshot.id]? with
  | none =>
    rw [found] at opened
    cases opened
    exact opens_refused fun _ present => present
  | some kept =>
    rw [found] at opened
    dsimp only at opened
    split at opened
    · cases opened
      exact opens_refused fun _ present => present
    · cases loaded : Workspace.load format (disks.at kept.path) with
      | error e =>
        rw [loaded] at opened
        cases opened
        exact opens_refused fun _ present => present
      | ok ws =>
        rw [loaded] at opened
        exact (openLoaded_opens (fun _ => Workspace.load_path loaded) (fun _ _ none_ => absurd none_ (Option.some_ne_none _).symm)
          opened).1

theorem openWorkspace_opens (h : s.Consistent) {request : WorkspaceOpenRequest} {fault : Option SaveStep}
    (opened : s.openWorkspace disks request random fault = (s', disks', result)) :
    Opens s disks random s' disks' result := by
  unfold openWorkspace at opened
  split at opened
  · cases opened
    exact opens_refused fun _ present => present
  · exact openRef_opens h opened
  · exact openSnapshot_opens opened
  · cases opened
    exact opens_refused fun _ present => present

theorem createWorkspace_opens (saved : ∀ path, path ∈ s.liveWorkspacePaths → (disks.at path).primary ≠ none)
    {request : WorkspaceCreateRequest} {inspect : String → Option String} {fault : Option SaveStep} {tries : Nat}
    (created : s.createWorkspace disks request random inspect fault tries = some (s', disks', result)) :
    Opens s disks random s' disks' result := by
  unfold createWorkspace at created
  split at created
  · cases drawn : nextWorkspaceHandle random with
    | error e =>
      rw [drawn] at created
      cases created
      exact opens_refused fun _ present => present
    | ok handle =>
      have given := nextWorkspaceHandle_ok drawn
      rw [drawn] at created
      cases created
      exact opens_loaded given rfl
  · obtain ⟨⟨counting, ref⟩, named, made⟩ := Option.map_eq_some_iff.1 created
    obtain ⟨⟨counted, rfl⟩, free⟩ := newWorkspaceRef_ok named
    cases ref with
    | error e =>
      cases made
      exact ⟨.unchanged ⟨rfl, rfl, rfl, rfl⟩, fun _ present => present, nofun, nofun⟩
    | ok ref =>
      have vacant : ∀ path, s.localWorkspacePath ref request.format = .ok path → path ∉ s.liveWorkspacePaths :=
        fun path located live => saved path live (localWorkspaceExists_false (free ref rfl) located)
      have opens := createLocal_opens (s := { s with nextWorkspaceRefId := counted }) vacant made
      exact ⟨opens.effect.of_counted, opens.kept, opens.drawn, opens.named⟩

theorem executeRuntime_effect [Externals] {request : WorkspaceRuntimeRequest} {faults : PersistFaults}
    {executed : WorkspaceServiceResult WorkspaceRuntimeResponse}
    (ran : s.executeRuntime disks request faults = (s', disks', executed)) :
    Effect s s' disks' none [] ∧ ∀ path, (disks.at path).Keeps (disks'.at path) := by
  unfold executeRuntime at ran
  cases found : s.workspaceOf request.handle with
  | error e =>
    rw [found] at ran
    cases ran
    exact ⟨.unchanged .rfl, fun _ present => present⟩
  | ok entry =>
    obtain ⟨id, ws⟩ := entry
    obtain ⟨-, there⟩ := workspaceOf_ok found
    rw [found] at ran
    dsimp only at ran
    cases converted : RuntimeRequest.ofService request.request with
    | error e =>
      rw [converted] at ran
      cases ran
      exact ⟨.unchanged .rfl, fun _ present => present⟩
    | ok runtime =>
      rw [converted] at ran
      dsimp only at ran
      obtain ⟨unmoved, keeps⟩ := Workspace.executeRuntime_keeps ws (diskOf ws disks) runtime faults
      cases outcome : ws.executeRuntime (diskOf ws disks) runtime faults with
      | mk ws' rest =>
        obtain ⟨disk, result⟩ := rest
        rw [outcome] at ran unmoved keeps
        cases ran
        refine ⟨.replaced id ws ws' there unmoved .rfl, ?_⟩
        unfold putDisk
        unfold diskOf at keeps
        cases located : ws.autocommit with
        | none => exact fun _ present => present
        | some target =>
          rw [located] at keeps
          exact Disks.keeps_insert disks keeps

end Files

end InProcessWorkspaceService

namespace InProcessWorkspaceService
variable {s s' : InProcessWorkspaceService} {disks' : Disks} {closing : Option WorkspaceHandle} {given : List String}

/-- Closing a handle takes it from the handles and adds nothing to the other tables. -/
theorem closeWorkspace_tables (s : InProcessWorkspaceService) (handle : WorkspaceHandle) :
    (∀ key : String, (s.closeWorkspace handle).1.workspaceHandles[key]? =
      if handle.id = key then none else s.workspaceHandles[key]?) ∧
    (∀ (id : String) ws, (s.closeWorkspace handle).1.workspaces[id]? = some ws → s.workspaces[id]? = some ws) ∧
    ∀ path id : String, (s.closeWorkspace handle).1.liveWorkspacePaths[path]? = some id → s.liveWorkspacePaths[path]? = some id := by
  unfold closeWorkspace
  cases mapped : s.workspaceHandles[handle.id]? with
  | none =>
    refine ⟨fun key => ?_, fun _ _ there => there, fun _ _ named => named⟩
    dsimp only
    split
    · next same =>
      subst same
      exact mapped
    · rfl
  | some id =>
    dsimp only
    split
    · exact ⟨fun key => BTreeMap.get_erase .., fun _ _ there => there, fun _ _ named => named⟩
    · refine ⟨fun key => BTreeMap.get_erase .., fun other ws there => ?_, fun path other named => ?_⟩
      · rw [BTreeMap.get_erase] at there
        split at there
        · cases there
        · exact there
      · rw [get_otherPaths, Option.filter_eq_some_iff] at named
        exact named.1

theorem Consistent.effect (h : s.Consistent) (effect : Effect s s' disks' closing given)
    (freshHandles : ∀ handle ∈ given, handle ∉ s.workspaceHandles) (freshIds : ∀ handle ∈ given, handle ∉ s.workspaces) :
    s'.Consistent := by
  cases effect with
  | unchanged same => exact h.congr same
  | loaded handle ws ref detached same =>
    refine Consistent.congr (h.register ref (freshHandles _ List.mem_cons_self) (freshIds _ List.mem_cons_self)
      (fun path => ?_) fun path located => ?_) same
    · exact (if_neg (by rw [detached]; exact nofun)).symm
    · rw [detached] at located
      cases located
  | placed handle ws ref path located free _ same =>
    refine Consistent.congr (h.register ref (freshHandles _ List.mem_cons_self) (freshIds _ List.mem_cons_self)
      (fun other => ?_) fun other at_ => ?_) same
    · rw [BTreeMap.get_insert]
      by_cases same : path = other
      · rw [if_pos same, if_pos (located.trans (congrArg some same))]
      · rw [if_neg same, if_neg fun at_ => same (Option.some.inj (located.symm.trans at_))]
    · rw [located] at at_
      cases at_
      exact free
  | shared handle ref id ws there same => exact (h.share (freshHandles _ List.mem_cons_self) there).congr same
  | replaced id ws ws' there unmoved same => exact (h.replace there unmoved).congr same
  | closed handle same => exact (h.close handle).congr same

/-- The handles after a call are handles before it or given out by it. -/
theorem Effect.handles_source (effect : Effect s s' disks' closing given) {key : String}
    (mem : key ∈ s'.workspaceHandles) : key ∈ s.workspaceHandles ∨ key ∈ given := by
  cases effect with
  | unchanged same | replaced _ _ _ _ _ same =>
    rw [same.handles] at mem
    exact .inl mem
  | loaded _ _ _ _ same | placed _ _ _ _ _ _ _ same | shared _ _ _ _ _ same =>
    rw [same.handles] at mem
    rcases BTreeMap.mem_insert.1 mem with rfl | mem
    · exact .inr List.mem_cons_self
    · exact .inl mem
  | closed handle same =>
    rw [same.handles] at mem
    obtain ⟨id, mapped⟩ := BTreeMap.mem_iff_get.1 mem
    rw [(closeWorkspace_tables s handle).1] at mapped
    split at mapped
    · cases mapped
    · exact .inl (BTreeMap.mem_iff_get.2 ⟨id, mapped⟩)

theorem Effect.ids_source (effect : Effect s s' disks' closing given) {id : String} (mem : id ∈ s'.workspaces) :
    id ∈ s.workspaces ∨ id ∈ given := by
  cases effect with
  | unchanged same | shared _ _ _ _ _ same =>
    rw [same.workspaces] at mem
    exact .inl mem
  | loaded _ _ _ _ same | placed _ _ _ _ _ _ _ same =>
    rw [same.workspaces] at mem
    rcases BTreeMap.mem_insert.1 mem with rfl | mem
    · exact .inr List.mem_cons_self
    · exact .inl mem
  | replaced id ws _ there _ same =>
    rw [same.workspaces] at mem
    rcases BTreeMap.mem_insert.1 mem with rfl | mem
    · exact .inl (BTreeMap.mem_iff_get.2 ⟨ws, there⟩)
    · exact .inl mem
  | closed handle same =>
    rw [same.workspaces] at mem
    obtain ⟨ws, there⟩ := BTreeMap.mem_iff_get.1 mem
    exact .inl (BTreeMap.mem_iff_get.2 ⟨ws, (closeWorkspace_tables s handle).2.1 id ws there⟩)

theorem Effect.paths_source (effect : Effect s s' disks' closing given) {path : String}
    (mem : path ∈ s'.liveWorkspacePaths) : path ∈ s.liveWorkspacePaths ∨ (disks'.at path).primary ≠ none := by
  cases effect with
  | unchanged same | loaded _ _ _ _ same | shared _ _ _ _ _ same | replaced _ _ _ _ _ same =>
    rw [same.paths] at mem
    exact .inl mem
  | placed _ _ _ _ _ _ saved same =>
    rw [same.paths] at mem
    rcases BTreeMap.mem_insert.1 mem with rfl | mem
    · exact .inr saved
    · exact .inl mem
  | closed handle same =>
    rw [same.paths] at mem
    obtain ⟨id, named⟩ := BTreeMap.mem_iff_get.1 mem
    exact .inl (BTreeMap.mem_iff_get.2 ⟨id, (closeWorkspace_tables s handle).2.2 path id named⟩)

/-- A handle that is not closed stays on its workspace, which stays where it is. -/
theorem Serves.effect {handle id : String} {path? : Option String} (serves : s.Serves handle id path?)
    (effect : Effect s s' disks' closing given) (open_ : closing ≠ some ⟨handle⟩)
    (freshHandles : ∀ key ∈ given, key ∉ s.workspaceHandles) (freshIds : ∀ key ∈ given, key ∉ s.workspaces) :
    s'.Serves handle id path? := by
  obtain ⟨mapped, ws, there, located⟩ := serves
  have otherHandle : ∀ key ∈ given, key ≠ handle := by
    rintro key listed rfl
    exact freshHandles key listed (BTreeMap.mem_iff_get.2 ⟨id, mapped⟩)
  have otherId : ∀ key ∈ given, key ≠ id := by
    rintro key listed rfl
    exact freshIds key listed (BTreeMap.mem_iff_get.2 ⟨ws, there⟩)
  unfold Serves
  cases effect with
  | unchanged same =>
    rw [same.handles, same.workspaces]
    exact ⟨mapped, ws, there, located⟩
  | loaded _ _ _ _ same | placed _ _ _ _ _ _ _ same =>
    rw [same.handles, same.workspaces]
    refine ⟨?_, ws, ?_, located⟩
    · exact (BTreeMap.get_insert_ne _ _ (otherHandle _ List.mem_cons_self)).trans mapped
    · exact (BTreeMap.get_insert_ne _ _ (otherId _ List.mem_cons_self)).trans there
  | shared _ _ _ _ _ same =>
    rw [same.handles, same.workspaces]
    exact ⟨(BTreeMap.get_insert_ne _ _ (otherHandle _ List.mem_cons_self)).trans mapped, ws, there, located⟩
  | replaced changed old ws' listed unmoved same =>
    rw [same.handles, same.workspaces, BTreeMap.get_insert]
    refine ⟨mapped, ?_⟩
    split
    · next key =>
      subst key
      cases there.symm.trans listed
      exact ⟨ws', rfl, unmoved.trans located⟩
    · exact ⟨ws, there, located⟩
  | closed other same =>
    rw [same.handles, same.workspaces]
    have distinct : other.id ≠ handle := by
      rintro rfl
      exact open_ rfl
    have kept : (s.closeWorkspace other).1.workspaceHandles[handle]? = some id := by
      rw [(closeWorkspace_tables s other).1, if_neg distinct]
      exact mapped
    refine ⟨kept, ws, ?_, located⟩
    unfold closeWorkspace at kept ⊢
    cases closes : s.workspaceHandles[other.id]? with
    | none => exact there
    | some id' =>
      rw [closes] at kept
      dsimp only at kept ⊢
      split
      · exact there
      · next alone =>
        rw [if_neg alone] at kept
        have distinctId : id' ≠ id := by
          rintro rfl
          exact alone (List.any_eq_true.2 ⟨id', BTreeMap.mem_vals.2 ⟨handle, kept⟩, beq_self_eq_true id'⟩)
        exact (BTreeMap.get_erase_ne _ distinctId).trans there

end InProcessWorkspaceService
