import Grm.Runtime.Recovery
import Grm.Service.HandleCalls

/-!
# Runs of a service

In every run of calls in which a random handle is a new one and nobody removes the
checkpoint of a workspace, the tables are consistent, a handle stays on its workspace
until it is closed, and a closed handle is refused for good.
-/

set_option autoImplicit false

open Service

/-- A service process: the tables and the local files. -/
structure ServiceProcess where
  service : InProcessWorkspaceService
  disks : Disks

/-- A call on the service, with what it meets outside, or a change of the files by others. -/
inductive ServiceCall where
  | createWorkspace (request : WorkspaceCreateRequest) (random : Option (List UInt8))
    (inspect : String → Option String) (fault : Option SaveStep) (tries : Nat)
  | openWorkspace (request : WorkspaceOpenRequest) (random : Option (List UInt8)) (fault : Option SaveStep)
  | executeRuntime (request : WorkspaceRuntimeRequest) (faults : PersistFaults)
  | closeWorkspace (handle : WorkspaceHandle)
  | registerLocalWorkspaceSnapshot (snapshot : LocalWorkspaceSnapshot)
  | filesChanged (disks : Disks)

/-- The handle a call closes. -/
def ServiceCall.closing? : ServiceCall → Option WorkspaceHandle
  | .closeWorkspace handle => some handle
  | _ => none

/-- What a call returns. -/
inductive ServiceReply where
  | opened (result : WorkspaceServiceResult WorkspaceHandleResponse)
  | executed (result : WorkspaceServiceResult WorkspaceRuntimeResponse)
  | closed (result : WorkspaceServiceResult WorkspaceHandle)
  | registered (snapshot : SnapshotHandle)
  | none

/-- The handles a call gives out. -/
def ServiceReply.handles : ServiceReply → List String
  | .opened result => InProcessWorkspaceService.givenOut result
  | _ => []

/-- The random handle of a call. -/
def ServiceCall.drawn? : ServiceCall → Option WorkspaceHandle
  | .createWorkspace _ random _ _ _ => random.map workspaceHandleOf
  | .openWorkspace _ random _ => random.map workspaceHandleOf
  | _ => none

open InProcessWorkspaceService

namespace ServiceProcess
variable [Codecs] [Externals]

/-- A call, if it returns. -/
def call (p : ServiceProcess) : ServiceCall → Option (ServiceProcess × ServiceReply)
  | .createWorkspace request random inspect fault tries =>
    (p.service.createWorkspace p.disks request random inspect fault tries).map fun (service, disks, result) =>
      (⟨service, disks⟩, .opened result)
  | .openWorkspace request random fault =>
    let (service, disks, result) := p.service.openWorkspace p.disks request random fault
    some (⟨service, disks⟩, .opened result)
  | .executeRuntime request faults =>
    let (service, disks, result) := p.service.executeRuntime p.disks request faults
    some (⟨service, disks⟩, .executed result)
  | .closeWorkspace handle =>
    let (service, result) := p.service.closeWorkspace handle
    some (⟨service, p.disks⟩, .closed result)
  | .registerLocalWorkspaceSnapshot snapshot =>
    let (service, handle) := p.service.registerLocalWorkspaceSnapshot snapshot
    some (⟨service, p.disks⟩, .registered handle)
  | .filesChanged disks => some (⟨p.service, disks⟩, .none)

/-- A new handle is none of those given out, and others leave the checkpoints in place. -/
structure Assumed (p : ServiceProcess) (issued : List String) (call : ServiceCall) : Prop where
  fresh : ∀ handle, call.drawn? = some handle → handle.id ∉ issued
  kept : ∀ disks, call = .filesChanged disks → ∀ path, (p.disks.at path).primary ≠ none → (disks.at path).primary ≠ none

/-- A run of calls, with the handles given out so far. -/
inductive Run : ServiceProcess → List String → List ServiceCall → ServiceProcess → List String → Prop where
  | done (p : ServiceProcess) (issued : List String) : Run p issued [] p issued
  | step {p p' p'' : ServiceProcess} {issued issued'' : List String} {call : ServiceCall} {reply : ServiceReply}
      {calls : List ServiceCall} (assumed : p.Assumed issued call) (returns : p.call call = some (p', reply))
      (rest : Run p' (issued ++ reply.handles) calls p'' issued'') : Run p issued (call :: calls) p'' issued''

/-! ## The invariant -/

/-- The tables are consistent, their keys were given out, and a live path has a checkpoint. -/
structure Sound (p : ServiceProcess) (issued : List String) : Prop where
  consistent : p.service.Consistent
  handles : ∀ handle : String, handle ∈ p.service.workspaceHandles → handle ∈ issued
  ids : ∀ id : String, id ∈ p.service.workspaces → id ∈ issued
  saved : ∀ path : String, path ∈ p.service.liveWorkspacePaths → (p.disks.at path).primary ≠ none

/-- What a call does. -/
structure Does (p : ServiceProcess) (issued : List String) (call : ServiceCall) (p' : ServiceProcess)
    (reply : ServiceReply) : Prop where
  effect : Effect p.service p'.service p'.disks call.closing? reply.handles
  kept : ∀ path, (p.disks.at path).Keeps (p'.disks.at path)
  fresh : ∀ handle ∈ reply.handles, handle ∉ issued

variable {p p' : ServiceProcess} {issued : List String} {call : ServiceCall} {reply : ServiceReply}

theorem Sound.does (sound : p.Sound issued) (assumed : p.Assumed issued call) (returns : p.call call = some (p', reply)) :
    p.Does issued call p' reply := by
  have fresh : ∀ {random : Option (List UInt8)} {result : WorkspaceServiceResult WorkspaceHandleResponse},
      call.drawn? = random.map workspaceHandleOf →
      (∀ response, result = .ok response → random.map workspaceHandleOf = some response.handle) →
      ∀ handle ∈ (ServiceReply.opened result).handles, handle ∉ issued := by
    intro random result draws drawn handle given
    cases result with
    | error e => cases given
    | ok response =>
      cases List.mem_singleton.1 given
      exact assumed.fresh response.handle (draws.trans (drawn response rfl))
  cases call with
  | createWorkspace request random inspect fault tries =>
    obtain ⟨⟨service, disks, result⟩, created, made⟩ := Option.map_eq_some_iff.1 returns
    cases made
    have opens := createWorkspace_opens sound.saved created
    exact ⟨opens.effect, opens.kept, fresh rfl opens.drawn⟩
  | openWorkspace request random fault =>
    cases returns
    have opens : Opens p.service p.disks random (p.service.openWorkspace p.disks request random fault).1
        (p.service.openWorkspace p.disks request random fault).2.1 (p.service.openWorkspace p.disks request random fault).2.2 :=
      openWorkspace_opens sound.consistent rfl
    exact ⟨opens.effect, opens.kept, fresh rfl opens.drawn⟩
  | executeRuntime request faults =>
    cases returns
    have ran : p.service.executeRuntime p.disks request faults = ((p.service.executeRuntime p.disks request faults).1,
        (p.service.executeRuntime p.disks request faults).2.1, (p.service.executeRuntime p.disks request faults).2.2) := rfl
    obtain ⟨effect, kept⟩ := executeRuntime_effect ran
    exact ⟨effect, kept, nofun⟩
  | closeWorkspace handle =>
    cases returns
    exact ⟨.closed handle .rfl, fun _ present => present, nofun⟩
  | registerLocalWorkspaceSnapshot snapshot =>
    cases returns
    exact ⟨.unchanged ⟨rfl, rfl, rfl, rfl⟩, fun _ present => present, nofun⟩
  | filesChanged disks =>
    cases returns
    exact ⟨.unchanged .rfl, assumed.kept disks rfl, nofun⟩

omit [Codecs] [Externals] in
/-- One call keeps the invariant. -/
theorem Sound.step (sound : p.Sound issued) (does : p.Does issued call p' reply) :
    p'.Sound (issued ++ reply.handles) where
  consistent := sound.consistent.effect does.effect
    (fun handle given held => does.fresh handle given (sound.handles handle held))
    (fun handle given held => does.fresh handle given (sound.ids handle held))
  handles := by
    intro handle held
    rcases does.effect.handles_source held with held | given
    · exact List.mem_append_left _ (sound.handles handle held)
    · exact List.mem_append_right _ given
  ids := by
    intro id held
    rcases does.effect.ids_source held with held | given
    · exact List.mem_append_left _ (sound.ids id held)
    · exact List.mem_append_right _ given
  saved := by
    intro path live
    rcases does.effect.paths_source live with live | saved
    · exact does.kept path (sound.saved path live)
    · exact saved

omit [Codecs] [Externals] in
theorem sound_new (root : Option String) (disks : Disks) : (⟨.new root, disks⟩ : ServiceProcess).Sound [] := by
  have none_ : ∀ {V : Type} (key : String), (∅ : BTreeMap String V)[key]? = none := fun _ => rfl
  refine ⟨⟨?_, ?_, ?_, ?_, ?_⟩, ?_, ?_, ?_⟩
  · exact fun _ _ mapped => by cases (none_ _).symm.trans mapped
  · exact fun _ _ there => by cases (none_ _).symm.trans there
  · exact fun _ _ named => by cases (none_ _).symm.trans named
  · exact fun _ _ _ there => by cases (none_ _).symm.trans there
  · intro handle
    rw [BTreeMap.mem_iff_get, BTreeMap.mem_iff_get]
    exact ⟨fun ⟨_, found⟩ => (by cases (none_ _).symm.trans found), fun ⟨_, found⟩ => (by cases (none_ _).symm.trans found)⟩
  · exact fun _ held => absurd held (BTreeMap.not_mem_iff_get.2 (none_ _))
  · exact fun _ held => absurd held (BTreeMap.not_mem_iff_get.2 (none_ _))
  · exact fun _ held => absurd held (BTreeMap.not_mem_iff_get.2 (none_ _))

variable {issued' : List String} {calls : List ServiceCall}

/-- A run keeps the invariant. -/
theorem Run.sound (run : Run p issued calls p' issued') (sound : p.Sound issued) : p'.Sound issued' := by
  induction run with
  | done => exact sound
  | step assumed returns _ ih => exact ih (sound.step (sound.does assumed returns))

/-- A handle stays on its workspace as long as it is not closed. -/
theorem Run.serves (run : Run p issued calls p' issued') (sound : p.Sound issued) {handle id : String}
    {path? : Option String} (serves : p.service.Serves handle id path?)
    (open_ : ∀ call ∈ calls, call.closing? ≠ some ⟨handle⟩) : p'.service.Serves handle id path? := by
  induction run with
  | done => exact serves
  | step assumed returns _ ih =>
    have does := sound.does assumed returns
    refine ih (sound.step does) (serves.effect does.effect (open_ _ List.mem_cons_self) ?_ ?_)
      fun call listed => open_ call (List.mem_cons_of_mem _ listed)
    · exact fun key given held => does.fresh key given (sound.handles key held)
    · exact fun key given held => does.fresh key given (sound.ids key held)

/-- A handle that was given out and closed is never a handle again. -/
theorem Run.closed (run : Run p issued calls p' issued') (sound : p.Sound issued) {handle : String}
    (given : handle ∈ issued) (gone : handle ∉ p.service.workspaceHandles) :
    handle ∉ p'.service.workspaceHandles := by
  induction run with
  | done => exact gone
  | step assumed returns _ ih =>
    have does := sound.does assumed returns
    refine ih (sound.step does) (List.mem_append_left _ given) fun held => ?_
    rcases does.effect.handles_source held with held | again
    · exact gone held
    · exact does.fresh handle again given

end ServiceProcess

namespace InProcessWorkspaceService
variable [Codecs] [Externals]

/-- Every call with the handle is refused. -/
def Rejects (s : InProcessWorkspaceService) (handle : WorkspaceHandle) : Prop :=
  s.workspaceOf handle = .error (.unknownWorkspaceHandle handle) ∧
    s.closeWorkspace handle = (s, .error (.unknownWorkspaceHandle handle)) ∧
    ∀ request disks faults, s.executeRuntime disks ⟨handle, request⟩ faults =
      (s, disks, .error (.unknownWorkspaceHandle handle))

theorem rejects_of_absent {s : InProcessWorkspaceService} {handle : WorkspaceHandle}
    (absent : handle.id ∉ s.workspaceHandles) : s.Rejects handle := by
  have unmapped := BTreeMap.not_mem_iff_get.1 absent
  have unknown : s.workspaceOf handle = .error (.unknownWorkspaceHandle handle) := by
    unfold workspaceOf
    rw [unmapped]
  refine ⟨unknown, ?_, fun request disks faults => ?_⟩
  · unfold closeWorkspace
    rw [unmapped]
  · unfold executeRuntime
    dsimp only
    rw [unknown]

end InProcessWorkspaceService

namespace ServiceProcess
variable [Codecs] [Externals]

/-- In every run of calls the tables are consistent, and there is one live workspace per path. A handle given
out for a named workspace is on the one at the path of the name, and stays on it until it is closed,
whichever other handles are. A closed handle is refused for good. -/
theorem handle_tables {root : Option String} {disks : Disks} {calls : List ServiceCall} {p : ServiceProcess}
    {issued : List String} (run : Run ⟨.new root, disks⟩ [] calls p issued) :
    p.service.Consistent ∧
    (∀ (id id' path : String) ws ws', p.service.workspaces[id]? = some ws → p.service.workspaces[id']? = some ws' →
      ws.path? = some path → ws'.path? = some path → id = id') ∧
    (∀ call p' response ref, p.Assumed issued call → p.call call = some (p', .opened (.ok response)) →
      response.workspace = some ref → ∃ format path id, p.service.localWorkspacePath ref format = .ok path ∧
        p'.service.Serves response.handle.id id (some path)) ∧
    (∀ handle id path?, p.service.Serves handle id path? → ∀ later p' issued', Run p issued later p' issued' →
      (∀ call ∈ later, call.closing? ≠ some ⟨handle⟩) → p'.service.Serves handle id path?) ∧
    ∀ handle p₁ closed, p.call (.closeWorkspace handle) = some (p₁, .closed (.ok closed)) →
      ∀ later p' issued', Run p₁ issued later p' issued' → p'.service.Rejects handle := by
  have sound := run.sound (sound_new root disks)
  refine ⟨sound.consistent, ?_, ?_, fun _ _ _ serves _ _ _ later open_ => later.serves sound serves open_, ?_⟩
  · intro id id' path ws ws' there there' located located'
    have named := sound.consistent.single id path ws there located
    exact Option.some.inj (named.symm.trans (sound.consistent.single id' path ws' there' located'))
  · intro call p' response ref assumed returns name
    cases call with
    | createWorkspace request random inspect fault tries =>
      obtain ⟨⟨service, disks', result⟩, created, made⟩ := Option.map_eq_some_iff.1 returns
      cases made
      exact (createWorkspace_opens sound.saved created).named response ref rfl name
    | openWorkspace request random fault =>
      cases opened : p.service.openWorkspace p.disks request random fault with
      | mk service rest =>
        obtain ⟨disks', result⟩ := rest
        have opens := openWorkspace_opens sound.consistent opened
        unfold ServiceProcess.call at returns
        dsimp only at returns
        rw [opened] at returns
        cases returns
        exact opens.named response ref rfl name
    | executeRuntime request faults => cases returns
    | closeWorkspace handle => cases returns
    | registerLocalWorkspaceSnapshot snapshot => cases returns
    | filesChanged disks => cases returns
  · intro handle p₁ closed closes later p' issued' run'
    obtain ⟨same, result⟩ : p₁.service = (p.service.closeWorkspace handle).1 ∧
        (p.service.closeWorkspace handle).2 = .ok closed := by
      obtain ⟨same, result⟩ := Prod.mk.inj (Option.some.inj closes)
      exact ⟨congrArg ServiceProcess.service same.symm, ServiceReply.closed.inj result⟩
    have gone : handle.id ∈ issued ∧ p₁.service.workspaceHandles[handle.id]? = none := by
      rw [same, (closeWorkspace_tables p.service handle).1, if_pos rfl]
      cases mapped : p.service.workspaceHandles[handle.id]? with
      | none =>
        rw [(rejects_of_absent (BTreeMap.not_mem_iff_get.2 mapped)).2.1] at result
        cases result
      | some id => exact ⟨sound.handles handle.id (BTreeMap.mem_iff_get.2 ⟨id, mapped⟩), rfl⟩
    have after : p₁.Sound issued := by
      have assumed : p.Assumed issued (.closeWorkspace handle) :=
        ⟨fun _ drawn => (by cases drawn), fun _ changed => (by cases changed)⟩
      have step := sound.step (sound.does assumed closes)
      rw [show (ServiceReply.closed (.ok closed)).handles = [] from rfl, List.append_nil] at step
      exact step
    exact rejects_of_absent (run'.closed after gone.1 (BTreeMap.not_mem_iff_get.2 gone.2))

end ServiceProcess

/-! ### Two handles on one workspace -/

/-- A workspace by name. -/
def notesRef : WorkspaceRef := ⟨"notes"⟩

def firstHandle : WorkspaceHandle := workspaceHandleOf [1]

def secondHandle : WorkspaceHandle := workspaceHandleOf [2]

/-- The new workspace, its files in place. -/
def notesWorkspace : Workspace := ⟨.new, some ⟨.json, "/data/notes.json", 0⟩⟩

/-- The tables once the workspace was created. -/
def notesCreated : InProcessWorkspaceService :=
  { InProcessWorkspaceService.register (.new (some "/data")) firstHandle notesWorkspace (some notesRef) with
    liveWorkspacePaths := (∅ : BTreeMap String String).insert "/data/notes.json" firstHandle.id }

/-- The tables once it was also opened. -/
def notesOpened : InProcessWorkspaceService :=
  { notesCreated with
    workspaceHandles := notesCreated.workspaceHandles.insert secondHandle.id firstHandle.id
    workspaceRefs := notesCreated.workspaceRefs.insert secondHandle.id (some notesRef) }

/-- The files of the workspace. -/
def notesDisks : Disks := (∅ : Disks).insert "/data/notes.json" newSessionDisk

theorem notes_enabled :
    letI := userCodecs
    Workspace.new.enableAutocommit .json "/data/notes.json" ((∅ : Disks).at "/data/notes.json") none =
      (notesWorkspace, newSessionDisk, .ok ()) := by
  let := userCodecs
  have session : Codecs.sessionToStringPretty SessionState.new.persistedSession = some newSessionText :=
    encodeListed_head _ _ _
  unfold Workspace.enableAutocommit Workspace.new SessionState.saveWorkspace SessionState.checkpointBytes
  dsimp only
  rw [session]
  rfl

theorem notes_created :
    letI := userCodecs
    (InProcessWorkspaceService.new (some "/data")).createLocal ∅ notesRef .json (some [1]) none =
      (notesCreated, notesDisks, .ok ⟨firstHandle, some notesRef⟩) := by
  let := userCodecs
  unfold InProcessWorkspaceService.createLocal
  rw [show (InProcessWorkspaceService.new (some "/data")).localWorkspacePath notesRef .json = .ok "/data/notes.json" from rfl]
  dsimp only
  rw [notes_enabled]
  rfl

/-- The workspace is created, opened again and closed once: the second handle is on it. -/
theorem handle_tables_notes :
    letI := userCodecs
    letI := Externals.plainOnly
    ∃ p issued, ServiceProcess.Run ⟨.new (some "/data"), ∅⟩ []
        [.createWorkspace ⟨.localAutocommit, some notesRef, .json⟩ (some [1]) (fun _ => none) none 0,
          .openWorkspace ⟨none, some notesRef, .json⟩ (some [2]) none, .closeWorkspace firstHandle] p issued ∧
      p.service.Consistent ∧ p.service.Serves secondHandle.id firstHandle.id (some "/data/notes.json") := by
  let := userCodecs
  let := Externals.plainOnly
  have created : (⟨.new (some "/data"), ∅⟩ : ServiceProcess).call
      (.createWorkspace ⟨.localAutocommit, some notesRef, .json⟩ (some [1]) (fun _ => none) none 0) =
        some (⟨notesCreated, notesDisks⟩, .opened (.ok ⟨firstHandle, some notesRef⟩)) := by
    have named : (InProcessWorkspaceService.new (some "/data")).newWorkspaceRef ∅ (fun _ => none) 0 (some notesRef) =
        some (.new (some "/data"), .ok notesRef) := rfl
    unfold ServiceProcess.call InProcessWorkspaceService.createWorkspace
    dsimp only
    rw [named, Option.map_some]
    dsimp only
    rw [notes_created]
    rfl
  have opened : (⟨notesCreated, notesDisks⟩ : ServiceProcess).call (.openWorkspace ⟨none, some notesRef, .json⟩ (some [2]) none) =
      some (⟨notesOpened, notesDisks⟩, .opened (.ok ⟨secondHandle, some notesRef⟩)) := rfl
  have closed : (⟨notesOpened, notesDisks⟩ : ServiceProcess).call (.closeWorkspace firstHandle) =
      some (⟨(notesOpened.closeWorkspace firstHandle).1, notesDisks⟩, .closed (.ok firstHandle)) := rfl
  have first : ServiceProcess.Assumed ⟨.new (some "/data"), ∅⟩ []
      (.createWorkspace ⟨.localAutocommit, some notesRef, .json⟩ (some [1]) (fun _ => none) none 0) :=
    ⟨fun _ _ => List.not_mem_nil, fun _ changed => (by cases changed)⟩
  have second : ServiceProcess.Assumed ⟨notesCreated, notesDisks⟩ [firstHandle.id]
      (.openWorkspace ⟨none, some notesRef, .json⟩ (some [2]) none) := by
    refine ⟨fun handle drawn => ?_, fun _ changed => (by cases changed)⟩
    cases drawn
    decide
  have third : ServiceProcess.Assumed ⟨notesOpened, notesDisks⟩ [firstHandle.id, secondHandle.id]
      (.closeWorkspace firstHandle) := ⟨fun _ drawn => (by cases drawn), fun _ changed => (by cases changed)⟩
  have serves : notesOpened.Serves secondHandle.id firstHandle.id (some "/data/notes.json") :=
    ⟨rfl, notesWorkspace, rfl, rfl⟩
  have last := ServiceProcess.Run.step third closed (.done _ _)
  obtain ⟨-, -, -, stays, -⟩ := ServiceProcess.handle_tables (.step first created (.step second opened (.done _ _)))
  obtain ⟨consistent, -⟩ := ServiceProcess.handle_tables (.step first created (.step second opened last))
  refine ⟨_, _, .step first created (.step second opened last), consistent, stays _ _ _ serves _ _ _ last ?_⟩
  intro call listed
  cases List.mem_singleton.1 listed
  decide
