import Grm.Runtime.Workspace
import Grm.Service.RequestConversions

/-!
# The workspaces of a service process

`InProcessWorkspaceService`: clients hold handles, the service holds the workspaces. A
workspace kept in local files is loaded once, and every handle on it is a handle on the
one workspace. Each call takes what it meets outside: the random bytes of a new handle
and the file operations that fail. The files of a path are its checkpoint, backup and log.
-/

set_option autoImplicit false

/-- The local files, by path. -/
abbrev Disks := BTreeMap String Disk

/-- The files of a path. -/
def Disks.at (disks : Disks) (path : String) : Disk := disks[path]?.getD ⟨none, none, none⟩

namespace Service

/-- `WorkspaceHandle`. -/
structure WorkspaceHandle where
  id : String
  deriving DecidableEq, Repr

/-- `WorkspaceRef`. -/
structure WorkspaceRef where
  id : String
  deriving DecidableEq, Repr

/-- `SnapshotHandle`. -/
structure SnapshotHandle where
  id : String
  etag : String
  deriving DecidableEq, Repr

/-- `WorkspaceCreateMode`. -/
inductive WorkspaceCreateMode where
  | inMemory | localAutocommit
  deriving DecidableEq, Repr

/-- `WorkspaceCreateRequest`. -/
structure WorkspaceCreateRequest where
  mode : WorkspaceCreateMode
  workspace : Option WorkspaceRef
  format : DurabilityFormat

/-- `WorkspaceOpenRequest`. -/
structure WorkspaceOpenRequest where
  snapshot : Option SnapshotHandle
  workspace : Option WorkspaceRef
  format : DurabilityFormat

/-- `WorkspaceCreateResponse` and `WorkspaceOpenResponse`. -/
structure WorkspaceHandleResponse where
  handle : WorkspaceHandle
  workspace : Option WorkspaceRef
  deriving DecidableEq, Repr

/-- `WorkspaceRuntimeRequest`. -/
structure WorkspaceRuntimeRequest where
  handle : WorkspaceHandle
  request : Request

/-- `WorkspaceRuntimeResponse`. -/
structure WorkspaceRuntimeResponse where
  handle : WorkspaceHandle
  response : RuntimeResponse
  durableOperations : List DurableOperation

/-- `WorkspaceServiceError`. -/
inductive WorkspaceServiceError where
  | runtime (error : GrmError)
  | workspaceAlreadyExists (workspace : WorkspaceRef)
  | unknownWorkspaceHandle (handle : WorkspaceHandle)
  | unknownSnapshotHandle (snapshot : SnapshotHandle)
  deriving DecidableEq, Repr

/-- `WorkspaceServiceResult<T>`. -/
abbrev WorkspaceServiceResult (α : Type) := Except WorkspaceServiceError α

/-- `LocalWorkspaceSnapshot` and `LocalWorkspaceSnapshotRequest`. -/
structure LocalWorkspaceSnapshot where
  format : DurabilityFormat
  path : String

/-! ## Paths -/

/-- `validate_workspace_ref`. -/
def validateWorkspaceRef (workspace : WorkspaceRef) : WorkspaceServiceResult Unit :=
  if workspace.id = "" then .error (.runtime (.constraint "workspace ref id must not be empty"))
  else if workspace.id.toList.all fun c => c.isAlphanum || c == '-' || c == '_' then .ok ()
  else .error (.runtime (.constraint "workspace ref id may contain only ASCII letters, digits, '-' and '_'"))

/-- The extension of a workspace file. -/
def workspaceExtension : DurabilityFormat → String
  | .json => "json"
  | .binary => "bin"

/-- `Path::join` with a file name. -/
def joinPath (root name : String) : String :=
  if root = "" ∨ root.toList.getLast? = some '/' then root ++ name else root ++ "/" ++ name

/-- `durability_companion_path`, of a path with a file name. -/
def durabilityCompanionPath (path suffix : String) : String := path ++ "." ++ suffix

/-- The files `local_workspace_exists` looks for at a path, and whether they are there. -/
def artifacts (path : String) (disk : Disk) : List (String × Bool) :=
  [(path, disk.primary.isSome), (durabilityCompanionPath path "log", disk.log.isSome),
    (durabilityCompanionPath path "bak", disk.backup.isSome)]

/-- The handle with the random bytes, in two hexadecimal digits each. -/
def workspaceHandleOf (bytes : List UInt8) : WorkspaceHandle :=
  let hex (n : Nat) := String.ofList [Nat.digitChar (n / 16), Nat.digitChar (n % 16)]
  ⟨"workspace-" ++ String.join (bytes.map fun byte => hex byte.toNat)⟩

/-- `next_workspace_handle`, on the bytes the random source fills, if it does. -/
def nextWorkspaceHandle (random : Option (List UInt8)) : WorkspaceServiceResult WorkspaceHandle :=
  match random with
  | some bytes => .ok (workspaceHandleOf bytes)
  | none => .error (.runtime (.backend "could not allocate workspace handle"))

end Service

open Service

/-- `InProcessWorkspaceService`. -/
structure InProcessWorkspaceService where
  nextWorkspaceRefId : Nat
  nextSnapshotId : Nat
  workspaces : BTreeMap String Workspace
  workspaceHandles : BTreeMap String String
  liveWorkspacePaths : BTreeMap String String
  workspaceRefs : BTreeMap String (Option WorkspaceRef)
  localSnapshots : BTreeMap String LocalWorkspaceSnapshot
  localWorkspaceRoot : Option String

namespace InProcessWorkspaceService

/-- `new` and `with_local_workspace_root`. -/
def new (root : Option String) : InProcessWorkspaceService :=
  { nextWorkspaceRefId := 0, nextSnapshotId := 0, workspaces := ∅, workspaceHandles := ∅, liveWorkspacePaths := ∅,
    workspaceRefs := ∅, localSnapshots := ∅, localWorkspaceRoot := root }

/-- `local_workspace_path`. -/
def localWorkspacePath (s : InProcessWorkspaceService) (workspace : WorkspaceRef) (format : DurabilityFormat) :
    WorkspaceServiceResult String := do
  validateWorkspaceRef workspace
  match s.localWorkspaceRoot with
  | none =>
    throw (.runtime (.constraint "local autocommit workspaces require a configured local workspace root"))
  | some root => return joinPath root (workspace.id ++ "." ++ workspaceExtension format)

/-- The inner loop of `local_workspace_exists`; an inspection may fail. -/
def anyExists (workspace : WorkspaceRef) (inspect : String → Option String) :
    List (String × Bool) → WorkspaceServiceResult Bool
  | [] => .ok false
  | (path, present) :: rest =>
    match inspect path with
    | some error => .error (.runtime (.backend ("failed to inspect local workspace '" ++ workspace.id ++ "': " ++ error)))
    | none => if present then .ok true else anyExists workspace inspect rest

/-- `local_workspace_exists`. -/
def localWorkspaceExists (s : InProcessWorkspaceService) (disks : Disks) (inspect : String → Option String)
    (workspace : WorkspaceRef) : WorkspaceServiceResult Bool := do
  let binary ← s.localWorkspacePath workspace .binary
  if ← anyExists workspace inspect (artifacts binary (disks.at binary)) then return true
  let json ← s.localWorkspacePath workspace .json
  anyExists workspace inspect (artifacts json (disks.at json))

/-- `next_workspace_ref`. -/
def nextWorkspaceRef (s : InProcessWorkspaceService) : InProcessWorkspaceService × WorkspaceRef :=
  let next := s.nextWorkspaceRefId + 1
  ({ s with nextWorkspaceRefId := next }, ⟨"workspace-" ++ toString next⟩)

/-- `next_available_workspace_ref`, up to a number of names; `none` when it is still looking. -/
def nextAvailableWorkspaceRef (disks : Disks) (inspect : String → Option String) :
    Nat → InProcessWorkspaceService → Option (InProcessWorkspaceService × WorkspaceServiceResult WorkspaceRef)
  | 0, _ => none
  | tries + 1, s =>
    let (s, workspace) := s.nextWorkspaceRef
    match s.localWorkspaceExists disks inspect workspace with
    | .error e => some (s, .error e)
    | .ok false => some (s, .ok workspace)
    | .ok true => nextAvailableWorkspaceRef disks inspect tries s

/-- The workspace a local autocommit is created for: one that is asked for by name must be new. -/
def newWorkspaceRef (s : InProcessWorkspaceService) (disks : Disks) (inspect : String → Option String) (tries : Nat) :
    Option WorkspaceRef → Option (InProcessWorkspaceService × WorkspaceServiceResult WorkspaceRef)
  | some workspace => some (s, do
      validateWorkspaceRef workspace
      if ← s.localWorkspaceExists disks inspect workspace then throw (.workspaceAlreadyExists workspace)
      return workspace)
  | none => nextAvailableWorkspaceRef disks inspect tries s

/-- The tables with a new workspace and its first handle. -/
def register (s : InProcessWorkspaceService) (handle : WorkspaceHandle) (workspace : Workspace)
    (ref : Option WorkspaceRef) : InProcessWorkspaceService :=
  { s with
    workspaces := s.workspaces.insert handle.id workspace
    workspaceHandles := s.workspaceHandles.insert handle.id handle.id
    workspaceRefs := s.workspaceRefs.insert handle.id ref }

section Calls
variable [Codecs]

/-- The last part of `create_workspace` for a local autocommit. -/
def createLocal (s : InProcessWorkspaceService) (disks : Disks) (ref : WorkspaceRef) (format : DurabilityFormat)
    (random : Option (List UInt8)) (fault : Option SaveStep) :
    InProcessWorkspaceService × Disks × WorkspaceServiceResult WorkspaceHandleResponse :=
  match s.localWorkspacePath ref format with
  | .error e => (s, disks, .error e)
  | .ok path =>
    let (workspace, disk, enabled) := Workspace.new.enableAutocommit format path (disks.at path) fault
    let disks := disks.insert path disk
    match enabled with
    | .error e => (s, disks, .error (.runtime e))
    | .ok () =>
      match nextWorkspaceHandle random with
      | .error e => (s, disks, .error e)
      | .ok handle =>
        let s := s.register handle workspace (some ref)
        ({ s with liveWorkspacePaths := s.liveWorkspacePaths.insert path handle.id }, disks, .ok ⟨handle, some ref⟩)

/-- `create_workspace`; `none` while it is looking for a name. -/
def createWorkspace (s : InProcessWorkspaceService) (disks : Disks) (request : WorkspaceCreateRequest)
    (random : Option (List UInt8)) (inspect : String → Option String) (fault : Option SaveStep) (tries : Nat) :
    Option (InProcessWorkspaceService × Disks × WorkspaceServiceResult WorkspaceHandleResponse) :=
  match request.mode with
  | .inMemory =>
    match nextWorkspaceHandle random with
    | .error e => some (s, disks, .error e)
    | .ok handle => some (s.register handle Workspace.new none, disks, .ok ⟨handle, none⟩)
  | .localAutocommit =>
    (s.newWorkspaceRef disks inspect tries request.workspace).map fun (s, ref) =>
      match ref with
      | .error e => (s, disks, .error e)
      | .ok ref => s.createLocal disks ref request.format random fault

/-- The last part of `open_workspace`, for a workspace that was not live. -/
def openLoaded (s : InProcessWorkspaceService) (disks : Disks) (workspace : Workspace) (ref : Option WorkspaceRef)
    (format : DurabilityFormat) (random : Option (List UInt8)) :
    InProcessWorkspaceService × Disks × WorkspaceServiceResult WorkspaceHandleResponse :=
  match nextWorkspaceHandle random with
  | .error e => (s, disks, .error e)
  | .ok handle =>
    match ref with
    | none => (s.register handle workspace none, disks, .ok ⟨handle, none⟩)
    | some ref =>
      match s.localWorkspacePath ref format with
      | .error e => (s, disks, .error e)
      | .ok path =>
        let s := { s with liveWorkspacePaths := s.liveWorkspacePaths.insert path handle.id }
        (s.register handle workspace (some ref), disks, .ok ⟨handle, some ref⟩)

/-- `open_workspace` by a workspace's name. -/
def openRef (s : InProcessWorkspaceService) (disks : Disks) (ref : WorkspaceRef) (format : DurabilityFormat)
    (random : Option (List UInt8)) (fault : Option SaveStep) :
    InProcessWorkspaceService × Disks × WorkspaceServiceResult WorkspaceHandleResponse :=
  match s.localWorkspacePath ref format with
  | .error e => (s, disks, .error e)
  | .ok path =>
    match s.liveWorkspacePaths[path]? with
    | some workspaceId =>
      match nextWorkspaceHandle random with
      | .error e => (s, disks, .error e)
      | .ok handle =>
        ({ s with
          workspaceHandles := s.workspaceHandles.insert handle.id workspaceId
          workspaceRefs := s.workspaceRefs.insert handle.id (some ref) }, disks, .ok ⟨handle, some ref⟩)
    | none =>
      let (disk, opened) := Workspace.openAutocommit format path (disks.at path) fault
      let disks := disks.insert path disk
      match opened with
      | .error e => (s, disks, .error (.runtime e))
      | .ok workspace => s.openLoaded disks workspace (some ref) format random

/-- `open_workspace` by a snapshot. -/
def openSnapshot (s : InProcessWorkspaceService) (disks : Disks) (snapshot : SnapshotHandle) (format : DurabilityFormat)
    (random : Option (List UInt8)) :
    InProcessWorkspaceService × Disks × WorkspaceServiceResult WorkspaceHandleResponse :=
  match s.localSnapshots[snapshot.id]? with
  | none => (s, disks, .error (.unknownSnapshotHandle snapshot))
  | some found =>
    if found.format ≠ format then
      (s, disks, .error (.runtime (.constraint "workspace open format does not match registered snapshot")))
    else match Workspace.load format (disks.at found.path) with
      | .error e => (s, disks, .error (.runtime e))
      | .ok workspace => s.openLoaded disks workspace none format random

/-- `open_workspace`. -/
def openWorkspace (s : InProcessWorkspaceService) (disks : Disks) (request : WorkspaceOpenRequest)
    (random : Option (List UInt8)) (fault : Option SaveStep) :
    InProcessWorkspaceService × Disks × WorkspaceServiceResult WorkspaceHandleResponse :=
  match request.workspace, request.snapshot with
  | some _, some _ =>
    (s, disks, .error (.runtime (.constraint
      "workspace open accepts either a workspace ref or snapshot handle, not both")))
  | some ref, none => s.openRef disks ref request.format random fault
  | none, some snapshot => s.openSnapshot disks snapshot request.format random
  | none, none =>
    (s, disks, .error (.runtime (.constraint "workspace open requires a workspace ref or snapshot handle")))

/-- The workspace of a handle and its key, as `workspace` and `workspace_mut` look them up. -/
def workspaceOf (s : InProcessWorkspaceService) (handle : WorkspaceHandle) :
    WorkspaceServiceResult (String × Workspace) :=
  match s.workspaceHandles[handle.id]? with
  | none => .error (.unknownWorkspaceHandle handle)
  | some id =>
    match s.workspaces[id]? with
    | none => .error (.unknownWorkspaceHandle handle)
    | some workspace => .ok (id, workspace)

/-- The files of a workspace. -/
def diskOf (workspace : Workspace) (disks : Disks) : Disk :=
  match workspace.autocommit with
  | none => ⟨none, none, none⟩
  | some target => disks.at target.path

/-- The files with those of a workspace put in place. -/
def putDisk (workspace : Workspace) (disks : Disks) (disk : Disk) : Disks :=
  match workspace.autocommit with
  | none => disks
  | some target => disks.insert target.path disk

/-- `execute_runtime`. -/
def executeRuntime [Externals] (s : InProcessWorkspaceService) (disks : Disks) (request : WorkspaceRuntimeRequest)
    (faults : PersistFaults) :
    InProcessWorkspaceService × Disks × WorkspaceServiceResult WorkspaceRuntimeResponse :=
  match s.workspaceOf request.handle with
  | .error e => (s, disks, .error e)
  | .ok (id, workspace) =>
    match RuntimeRequest.ofService request.request with
    | .error e => (s, disks, .error (.runtime e))
    | .ok runtime =>
      let (workspace', disk, executed) := workspace.executeRuntime (diskOf workspace disks) runtime faults
      ({ s with workspaces := s.workspaces.insert id workspace' }, putDisk workspace disks disk,
        match executed with
        | .error e => .error (.runtime e)
        | .ok outcome => .ok ⟨request.handle, outcome.response, outcome.durableOps⟩)

/-- The entries of the live paths that name other workspaces, as `retain` keeps them. -/
def otherPaths (id : String) (paths : BTreeMap String String) : BTreeMap String String :=
  paths.filter fun _ named => named != id

/-- `close_workspace`. -/
def closeWorkspace (s : InProcessWorkspaceService) (handle : WorkspaceHandle) :
    InProcessWorkspaceService × WorkspaceServiceResult WorkspaceHandle :=
  match s.workspaceHandles[handle.id]? with
  | none => (s, .error (.unknownWorkspaceHandle handle))
  | some id =>
    let s := { s with
      workspaceHandles := s.workspaceHandles.erase handle.id
      workspaceRefs := s.workspaceRefs.erase handle.id }
    if s.workspaceHandles.vals.any fun other => other == id then (s, .ok handle)
    else ({ s with
      workspaces := s.workspaces.erase id
      liveWorkspacePaths := otherPaths id s.liveWorkspacePaths }, .ok handle)

/-- `register_local_workspace_snapshot`. -/
def registerLocalWorkspaceSnapshot (s : InProcessWorkspaceService) (snapshot : LocalWorkspaceSnapshot) :
    InProcessWorkspaceService × SnapshotHandle :=
  let next := s.nextSnapshotId + 1
  let id := "local-snapshot-" ++ toString next
  ({ s with nextSnapshotId := next, localSnapshots := s.localSnapshots.insert id snapshot }, ⟨id, ""⟩)

end Calls

end InProcessWorkspaceService
