import Grm.Lib.Interaction
import Grm.Service.AuditStore
import Grm.Service.Classification
import Grm.Service.HandleRuns
import Grm.Service.WorkspaceNames

/-!
# The state of the gRPC service

What the handlers of `GrpcWorkspaceService` share: the workspaces behind their lock, the
flag of a degraded audit and the counters. What a handler does to them, and what it asks
of the authenticator, the policy, the audit sink and the clock, is one action each. The
answers of the latter come from outside and may be any; a lock that is held is waited for.
-/

set_option autoImplicit false

open Service

/-! ## Configuration -/

inductive ServiceSecurityProfile where
  | anonymousLocal | dockerLocalInsecure | secured
  deriving DecidableEq, Repr

/-- `ServiceSecurityConfig`, but for what it calls. -/
structure ServiceSecurityConfig where
  profile : ServiceSecurityProfile
  policyVersion : Option String
  maxBatchOperations : Nat

/-- `audit_mode`. -/
def ServiceSecurityConfig.auditMode (security : ServiceSecurityConfig) : SecurityAuditMode :=
  match security.profile with
  | .secured => .mandatory
  | .anonymousLocal | .dockerLocalInsecure => .bestEffort

/-- A socket address: its text, which parses back to it, and whether its IP is a loopback one. -/
structure SocketAddr where
  text : String
  isLoopback : Bool
  deriving DecidableEq, Repr

structure TransportPeer where
  remoteAddress : Option SocketAddr
  clientCertificatePresent : Bool
  clientCertificateLeafDer : Option (List UInt8)
  deriving DecidableEq, Repr

/-- `transport_peer_is_loopback`. -/
def TransportPeer.isLoopback (peer : TransportPeer) : Bool :=
  match peer.remoteAddress with
  | none => true
  | some address => address.isLoopback

/-- `allows_transport_peer`. -/
def ServiceSecurityConfig.allowsTransportPeer (security : ServiceSecurityConfig) (peer : TransportPeer) : Bool :=
  security.profile != .anonymousLocal || peer.isLoopback

structure ActorAssertion where
  actorId : String
  deriving DecidableEq, Repr

/-- The header fields of a request, in their order. -/
abbrev MetadataMap := List (String × List UInt8)

/-- A request as it arrives. -/
structure GrpcRequest (Message : Type) where
  remoteAddr : Option SocketAddr
  peerCerts : List (List UInt8)
  metadata : MetadataMap
  message : Message

/-- `transport_peer_from_request`. -/
def transportPeerFromRequest {Message : Type} (request : GrpcRequest Message) : TransportPeer where
  remoteAddress := request.remoteAddr
  clientCertificatePresent := request.peerCerts.head?.isSome
  clientCertificateLeafDer := request.peerCerts.head?

/-- `to_str` of a header value: visible ASCII and tabs. -/
def headerText (value : List UInt8) : Option String :=
  if value.all fun byte => (32 ≤ byte && byte < 127) || byte == 9 then
    some (String.ofList (value.map fun byte => Char.ofNat byte.toNat))
  else none

/-- `actor_assertion`; `none` for a value that is not ASCII. -/
def actorAssertion (metadata : MetadataMap) : Option (Option ActorAssertion) :=
  match metadata.lookup "x-grm-actor-id" with
  | none => some none
  | some value => (headerText value).map fun actorId => some ⟨actorId⟩

/-- `SecurityRequestContext` with its other fields; nothing delegates. -/
structure GrpcSecurityContext extends SecurityRequestContext where
  transportPeer : TransportPeer
  assertedActor : Option ActorAssertion
  workspace : String
  policyVersion : Option String

/-! ## Errors -/

inductive SecurityEnforcementError where
  | anonymousLocalRemotePeer | invalidActorAssertion | authenticationFailed | missingPrincipal
  | policyEvaluationFailed | denied | auditClassificationOverflow | auditEventTooLarge | auditSinkUnavailable
  deriving DecidableEq, Repr

inductive StatusCode where
  | invalidArgument | notFound | alreadyExists | permissionDenied | resourceExhausted | unimplemented | unavailable
  | unauthenticated
  deriving DecidableEq, Repr

/-- `tonic::Status`. -/
structure Status where
  code : StatusCode
  message : String
  deriving DecidableEq, Repr

/-- `security_status`. -/
def securityStatus : SecurityEnforcementError → Status
  | .anonymousLocalRemotePeer => ⟨.permissionDenied, "anonymous local profile requires a loopback peer"⟩
  | .invalidActorAssertion => ⟨.invalidArgument, "actor assertion metadata is not valid ASCII"⟩
  | .authenticationFailed => ⟨.unauthenticated, "application authentication failed"⟩
  | .missingPrincipal => ⟨.unauthenticated, "authenticated application principal required"⟩
  | .policyEvaluationFailed => ⟨.unavailable, "authorization policy evaluation failed"⟩
  | .denied => ⟨.permissionDenied, "authorization denied"⟩
  | .auditClassificationOverflow =>
    ⟨.invalidArgument, "request is too large for the security audit record: classification exceeds bounded limits"⟩
  | .auditEventTooLarge =>
    ⟨.resourceExhausted, "request is too large for the security audit record: event exceeds byte limit"⟩
  | .auditSinkUnavailable => ⟨.unavailable, "authoritative security audit sink unavailable"⟩

/-- `proto_status`. -/
def protoStatus : GrmError → Status
  | .notSupported message => ⟨.unimplemented, message⟩
  | other => ⟨.invalidArgument, other.display⟩

/-- `workspace_status`. -/
def workspaceStatus : WorkspaceServiceError → Status
  | .workspaceAlreadyExists workspace =>
    ⟨.alreadyExists, "workspace '" ++ workspace.id ++ "' already exists; use open mode"⟩
  | .unknownWorkspaceHandle handle => ⟨.notFound, "unknown workspace handle '" ++ handle.id ++ "'"⟩
  | .unknownSnapshotHandle snapshot => ⟨.notFound, "unknown workspace snapshot handle '" ++ snapshot.id ++ "'"⟩
  | .runtime error => protoStatus error

/-! ## Actions -/

/-- A call on the workspaces. -/
inductive WorkspaceCall where
  | createWorkspace (request : WorkspaceCreateRequest)
  | openWorkspace (request : WorkspaceOpenRequest)
  | executeRuntime (request : WorkspaceRuntimeRequest)
  | closeWorkspace (handle : WorkspaceHandle)

/-- What a call on the workspaces returns. -/
abbrev WorkspaceCall.Reply : WorkspaceCall → Type
  | .createWorkspace _ | .openWorkspace _ => WorkspaceServiceResult WorkspaceHandleResponse
  | .executeRuntime _ => WorkspaceServiceResult WorkspaceRuntimeResponse
  | .closeWorkspace _ => WorkspaceServiceResult WorkspaceHandle

/-- What a handler does, one access to what it shares with others at a time. -/
inductive GrpcAction where
  | allocateRequestId
  | allocateEventIdentity
  | append (event : SecurityAuditEvent)
  | tryRecover
  | sinkHealth
  | retainedEvents
  | retentionLimits
  | futureDatedRecords
  | fallbackRequestId
  | fallbackEventId
  | fallbackSequence
  | recordBestEffortFailure
  | auditDegraded
  | setAuditDegraded (degraded : Bool)
  | now
  | authenticate (peer : TransportPeer) (metadata : MetadataMap)
  | evaluate (context : GrpcSecurityContext)
  | lock
  | unlock
  | serve (call : WorkspaceCall)

/-- What an action is answered with; a failure of the authenticator or the policy says nothing more. -/
abbrev GrpcAction.Answer : GrpcAction → Type
  | .allocateRequestId => Except SecurityAuditSinkError Nat
  | .allocateEventIdentity => Except SecurityAuditSinkError (Nat × Nat)
  | .append _ => Except SecurityAuditSinkError Unit
  | .tryRecover => Except SecurityAuditSinkError SecurityAuditSinkHealth
  | .sinkHealth => SecurityAuditSinkHealth
  | .retainedEvents => List SecurityAuditEvent
  | .retentionLimits => Nat × Nat × Duration
  | .futureDatedRecords => Nat
  | .fallbackRequestId | .fallbackEventId | .fallbackSequence => Nat
  | .recordBestEffortFailure => Unit
  | .auditDegraded => Bool
  | .setAuditDegraded _ => Unit
  | .now => SystemTime
  | .authenticate _ _ => Option (Option Principal)
  | .evaluate _ => Option AuthorizationDecision
  | .lock => InProcessWorkspaceService
  | .unlock => Unit
  | .serve call => call.Reply

/-- A handler, or a part of one. -/
abbrev Handler (ε α : Type) := Proc GrpcAction.Answer ε α

/-- An action of a handler. -/
abbrev Handler.perform {ε : Type} (action : GrpcAction) : Handler ε action.Answer := Proc.perform action

/-! ## What answers them -/

/-- What lies outside the service, at one moment. -/
structure GrpcWorld where
  allocatedRequestId : Except SecurityAuditSinkError Nat
  allocatedEventIdentity : Except SecurityAuditSinkError (Nat × Nat)
  appended : SecurityAuditEvent → Except SecurityAuditSinkError Unit
  recovered : Except SecurityAuditSinkError SecurityAuditSinkHealth
  health : SecurityAuditSinkHealth
  retained : List SecurityAuditEvent
  limits : Nat × Nat × Duration
  futureDated : Nat
  time : SystemTime
  authenticated : TransportPeer → MetadataMap → Option (Option Principal)
  decided : GrpcSecurityContext → Option AuthorizationDecision
  random : Option (List UInt8)
  inspect : String → Option String
  saveFault : Option SaveStep
  persistFaults : PersistFaults
  disks : Disks

/-- `GrpcWorkspaceService`, with the files of its workspaces and the call that holds the lock. -/
structure GrpcWorkspaceService where
  process : ServiceProcess
  lockedBy : Option Nat
  fallbackAuditRequestId : Nat
  fallbackAuditEventId : Nat
  fallbackAuditSequence : Nat
  bestEffortAuditFailures : Nat
  auditDegraded : Bool

section Answers
variable [Codecs] [Externals]

/-- `create_workspace`, when it has found a name. -/
def InProcessWorkspaceService.createWorkspaceFully (s : InProcessWorkspaceService) (disks : Disks)
    (request : WorkspaceCreateRequest) (random : Option (List UInt8)) (inspect : String → Option String)
    (fault : Option SaveStep) :
    InProcessWorkspaceService × Disks × WorkspaceServiceResult WorkspaceHandleResponse :=
  let returns := s.createWorkspace_returns disks request random inspect fault
  (s.createWorkspace disks request random inspect fault (Nat.find returns)).get (Nat.find_spec returns)

/-- A call on the workspaces. -/
def ServiceProcess.serve (p : ServiceProcess) (world : GrpcWorld) : (call : WorkspaceCall) → ServiceProcess × call.Reply
  | .createWorkspace request =>
    let (service, disks, result) :=
      p.service.createWorkspaceFully p.disks request world.random world.inspect world.saveFault
    (⟨service, disks⟩, result)
  | .openWorkspace request =>
    let (service, disks, result) := p.service.openWorkspace p.disks request world.random world.saveFault
    (⟨service, disks⟩, result)
  | .executeRuntime request =>
    let (service, disks, result) := p.service.executeRuntime p.disks request world.persistFaults
    (⟨service, disks⟩, result)
  | .closeWorkspace handle =>
    let (service, result) := p.service.closeWorkspace handle
    (⟨service, p.disks⟩, result)

namespace GrpcWorkspaceService

/-- `from_in_process`. -/
def fromInProcess (process : ServiceProcess) : GrpcWorkspaceService where
  process
  lockedBy := none
  fallbackAuditRequestId := 1
  fallbackAuditEventId := 1
  fallbackAuditSequence := 1
  bestEffortAuditFailures := 0
  auditDegraded := false

/-- The answer to an action of a call; the lock, and what needs it, may have to wait. -/
def answer (world : GrpcWorld) (s : GrpcWorkspaceService) (i : Nat) :
    (action : GrpcAction) → Option (GrpcWorkspaceService × action.Answer)
  | .allocateRequestId => some (s, world.allocatedRequestId)
  | .allocateEventIdentity => some (s, world.allocatedEventIdentity)
  | .append event => some (s, world.appended event)
  | .tryRecover => some (s, world.recovered)
  | .sinkHealth => some (s, world.health)
  | .retainedEvents => some (s, world.retained)
  | .retentionLimits => some (s, world.limits)
  | .futureDatedRecords => some (s, world.futureDated)
  | .fallbackRequestId =>
    some ({ s with fallbackAuditRequestId := s.fallbackAuditRequestId + 1 }, s.fallbackAuditRequestId)
  | .fallbackEventId => some ({ s with fallbackAuditEventId := s.fallbackAuditEventId + 1 }, s.fallbackAuditEventId)
  | .fallbackSequence =>
    some ({ s with fallbackAuditSequence := s.fallbackAuditSequence + 1 }, s.fallbackAuditSequence)
  | .recordBestEffortFailure => some ({ s with bestEffortAuditFailures := min (s.bestEffortAuditFailures + 1) u64Max }, ())
  | .auditDegraded => some (s, s.auditDegraded)
  | .setAuditDegraded degraded => some ({ s with auditDegraded := degraded }, ())
  | .now => some (s, world.time)
  | .authenticate peer metadata => some (s, world.authenticated peer metadata)
  | .evaluate context => some (s, world.decided context)
  | .lock => if s.lockedBy = none then some ({ s with lockedBy := some i }, s.process.service) else none
  | .unlock => if s.lockedBy = some i then some ({ s with lockedBy := none }, ()) else none
  | .serve call =>
    if s.lockedBy = some i then
      let (process, reply) := s.process.serve world call
      some ({ s with process }, reply)
    else none

/-- What answers the handlers; others may change the files. -/
def host : Host GrpcAction.Answer GrpcWorkspaceService GrpcWorld where
  answer
  interfere world s := { s with process := { s.process with disks := world.disks } }

end GrpcWorkspaceService

end Answers
