import Grm.Service.GrpcActions
import Grm.Service.Proto

/-!
# The handlers of the gRPC service

The handlers of `GrpcWorkspaceService`, each a program of actions. All of them begin alike:
a request id, the attempt, the authentication of the caller. Then a handler reads its
request, classifies it, asks the policy, and records the decision and the admission before
it touches a workspace; what came of it is recorded after.
-/

set_option autoImplicit false

open Service

/-- `SecurityAuditRequest`. -/
structure SecurityAuditRequest where
  requestId : Nat
  serviceIdentity : String
  mode : SecurityAuditMode
  authoritativePersistence : Bool
  transportPeer : SecurityAuditTransportPeer
  authenticatedPrincipal : Option SecurityAuditPrincipal
  assertedActor : Option SecurityAuditActorAssertion
  workspace : Option String
  operations : List SecurityAuditOperation
  policyVersion : Option String
  deriving DecidableEq, Repr

namespace SecurityAuditRequest

def forPeer (audit : SecurityAuditRequest) (peer : SecurityAuditTransportPeer) : SecurityAuditRequest :=
  { audit with transportPeer := peer }

def inWorkspace (audit : SecurityAuditRequest) (workspace : String) : SecurityAuditRequest :=
  { audit with workspace := some workspace }

def withOperations (audit : SecurityAuditRequest) (operations : List SecurityAuditOperation) : SecurityAuditRequest :=
  { audit with operations }

end SecurityAuditRequest

/-! ## The audit of a request -/

/-- `audit_transport_peer`. -/
def auditTransportPeer (peer : TransportPeer) : SecurityAuditTransportPeer :=
  ⟨peer.remoteAddress.isSome, peer.clientCertificatePresent⟩

/-- `bounded_audit_field`. -/
def boundedAuditField (value : String) : Except SecurityEnforcementError String :=
  if securityAuditMaxFieldBytes < value.utf8ByteSize then .error .auditClassificationOverflow else .ok value

/-- `audit_principal`. -/
def auditPrincipal : Option Principal → Except SecurityEnforcementError (Option SecurityAuditPrincipal)
  | none => .ok none
  | some principal => do
    return some {
      issuer := ← boundedAuditField principal.issuer
      subject := ← boundedAuditField principal.subject
      authenticationProvider := ← boundedAuditField principal.authenticationMethod
      authenticationMethod := ← boundedAuditField principal.authenticationMethod }

/-- `audit_actor`. -/
def auditActor : Option ActorAssertion → Except SecurityEnforcementError (Option SecurityAuditActorAssertion)
  | none => .ok none
  | some actor => do return some ⟨← boundedAuditField actor.actorId, false⟩

/-- `populate_audit_identity`. -/
def populateAuditIdentity (audit : SecurityAuditRequest) (principal : Option Principal) (actor : Option ActorAssertion) :
    Except SecurityEnforcementError SecurityAuditRequest := do
  return { audit with
    authenticatedPrincipal := ← auditPrincipal principal
    assertedActor := ← auditActor actor }

/-- One operation of `audit_operations`. -/
def auditOperation (operation : SecurityOperation) : Except SecurityEnforcementError SecurityAuditOperation := do
  let workspace ← boundedAuditField operation.resource.workspace
  let model ← match operation.resource.model with
    | none => pure none
    | some model => some <$> boundedAuditField model
  return ⟨operation.action, operation.resource.kind, workspace, model⟩

/-- `audit_operations`. -/
def auditOperations (operations : List SecurityOperation) : Except SecurityEnforcementError (List SecurityAuditOperation) :=
  if securityAuditMaxOperations < operations.length then .error .auditClassificationOverflow
  else operations.mapM auditOperation

/-- `audit_reason_from_authorization`. -/
def auditReasonFromAuthorization : AuthorizationReason → SecurityAuditReason
  | .anonymousLocalProfile => .anonymousLocalProfile
  | .explicitPolicyAllow => .explicitPolicyAllow
  | .noMatchingPermission => .noMatchingPermission

/-- `audit_event`, at a clock reading. -/
def auditEvent (audit : SecurityAuditRequest) (time : SystemTime) (stage : SecurityAuditStage)
    (decision : SecurityAuditDecision) (reason : SecurityAuditReason) : SecurityAuditEvent where
  schemaVersion := securityAuditSchemaVersion
  eventId := 0
  requestId := audit.requestId
  serviceSequence := 0
  timestamp := time
  serviceIdentity := audit.serviceIdentity
  mode := audit.mode
  stage
  transportPeer := audit.transportPeer
  authenticatedPrincipal := audit.authenticatedPrincipal
  assertedActor := audit.assertedActor
  workspace := audit.workspace
  operations := audit.operations
  policyVersion := audit.policyVersion
  decision
  reason
  runtimeOutcome := .notReached
  durabilityOutcome := .notApplicable
  deliveryOutcome := .notReached

namespace Handler

/-- `start_audit_request`. -/
def startAuditRequest (security : ServiceSecurityConfig) : Handler SecurityEnforcementError SecurityAuditRequest := do
  let audit (requestId : Nat) (authoritativePersistence : Bool) : SecurityAuditRequest := {
    requestId
    serviceIdentity := "grm-local-workspace-service"
    mode := security.auditMode
    authoritativePersistence
    transportPeer := ⟨false, false⟩
    authenticatedPrincipal := none
    assertedActor := none
    workspace := none
    operations := []
    policyVersion := security.policyVersion }
  match ← perform .allocateRequestId with
  | .ok 0 => return audit (← perform .fallbackRequestId) true
  | .ok id => return audit id true
  | .error _ =>
    if security.auditMode = .bestEffort then do
      perform .recordBestEffortFailure
      return audit (← perform .fallbackRequestId) false
    else .fail .auditSinkUnavailable

/-- An id of an event, from the counter of the service when the sink gives none. -/
def eventIdOrFallback (eventId : Nat) : Handler SecurityEnforcementError Nat :=
  if eventId = 0 then perform .fallbackEventId else pure eventId

/-- The sequence number of an event, likewise. -/
def sequenceOrFallback (sequence : Nat) : Handler SecurityEnforcementError Nat :=
  if sequence = 0 then perform .fallbackSequence else pure sequence

/-- A failure of the sink: a best-effort audit counts it and goes on without a record. -/
def sinkFailed (audit : SecurityAuditRequest) (error : SecurityEnforcementError) :
    Handler SecurityEnforcementError SecurityAuditRequest := do
  if audit.mode = .bestEffort then
    perform .recordBestEffortFailure
    return { audit with authoritativePersistence := false }
  else .fail error

/-- `audit_append`; the request is returned with its flag of an authoritative record. -/
def auditAppend (audit : SecurityAuditRequest) (event : SecurityAuditEvent) :
    Handler SecurityEnforcementError SecurityAuditRequest := do
  if !audit.authoritativePersistence then return audit
  else match ← perform .allocateEventIdentity with
    | .error _ => sinkFailed audit .auditSinkUnavailable
    | .ok (eventId, sequence) => do
      let eventId ← eventIdOrFallback eventId
      let serviceSequence ← sequenceOrFallback sequence
      match ← perform (.append { event with eventId, serviceSequence }) with
      | .ok () => return audit
      | .error error =>
        sinkFailed audit (if error = .eventTooLarge then .auditEventTooLarge else .auditSinkUnavailable)

/-- An event of the request, made now and appended. -/
def record (audit : SecurityAuditRequest) (stage : SecurityAuditStage) (decision : SecurityAuditDecision)
    (reason : SecurityAuditReason) : Handler SecurityEnforcementError SecurityAuditRequest := do
  let time ← perform .now
  auditAppend audit (auditEvent audit time stage decision reason)

/-- `audit_append_post_effect`: in a mandatory audit, a failure degrades the service. -/
def auditAppendPostEffect (audit : SecurityAuditRequest) (event : SecurityAuditEvent) : Handler Status SecurityAuditRequest := do
  match ← (auditAppend audit event).attempt with
  | .ok audit => return audit
  | .error _ =>
    if audit.mode = .mandatory then do
      perform (.setAuditDegraded true)
      let _ ← (record audit .delivery .error .sinkUnavailable).attempt
      return audit
    else return audit

/-- `ensure_mandatory_audit_available`. -/
def ensureMandatoryAuditAvailable (security : ServiceSecurityConfig) : Handler SecurityEnforcementError Unit := do
  if security.profile ≠ .secured then return ()
  else if ← perform .auditDegraded then
    match ← perform .tryRecover with
    | .ok .healthy => perform (.setAuditDegraded false)
    | _ => .fail .auditSinkUnavailable
  else return ()

/-- `request_security_inputs`. -/
def requestSecurityInputs {Message : Type} (security : ServiceSecurityConfig) (request : GrpcRequest Message) :
    Handler SecurityEnforcementError (TransportPeer × Option Principal × Option ActorAssertion) := do
  let transportPeer := transportPeerFromRequest request
  if !security.allowsTransportPeer transportPeer then .fail .anonymousLocalRemotePeer
  else match actorAssertion request.metadata with
    | none => .fail .invalidActorAssertion
    | some assertedActor =>
      match ← perform (.authenticate transportPeer request.metadata) with
      | none => .fail .authenticationFailed
      | some authenticatedPrincipal =>
        if security.profile = .secured ∧ authenticatedPrincipal = none then .fail .missingPrincipal
        else return (transportPeer, authenticatedPrincipal, assertedActor)

/-- `authorize`. -/
def authorize (security : ServiceSecurityConfig) (transportPeer : TransportPeer)
    (authenticatedPrincipal : Option Principal) (assertedActor : Option ActorAssertion) (workspace : String)
    (operations : List SecurityOperation) : Handler SecurityEnforcementError AuthorizationDecision := do
  let context : GrpcSecurityContext :=
    { authenticatedPrincipal, operations, transportPeer, assertedActor, workspace, policyVersion := security.policyVersion }
  match ← perform (.evaluate context) with
  | none => .fail .policyEvaluationFailed
  | some decision => return decision

/-- The reason `audit_security_error` records. -/
def errorReason : SecurityEnforcementError → SecurityAuditReason
  | .anonymousLocalRemotePeer | .denied => .noMatchingPermission
  | .invalidActorAssertion => .invalidActorAssertion
  | .authenticationFailed => .authenticationFailed
  | .missingPrincipal => .missingPrincipal
  | .policyEvaluationFailed => .policyEvaluationFailed
  | .auditClassificationOverflow | .auditEventTooLarge => .classificationOverflow
  | .auditSinkUnavailable => .sinkUnavailable

/-- The decision `audit_security_error` records. -/
def errorDecision : SecurityEnforcementError → SecurityAuditDecision
  | .policyEvaluationFailed | .auditSinkUnavailable => .error
  | _ => .deny

/-- `audit_status_error`: the status to fail with. -/
def auditStatusError (audit : SecurityAuditRequest) (stage : SecurityAuditStage) (decision : SecurityAuditDecision)
    (reason : SecurityAuditReason) (status : Status) : Handler Status Status := do
  let _ ← (record audit stage decision reason).mapErr fun error => pure (securityStatus error)
  return status

/-- `audit_security_error`. -/
def auditSecurityError (audit : SecurityAuditRequest) (stage : SecurityAuditStage) (error : SecurityEnforcementError) :
    Handler Status Status :=
  auditStatusError audit stage (errorDecision error) (errorReason error) (securityStatus error)

/-- `map_err(security_status)`. -/
def orStatus {α : Type} (handler : Handler SecurityEnforcementError α) : Handler Status α :=
  handler.mapErr fun error => pure (securityStatus error)

/-- `audit_authorization_decision`. -/
def auditAuthorizationDecision (audit : SecurityAuditRequest) :
    AuthorizationDecision → Handler SecurityEnforcementError SecurityAuditRequest
  | .allow reason => record audit .authorization .allow (auditReasonFromAuthorization reason)
  | .deny reason => do
    let _ ← record audit .authorization .deny (auditReasonFromAuthorization reason)
    .fail .denied

/-- `audit_admission_allow`. -/
def auditAdmissionAllow (audit : SecurityAuditRequest) : Handler SecurityEnforcementError SecurityAuditRequest :=
  record audit .admission .allow .explicitPolicyAllow

/-- `audit_runtime_success`. -/
def auditRuntimeSuccess (audit : SecurityAuditRequest) : Handler Status SecurityAuditRequest := do
  let time ← perform .now
  auditAppendPostEffect audit
    { auditEvent audit time .runtime .allow .runtimeSucceeded with runtimeOutcome := .succeeded }

/-- `audit_runtime_failure`. -/
def auditRuntimeFailure (audit : SecurityAuditRequest) (durability : SecurityAuditDurabilityOutcome) :
    Handler Status SecurityAuditRequest := do
  let time ← perform .now
  auditAppendPostEffect audit { auditEvent audit time .runtime .error .runtimeFailed with
    runtimeOutcome := .failed
    durabilityOutcome := durability }

/-- The reason of an outcome of durability. -/
def durabilityReason : SecurityAuditDurabilityOutcome → SecurityAuditReason
  | .notApplicable => .notApplicable
  | .committed => .committed
  | .notCommitted => .notCommitted
  | .unknown => .unknownDurability

/-- `audit_durability`. -/
def auditDurability (audit : SecurityAuditRequest) (durability : SecurityAuditDurabilityOutcome) :
    Handler Status SecurityAuditRequest := do
  let time ← perform .now
  auditAppendPostEffect audit
    { auditEvent audit time .durability .notApplicable (durabilityReason durability) with durabilityOutcome := durability }

/-- `audit_delivery_handoff`. -/
def auditDeliveryHandoff (audit : SecurityAuditRequest) : Handler Status SecurityAuditRequest := do
  let time ← perform .now
  auditAppendPostEffect audit
    { auditEvent audit time .delivery .notApplicable .responseHandedOff with deliveryOutcome := .handedOff }

/-! ## The parts of a handler -/

/-- A caller, as a handler knows it. -/
structure Caller where
  transportPeer : TransportPeer
  authenticatedPrincipal : Option Principal
  assertedActor : Option ActorAssertion

/-- What each handler begins with: the attempt and the authentication are on record. -/
def begin {Message : Type} (security : ServiceSecurityConfig) (request : GrpcRequest Message) :
    Handler Status (SecurityAuditRequest × Caller) := do
  let audit ← orStatus (startAuditRequest security)
  let audit := audit.forPeer (auditTransportPeer (transportPeerFromRequest request))
  orStatus (ensureMandatoryAuditAvailable security)
  let audit ← orStatus (record audit .attempt .notApplicable .requestReceived)
  let (transportPeer, authenticatedPrincipal, assertedActor) ←
    (requestSecurityInputs security request).mapErr (auditSecurityError audit .authentication)
  let audit := audit.forPeer (auditTransportPeer transportPeer)
  let audit ← (Proc.ofExcept (populateAuditIdentity audit authenticatedPrincipal assertedActor)).mapErr
    (auditSecurityError audit .authentication)
  let audit ← orStatus (record audit .authentication .allow .explicitPolicyAllow)
  return (audit, ⟨transportPeer, authenticatedPrincipal, assertedActor⟩)

/-- The request in the service's own types; one that is malformed is recorded as such. -/
def readRequest {α : Type} (audit : SecurityAuditRequest) (request : GrmResult α) : Handler Status α :=
  (Proc.ofExcept request).mapErr fun error =>
    auditStatusError audit .admission .error .malformedRequest (protoStatus error)

/-- The classified operations go into the audit, to the policy, and its decision on record. -/
def authorizeOperations (security : ServiceSecurityConfig) (audit : SecurityAuditRequest) (caller : Caller)
    (workspace : String) (operations : List SecurityOperation) : Handler Status SecurityAuditRequest := do
  let recorded ← (Proc.ofExcept (auditOperations operations)).mapErr (auditSecurityError audit .admission)
  let audit := audit.withOperations recorded
  let decision ← (authorize security caller.transportPeer caller.authenticatedPrincipal caller.assertedActor workspace
    operations).mapErr (auditSecurityError audit .authorization)
  orStatus (auditAuthorizationDecision audit decision)

/-- The operations are allowed, and the admission goes on record. -/
def admitOperations (security : ServiceSecurityConfig) (audit : SecurityAuditRequest) (caller : Caller) (workspace : String)
    (operations : List SecurityOperation) : Handler Status SecurityAuditRequest := do
  let audit ← authorizeOperations security audit caller workspace operations
  orStatus (auditAdmissionAllow audit)

/-- The name of the workspace goes into the audit. -/
def auditWorkspace (audit : SecurityAuditRequest) (workspace : String) : Handler Status SecurityAuditRequest := do
  let recorded ← (Proc.ofExcept (boundedAuditField workspace)).mapErr (auditSecurityError audit .admission)
  return audit.inWorkspace recorded

/-- What a handler ends with when its call failed. -/
def reportFailure {α : Type} (audit : SecurityAuditRequest) (error : WorkspaceServiceError) : Handler Status α := do
  let _ ← auditRuntimeFailure audit .notCommitted
  .fail (workspaceStatus error)

/-- What a handler ends with when its call was done: the success, its durability and the
handing over of the response. -/
def reportSuccess (audit : SecurityAuditRequest) (durability : SecurityAuditDurabilityOutcome) : Handler Status Unit := do
  let audit ← auditRuntimeSuccess audit
  let audit ← auditDurability audit durability
  let _ ← auditDeliveryHandoff audit

/-- What a handler does while it holds the workspaces. The guard is dropped at its end. -/
def withWorkspaces {α : Type} (body : InProcessWorkspaceService → Handler Status α) : Handler Status α := do
  let service ← perform .lock
  let result ← (body service).attempt
  perform .unlock
  Proc.ofExcept result

/-! ## The requests -/

/-- `proto::WorkspaceCreateRequest`. -/
structure CreateMessage where
  mode : Int
  workspace : Option WorkspaceRef
  format : Int

/-- `proto::WorkspaceOpenRequest`. -/
structure OpenMessage where
  snapshot : Option SnapshotHandle
  workspace : Option WorkspaceRef
  format : Int

/-- `proto::WorkspaceRuntimeRequest`, its request as its own conversion reads it. -/
structure ExecuteMessage where
  handle : Option WorkspaceHandle
  request : Option (GrmResult Request)

/-- `proto::WorkspaceCloseRequest`. -/
structure CloseMessage where
  handle : Option WorkspaceHandle

/-- `proto_workspace_create_mode`. -/
def protoWorkspaceCreateMode (value : Int) : GrmResult WorkspaceCreateMode :=
  if value = 0 then .ok .inMemory
  else if value = 1 then .ok .localAutocommit
  else .error (unknownProtoEnum "WorkspaceCreateMode" value)

/-- `proto_durability_format`. -/
def protoDurabilityFormat (value : Int) : GrmResult DurabilityFormat :=
  if value = 0 then .ok .json
  else if value = 1 then .ok .binary
  else .error (unknownProtoEnum "DurabilityFormat" value)

/-- `TryFrom<proto::WorkspaceCreateRequest>`. -/
def CreateMessage.toRequest (message : CreateMessage) : GrmResult WorkspaceCreateRequest := do
  let mode ← protoWorkspaceCreateMode message.mode
  return { mode, workspace := message.workspace, format := ← protoDurabilityFormat message.format }

/-- `TryFrom<proto::WorkspaceOpenRequest>`. -/
def OpenMessage.toRequest (message : OpenMessage) : GrmResult WorkspaceOpenRequest := do
  return { snapshot := message.snapshot, workspace := message.workspace, format := ← protoDurabilityFormat message.format }

/-- `TryFrom<proto::WorkspaceRuntimeRequest>`. -/
def ExecuteMessage.toRequest (message : ExecuteMessage) : GrmResult WorkspaceRuntimeRequest := do
  let handle ← Proto.required "WorkspaceRuntimeRequest.handle" message.handle
  let request ← Proto.required "WorkspaceRuntimeRequest.request" message.request
  return { handle, request := ← request }

/-- `TryFrom<proto::WorkspaceCloseRequest>`. -/
def CloseMessage.toRequest (message : CloseMessage) : GrmResult WorkspaceHandle :=
  Proto.required "WorkspaceCloseRequest.handle" message.handle

/-- `workspace_create_durability`. -/
def workspaceCreateDurability (request : WorkspaceCreateRequest) : SecurityAuditDurabilityOutcome :=
  match request.mode with
  | .inMemory => .notApplicable
  | .localAutocommit => .committed

end Handler

/-- `workspace_log_name`. -/
def InProcessWorkspaceService.workspaceLogName (s : InProcessWorkspaceService) (handle : WorkspaceHandle) : String :=
  match s.workspaceRefs[handle.id]? with
  | some (some workspace) => workspace.id
  | _ => handle.id

/-- `SecurityAuditStatusResponse`; its recent events are the events themselves. -/
structure SecurityAuditStatusResponse where
  securityProfile : ServiceSecurityProfile
  auditMode : SecurityAuditMode
  sinkHealth : SecurityAuditSinkHealth
  mandatoryAuditAvailable : Bool
  retainedEventCount : Nat
  recentEventCount : Nat
  retentionMaxEvents : Nat
  retentionMaxBytes : Nat
  retentionMaxAge : Duration
  futureDatedRecordCount : Nat
  lastRecoveryStatusCode : String
  recentEvents : List SecurityAuditEvent

/-- `SecurityStatusResponse`, with the profile and the principal its codes are made of. -/
structure SecurityStatusResponse where
  securityProfile : ServiceSecurityProfile
  principal : Option (String × String)
  authenticationMethod : String
  policyVersion : String

/-- The wire form of a runtime response, `TryFrom<WorkspaceRuntimeResponse>`; it may fail. -/
class ResponseWire where
  Wire : Type
  ofResponse : WorkspaceRuntimeResponse → GrmResult Wire

/-- What a handler returns. -/
inductive GrpcReply [ResponseWire] where
  | securityStatus (response : SecurityStatusResponse)
  | securityAuditStatus (response : SecurityAuditStatusResponse)
  | created (response : WorkspaceHandleResponse)
  | opened (response : WorkspaceHandleResponse)
  | executed (response : ResponseWire.Wire)
  | closed (handle : WorkspaceHandle)

/-- The replies on the status of the security. -/
def GrpcReply.ofStatus [ResponseWire] : GrpcReply → Bool
  | .securityStatus _ | .securityAuditStatus _ => true
  | _ => false

/-- A request to the service. -/
inductive GrpcCall where
  | securityStatus (request : GrpcRequest Unit)
  | securityAuditStatus (request : GrpcRequest Unit)
  | createWorkspace (request : GrpcRequest Handler.CreateMessage)
  | openWorkspace (request : GrpcRequest Handler.OpenMessage)
  | executeWorkspace (request : GrpcRequest Handler.ExecuteMessage)
  | closeWorkspace (request : GrpcRequest Handler.CloseMessage)

/-! ## The handlers -/

namespace Handler

/-- `bounded_security_status_field`. -/
def boundedSecurityStatusField (value : String) : String :=
  if value.utf8ByteSize ≤ 256 then value else "<redacted:too-long>"

/-- `security_status_response`. -/
def securityStatusResponse (security : ServiceSecurityConfig) (principal : Option Principal) : SecurityStatusResponse where
  securityProfile := security.profile
  principal := principal.map fun p => (boundedSecurityStatusField p.issuer, boundedSecurityStatusField p.subject)
  authenticationMethod := (principal.map fun p => boundedSecurityStatusField p.authenticationMethod).getD ""
  policyVersion := (security.policyVersion.map boundedSecurityStatusField).getD ""

/-- Whether a mandatory audit is available. -/
def mandatoryAuditAvailable (security : ServiceSecurityConfig) (sinkHealth : SecurityAuditSinkHealth) :
    Handler Status Bool := do
  if security.profile = .secured ∧ sinkHealth = .healthy then
    let degraded ← perform .auditDegraded
    return !degraded
  else return false

/-- `security_audit_status_response`. -/
def securityAuditStatusResponse (security : ServiceSecurityConfig) (includeRecentEvents : Bool) :
    Handler Status SecurityAuditStatusResponse := do
  let events ← perform .retainedEvents
  let recentEvents := if includeRecentEvents then (events.reverse.take 25).reverse else []
  let (retentionMaxEvents, retentionMaxBytes, retentionMaxAge) ← perform .retentionLimits
  let sinkHealth ← perform .sinkHealth
  let available ← mandatoryAuditAvailable security sinkHealth
  let futureDatedRecordCount ← perform .futureDatedRecords
  let degraded ← perform .auditDegraded
  return {
    securityProfile := security.profile
    auditMode := security.auditMode
    sinkHealth
    mandatoryAuditAvailable := available
    retainedEventCount := events.length
    recentEventCount := recentEvents.length
    retentionMaxEvents
    retentionMaxBytes
    retentionMaxAge
    futureDatedRecordCount
    lastRecoveryStatusCode := if degraded then "degraded" else "ok"
    recentEvents }

section Handlers
variable [ResponseWire]

/-- `security_status`. -/
def securityStatusRpc (security : ServiceSecurityConfig) (request : GrpcRequest Unit) : Handler Status GrpcReply := do
  orStatus (ensureMandatoryAuditAvailable security)
  let (_, authenticatedPrincipal, _) ← orStatus (requestSecurityInputs security request)
  return .securityStatus (securityStatusResponse security authenticatedPrincipal)

/-- `security_audit_status` while the audit is degraded and does not recover. -/
def degradedAuditStatus (security : ServiceSecurityConfig) (request : GrpcRequest Unit) : Handler Status GrpcReply := do
  let (transportPeer, authenticatedPrincipal, assertedActor) ← orStatus (requestSecurityInputs security request)
  let decision ← orStatus (authorize security transportPeer authenticatedPrincipal assertedActor "service"
    [serviceSecurityOperation .auditInspect])
  match decision with
  | .deny _ => .fail (securityStatus .denied)
  | .allow _ => return .securityAuditStatus (← securityAuditStatusResponse security false)

/-- `security_audit_status` with its own record. -/
def recordedAuditStatus (security : ServiceSecurityConfig) (request : GrpcRequest Unit) : Handler Status GrpcReply := do
  let (audit, caller) ← begin security request
  let audit := audit.inWorkspace "service"
  let audit ← admitOperations security audit caller "service" [serviceSecurityOperation .auditInspect]
  let response ← securityAuditStatusResponse security true
  let _ ← auditDeliveryHandoff audit
  return .securityAuditStatus response

/-- `security_audit_status`. -/
def securityAuditStatusRpc (security : ServiceSecurityConfig) (request : GrpcRequest Unit) : Handler Status GrpcReply := do
  if security.profile ≠ .secured then recordedAuditStatus security request
  else if ← perform .auditDegraded then
    match ← perform .tryRecover with
    | .ok .healthy => do
      perform (.setAuditDegraded false)
      recordedAuditStatus security request
    | _ => degradedAuditStatus security request
  else recordedAuditStatus security request

/-- `create_workspace` on the workspaces. -/
def createLocked (audit : SecurityAuditRequest) (request : WorkspaceCreateRequest) :
    Handler Status WorkspaceHandleResponse :=
  withWorkspaces fun _ => do
    match ← perform (.serve (.createWorkspace request)) with
    | .ok response => return response
    | .error error => reportFailure audit error

/-- `create_workspace`. -/
def createWorkspaceRpc (security : ServiceSecurityConfig) (request : GrpcRequest CreateMessage) :
    Handler Status GrpcReply := do
  let (audit, caller) ← begin security request
  let request ← readRequest audit request.message.toRequest
  let durability := workspaceCreateDurability request
  let audit := audit.inWorkspace "service"
  let audit ← admitOperations security audit caller "service" [serviceSecurityOperation .workspaceCreate]
  let response ← createLocked audit request
  reportSuccess audit durability
  return .created response

/-- The name `open_workspace` asks the policy about. -/
def openedName (request : WorkspaceOpenRequest) : String :=
  ((request.workspace.map (·.id)).orElse fun _ => request.snapshot.map (·.id)).getD "unknown-workspace"

/-- `open_workspace` on the workspaces. -/
def openLocked (audit : SecurityAuditRequest) (request : WorkspaceOpenRequest) : Handler Status WorkspaceHandleResponse :=
  withWorkspaces fun _ => do
    match ← perform (.serve (.openWorkspace request)) with
    | .ok response => return response
    | .error error => reportFailure audit error

/-- `open_workspace`. -/
def openWorkspaceRpc (security : ServiceSecurityConfig) (request : GrpcRequest OpenMessage) :
    Handler Status GrpcReply := do
  let (audit, caller) ← begin security request
  let request ← readRequest audit request.message.toRequest
  let workspace := openedName request
  let audit ← auditWorkspace audit workspace
  let audit ← admitOperations security audit caller workspace [workspaceSecurityOperation .workspaceOpen workspace]
  let response ← openLocked audit request
  reportSuccess audit .notApplicable
  return .opened response

/-- The scope of a secured request; each traversal has to name its edge model. -/
def checkScope (security : ServiceSecurityConfig) (audit : SecurityAuditRequest) (request : Request) :
    Handler Status Unit := do
  if security.profile = .secured ∧ validateSecuredOperationScope request = false then
    let status ← auditStatusError audit .admission .deny .scopeRejected
      ⟨.invalidArgument, "secured traversal requires edge_model"⟩
    .fail status

/-- The limit on the operations of a batch. -/
def checkLimits (security : ServiceSecurityConfig) (audit : SecurityAuditRequest) (request : Request) :
    Handler Status Unit := do
  if enforceSecurityLimits request security.maxBatchOperations = false then
    let status ← auditStatusError audit .admission .deny .limitExceeded
      ⟨.resourceExhausted, "batch operation limit exceeded"⟩
    .fail status

/-- `execute_workspace` up to the admission, with the workspaces in hand. -/
def admitExecution (security : ServiceSecurityConfig) (audit : SecurityAuditRequest) (caller : Caller)
    (service : InProcessWorkspaceService) (request : WorkspaceRuntimeRequest) : Handler Status SecurityAuditRequest := do
  let workspace := service.workspaceLogName request.handle
  checkScope security audit request.request
  let audit ← auditWorkspace audit workspace
  let audit ← authorizeOperations security audit caller workspace (securityOperations request.request workspace)
  let _ ← Proc.ofExcept ((service.workspaceOf request.handle).mapError workspaceStatus)
  checkLimits security audit request.request
  orStatus (auditAdmissionAllow audit)

/-- `execute_workspace` on the workspaces. -/
def executeLocked (security : ServiceSecurityConfig) (audit : SecurityAuditRequest) (caller : Caller)
    (request : WorkspaceRuntimeRequest) : Handler Status (WorkspaceRuntimeResponse × SecurityAuditRequest) :=
  withWorkspaces fun service => do
    let audit ← admitExecution security audit caller service request
    match ← perform (.serve (.executeRuntime request)) with
    | .ok response => return (response, audit)
    | .error error => reportFailure audit error

/-- `execute_workspace`. -/
def executeWorkspaceRpc (security : ServiceSecurityConfig) (request : GrpcRequest ExecuteMessage) :
    Handler Status GrpcReply := do
  let (audit, caller) ← begin security request
  let request ← readRequest audit request.message.toRequest
  let (response, audit) ← executeLocked security audit caller request
  let durability := if response.durableOperations.isEmpty then .notApplicable else .committed
  let response ← Proc.ofExcept ((ResponseWire.ofResponse response).mapError protoStatus)
  reportSuccess audit durability
  return .executed response

/-- `close_workspace` up to the admission, with the workspaces in hand. -/
def admitClose (security : ServiceSecurityConfig) (audit : SecurityAuditRequest) (caller : Caller)
    (service : InProcessWorkspaceService) (handle : WorkspaceHandle) : Handler Status SecurityAuditRequest := do
  let workspace := service.workspaceLogName handle
  let audit ← auditWorkspace audit workspace
  let audit ← authorizeOperations security audit caller workspace [workspaceSecurityOperation .workspaceClose workspace]
  let _ ← Proc.ofExcept ((service.workspaceOf handle).mapError workspaceStatus)
  orStatus (auditAdmissionAllow audit)

/-- `close_workspace` on the workspaces. -/
def closeLocked (security : ServiceSecurityConfig) (audit : SecurityAuditRequest) (caller : Caller)
    (handle : WorkspaceHandle) : Handler Status (WorkspaceHandle × SecurityAuditRequest) :=
  withWorkspaces fun service => do
    let audit ← admitClose security audit caller service handle
    match ← perform (.serve (.closeWorkspace handle)) with
    | .ok closed => return (closed, audit)
    | .error error => reportFailure audit error

/-- `close_workspace`. -/
def closeWorkspaceRpc (security : ServiceSecurityConfig) (request : GrpcRequest CloseMessage) :
    Handler Status GrpcReply := do
  let (audit, caller) ← begin security request
  let handle ← readRequest audit request.message.toRequest
  let (closed, audit) ← closeLocked security audit caller handle
  reportSuccess audit .notApplicable
  return .closed closed

/-- The handler of a request. -/
def handle (security : ServiceSecurityConfig) : GrpcCall → Handler Status GrpcReply
  | .securityStatus request => securityStatusRpc security request
  | .securityAuditStatus request => securityAuditStatusRpc security request
  | .createWorkspace request => createWorkspaceRpc security request
  | .openWorkspace request => openWorkspaceRpc security request
  | .executeWorkspace request => executeWorkspaceRpc security request
  | .closeWorkspace request => closeWorkspaceRpc security request

end Handlers

end Handler
