import Grm.Runtime.Codecs

/-!
# Security audit events

The event of the service's security audit, its size bounds, and the checks that an event
passes before it is appended and when it is read back.
-/

set_option autoImplicit false

/-- `u64::checked_add`. -/
def checkedAdd (a b : Nat) : Option Nat := if a + b ≤ u64Max then some (a + b) else none

theorem checkedAdd_eq_some {a b c : Nat} : checkedAdd a b = some c ↔ a + b ≤ u64Max ∧ c = a + b := by
  unfold checkedAdd
  split
  case isTrue fits => simp [fits, eq_comm]
  case isFalse exceeded => simp [exceeded]

inductive SecurityAction where
  | workspaceCreate | workspaceOpen | workspaceClose | workspaceInspect | workspaceSave | workspaceLoad
  | workspaceExport | workspaceImport | schemaDefine | schemaInspect | nodeCreate | nodeRead | nodeUpdate
  | nodeDelete | edgeCreate | edgeRead | edgeUpdate | edgeDelete | query | traverse | explain | profile
  | batchApply | indexInspect | auditInspect
  deriving DecidableEq, Repr

inductive SecurityResourceKind where
  | service | workspace | nodeModel | edgeModel | operationFamily | indexCatalog | workspaceArtifact | reservedAdmin
  deriving DecidableEq, Repr

inductive SecurityAuditMode where
  | bestEffort | mandatory
  deriving DecidableEq, Repr

inductive SecurityAuditStage where
  | attempt | authentication | authorization | admission | runtime | durability | delivery
  deriving DecidableEq, Repr

inductive SecurityAuditDecision where
  | notApplicable | allow | deny | error
  deriving DecidableEq, Repr

inductive SecurityAuditReason where
  | requestReceived | anonymousLocalProfile | explicitPolicyAllow | noMatchingPermission | invalidActorAssertion
  | authenticationFailed | missingPrincipal | policyEvaluationFailed | malformedRequest | scopeRejected
  | limitExceeded | classificationOverflow | runtimeSucceeded | runtimeFailed | committed | notCommitted
  | unknownDurability | notApplicable | responseHandedOff | unknownDelivery | sinkUnavailable
  deriving DecidableEq, Repr

inductive SecurityAuditRuntimeOutcome where
  | notReached | succeeded | failed
  deriving DecidableEq, Repr

inductive SecurityAuditDurabilityOutcome where
  | notApplicable | committed | notCommitted | unknown
  deriving DecidableEq, Repr

inductive SecurityAuditDeliveryOutcome where
  | notReached | handedOff | unknown
  deriving DecidableEq, Repr

structure SecurityAuditPrincipal where
  issuer : String
  subject : String
  authenticationProvider : String
  authenticationMethod : String
  deriving DecidableEq, Repr

structure SecurityAuditActorAssertion where
  actorId : String
  authenticated : Bool
  deriving DecidableEq, Repr

structure SecurityAuditTransportPeer where
  remoteAddressPresent : Bool
  clientCertificatePresent : Bool
  deriving DecidableEq, Repr

structure SecurityAuditOperation where
  action : SecurityAction
  resourceKind : SecurityResourceKind
  workspace : String
  model : Option String
  deriving DecidableEq, Repr

/-- Nanoseconds since the epoch, negative before it. -/
abbrev SystemTime := Int

/-- Nanoseconds. -/
abbrev Duration := Nat

structure SecurityAuditEvent where
  schemaVersion : Nat
  eventId : Nat
  requestId : Nat
  serviceSequence : Nat
  timestamp : SystemTime
  serviceIdentity : String
  mode : SecurityAuditMode
  stage : SecurityAuditStage
  transportPeer : SecurityAuditTransportPeer
  authenticatedPrincipal : Option SecurityAuditPrincipal
  assertedActor : Option SecurityAuditActorAssertion
  workspace : Option String
  operations : List SecurityAuditOperation
  policyVersion : Option String
  decision : SecurityAuditDecision
  reason : SecurityAuditReason
  runtimeOutcome : SecurityAuditRuntimeOutcome
  durabilityOutcome : SecurityAuditDurabilityOutcome
  deliveryOutcome : SecurityAuditDeliveryOutcome
  deriving DecidableEq, Repr

/-- `SECURITY_AUDIT_SCHEMA_VERSION`. -/
def securityAuditSchemaVersion : Nat := 1

/-- `SECURITY_AUDIT_MAX_FIELD_BYTES`. -/
def securityAuditMaxFieldBytes : Nat := 128

/-- `SECURITY_AUDIT_MAX_OPERATIONS`. -/
def securityAuditMaxOperations : Nat := 64

/-- `SECURITY_AUDIT_MAX_EVENT_BYTES`. -/
def securityAuditMaxEventBytes : Nat := 4096

/-- The seconds of a `SystemTime` are an `i64`. -/
def systemTimeLimit : Int := 2 ^ 63 * 1000000000

/-- `SystemTime::checked_sub`. -/
def SystemTime.checkedSub (time : SystemTime) (duration : Duration) : Option SystemTime :=
  if -systemTimeLimit ≤ time - duration then some (time - duration) else none

/-- `SystemTime::checked_add`. -/
def SystemTime.checkedAdd (time : SystemTime) (duration : Duration) : Option SystemTime :=
  if time + duration < systemTimeLimit then some (time + duration) else none

/-- Five minutes, the skew of a newly authored timestamp. -/
def maxFutureSkew : Duration := 300 * 1000000000

namespace SecurityAuditEvent

/-- `security_audit_event_size`, over the size of the event's own struct. -/
def size (structSize : Nat) (event : SecurityAuditEvent) : Nat :=
  structSize + event.serviceIdentity.utf8ByteSize +
    (event.authenticatedPrincipal.elim 0 fun principal =>
      principal.issuer.utf8ByteSize + principal.subject.utf8ByteSize + principal.authenticationProvider.utf8ByteSize +
        principal.authenticationMethod.utf8ByteSize) +
    (event.assertedActor.elim 0 fun actor => actor.actorId.utf8ByteSize) +
    (event.workspace.elim 0 String.utf8ByteSize) +
    (event.policyVersion.elim 0 String.utf8ByteSize) +
    (event.operations.map fun operation =>
      operation.workspace.utf8ByteSize + operation.model.elim 0 String.utf8ByteSize).sum

/-- `bounded`, of `validate_event_common`. -/
def bounded (value : String) : Bool := value.utf8ByteSize ≤ securityAuditMaxFieldBytes

/-- `validate_event_common`. -/
def validateCommon (structSize : Nat) (event : SecurityAuditEvent) : Bool :=
  !(event.schemaVersion != securityAuditSchemaVersion
    || decide (securityAuditMaxOperations < event.operations.length)
    || !bounded event.serviceIdentity
    || decide (event.timestamp < 0)
    || decide (securityAuditMaxEventBytes < event.size structSize)
    || event.workspace.any (fun value => !bounded value)
    || event.policyVersion.any (fun value => !bounded value)
    || event.assertedActor.any (fun actor => !bounded actor.actorId)
    || event.authenticatedPrincipal.any (fun principal =>
        !bounded principal.issuer || !bounded principal.subject || !bounded principal.authenticationProvider
          || !bounded principal.authenticationMethod)
    || event.operations.any (fun operation =>
        !bounded operation.workspace || operation.model.any fun value => !bounded value))

/-- `validate_event_for_append`, at a clock reading. -/
def validateForAppend (structSize : Nat) (event : SecurityAuditEvent) (now : SystemTime) : Bool :=
  event.validateCommon structSize &&
    match SystemTime.checkedAdd now maxFutureSkew with
    | none => false
    | some latestTimestamp => !decide (latestTimestamp < event.timestamp)

theorem validateForAppend_common {structSize : Nat} {event : SecurityAuditEvent} {now : SystemTime}
    (valid : event.validateForAppend structSize now = true) : event.validateCommon structSize = true :=
  (Bool.and_eq_true_iff.1 valid).1

end SecurityAuditEvent
