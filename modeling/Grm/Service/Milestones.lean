import Grm.Service.Grpc

/-!
# What a call has on record

The milestones of a call of the gRPC service: what it asked and was granted, and what it
put on record. Here each part of a handler is followed through, in a service that
is secured: which milestones it adds, and that it touches no workspace.
-/

set_option autoImplicit false

open Service

inductive Milestone where
  | available
  | recorded (event : SecurityAuditEvent)
  | authenticated (principal : Principal)
  | allowed (context : GrpcSecurityContext) (reason : AuthorizationReason)
  | served (call : WorkspaceCall) (reply : call.Reply)
  | degraded

/-- The milestones of a call, and the workspaces as it found them when it took the lock. -/
structure Seen where
  milestones : List Milestone
  held : Option InProcessWorkspaceService

namespace Seen

def new : Seen := ⟨[], none⟩

def notes (g : Seen) (later : List Milestone) : Seen := { g with milestones := g.milestones ++ later }

@[simp] theorem notes_nil (g : Seen) : g.notes [] = g := by simp [notes]

@[simp] theorem notes_notes (g : Seen) (later later' : List Milestone) :
    (g.notes later).notes later' = g.notes (later ++ later') := by simp [notes]

@[simp] theorem notes_held (g : Seen) (later : List Milestone) : (g.notes later).held = g.held := rfl

@[simp] theorem notes_milestones (g : Seen) (later : List Milestone) :
    (g.notes later).milestones = g.milestones ++ later := rfl

/-- What is seen after one more action. The audit is available when its flag is down or the
sink has recovered. -/
def add (g : Seen) : Performed GrpcAction.Answer → Seen
  | ⟨.auditDegraded, false⟩ => g.notes [.available]
  | ⟨.tryRecover, .ok .healthy⟩ => g.notes [.available]
  | ⟨.append event, .ok ()⟩ => g.notes [.recorded event]
  | ⟨.authenticate _ _, some (some principal)⟩ => g.notes [.authenticated principal]
  | ⟨.evaluate context, some (.allow reason)⟩ => g.notes [.allowed context reason]
  | ⟨.setAuditDegraded true, ()⟩ => g.notes [.degraded]
  | ⟨.lock, service⟩ => { g with held := some service }
  | ⟨.unlock, ()⟩ => { g with held := none }
  | ⟨.serve call, reply⟩ => { g.notes [.served call reply] with held := none }
  | _ => g

/-- Only the actions of the lock change what is held, and those on the workspaces. -/
theorem add_held (g : Seen) (e : Performed GrpcAction.Answer) (unlocked : e.action ≠ .lock ∧ e.action ≠ .unlock)
    (untouched : ∀ call, e.action ≠ .serve call) : (g.add e).held = g.held := by
  unfold add
  split
  case h_7 => exact absurd rfl unlocked.1
  case h_8 => exact absurd rfl unlocked.2
  case h_9 call reply => exact absurd rfl (untouched call)
  all_goals rfl

/-- The call has touched no workspace. -/
def Unserved (g : Seen) : Prop := ∀ call reply, Milestone.served call reply ∉ g.milestones

theorem unserved_new : new.Unserved := fun _ _ => List.not_mem_nil

theorem Unserved.notes {g : Seen} (h : g.Unserved) {later : List Milestone}
    (unserved : ∀ call reply, Milestone.served call reply ∉ later) : (g.notes later).Unserved := by
  intro call reply member
  rcases List.mem_append.1 member with before | after
  · exact h call reply before
  · exact unserved call reply after

end Seen

/-- An event as it was made, under the ids it was given. -/
def SameRecord (made recorded : SecurityAuditEvent) : Prop :=
  ∃ eventId serviceSequence, recorded = { made with eventId, serviceSequence }

namespace SameRecord
variable {made recorded : SecurityAuditEvent} (same : SameRecord made recorded)
include same

theorem stage : recorded.stage = made.stage := by
  obtain ⟨_, _, rfl⟩ := same
  rfl

theorem reason : recorded.reason = made.reason := by
  obtain ⟨_, _, rfl⟩ := same
  rfl

end SameRecord

/-- What comes of an event after an effect: it is on record, or the service is degraded, with
or without an emergency record. -/
inductive Reports (event : SecurityAuditEvent) : List Milestone → Prop where
  | onRecord (recorded : SecurityAuditEvent) (same : SameRecord event recorded) : Reports event [.recorded recorded]
  | degraded : Reports event [.degraded]
  | emergency (recorded : SecurityAuditEvent) (delivery : recorded.stage = .delivery)
    (reason : recorded.reason = .sinkUnavailable) : Reports event [.degraded, .recorded recorded]

theorem Reports.unserved {event : SecurityAuditEvent} {later : List Milestone} (h : Reports event later)
    (call : WorkspaceCall) (reply : call.Reply) : Milestone.served call reply ∉ later := by
  cases h <;> simp

/-- The audit of a call of a secured service. -/
structure SecurityAuditRequest.Mandatory (audit : SecurityAuditRequest) (requestId : Nat) : Prop where
  mode : audit.mode = .mandatory
  authoritative : audit.authoritativePersistence = true
  id : audit.requestId = requestId

namespace SecurityAuditRequest.Mandatory
variable {audit : SecurityAuditRequest} {requestId : Nat} (h : audit.Mandatory requestId)
include h

theorem forPeer (peer : SecurityAuditTransportPeer) : (audit.forPeer peer).Mandatory requestId :=
  ⟨h.mode, h.authoritative, h.id⟩

theorem inWorkspace (workspace : String) : (audit.inWorkspace workspace).Mandatory requestId :=
  ⟨h.mode, h.authoritative, h.id⟩

theorem withOperations (operations : List SecurityAuditOperation) : (audit.withOperations operations).Mandatory requestId :=
  ⟨h.mode, h.authoritative, h.id⟩

end SecurityAuditRequest.Mandatory

/-- The caller goes into the audit. -/
theorem populateAuditIdentity_ok {audit named : SecurityAuditRequest} {principal : Option Principal}
    {actor : Option ActorAssertion} (populated : populateAuditIdentity audit principal actor = .ok named) :
    auditPrincipal principal = .ok named.authenticatedPrincipal ∧
      ∀ requestId, audit.Mandatory requestId → named.Mandatory requestId := by
  unfold populateAuditIdentity at populated
  cases who : auditPrincipal principal with
  | error e =>
    rw [who] at populated
    cases populated
  | ok recorded =>
    cases asserted : auditActor actor with
    | error e =>
      rw [who, asserted] at populated
      cases populated
    | ok recorded' =>
      rw [who, asserted] at populated
      cases populated
      exact ⟨rfl, fun _ mandatory => ⟨mandatory.mode, mandatory.authoritative, mandatory.id⟩⟩

/-! ## What comes before a workspace is touched -/

/-- An event of a request in a mandatory audit. -/
structure Marks (requestId : Nat) (stage : SecurityAuditStage) (decision : SecurityAuditDecision)
    (event : SecurityAuditEvent) : Prop where
  id : event.requestId = requestId
  mode : event.mode = .mandatory
  stage : event.stage = stage
  decision : event.decision = decision

theorem SameRecord.marks {audit : SecurityAuditRequest} {requestId : Nat} {time : SystemTime} {stage : SecurityAuditStage}
    {decision : SecurityAuditDecision} {reason : SecurityAuditReason} {recorded : SecurityAuditEvent}
    (same : SameRecord (auditEvent audit time stage decision reason) recorded) (mandatory : audit.Mandatory requestId) :
    Marks requestId stage decision recorded := by
  obtain ⟨_, _, rfl⟩ := same
  exact ⟨mandatory.id, mandatory.mode, rfl, rfl⟩

/-- A caller whose attempt and authentication are on record. -/
structure Identified where
  requestId : Nat
  principal : Principal
  attempt : SecurityAuditEvent
  authentication : SecurityAuditEvent
  attempted : Marks requestId .attempt .notApplicable attempt
  authenticated : Marks requestId .authentication .allow authentication
  named : auditPrincipal (some principal) = .ok authentication.authenticatedPrincipal

def Identified.milestones (known : Identified) : List Milestone :=
  [.available, .recorded known.attempt, .authenticated known.principal, .recorded known.authentication]

/-- What the policy allowed the caller, with the decision on record. -/
structure Granted (known : Identified) (operations : List SecurityOperation) (workspace : String) where
  context : GrpcSecurityContext
  reason : AuthorizationReason
  authorization : SecurityAuditEvent
  asker : context.authenticatedPrincipal = some known.principal
  asked : context.operations = operations ∧ context.workspace = workspace
  authorized : Marks known.requestId .authorization .allow authorization
  attributed : authorization.authenticatedPrincipal = known.authentication.authenticatedPrincipal
  classified : auditOperations operations = .ok authorization.operations

def Granted.milestones {known : Identified} {operations : List SecurityOperation} {workspace : String}
    (granted : Granted known operations workspace) : List Milestone :=
  [.allowed granted.context granted.reason, .recorded granted.authorization]

/-- A caller whom the policy allows the operations in the workspace, with the decision and
the admission on record. -/
structure Clearance (operations : List SecurityOperation) (workspace : String) where
  known : Identified
  granted : Granted known operations workspace
  admission : SecurityAuditEvent
  admitted : Marks known.requestId .admission .allow admission
  agrees : admission.operations = granted.authorization.operations ∧
    admission.authenticatedPrincipal = granted.authorization.authenticatedPrincipal

def Clearance.milestones {operations : List SecurityOperation} {workspace : String}
    (cleared : Clearance operations workspace) : List Milestone :=
  cleared.known.milestones ++ cleared.granted.milestones ++ [.recorded cleared.admission]

/-- The audit of an identified caller. -/
structure SecurityAuditRequest.Carries (audit : SecurityAuditRequest) (known : Identified) : Prop where
  mandatory : audit.Mandatory known.requestId
  named : audit.authenticatedPrincipal = known.authentication.authenticatedPrincipal

theorem SecurityAuditRequest.Carries.inWorkspace {audit : SecurityAuditRequest} {known : Identified}
    (h : audit.Carries known) (workspace : String) : (audit.inWorkspace workspace).Carries known :=
  ⟨h.mandatory.inWorkspace workspace, h.named⟩

/-- Nothing of a workspace is touched before the clearance. -/
theorem Identified.unserved (known : Identified) (held : Option InProcessWorkspaceService) :
    Seen.Unserved ⟨known.milestones, held⟩ := by
  intro call reply member
  simp [Identified.milestones] at member

namespace Handler
variable {allowed : Seen → GrpcAction → Prop} {g : Seen}

/-- Every action that touches no workspace is allowed. -/
def Free (allowed : Seen → GrpcAction → Prop) : Prop := ∀ g action, (∀ call, action ≠ .serve call) → allowed g action

variable (free : Free allowed) {audit : SecurityAuditRequest} {requestId : Nat}
include free

theorem eventIdOrFallback_meets (eventId : Nat) :
    (eventIdOrFallback eventId).Meets Seen.add allowed (fun g' _ => g' = g) (fun g' _ => g' = g) g := by
  unfold eventIdOrFallback
  split
  · exact Proc.Meets.perform (free _ _ (by simp)) fun _ => rfl
  · exact Proc.Meets.pure rfl

theorem sequenceOrFallback_meets (sequence : Nat) :
    (sequenceOrFallback sequence).Meets Seen.add allowed (fun g' _ => g' = g) (fun g' _ => g' = g) g := by
  unfold sequenceOrFallback
  split
  · exact Proc.Meets.perform (free _ _ (by simp)) fun _ => rfl
  · exact Proc.Meets.pure rfl

omit free in
theorem sinkFailed_meets {ret : Seen → SecurityAuditRequest → Prop} (mandatory : audit.Mandatory requestId)
    (error : SecurityEnforcementError) :
    (sinkFailed audit error).Meets Seen.add allowed ret (fun g' _ => g' = g) g := by
  unfold sinkFailed
  rw [if_neg (by simp [mandatory.mode])]
  exact Proc.Meets.failed rfl

/-- An appended event is on record, or nothing is. -/
theorem auditAppend_meets (mandatory : audit.Mandatory requestId) (event : SecurityAuditEvent) :
    (auditAppend audit event).Meets Seen.add allowed
      (fun g' audit' => audit' = audit ∧ ∃ recorded, SameRecord event recorded ∧ g' = g.notes [.recorded recorded])
      (fun g' _ => g' = g) g := by
  unfold auditAppend
  rw [if_neg (by simp [mandatory.authoritative])]
  refine Proc.Meets.act (free _ _ (by simp)) fun identity => ?_
  rcases identity with _ | ⟨eventId, sequence⟩
  · exact sinkFailed_meets mandatory _
  · refine (eventIdOrFallback_meets free eventId).bind ?_
    rintro _ eventId rfl
    refine (sequenceOrFallback_meets free sequence).bind ?_
    rintro _ serviceSequence rfl
    refine Proc.Meets.act (free _ _ (by simp)) fun appended => ?_
    rcases appended with error | ⟨⟩
    · exact sinkFailed_meets mandatory _
    · exact Proc.Meets.pure ⟨rfl, _, ⟨eventId, serviceSequence, rfl⟩, rfl⟩

/-- An event made and appended is on record, or nothing is. -/
theorem record_meets (mandatory : audit.Mandatory requestId) (stage : SecurityAuditStage)
    (decision : SecurityAuditDecision) (reason : SecurityAuditReason) :
    (record audit stage decision reason).Meets Seen.add allowed
      (fun g' audit' => audit' = audit ∧ ∃ time recorded,
        SameRecord (auditEvent audit time stage decision reason) recorded ∧ g' = g.notes [.recorded recorded])
      (fun g' _ => g' = g) g := by
  unfold record
  refine Proc.Meets.act (free _ _ (by simp)) fun time => ?_
  refine (auditAppend_meets free mandatory _).mono (fun _ _ may => may) ?_ fun _ _ same => same
  rintro _ _ ⟨rfl, recorded, same, rfl⟩
  exact ⟨rfl, time, recorded, same, rfl⟩

/-- After an effect, the event is on record or the service is degraded. -/
theorem auditAppendPostEffect_meets {fails : Seen → Status → Prop} (mandatory : audit.Mandatory requestId)
    (event : SecurityAuditEvent) :
    (auditAppendPostEffect audit event).Meets Seen.add allowed
      (fun g' audit' => audit' = audit ∧ ∃ later, Reports event later ∧ g' = g.notes later) fails g := by
  unfold auditAppendPostEffect
  refine (auditAppend_meets free mandatory event).attempt ?_ ?_
  · rintro _ _ ⟨rfl, recorded, same, rfl⟩
    exact Proc.Meets.pure ⟨rfl, _, .onRecord recorded same, rfl⟩
  · rintro _ _ rfl
    dsimp only
    rw [if_pos mandatory.mode]
    refine Proc.Meets.act (free _ _ (by simp)) fun _ => ?_
    refine (record_meets free mandatory _ _ _).attempt ?_ ?_
    · rintro _ _ ⟨-, time, recorded, same, rfl⟩
      exact Proc.Meets.pure ⟨rfl, _, .emergency recorded same.stage same.reason, by simp [Seen.add]⟩
    · rintro _ _ rfl
      exact Proc.Meets.pure ⟨rfl, _, .degraded, rfl⟩

theorem auditStatusError_meets (unserved : g.Unserved) (mandatory : audit.Mandatory requestId)
    (stage : SecurityAuditStage) (decision : SecurityAuditDecision) (reason : SecurityAuditReason) (status : Status) :
    (auditStatusError audit stage decision reason status).Meets Seen.add allowed (fun g' _ => g'.Unserved)
      (fun g' _ => g'.Unserved) g := by
  unfold auditStatusError
  refine Proc.Meets.bind (Proc.Meets.mapErr (record_meets free mandatory _ _ _) ?_) ?_
  · rintro _ error rfl
    exact Proc.Meets.pure unserved
  · rintro _ _ ⟨-, time, recorded, -, rfl⟩
    exact Proc.Meets.pure (unserved.notes (by simp))

omit free in
/-- A failure without a record of its own. -/
theorem orStatus_meets {α : Type} {handler : Handler SecurityEnforcementError α} {ret : Seen → α → Prop}
    (h : handler.Meets Seen.add allowed ret (fun g' _ => g'.Unserved) g) :
    (orStatus handler).Meets Seen.add allowed ret (fun g' _ => g'.Unserved) g :=
  Proc.Meets.mapErr h fun _ _ unserved => Proc.Meets.pure unserved

theorem record_orStatus_meets (unserved : g.Unserved) (mandatory : audit.Mandatory requestId)
    (stage : SecurityAuditStage) (decision : SecurityAuditDecision) (reason : SecurityAuditReason) :
    (orStatus (record audit stage decision reason)).Meets Seen.add allowed
      (fun g' audit' => audit' = audit ∧ ∃ time recorded,
        SameRecord (auditEvent audit time stage decision reason) recorded ∧ g' = g.notes [.recorded recorded])
      (fun g' _ => g'.Unserved) g :=
  orStatus_meets ((record_meets free mandatory stage decision reason).mono (fun _ _ may => may) (fun _ _ h => h)
    fun _ _ same => same ▸ unserved)

/-! ## The beginning of a handler -/

section Secured
variable {security : ServiceSecurityConfig} (secured : security.profile = .secured)
include secured

theorem startAuditRequest_meets :
    (startAuditRequest security).Meets Seen.add allowed
      (fun g' audit => g' = g ∧ audit.Mandatory audit.requestId) (fun g' _ => g' = g) g := by
  have mode : security.auditMode = .mandatory := by simp [ServiceSecurityConfig.auditMode, secured]
  unfold startAuditRequest
  refine Proc.Meets.act (free _ _ (by simp)) fun allocated => ?_
  rcases allocated with error | _ | id
  · dsimp only
    rw [if_neg (by simp [mode])]
    exact Proc.Meets.failed rfl
  · exact Proc.Meets.act (free _ _ (by simp)) fun _ => Proc.Meets.pure ⟨rfl, mode, rfl, rfl⟩
  · exact Proc.Meets.pure ⟨rfl, mode, rfl, rfl⟩

/-- A call goes on when the audit is not degraded, or its sink has recovered. -/
theorem ensureMandatoryAuditAvailable_meets :
    (ensureMandatoryAuditAvailable security).Meets Seen.add allowed (fun g' _ => g' = g.notes [.available])
      (fun g' _ => g' = g) g := by
  unfold ensureMandatoryAuditAvailable
  rw [if_neg (by simp [secured])]
  refine Proc.Meets.act (free _ _ (by simp)) fun degraded => ?_
  cases degraded with
  | false => exact Proc.Meets.pure rfl
  | true =>
    refine Proc.Meets.act (free _ _ (by simp)) fun recovered => ?_
    rcases recovered with _ | _ | _
    · exact Proc.Meets.failed rfl
    · exact Proc.Meets.perform (free _ _ (by simp)) fun _ => rfl
    · exact Proc.Meets.failed rfl

/-- A caller that is let on is an authenticated principal. -/
theorem requestSecurityInputs_meets {Message : Type} (request : GrpcRequest Message) :
    (requestSecurityInputs security request).Meets Seen.add allowed
      (fun g' inputs => ∃ principal, inputs.2.1 = some principal ∧ g' = g.notes [.authenticated principal])
      (fun g' _ => g' = g) g := by
  unfold requestSecurityInputs
  rw [if_neg (by simp [ServiceSecurityConfig.allowsTransportPeer, secured])]
  split
  · exact Proc.Meets.failed rfl
  · refine Proc.Meets.act (free _ _ (by simp)) fun authenticated => ?_
    rcases authenticated with _ | _ | principal
    · exact Proc.Meets.failed rfl
    · dsimp only
      rw [if_pos ⟨secured, rfl⟩]
      exact Proc.Meets.failed rfl
    · dsimp only
      rw [if_neg (by simp)]
      exact Proc.Meets.pure ⟨principal, rfl, rfl⟩

/-- A handler that goes on from its beginning has an authenticated caller, with the attempt
and the authentication on record. -/
theorem begin_meets {Message : Type} (unserved : g.Unserved) (request : GrpcRequest Message) :
    (begin security request).Meets Seen.add allowed
      (fun g' result => ∃ known : Identified, g' = g.notes known.milestones ∧ result.1.Carries known ∧
        result.2.authenticatedPrincipal = some known.principal)
      (fun g' _ => g'.Unserved) g := by
  unfold begin
  refine (orStatus_meets ((startAuditRequest_meets free secured).mono (fun _ _ may => may) (fun _ _ h => h)
    fun _ _ same => same ▸ unserved)).bind ?_
  rintro g audit ⟨rfl, mandatory⟩
  refine (orStatus_meets ((ensureMandatoryAuditAvailable_meets free secured).mono (fun _ _ may => may)
    (fun _ _ h => h) fun _ _ same => same ▸ unserved)).bind ?_
  rintro _ _ rfl
  refine (record_orStatus_meets free (unserved.notes (by simp)) (mandatory.forPeer _) _ _ _).bind ?_
  rintro _ _ ⟨rfl, time, attempt, attempted, rfl⟩
  replace unserved : Seen.Unserved ((g.notes [.available]).notes [.recorded attempt]) :=
    (unserved.notes (by simp)).notes (by simp)
  refine (Proc.Meets.mapErr (requestSecurityInputs_meets free secured request) ?_).bind ?_
  · rintro _ error rfl
    exact auditStatusError_meets free unserved (mandatory.forPeer _) _ _ _ _
  rintro _ ⟨peer, _, actor⟩ ⟨principal, rfl, rfl⟩
  have unserved' : Seen.Unserved (((g.notes [.available]).notes [.recorded attempt]).notes [.authenticated principal]) :=
    unserved.notes (by simp)
  refine Proc.Meets.ofExcept_mapErr ?_ fun error _ => auditStatusError_meets free unserved' ((mandatory.forPeer _).forPeer _) _ _ _ _
  intro named populated
  obtain ⟨who, keeps⟩ := populateAuditIdentity_ok populated
  have mandatory' := keeps _ ((mandatory.forPeer _).forPeer _)
  refine (record_orStatus_meets free unserved' mandatory' _ _ _).bind ?_
  rintro _ named ⟨rfl, time', authentication, authenticated, rfl⟩
  have written : authentication.authenticatedPrincipal = named.authenticatedPrincipal := by
    obtain ⟨_, _, rfl⟩ := authenticated
    rfl
  exact Proc.Meets.pure ⟨⟨audit.requestId, principal, attempt, authentication, attempted.marks (mandatory.forPeer _),
    authenticated.marks mandatory', who.trans (congrArg Except.ok written.symm)⟩, by simp [Identified.milestones], ⟨mandatory', written.symm⟩, rfl⟩

end Secured

/-! ## The parts of a handler -/

theorem readRequest_meets {α : Type} (unserved : g.Unserved) (mandatory : audit.Mandatory requestId) (x : GrmResult α) :
    (readRequest audit x).Meets Seen.add allowed (fun g' a => g' = g ∧ x = .ok a) (fun g' _ => g'.Unserved) g := by
  cases x with
  | ok a => exact Proc.Meets.pure ⟨rfl, rfl⟩
  | error e => exact Proc.Meets.bind (auditStatusError_meets free unserved mandatory _ _ _ _) fun _ _ failed => failed

variable {known : Identified}

theorem auditWorkspace_meets (unserved : g.Unserved) (carries : audit.Carries known) (workspace : String) :
    (auditWorkspace audit workspace).Meets Seen.add allowed (fun g' audit' => g' = g ∧ audit'.Carries known)
      (fun g' _ => g'.Unserved) g := by
  unfold auditWorkspace
  refine Proc.Meets.ofExcept_mapErr ?_ fun _ _ => auditStatusError_meets free unserved carries.mandatory _ _ _ _
  exact fun recorded _ => Proc.Meets.pure ⟨rfl, carries.inWorkspace recorded⟩

/-- The policy decides on the operations of the caller in the workspace. -/
theorem authorize_meets (security : ServiceSecurityConfig) (transportPeer : TransportPeer) (principal : Option Principal)
    (actor : Option ActorAssertion) (workspace : String) (operations : List SecurityOperation) :
    (authorize security transportPeer principal actor workspace operations).Meets Seen.add allowed
      (fun g' decision => ∃ context : GrpcSecurityContext, context.authenticatedPrincipal = principal ∧
        context.operations = operations ∧ context.workspace = workspace ∧
        ∀ reason, (decision = .allow reason → g' = g.notes [.allowed context reason]) ∧ (decision = .deny reason → g' = g))
      (fun g' _ => g' = g) g := by
  unfold authorize
  refine Proc.Meets.act (free _ _ (by simp)) fun decided => ?_
  rcases decided with _ | decision
  · exact Proc.Meets.failed rfl
  · let context : GrpcSecurityContext :=
      { authenticatedPrincipal := principal, operations, transportPeer, assertedActor := actor, workspace,
        policyVersion := security.policyVersion }
    refine Proc.Meets.pure ⟨context, rfl, rfl, rfl, fun reason => ⟨?_, ?_⟩⟩
    · rintro rfl
      rfl
    · rintro rfl
      rfl

/-- A handler that goes on was allowed its operations, with the decision on record. -/
theorem authorizeOperations_meets (unserved : g.Unserved) (carries : audit.Carries known) (security : ServiceSecurityConfig)
    {caller : Caller} (who : caller.authenticatedPrincipal = some known.principal) (workspace : String)
    (operations : List SecurityOperation) :
    (authorizeOperations security audit caller workspace operations).Meets Seen.add allowed
      (fun g' audit' => ∃ granted : Granted known operations workspace, g' = g.notes granted.milestones ∧
        audit'.Carries known ∧ audit'.operations = granted.authorization.operations)
      (fun g' _ => g'.Unserved) g := by
  unfold authorizeOperations
  refine Proc.Meets.ofExcept_mapErr ?_ fun _ _ => auditStatusError_meets free unserved carries.mandatory _ _ _ _
  intro recorded classified
  have mandatory := carries.mandatory.withOperations recorded
  refine (Proc.Meets.mapErr (authorize_meets free security caller.transportPeer caller.authenticatedPrincipal
    caller.assertedActor workspace operations) ?_).bind ?_
  · rintro _ error rfl
    exact auditStatusError_meets free unserved mandatory _ _ _ _
  rintro g' decision ⟨context, asker, asked, within, decided⟩
  cases decision with
  | allow reason =>
    obtain rfl := (decided reason).1 rfl
    refine (record_orStatus_meets free (unserved.notes (by simp)) mandatory .authorization .allow _).mono
      (fun _ _ may => may) ?_ fun _ _ h => h
    rintro _ _ ⟨rfl, time, authorization, authorized, rfl⟩
    have copied : authorization.operations = recorded ∧ authorization.authenticatedPrincipal = audit.authenticatedPrincipal := by
      obtain ⟨_, _, rfl⟩ := authorized
      exact ⟨rfl, rfl⟩
    refine ⟨⟨context, reason, authorization, asker.trans who, ⟨asked, within⟩, authorized.marks mandatory,
      copied.2.trans carries.named, copied.1 ▸ classified⟩, ?_, ⟨mandatory, carries.named⟩, copied.1.symm⟩
    rw [Seen.notes_notes]
    rfl
  | deny reason =>
    obtain rfl := (decided reason).2 rfl
    refine orStatus_meets (Proc.Meets.bind (record_meets free mandatory .authorization .deny _ |>.mono
      (fun _ _ may => may) (fun _ _ h => h) fun _ _ same => same ▸ unserved) ?_)
    rintro _ _ ⟨-, time, recorded, -, rfl⟩
    exact Proc.Meets.failed (unserved.notes (by simp))

/-- A handler that goes on has its admission on record. -/
theorem auditAdmissionAllow_meets (unserved : g.Unserved) (carries : audit.Carries known) :
    (orStatus (auditAdmissionAllow audit)).Meets Seen.add allowed
      (fun g' audit' => audit'.Carries known ∧ ∃ admission, Marks known.requestId .admission .allow admission ∧
        admission.operations = audit.operations ∧ admission.authenticatedPrincipal = audit.authenticatedPrincipal ∧
        g' = g.notes [.recorded admission])
      (fun g' _ => g'.Unserved) g := by
  refine (record_orStatus_meets free unserved carries.mandatory .admission .allow .explicitPolicyAllow).mono
    (fun _ _ may => may) ?_ fun _ _ h => h
  rintro _ audit ⟨rfl, time, admission, admitted, rfl⟩
  refine ⟨carries, admission, admitted.marks carries.mandatory, ?_, ?_, rfl⟩
  · obtain ⟨_, _, rfl⟩ := admitted
    rfl
  · obtain ⟨_, _, rfl⟩ := admitted
    rfl

/-- A caller that was granted its operations is cleared with the admission on record. -/
theorem auditAdmissionAllow_cleared {workspace : String} {operations : List SecurityOperation}
    (granted : Granted known operations workspace) (carries : audit.Carries known)
    (recorded : audit.operations = granted.authorization.operations) (held : Option InProcessWorkspaceService) :
    (orStatus (auditAdmissionAllow audit)).Meets Seen.add allowed
      (fun g' audit' => ∃ cleared : Clearance operations workspace, audit'.Carries cleared.known ∧
        g' = ⟨cleared.milestones, held⟩)
      (fun g' _ => g'.Unserved) (Seen.notes ⟨known.milestones, held⟩ granted.milestones) := by
  have unserved : Seen.Unserved (Seen.notes ⟨known.milestones, held⟩ granted.milestones) :=
    (known.unserved _).notes (by simp [Granted.milestones])
  refine (auditAdmissionAllow_meets free unserved carries).mono (fun _ _ may => may) ?_ fun _ _ h => h
  rintro _ audit' ⟨carries', admission, marks, operations, principal, rfl⟩
  exact ⟨⟨known, granted, admission, marks, operations.trans recorded,
    principal.trans (carries.named.trans granted.attributed.symm)⟩, carries', rfl⟩

/-! ## The status of the security -/

omit free in
/-- Looking at the flag of a degraded audit touches no workspace. -/
theorem unserved_auditDegraded (unserved : g.Unserved) (degraded : Bool) :
    (g.add ⟨.auditDegraded, degraded⟩).Unserved := by
  cases degraded with
  | false => exact unserved.notes (by simp)
  | true => exact unserved

theorem securityAuditStatusResponse_meets (unserved : g.Unserved) (security : ServiceSecurityConfig) (recent : Bool) :
    (securityAuditStatusResponse security recent).Meets Seen.add allowed (fun g' _ => g'.Unserved)
      (fun g' _ => g'.Unserved) g := by
  unfold securityAuditStatusResponse
  refine Proc.Meets.act (free _ _ (by simp)) fun events => ?_
  refine Proc.Meets.act (free _ _ (by simp)) fun ⟨maxEvents, maxBytes, maxAge⟩ => ?_
  refine Proc.Meets.act (free _ _ (by simp)) fun health => ?_
  have available : (mandatoryAuditAvailable security health).Meets Seen.add allowed (fun g' _ => g'.Unserved)
      (fun g' _ => g'.Unserved) g := by
    unfold mandatoryAuditAvailable
    split
    · exact Proc.Meets.act (free _ _ (by simp)) fun degraded => Proc.Meets.pure (unserved_auditDegraded unserved degraded)
    · exact Proc.Meets.pure unserved
  refine available.bind fun g available unserved => ?_
  refine Proc.Meets.act (free _ _ (by simp)) fun futureDated => ?_
  exact Proc.Meets.act (free _ _ (by simp)) fun degraded => Proc.Meets.pure (unserved_auditDegraded unserved degraded)

end Handler
