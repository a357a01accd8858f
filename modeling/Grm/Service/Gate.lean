import Grm.Service.Milestones

/-!
# The gate before the workspaces

In a secured service, no call touches a workspace before its caller is authenticated, the
policy has allowed every operation its request is classified by, and the attempt, the
authentication, the authorization and the admission are on record; and a call that has
touched one is reported, or the service is degraded. This holds of every call, whatever runs
beside it and whatever the authenticator, the policy and the sink answer.
-/

set_option autoImplicit false

open Service

/-! ## What a call asks for -/

/-- The call on the workspaces a request asks for, with the operations and the workspace the
policy is asked about, as the workspaces are when it is done. -/
inductive Asks (security : ServiceSecurityConfig) (service : InProcessWorkspaceService) :
    GrpcCall → WorkspaceCall → List SecurityOperation → String → Prop where
  | createWorkspace (request : GrpcRequest Handler.CreateMessage) (body : WorkspaceCreateRequest)
    (reads : request.message.toRequest = .ok body) :
    Asks security service (.createWorkspace request) (.createWorkspace body)
      [serviceSecurityOperation .workspaceCreate] "service"
  | openWorkspace (request : GrpcRequest Handler.OpenMessage) (body : WorkspaceOpenRequest)
    (reads : request.message.toRequest = .ok body) :
    Asks security service (.openWorkspace request) (.openWorkspace body)
      [workspaceSecurityOperation .workspaceOpen (Handler.openedName body)] (Handler.openedName body)
  | executeWorkspace (request : GrpcRequest Handler.ExecuteMessage) (body : WorkspaceRuntimeRequest)
    (reads : request.message.toRequest = .ok body) (inScope : validateSecuredOperationScope body.request = true)
    (within : enforceSecurityLimits body.request security.maxBatchOperations = true) :
    Asks security service (.executeWorkspace request) (.executeRuntime body)
      (securityOperations body.request (service.workspaceLogName body.handle)) (service.workspaceLogName body.handle)
  | closeWorkspace (request : GrpcRequest Handler.CloseMessage) (handle : WorkspaceHandle)
    (reads : request.message.toRequest = .ok handle) :
    Asks security service (.closeWorkspace request) (.closeWorkspace handle)
      [workspaceSecurityOperation .workspaceClose (service.workspaceLogName handle)] (service.workspaceLogName handle)

/-- A call may touch the workspaces as its request asks, when it is cleared for that. -/
def Cleared (security : ServiceSecurityConfig) (call : GrpcCall) (service : InProcessWorkspaceService)
    (milestones : List Milestone) (target : WorkspaceCall) : Prop :=
  ∃ operations workspace, Asks security service call target operations workspace ∧
    ∃ cleared : Clearance operations workspace, milestones = cleared.milestones

/-- A call that was cleared and has touched the workspaces. -/
structure ServedCall (security : ServiceSecurityConfig) (call : GrpcCall) where
  service : InProcessWorkspaceService
  target : WorkspaceCall
  operations : List SecurityOperation
  workspace : String
  asks : Asks security service call target operations workspace
  cleared : Clearance operations workspace
  reply : target.Reply

def ServedCall.milestones {security : ServiceSecurityConfig} {call : GrpcCall} (served : ServedCall security call) :
    List Milestone :=
  served.cleared.milestones ++ [.served served.target served.reply]

/-- The error of a reply. -/
def WorkspaceCall.error? : (call : WorkspaceCall) → call.Reply → Option WorkspaceServiceError
  | .createWorkspace _, .error e | .openWorkspace _, .error e => some e
  | .executeRuntime _, .error e => some e
  | .closeWorkspace _, .error e => some e
  | _, _ => none

/-- The durability of a reply, as it is put on record. -/
def WorkspaceCall.durability : (call : WorkspaceCall) → call.Reply → SecurityAuditDurabilityOutcome
  | .createWorkspace request, _ => Handler.workspaceCreateDurability request
  | .executeRuntime _, .ok response => if response.durableOperations.isEmpty then .notApplicable else .committed
  | _, _ => .notApplicable

section Replies
variable [ResponseWire]

/-- The reply of a handler to what the workspaces returned. -/
inductive Gives : (target : WorkspaceCall) → target.Reply → GrpcReply → Prop where
  | created (request : WorkspaceCreateRequest) (response : WorkspaceHandleResponse) :
    Gives (.createWorkspace request) (.ok response) (.created response)
  | opened (request : WorkspaceOpenRequest) (response : WorkspaceHandleResponse) :
    Gives (.openWorkspace request) (.ok response) (.opened response)
  | executed (request : WorkspaceRuntimeRequest) (response : WorkspaceRuntimeResponse) (wire : ResponseWire.Wire)
    (encodes : ResponseWire.ofResponse response = .ok wire) :
    Gives (.executeRuntime request) (.ok response) (.executed wire)
  | closed (handle : WorkspaceHandle) (response : WorkspaceHandle) :
    Gives (.closeWorkspace handle) (.ok response) (.closed response)

/-- A response that has no wire form. -/
inductive Unsendable : (target : WorkspaceCall) → target.Reply → GrmError → Prop where
  | executed (request : WorkspaceRuntimeRequest) (response : WorkspaceRuntimeResponse) (error : GrmError)
    (encodes : ResponseWire.ofResponse response = .error error) :
    Unsendable (.executeRuntime request) (.ok response) error

/-- What is on record when a handler returns: it gave a status, or its success, its
durability and its delivery were each reported. -/
inductive Answered (security : ServiceSecurityConfig) (call : GrpcCall) (milestones : List Milestone) : GrpcReply → Prop where
  | status (reply : GrpcReply) (ofStatus : reply.ofStatus = true)
    (unserved : ∀ call reply, Milestone.served call reply ∉ milestones) : Answered security call milestones reply
  | served (served : ServedCall security call) (reply : GrpcReply) (gives : Gives served.target served.reply reply)
    (runtime durability delivery : SecurityAuditEvent) (later later' later'' : List Milestone)
    (succeeded : Marks served.cleared.known.requestId .runtime .allow runtime ∧ runtime.runtimeOutcome = .succeeded)
    (lasts : Marks served.cleared.known.requestId .durability .notApplicable durability ∧
      durability.durabilityOutcome = served.target.durability served.reply)
    (handedOff : Marks served.cleared.known.requestId .delivery .notApplicable delivery ∧
      delivery.deliveryOutcome = .handedOff)
    (reports : Reports runtime later ∧ Reports durability later' ∧ Reports delivery later'')
    (all : milestones = served.milestones ++ later ++ later' ++ later'') : Answered security call milestones reply

/-- What is on record when a handler fails: it served nothing, or the failure was reported,
or the call was done and its response has no wire form. -/
inductive Refused (security : ServiceSecurityConfig) (call : GrpcCall) (milestones : List Milestone) : Status → Prop where
  | unserved (status : Status) (unserved : ∀ call reply, Milestone.served call reply ∉ milestones) :
    Refused security call milestones status
  | failed (served : ServedCall security call) (error : WorkspaceServiceError)
    (fails : served.target.error? served.reply = some error) (runtime : SecurityAuditEvent) (later : List Milestone)
    (recorded : Marks served.cleared.known.requestId .runtime .error runtime ∧ runtime.runtimeOutcome = .failed ∧
      runtime.durabilityOutcome = .notCommitted)
    (reports : Reports runtime later) (all : milestones = served.milestones ++ later) :
    Refused security call milestones (workspaceStatus error)
  | unsent (served : ServedCall security call) (error : GrmError) (unsendable : Unsendable served.target served.reply error)
    (all : milestones = served.milestones) : Refused security call milestones (protoStatus error)

end Replies

namespace Handler
variable {security : ServiceSecurityConfig} {call : GrpcCall}

/-- What a call of a secured service may do. -/
def MayDo (security : ServiceSecurityConfig) (call : GrpcCall) (g : Seen) (action : GrpcAction) : Prop :=
  ∀ target, action = .serve target → ∃ service, g.held = some service ∧ Cleared security call service g.milestones target

theorem free_mayDo : Free (MayDo security call) := fun _ _ untouched target touches => absurd touches (untouched target)

variable {g : Seen}

theorem withWorkspaces_meets {α : Type} {allowed : Seen → GrpcAction → Prop} (free : Free allowed)
    {body : InProcessWorkspaceService → Handler Status α} {ret : Seen → α → Prop} {fail : Seen → Status → Prop}
    (h : ∀ service, (body service).Meets Seen.add allowed (fun g' a => ret { g' with held := none } a)
      (fun g' e => fail { g' with held := none } e) { g with held := some service }) :
    (withWorkspaces body).Meets Seen.add allowed ret fail g := by
  unfold withWorkspaces
  refine Proc.Meets.act (free _ _ (by simp)) fun service => ?_
  refine (h service).attempt ?_ ?_
  · exact fun g' a returned => Proc.Meets.act (free _ _ (by simp)) fun _ => Proc.Meets.pure returned
  · exact fun g' e failed => Proc.Meets.act (free _ _ (by simp)) fun _ => Proc.Meets.failed failed

/-- After an effect, an event is reported. -/
theorem reported {audit : SecurityAuditRequest} {known : Identified} {allowed : Seen → GrpcAction → Prop}
    {fails : Seen → Status → Prop} (free : Free allowed) (carries : audit.Carries known) (stage : SecurityAuditStage)
    (decision : SecurityAuditDecision) (reason : SecurityAuditReason) (change : SecurityAuditEvent → SecurityAuditEvent)
    (plain : ∀ event, (change event).requestId = event.requestId ∧ (change event).mode = event.mode ∧
      (change event).stage = event.stage ∧ (change event).decision = event.decision) :
    (do
      let time ← perform .now
      auditAppendPostEffect audit (change (auditEvent audit time stage decision reason)) : Handler Status _).Meets
      Seen.add allowed
      (fun g' audit' => audit' = audit ∧ ∃ time later, Marks known.requestId stage decision
        (change (auditEvent audit time stage decision reason)) ∧
        Reports (change (auditEvent audit time stage decision reason)) later ∧ g' = g.notes later) fails g := by
  refine Proc.Meets.act (free _ _ (by simp)) fun time => ?_
  refine (auditAppendPostEffect_meets free carries.mandatory _).mono (fun _ _ may => may) ?_ fun _ _ h => h
  rintro _ _ ⟨rfl, later, reports, rfl⟩
  obtain ⟨id, mode, atStage, decided⟩ := plain (auditEvent _ time stage decision reason)
  exact ⟨rfl, time, later, ⟨id.trans carries.mandatory.id, mode.trans carries.mandatory.mode, atStage, decided⟩, reports,
    rfl⟩

section Replies
variable [ResponseWire]

/-- A failed call is reported, and the handler fails with its error. -/
theorem reportFailure_meets {α : Type} {audit : SecurityAuditRequest} {ret : Seen → α → Prop}
    (served : ServedCall security call) (carries : audit.Carries served.cleared.known)
    (before : g.milestones = served.milestones) {error : WorkspaceServiceError}
    (fails : served.target.error? served.reply = some error) :
    (reportFailure audit error : Handler Status α).Meets Seen.add (MayDo security call) ret
      (fun g' status => Refused security call g'.milestones status) g := by
  unfold reportFailure auditRuntimeFailure
  refine (reported free_mayDo carries .runtime .error .runtimeFailed (fun event =>
    { event with runtimeOutcome := .failed, durabilityOutcome := .notCommitted })
    fun _ => ⟨rfl, rfl, rfl, rfl⟩).bind ?_
  rintro _ _ ⟨rfl, time, later, marks, reports, rfl⟩
  refine Proc.Meets.failed (.failed served error fails _ later ⟨marks, rfl, rfl⟩ reports ?_)
  rw [Seen.notes_milestones, before]

/-- The call of a handler was done, and its reply and durability are known. -/
def Done (security : ServiceSecurityConfig) (call : GrpcCall) (known : Identified) (reply : GrpcReply)
    (durability : SecurityAuditDurabilityOutcome) (g : Seen) : Prop :=
  ∃ served : ServedCall security call, served.cleared.known = known ∧ g.milestones = served.milestones ∧
    Gives served.target served.reply reply ∧ durability = served.target.durability served.reply

/-- A call that was done is reported, and the handler returns its reply. -/
theorem Done.report {audit : SecurityAuditRequest} {reply : GrpcReply} {known : Identified}
    {durability : SecurityAuditDurabilityOutcome} (h : Done security call known reply durability g)
    (carries : audit.Carries known) :
    (reportSuccess audit durability >>= fun _ => pure reply : Handler Status GrpcReply).Meets Seen.add
      (MayDo security call) (fun g' reply => Answered security call g'.milestones reply)
      (fun g' status => Refused security call g'.milestones status) g := by
  obtain ⟨served, rfl, before, gives, rfl⟩ := h
  have reports : (reportSuccess audit (served.target.durability served.reply)).Meets Seen.add (MayDo security call)
      (fun g' _ => Answered security call g'.milestones reply)
      (fun g' status => Refused security call g'.milestones status) g := by
    unfold reportSuccess auditRuntimeSuccess auditDurability auditDeliveryHandoff
    refine (reported free_mayDo carries .runtime .allow .runtimeSucceeded
      (fun event => { event with runtimeOutcome := .succeeded }) fun _ => ⟨rfl, rfl, rfl, rfl⟩).bind ?_
    rintro _ _ ⟨rfl, time, later, marks, reports, rfl⟩
    refine (reported free_mayDo carries .durability .notApplicable _
      (fun event => { event with durabilityOutcome := served.target.durability served.reply })
      fun _ => ⟨rfl, rfl, rfl, rfl⟩).bind ?_
    rintro _ _ ⟨rfl, time', later', marks', reports', rfl⟩
    refine (reported free_mayDo carries .delivery .notApplicable .responseHandedOff
      (fun event => { event with deliveryOutcome := .handedOff }) fun _ => ⟨rfl, rfl, rfl, rfl⟩).bind ?_
    rintro _ _ ⟨rfl, time'', later'', marks'', reports'', rfl⟩
    refine Proc.Meets.pure (.served served reply gives _ _ _ later later' later'' ⟨marks, rfl⟩ ⟨marks', rfl⟩
      ⟨marks'', rfl⟩ ⟨reports, reports', reports''⟩ ?_)
    rw [Seen.notes_milestones, Seen.notes_milestones, Seen.notes_milestones, before]
  exact reports.bind fun _ _ answered => Proc.Meets.pure answered

/-- A part of a handler that touches no workspace. -/
theorem orRefused {α : Type} {handler : Handler Status α} {allowed : Seen → GrpcAction → Prop} {ret : Seen → α → Prop}
    (h : handler.Meets Seen.add allowed ret (fun g' _ => g'.Unserved) g) :
    handler.Meets Seen.add allowed ret (fun g' status => Refused security call g'.milestones status) g :=
  h.mono (fun _ _ may => may) (fun _ _ h => h) fun _ status unserved => .unserved status unserved

omit [ResponseWire] in
/-- A handler that is admitted is cleared for its operations. -/
theorem admitOperations_meets {audit : SecurityAuditRequest} {caller : Caller} {known : Identified} (carries : audit.Carries known)
    (who : caller.authenticatedPrincipal = some known.principal) (workspace : String)
    (operations : List SecurityOperation) (held : Option InProcessWorkspaceService) :
    (admitOperations security audit caller workspace operations).Meets Seen.add (MayDo security call)
      (fun g' audit' => ∃ cleared : Clearance operations workspace, audit'.Carries cleared.known ∧
        g' = ⟨cleared.milestones, held⟩) (fun g' _ => g'.Unserved) ⟨known.milestones, held⟩ := by
  unfold admitOperations
  refine (authorizeOperations_meets free_mayDo (known.unserved _) carries security who workspace operations).bind ?_
  rintro _ audit ⟨granted, rfl, carries, recorded⟩
  exact auditAdmissionAllow_cleared free_mayDo granted carries recorded held

theorem createLocked_meets {audit : SecurityAuditRequest} {request : GrpcRequest CreateMessage}
    {body : WorkspaceCreateRequest} (reads : request.message.toRequest = .ok body)
    (cleared : Clearance [serviceSecurityOperation .workspaceCreate] "service") (carries : audit.Carries cleared.known) :
    (createLocked audit body).Meets Seen.add (MayDo security (.createWorkspace request))
      (fun g' response => Done security (.createWorkspace request) cleared.known (.created response)
        (workspaceCreateDurability body) g')
      (fun g' status => Refused security (.createWorkspace request) g'.milestones status) ⟨cleared.milestones, none⟩ := by
  unfold createLocked
  refine withWorkspaces_meets free_mayDo fun service => ?_
  have asks : Asks security service (.createWorkspace request) (.createWorkspace body) _ _ := .createWorkspace request body reads
  refine Proc.Meets.act ?_ fun reply => ?_
  · rintro _ ⟨⟩
    exact ⟨service, rfl, _, _, asks, cleared, rfl⟩
  · let served : ServedCall security (.createWorkspace request) := ⟨service, _, _, _, asks, cleared, reply⟩
    cases reply with
    | ok response => exact Proc.Meets.pure ⟨served, rfl, rfl, .created body response, rfl⟩
    | error error => exact reportFailure_meets served carries rfl rfl

theorem openLocked_meets {audit : SecurityAuditRequest} {request : GrpcRequest OpenMessage} {body : WorkspaceOpenRequest}
    (reads : request.message.toRequest = .ok body)
    (cleared : Clearance [workspaceSecurityOperation .workspaceOpen (openedName body)] (openedName body))
    (carries : audit.Carries cleared.known) :
    (openLocked audit body).Meets Seen.add (MayDo security (.openWorkspace request))
      (fun g' response => Done security (.openWorkspace request) cleared.known (.opened response) .notApplicable g')
      (fun g' status => Refused security (.openWorkspace request) g'.milestones status) ⟨cleared.milestones, none⟩ := by
  unfold openLocked
  refine withWorkspaces_meets free_mayDo fun service => ?_
  have asks : Asks security service (.openWorkspace request) (.openWorkspace body) _ _ := .openWorkspace request body reads
  refine Proc.Meets.act ?_ fun reply => ?_
  · rintro _ ⟨⟩
    exact ⟨service, rfl, _, _, asks, cleared, rfl⟩
  · let served : ServedCall security (.openWorkspace request) := ⟨service, _, _, _, asks, cleared, reply⟩
    cases reply with
    | ok response => exact Proc.Meets.pure ⟨served, rfl, rfl, .opened body response, rfl⟩
    | error error => exact reportFailure_meets served carries rfl rfl

section Secured
variable (secured : security.profile = .secured)
include secured

theorem createWorkspaceRpc_meets (request : GrpcRequest CreateMessage) :
    (createWorkspaceRpc security request).Meets Seen.add (MayDo security (.createWorkspace request))
      (fun g' reply => Answered security (.createWorkspace request) g'.milestones reply)
      (fun g' status => Refused security (.createWorkspace request) g'.milestones status) Seen.new := by
  unfold createWorkspaceRpc
  refine (orRefused (begin_meets free_mayDo secured Seen.unserved_new request)).bind ?_
  rintro _ ⟨audit, caller⟩ ⟨known, rfl, carries, who⟩
  refine (orRefused (readRequest_meets free_mayDo (known.unserved _) carries.mandatory _)).bind ?_
  rintro _ body ⟨rfl, reads⟩
  refine (orRefused (admitOperations_meets (carries.inWorkspace "service") who "service"
    [serviceSecurityOperation .workspaceCreate] none)).bind ?_
  rintro _ audit' ⟨cleared, carries', rfl⟩
  refine (createLocked_meets reads cleared carries').bind ?_
  exact fun g response done => done.report carries'

theorem openWorkspaceRpc_meets (request : GrpcRequest OpenMessage) :
    (openWorkspaceRpc security request).Meets Seen.add (MayDo security (.openWorkspace request))
      (fun g' reply => Answered security (.openWorkspace request) g'.milestones reply)
      (fun g' status => Refused security (.openWorkspace request) g'.milestones status) Seen.new := by
  unfold openWorkspaceRpc
  refine (orRefused (begin_meets free_mayDo secured Seen.unserved_new request)).bind ?_
  rintro _ ⟨audit, caller⟩ ⟨known, rfl, carries, who⟩
  refine (orRefused (readRequest_meets free_mayDo (known.unserved _) carries.mandatory _)).bind ?_
  rintro _ body ⟨rfl, reads⟩
  refine (orRefused (auditWorkspace_meets free_mayDo (known.unserved _) carries (openedName body))).bind ?_
  rintro _ audit ⟨rfl, carries⟩
  refine (orRefused (admitOperations_meets carries who (openedName body)
    [workspaceSecurityOperation .workspaceOpen (openedName body)] none)).bind ?_
  rintro _ audit ⟨cleared, carries, rfl⟩
  refine (openLocked_meets reads cleared carries).bind ?_
  exact fun g response done => done.report carries

/-! ## The handlers that work on an open workspace -/

omit [ResponseWire] in
theorem checkScope_meets {audit : SecurityAuditRequest} {requestId : Nat} (unserved : g.Unserved)
    (mandatory : audit.Mandatory requestId) (request : Request) :
    (checkScope security audit request).Meets Seen.add (MayDo security call)
      (fun g' _ => g' = g ∧ validateSecuredOperationScope request = true) (fun g' _ => g'.Unserved) g := by
  unfold checkScope
  split
  · exact Proc.Meets.bind (auditStatusError_meets free_mayDo unserved mandatory _ _ _ _) fun _ _ unserved =>
      Proc.Meets.failed unserved
  · rename_i inScope
    exact Proc.Meets.pure ⟨rfl, by simpa [secured] using inScope⟩

omit [ResponseWire] secured in
theorem checkLimits_meets {audit : SecurityAuditRequest} {requestId : Nat} (unserved : g.Unserved)
    (mandatory : audit.Mandatory requestId) (request : Request) :
    (checkLimits security audit request).Meets Seen.add (MayDo security call)
      (fun g' _ => g' = g ∧ enforceSecurityLimits request security.maxBatchOperations = true)
      (fun g' _ => g'.Unserved) g := by
  unfold checkLimits
  split
  · exact Proc.Meets.bind (auditStatusError_meets free_mayDo unserved mandatory _ _ _ _) fun _ _ unserved =>
      Proc.Meets.failed unserved
  · rename_i within
    exact Proc.Meets.pure ⟨rfl, by simpa using within⟩

omit [ResponseWire] in
theorem admitExecution_meets {audit : SecurityAuditRequest} {caller : Caller} {known : Identified}
    (carries : audit.Carries known) (who : caller.authenticatedPrincipal = some known.principal)
    (service : InProcessWorkspaceService) (request : WorkspaceRuntimeRequest) :
    (admitExecution security audit caller service request).Meets Seen.add (MayDo security call)
      (fun g' audit' => ∃ cleared : Clearance (securityOperations request.request (service.workspaceLogName request.handle))
        (service.workspaceLogName request.handle), audit'.Carries cleared.known ∧
        g' = ⟨cleared.milestones, some service⟩ ∧ validateSecuredOperationScope request.request = true ∧
        enforceSecurityLimits request.request security.maxBatchOperations = true)
      (fun g' _ => g'.Unserved) ⟨known.milestones, some service⟩ := by
  unfold admitExecution
  refine (checkScope_meets secured (known.unserved _) carries.mandatory request.request).bind ?_
  rintro _ _ ⟨rfl, inScope⟩
  refine (auditWorkspace_meets free_mayDo (known.unserved _) carries _).bind ?_
  rintro _ audit ⟨rfl, carries⟩
  refine (authorizeOperations_meets free_mayDo (known.unserved _) carries security who _ _).bind ?_
  rintro _ audit ⟨granted, rfl, carries, recorded⟩
  have unserved : Seen.Unserved (Seen.notes ⟨known.milestones, some service⟩ granted.milestones) :=
    (known.unserved _).notes (by simp [Granted.milestones])
  cases (service.workspaceOf request.handle).mapError workspaceStatus with
  | error status => exact Proc.Meets.failed unserved
  | ok found =>
    refine (checkLimits_meets unserved carries.mandatory request.request).bind ?_
    rintro _ _ ⟨rfl, within⟩
    refine (auditAdmissionAllow_cleared free_mayDo granted carries recorded _).mono (fun _ _ may => may) ?_ fun _ _ h => h
    rintro _ _ ⟨cleared, carries, all⟩
    exact ⟨cleared, carries, all, inScope, within⟩

/-- A runtime request that was done. -/
inductive Executes : (target : WorkspaceCall) → target.Reply → WorkspaceRuntimeResponse → Prop where
  | done (request : WorkspaceRuntimeRequest) (response : WorkspaceRuntimeResponse) :
    Executes (.executeRuntime request) (.ok response) response

theorem executeLocked_meets {audit : SecurityAuditRequest} {caller : Caller} {known : Identified}
    {request : GrpcRequest ExecuteMessage} {body : WorkspaceRuntimeRequest} (reads : request.message.toRequest = .ok body)
    (carries : audit.Carries known) (who : caller.authenticatedPrincipal = some known.principal) :
    (executeLocked security audit caller body).Meets Seen.add (MayDo security (.executeWorkspace request))
      (fun g' result => ∃ served : ServedCall security (.executeWorkspace request),
        result.2.Carries served.cleared.known ∧ g'.milestones = served.milestones ∧
        Executes served.target served.reply result.1)
      (fun g' status => Refused security (.executeWorkspace request) g'.milestones status) ⟨known.milestones, none⟩ := by
  unfold executeLocked
  refine withWorkspaces_meets free_mayDo fun service => ?_
  refine (orRefused (admitExecution_meets secured carries who service body)).bind ?_
  rintro _ audit ⟨cleared, carries, rfl, inScope, within⟩
  have asks : Asks security service (.executeWorkspace request) (.executeRuntime body) _ _ :=
    .executeWorkspace request body reads inScope within
  refine Proc.Meets.act ?_ fun reply => ?_
  · rintro _ ⟨⟩
    exact ⟨service, rfl, _, _, asks, cleared, rfl⟩
  · let served : ServedCall security (.executeWorkspace request) := ⟨service, _, _, _, asks, cleared, reply⟩
    cases reply with
    | ok response => exact Proc.Meets.pure ⟨served, carries, rfl, .done body response⟩
    | error error => exact reportFailure_meets served carries rfl rfl

theorem executeWorkspaceRpc_meets (request : GrpcRequest ExecuteMessage) :
    (executeWorkspaceRpc security request).Meets Seen.add (MayDo security (.executeWorkspace request))
      (fun g' reply => Answered security (.executeWorkspace request) g'.milestones reply)
      (fun g' status => Refused security (.executeWorkspace request) g'.milestones status) Seen.new := by
  unfold executeWorkspaceRpc
  refine (orRefused (begin_meets free_mayDo secured Seen.unserved_new request)).bind ?_
  rintro _ ⟨audit, caller⟩ ⟨known, rfl, carries, who⟩
  refine (orRefused (readRequest_meets free_mayDo (known.unserved _) carries.mandatory _)).bind ?_
  rintro _ body ⟨rfl, reads⟩
  refine (executeLocked_meets secured reads carries who).bind ?_
  rintro g ⟨response, audit⟩ ⟨served, carries, before, executes⟩
  dsimp only at carries executes ⊢
  obtain ⟨service, target, operations, workspace, asks, cleared, reply⟩ := served
  cases executes with
  | done body' =>
    cases encodes : ResponseWire.ofResponse response with
    | error error => exact Proc.Meets.failed (.unsent ⟨service, _, _, _, asks, cleared, _⟩ error (.executed body' response error encodes) before)
    | ok wire =>
      have done : Done security (.executeWorkspace request) cleared.known (.executed wire)
          (if response.durableOperations.isEmpty then .notApplicable else .committed) g :=
        ⟨⟨service, _, _, _, asks, cleared, _⟩, rfl, before, .executed body' response wire encodes, rfl⟩
      exact done.report carries

omit [ResponseWire] secured in
theorem admitClose_meets {audit : SecurityAuditRequest} {caller : Caller} {known : Identified}
    (carries : audit.Carries known) (who : caller.authenticatedPrincipal = some known.principal)
    (service : InProcessWorkspaceService) (handle : WorkspaceHandle) :
    (admitClose security audit caller service handle).Meets Seen.add (MayDo security call)
      (fun g' audit' => ∃ cleared : Clearance
        [workspaceSecurityOperation .workspaceClose (service.workspaceLogName handle)] (service.workspaceLogName handle),
        audit'.Carries cleared.known ∧ g' = ⟨cleared.milestones, some service⟩)
      (fun g' _ => g'.Unserved) ⟨known.milestones, some service⟩ := by
  unfold admitClose
  refine (auditWorkspace_meets free_mayDo (known.unserved _) carries _).bind ?_
  rintro _ audit ⟨rfl, carries⟩
  refine (authorizeOperations_meets free_mayDo (known.unserved _) carries security who _ _).bind ?_
  rintro _ audit ⟨granted, rfl, carries, recorded⟩
  have unserved : Seen.Unserved (Seen.notes ⟨known.milestones, some service⟩ granted.milestones) :=
    (known.unserved _).notes (by simp [Granted.milestones])
  cases (service.workspaceOf handle).mapError workspaceStatus with
  | error status => exact Proc.Meets.failed unserved
  | ok found =>
    exact auditAdmissionAllow_cleared free_mayDo granted carries recorded _

omit secured in
theorem closeLocked_meets {audit : SecurityAuditRequest} {caller : Caller} {known : Identified}
    {request : GrpcRequest CloseMessage} {handle : WorkspaceHandle} (reads : request.message.toRequest = .ok handle)
    (carries : audit.Carries known) (who : caller.authenticatedPrincipal = some known.principal) :
    (closeLocked security audit caller handle).Meets Seen.add (MayDo security (.closeWorkspace request))
      (fun g' result => ∃ carried, result.2.Carries carried ∧
        Done security (.closeWorkspace request) carried (.closed result.1) .notApplicable g')
      (fun g' status => Refused security (.closeWorkspace request) g'.milestones status) ⟨known.milestones, none⟩ := by
  unfold closeLocked
  refine withWorkspaces_meets free_mayDo fun service => ?_
  refine (orRefused (admitClose_meets carries who service handle)).bind ?_
  rintro _ audit ⟨cleared, carries, rfl⟩
  have asks : Asks security service (.closeWorkspace request) (.closeWorkspace handle) _ _ :=
    .closeWorkspace request handle reads
  refine Proc.Meets.act ?_ fun reply => ?_
  · rintro _ ⟨⟩
    exact ⟨service, rfl, _, _, asks, cleared, rfl⟩
  · let served : ServedCall security (.closeWorkspace request) := ⟨service, _, _, _, asks, cleared, reply⟩
    cases reply with
    | ok closed =>
      exact Proc.Meets.pure ⟨cleared.known, carries, served, rfl, rfl, .closed handle closed, rfl⟩
    | error error => exact reportFailure_meets served carries rfl rfl

theorem closeWorkspaceRpc_meets (request : GrpcRequest CloseMessage) :
    (closeWorkspaceRpc security request).Meets Seen.add (MayDo security (.closeWorkspace request))
      (fun g' reply => Answered security (.closeWorkspace request) g'.milestones reply)
      (fun g' status => Refused security (.closeWorkspace request) g'.milestones status) Seen.new := by
  unfold closeWorkspaceRpc
  refine (orRefused (begin_meets free_mayDo secured Seen.unserved_new request)).bind ?_
  rintro _ ⟨audit, caller⟩ ⟨known, rfl, carries, who⟩
  refine (orRefused (readRequest_meets free_mayDo (known.unserved _) carries.mandatory _)).bind ?_
  rintro _ handle ⟨rfl, reads⟩
  refine (closeLocked_meets reads carries who).bind ?_
  exact fun g result ⟨carried, carries, done⟩ => done.report carries

/-! ## The status handlers -/

omit [ResponseWire] secured in
theorem admit_unserved {audit : SecurityAuditRequest} {caller : Caller} {known : Identified} (unserved : g.Unserved)
    (carries : audit.Carries known) (who : caller.authenticatedPrincipal = some known.principal) (workspace : String)
    (operations : List SecurityOperation) :
    (admitOperations security audit caller workspace operations).Meets Seen.add (MayDo security call)
      (fun g' audit' => g'.Unserved ∧ audit'.Carries known) (fun g' _ => g'.Unserved) g := by
  unfold admitOperations
  refine (authorizeOperations_meets free_mayDo unserved carries security who workspace operations).bind ?_
  rintro _ audit ⟨granted, rfl, carries, -⟩
  replace unserved : Seen.Unserved (g.notes granted.milestones) := unserved.notes (by simp [Granted.milestones])
  refine (auditAdmissionAllow_meets free_mayDo unserved carries).mono (fun _ _ may => may) ?_ fun _ _ h => h
  rintro _ audit ⟨carries, admission, -, -, -, rfl⟩
  exact ⟨unserved.notes (by simp), carries⟩

theorem recordedAuditStatus_meets (unserved : g.Unserved) (request : GrpcRequest Unit) :
    (recordedAuditStatus security request).Meets Seen.add (MayDo security call) (fun g' reply => g'.Unserved ∧ reply.ofStatus = true)
      (fun g' _ => g'.Unserved) g := by
  unfold recordedAuditStatus
  refine (begin_meets free_mayDo secured unserved request).bind ?_
  rintro _ ⟨audit, caller⟩ ⟨known, rfl, carries, who⟩
  replace unserved := unserved.notes (known.unserved none)
  refine (admit_unserved unserved (carries.inWorkspace "service") who "service" _).bind ?_
  rintro g audit ⟨unserved, carries⟩
  refine (securityAuditStatusResponse_meets free_mayDo unserved security true).bind fun g response unserved => ?_
  refine (reported free_mayDo carries .delivery .notApplicable .responseHandedOff
    (fun event => { event with deliveryOutcome := .handedOff }) fun _ => ⟨rfl, rfl, rfl, rfl⟩).bind ?_
  rintro _ _ ⟨rfl, time, later, -, reports, rfl⟩
  exact Proc.Meets.pure ⟨unserved.notes reports.unserved, rfl⟩

theorem degradedAuditStatus_meets (unserved : g.Unserved) (request : GrpcRequest Unit) :
    (degradedAuditStatus security request).Meets Seen.add (MayDo security call) (fun g' reply => g'.Unserved ∧ reply.ofStatus = true)
      (fun g' _ => g'.Unserved) g := by
  unfold degradedAuditStatus
  refine (orStatus_meets ((requestSecurityInputs_meets free_mayDo secured request).mono (fun _ _ may => may)
    (fun _ _ h => h) fun _ _ same => same ▸ unserved)).bind ?_
  rintro _ ⟨peer, _, actor⟩ ⟨principal, rfl, rfl⟩
  replace unserved : Seen.Unserved (g.notes [.authenticated principal]) := unserved.notes (by simp)
  refine (orStatus_meets ((authorize_meets free_mayDo security peer (some principal) actor "service" _).mono
    (fun _ _ may => may) (fun _ _ h => h) fun _ _ same => same ▸ unserved)).bind ?_
  rintro _ (reason | reason) ⟨context, -, -, -, decided⟩
  · obtain rfl := (decided reason).1 rfl
    refine (securityAuditStatusResponse_meets free_mayDo (unserved.notes (by simp)) security false).bind ?_
    exact fun g response unserved => Proc.Meets.pure ⟨unserved, rfl⟩
  · obtain rfl := (decided reason).2 rfl
    exact Proc.Meets.failed unserved

theorem securityAuditStatusRpc_meets (request : GrpcRequest Unit) :
    (securityAuditStatusRpc security request).Meets Seen.add (MayDo security call) (fun g' reply => g'.Unserved ∧ reply.ofStatus = true)
      (fun g' _ => g'.Unserved) Seen.new := by
  unfold securityAuditStatusRpc
  rw [if_neg (by simp [secured])]
  refine Proc.Meets.act (free_mayDo _ _ (by simp)) fun degraded => ?_
  have unserved := unserved_auditDegraded Seen.unserved_new degraded
  cases degraded with
  | false => exact recordedAuditStatus_meets secured unserved request
  | true =>
    refine Proc.Meets.act (free_mayDo _ _ (by simp)) fun recovered => ?_
    rcases recovered with _ | _ | _
    · exact degradedAuditStatus_meets secured unserved request
    · refine Proc.Meets.act (free_mayDo _ _ (by simp)) fun _ => ?_
      exact recordedAuditStatus_meets secured (unserved.notes (by simp)) request
    · exact degradedAuditStatus_meets secured unserved request

theorem securityStatusRpc_meets (request : GrpcRequest Unit) :
    (securityStatusRpc security request).Meets Seen.add (MayDo security call) (fun g' reply => g'.Unserved ∧ reply.ofStatus = true)
      (fun g' _ => g'.Unserved) Seen.new := by
  unfold securityStatusRpc
  refine (orStatus_meets ((ensureMandatoryAuditAvailable_meets free_mayDo secured).mono (fun _ _ may => may)
    (fun _ _ h => h) fun _ _ same => same ▸ Seen.unserved_new)).bind ?_
  rintro _ _ rfl
  have unserved : Seen.Unserved (Seen.new.notes [.available]) := Seen.unserved_new.notes (by simp)
  refine (orStatus_meets ((requestSecurityInputs_meets free_mayDo secured request).mono (fun _ _ may => may)
    (fun _ _ h => h) fun _ _ same => same ▸ unserved)).bind ?_
  rintro _ ⟨peer, _, actor⟩ ⟨principal, rfl, rfl⟩
  exact Proc.Meets.pure ⟨unserved.notes (by simp), rfl⟩

/-- A handler of a secured service touches a workspace only when its call is cleared, and
ends with what it did on record. -/
theorem handle_meets (call : GrpcCall) :
    (handle security call).Meets Seen.add (MayDo security call)
      (fun g' reply => Answered security call g'.milestones reply)
      (fun g' status => Refused security call g'.milestones status) Seen.new := by
  cases call with
  | securityStatus request =>
    exact (securityStatusRpc_meets secured request).mono (fun _ _ may => may) (fun _ reply h => .status reply h.2 h.1)
      fun _ status h => .unserved status h
  | securityAuditStatus request =>
    exact (securityAuditStatusRpc_meets secured request).mono (fun _ _ may => may) (fun _ reply h => .status reply h.2 h.1)
      fun _ status h => .unserved status h
  | createWorkspace request => exact createWorkspaceRpc_meets secured request
  | openWorkspace request => exact openWorkspaceRpc_meets secured request
  | executeWorkspace request => exact executeWorkspaceRpc_meets secured request
  | closeWorkspace request => exact closeWorkspaceRpc_meets secured request

end Secured

end Replies

end Handler
