import Grm.Service.Gate

/-!
# Runs of the gRPC service

Any number of calls beside each other, their actions in any order, with the answers of the
authenticator, the policy, the sink and the files whatever they are. A call that holds the
lock finds the workspaces as it was given them, so what it was cleared for is what it does;
and what the calls do on the workspaces is a sequence, each of them in one place of it.
-/

set_option autoImplicit false

open Service

/-- A gRPC service with its calls. -/
abbrev GrpcServer [ResponseWire] := Pool GrpcCall GrpcWorkspaceService GrpcAction.Answer Status GrpcReply

abbrev GrpcEvent := PoolEvent GrpcCall GrpcWorld

/-- What a call has seen. -/
def seenBy (history : List (Nat × Performed GrpcAction.Answer)) (i : Nat) : Seen :=
  Pool.ghost Seen.add Seen.new history i

theorem seenBy_own {history : List (Nat × Performed GrpcAction.Answer)} {i : Nat} {e : Performed GrpcAction.Answer} :
    seenBy (history ++ [(i, e)]) i = (seenBy history i).add e := Pool.ghost_append_own

theorem seenBy_other {history : List (Nat × Performed GrpcAction.Answer)} {i j : Nat} {e : Performed GrpcAction.Answer}
    (ne : j ≠ i) : seenBy (history ++ [(j, e)]) i = seenBy history i := Pool.ghost_append_other ne

/-- A call that holds the lock, and only it, has the workspaces as they are. -/
def LockHeld (s : GrpcWorkspaceService) (history : List (Nat × Performed GrpcAction.Answer)) : Prop :=
  ∀ i service, (seenBy history i).held = some service → s.lockedBy = some i ∧ s.process.service = service

/-! ## The calls on the workspaces -/

/-- A call on the workspaces, with its reply. -/
abbrev ServedEntry := Σ call : WorkspaceCall, call.Reply

/-- The call on the workspaces that an action is. -/
def served? : Performed GrpcAction.Answer → Option ServedEntry
  | ⟨.serve call, reply⟩ => some ⟨call, reply⟩
  | _ => none

theorem served?_eq_none {action : GrpcAction} (r : action.Answer) (untouched : ∀ call, action ≠ .serve call) :
    served? ⟨action, r⟩ = none := by
  cases action with
  | serve call => exact absurd rfl (untouched call)
  | _ => rfl

/-- The calls on the workspaces, in their order, each with the call of the service it is of. -/
def servedOf (history : List (Nat × Performed GrpcAction.Answer)) : List (Nat × ServedEntry) :=
  history.filterMap fun e => (served? e.2).map (e.1, ·)

theorem servedOf_append (history later : List (Nat × Performed GrpcAction.Answer)) :
    servedOf (history ++ later) = servedOf history ++ servedOf later := List.filterMap_append

theorem servedOf_single (i : Nat) (e : Performed GrpcAction.Answer) :
    servedOf [(i, e)] = ((served? e).map (i, ·)).toList := by
  cases found : served? e <;> simp [servedOf, found]

def Milestone.served? : Milestone → Option ServedEntry
  | .served call reply => some ⟨call, reply⟩
  | _ => none

theorem Seen.add_served (g : Seen) (e : Performed GrpcAction.Answer) :
    (g.add e).milestones.filterMap Milestone.served? = g.milestones.filterMap Milestone.served? ++ (served? e).toList := by
  unfold Seen.add
  split
  case h_9 call reply => simp [Milestone.served?, served?]
  case h_10 =>
    rename_i untouched
    obtain ⟨action, r⟩ := e
    rw [served?_eq_none r (by rintro call rfl; exact untouched call r rfl)]
    simp
  all_goals simp [Milestone.served?, served?]

theorem Clearance.served_nil {operations : List SecurityOperation} {workspace : String}
    (cleared : Clearance operations workspace) : cleared.milestones.filterMap Milestone.served? = [] := by
  simp [Clearance.milestones, Identified.milestones, Granted.milestones, Milestone.served?]

theorem Reports.served_nil {event : SecurityAuditEvent} {later : List Milestone} (h : Reports event later) :
    later.filterMap Milestone.served? = [] := by
  cases h <;> simp [Milestone.served?]

theorem ServedCall.served_own {security : ServiceSecurityConfig} {call : GrpcCall} (served : ServedCall security call) :
    served.milestones.filterMap Milestone.served? = [⟨served.target, served.reply⟩] := by
  rw [ServedCall.milestones, List.filterMap_append, served.cleared.served_nil]
  rfl

/-- What one call did on the workspaces is what it has seen done. -/
theorem ownHistory_servedOf (history : List (Nat × Performed GrpcAction.Answer)) (i : Nat) :
    ownHistory (servedOf history) i = (seenBy history i).milestones.filterMap Milestone.served? := by
  induction history using List.reverseRecOn with
  | nil => rfl
  | append_singleton history e ih =>
    obtain ⟨j, e⟩ := e
    rw [servedOf_append]
    rw [servedOf_single]
    by_cases same : j = i
    · subst same
      rw [seenBy_own, Seen.add_served, ← ih]
      cases served? e with
      | none => simp
      | some entry => exact ownHistory_append_own
    · rw [seenBy_other same, ← ih]
      cases served? e with
      | none => simp
      | some entry => exact ownHistory_append_other same

section Runs
variable [Codecs] [Externals]

namespace GrpcWorkspaceService

/-- An action that is none of the lock and none on the workspaces leaves both. -/
theorem answer_other {world : GrpcWorld} {s s' : GrpcWorkspaceService} {i : Nat} {action : GrpcAction} {r : action.Answer}
    (answered : s.answer world i action = some (s', r)) (unlocked : action ≠ .lock ∧ action ≠ .unlock)
    (untouched : ∀ call, action ≠ .serve call) : s'.process = s.process ∧ s'.lockedBy = s.lockedBy := by
  cases action with
  | lock => exact absurd rfl unlocked.1
  | unlock => exact absurd rfl unlocked.2
  | serve call => exact absurd rfl (untouched call)
  | _ =>
    obtain ⟨rfl, -⟩ := Prod.mk.inj (Option.some.inj answered)
    exact ⟨rfl, rfl⟩

theorem answer_lock {world : GrpcWorld} {s s' : GrpcWorkspaceService} {i : Nat} {service : InProcessWorkspaceService}
    (answered : s.answer world i .lock = some (s', service)) :
    s.lockedBy = none ∧ s' = { s with lockedBy := some i } ∧ service = s.process.service := by
  simp only [answer] at answered
  split at answered
  case isTrue free =>
    obtain ⟨rfl, rfl⟩ := Prod.mk.inj (Option.some.inj answered)
    exact ⟨free, rfl, rfl⟩
  case isFalse => cases answered

theorem answer_unlock {world : GrpcWorld} {s s' : GrpcWorkspaceService} {i : Nat} {r : GrpcAction.unlock.Answer}
    (answered : s.answer world i .unlock = some (s', r)) :
    s.lockedBy = some i ∧ s' = { s with lockedBy := none } := by
  simp only [answer] at answered
  split at answered
  case isTrue own =>
    obtain ⟨rfl, -⟩ := Prod.mk.inj (Option.some.inj answered)
    exact ⟨own, rfl⟩
  case isFalse => cases answered

theorem answer_serve {world : GrpcWorld} {s s' : GrpcWorkspaceService} {i : Nat} {call : WorkspaceCall} {reply : call.Reply}
    (answered : s.answer world i (.serve call) = some (s', reply)) :
    s.lockedBy = some i ∧ s.process.serve world call = (s'.process, reply) ∧ s'.lockedBy = some i := by
  simp only [answer] at answered
  split at answered
  case isTrue own =>
    obtain ⟨rfl, rfl⟩ := Prod.mk.inj (Option.some.inj answered)
    exact ⟨own, rfl, own⟩
  case isFalse => cases answered

theorem answer_process {world : GrpcWorld} {s s' : GrpcWorkspaceService} {i : Nat} {action : GrpcAction}
    {r : action.Answer} (answered : s.answer world i action = some (s', r)) (untouched : ∀ call, action ≠ .serve call) :
    s'.process = s.process := by
  cases action with
  | lock =>
    obtain ⟨-, rfl, -⟩ := answer_lock answered
    rfl
  | unlock =>
    obtain ⟨-, rfl⟩ := answer_unlock answered
    rfl
  | serve call => exact absurd rfl (untouched call)
  | _ => exact (answer_other answered (by simp) (by simp)).1

/-- A call that holds the lock keeps the workspaces as it found them. -/
theorem answer_lockHeld {world : GrpcWorld} {s s' : GrpcWorkspaceService} {history : List (Nat × Performed GrpcAction.Answer)}
    {i : Nat} {action : GrpcAction} {r : action.Answer} (h : LockHeld s history)
    (answered : s.answer world i action = some (s', r)) : LockHeld s' (history ++ [(i, ⟨action, r⟩)]) := by
  intro j service held
  by_cases same : i = j
  · subst same
    rw [seenBy_own] at held
    cases action with
    | lock =>
      obtain ⟨-, rfl, rfl⟩ := answer_lock answered
      exact ⟨rfl, Option.some.inj held⟩
    | unlock => cases held
    | serve call => cases held
    | _ =>
      obtain ⟨process, locked⟩ := answer_other answered (by simp) (by simp)
      rw [Seen.add_held _ _ (by simp) (by simp)] at held
      rw [process, locked]
      exact h i service held
  · rw [seenBy_other same] at held
    obtain ⟨locked, found⟩ := h j service held
    cases action with
    | lock =>
      have free := (answer_lock answered).1
      rw [locked] at free
      cases free
    | unlock =>
      have own := (answer_unlock answered).1
      rw [locked] at own
      exact absurd (Option.some.inj own).symm same
    | serve call =>
      have own := (answer_serve answered).1
      rw [locked] at own
      exact absurd (Option.some.inj own).symm same
    | _ =>
      obtain ⟨process, locked'⟩ := answer_other answered (by simp) (by simp)
      rw [process, locked']
      exact ⟨locked, found⟩

end GrpcWorkspaceService

/-! ## Runs -/

variable [ResponseWire]

namespace GrpcServer

/-- A service over its workspaces, run from its start. -/
def run (security : ServiceSecurityConfig) (process : ServiceProcess) (events : List GrpcEvent) : GrpcServer :=
  (Pool.new (.fromInProcess process)).run GrpcWorkspaceService.host (Handler.handle security) events

/-- One more event. -/
def apply (security : ServiceSecurityConfig) (server : GrpcServer) (event : GrpcEvent) : GrpcServer :=
  Pool.apply GrpcWorkspaceService.host (Handler.handle security) server event

variable {security : ServiceSecurityConfig} {process : ServiceProcess}

theorem lockHeld_run (events : List GrpcEvent) :
    LockHeld (run security process events).shared (run security process events).history := by
  refine Pool.run_invariant LockHeld (by intro i service held; cases held) ?_ ?_ events
  · exact fun world s history i action s' r h answered => GrpcWorkspaceService.answer_lockHeld h answered
  · exact fun world s history h => h

theorem follows_run (secured : security.profile = .secured) (events : List GrpcEvent) :
    Pool.Follows Seen.add Seen.new (Handler.MayDo security)
      (fun call g reply => Answered security call g.milestones reply)
      (fun call g status => Refused security call g.milestones status) (run security process events) :=
  (Pool.follows_new _).run (Handler.handle_meets secured) events

/-- In every run of a secured service, its workspaces change only when a call is done that is
cleared: its caller was authenticated, the policy allowed the operations it is classified by
in the workspaces as they are, and all of that is on record. Only their files may be changed
by others. -/
theorem workspaces_change_when_cleared (secured : security.profile = .secured) (events : List GrpcEvent) (event : GrpcEvent) :
    ((run security process events).apply security event).shared.process = (run security process events).shared.process ∨
    (∃ world, event = .interfere world ∧
      ((run security process events).apply security event).shared.process.service =
        (run security process events).shared.process.service) ∨
    ∃ i world call target next, event = .step i world ∧
      (run security process events).calls i = some (call, .act (.serve target) next) ∧
      ((run security process events).apply security event).shared.process =
        ((run security process events).shared.process.serve world target).1 ∧
      Cleared security call (run security process events).shared.process.service
        (seenBy (run security process events).history i).milestones target := by
  rcases Pool.apply_cases GrpcWorkspaceService.host (Handler.handle security) (run security process events) event with
    same | ⟨i, call, -, -, after⟩ | ⟨i, world, call, action, next, s, r, rfl, here, answered, after⟩ | ⟨world, rfl, after⟩
  · exact .inl (congrArg (·.shared.process) same)
  · exact .inl (congrArg (·.shared.process) after)
  · have now : ((run security process events).apply security (.step i world)).shared = s := congrArg (·.shared) after
    rw [now]
    by_cases touches : ∃ target, action = .serve target
    · obtain ⟨target, rfl⟩ := touches
      obtain ⟨own, served, -⟩ := GrpcWorkspaceService.answer_serve answered
      obtain ⟨may, -⟩ := (follows_run secured events).begun i call _ here
      obtain ⟨service, held, cleared⟩ := may target rfl
      obtain ⟨-, found⟩ := lockHeld_run events i service held
      refine .inr (.inr ⟨i, world, call, target, next, rfl, here, ?_, ?_⟩)
      · rw [served]
      · rw [found]
        exact cleared
    · exact .inl (GrpcWorkspaceService.answer_process answered fun target touched => touches ⟨target, touched⟩)
  · exact .inr (.inl ⟨world, rfl, congrArg (·.shared.process.service) after⟩)

/-- In every run of a secured service, a call that has ended has on record what it did: a
reply other than a status is that of one call on the workspaces the caller was cleared for,
with its success, its durability and its delivery reported; a call that failed was refused
before it touched the workspaces, or its failure is reported, or its response has no wire
form. -/
theorem ended_calls_are_on_record (secured : security.profile = .secured) (events : List GrpcEvent) (i : Nat)
    (call : GrpcCall) :
    (∀ reply, (run security process events).calls i = some (call, .ret reply) →
      Answered security call (seenBy (run security process events).history i).milestones reply) ∧
    ∀ status, (run security process events).calls i = some (call, .fail status) →
      Refused security call (seenBy (run security process events).history i).milestones status :=
  ⟨fun reply ended => (follows_run secured events).begun i call (.ret reply) ended,
    fun status ended => (follows_run secured events).begun i call (.fail status) ended⟩

end GrpcServer

/-! ## The sequence of the calls on the workspaces -/

/-- The workspaces come about by calls made one after the other, while others may change the files. -/
inductive InSequence : ServiceProcess → List (Nat × ServedEntry) → ServiceProcess → Prop where
  | start (p : ServiceProcess) : InSequence p [] p
  | serve {p p' : ServiceProcess} {log : List (Nat × ServedEntry)} (before : InSequence p log p') (i : Nat)
    (world : GrpcWorld) (call : WorkspaceCall) :
    InSequence p (log ++ [(i, ⟨call, (p'.serve world call).2⟩)]) (p'.serve world call).1
  | interfere {p p' : ServiceProcess} {log : List (Nat × ServedEntry)} (before : InSequence p log p') (disks : Disks) :
    InSequence p log { p' with disks }

namespace GrpcServer
variable {security : ServiceSecurityConfig} {process : ServiceProcess}

theorem inSequence_run (events : List GrpcEvent) :
    InSequence process (servedOf (run security process events).history) (run security process events).shared.process := by
  refine Pool.run_invariant (fun (s : GrpcWorkspaceService) history => InSequence process (servedOf history) s.process)
    ?_ ?_ ?_ events
  · exact .start process
  · intro world s history i action s' r h answered
    rw [servedOf_append]
    by_cases touches : ∃ call, action = .serve call
    · obtain ⟨call, rfl⟩ := touches
      obtain ⟨-, served, -⟩ := GrpcWorkspaceService.answer_serve answered
      have after := h.serve i world call
      rw [served] at after
      exact after
    · have untouched : ∀ call, action ≠ .serve call := fun call touched => touches ⟨call, touched⟩
      rw [GrpcWorkspaceService.answer_process answered untouched, servedOf_single, served?_eq_none r untouched]
      simpa using h
  · exact fun world s history h => h.interfere world.disks

/-- A call does one thing on the workspaces at most. -/
theorem served_once (secured : security.profile = .secured) (events : List GrpcEvent) (i : Nat) :
    (ownHistory (servedOf (run security process events).history) i).length ≤ 1 := by
  induction events using List.reverseRecOn with
  | nil => simp [run, Pool.run, Pool.new, servedOf, ownHistory]
  | append_singleton events event ih =>
    rw [run, Pool.run_snoc]
    rcases Pool.apply_cases GrpcWorkspaceService.host (Handler.handle security) (run security process events) event with
      same | ⟨j, call, -, -, after⟩ | ⟨j, world, call, action, next, s, r, -, here, -, after⟩ | ⟨world, -, after⟩
    · exact (congrArg (·.history) same) ▸ ih
    · exact (congrArg (·.history) after) ▸ ih
    · rw [show (Pool.apply _ _ (Pool.run _ _ _ events) event).history = _ from congrArg (·.history) after,
        ownHistory_servedOf]
      by_cases own : j = i
      · subst own
        rw [seenBy_own, Seen.add_served, ← ownHistory_servedOf]
        by_cases touches : ∃ target, action = .serve target
        · obtain ⟨target, rfl⟩ := touches
          obtain ⟨may, -⟩ := (follows_run secured events).begun j call _ here
          obtain ⟨service, -, operations, workspace, -, cleared, all⟩ := may target rfl
          have unserved : (seenBy (run security process events).history j).milestones = cleared.milestones := all
          rw [ownHistory_servedOf, unserved, cleared.served_nil]
          simp [served?]
        · rw [served?_eq_none r fun target touched => touches ⟨target, touched⟩]
          simpa using ih
      · rw [seenBy_other own, ← ownHistory_servedOf]
        exact ih
    · exact (congrArg (·.history) after) ▸ ih

/-- Every run of a secured service is linearizable: what its calls do on the workspaces is a
sequence, in which each call has one place at most, and a call that returns a reply other
than a status has one, with the outcome the reply is made of. -/
theorem calls_take_effect_in_sequence (secured : security.profile = .secured) (events : List GrpcEvent) :
    InSequence process (servedOf (run security process events).history) (run security process events).shared.process ∧
    ∀ i, (ownHistory (servedOf (run security process events).history) i).length ≤ 1 ∧
      ∀ call reply, (run security process events).calls i = some (call, .ret reply) → reply.ofStatus = false →
        ∃ entry : ServedEntry, ownHistory (servedOf (run security process events).history) i = [entry] ∧
          Gives entry.1 entry.2 reply := by
  refine ⟨inSequence_run events, fun i => ⟨served_once secured events i, fun call reply ended changes => ?_⟩⟩
  have answered := (follows_run secured events).begun i call (.ret reply) ended
  cases answered with
  | status _ ofStatus _ =>
    rw [changes] at ofStatus
    cases ofStatus
  | served served _ gives runtime durability delivery later later' later'' _ _ _ reports all =>
    refine ⟨⟨served.target, served.reply⟩, ?_, gives⟩
    have milestones : (seenBy (run security process events).history i).milestones =
        served.milestones ++ later ++ later' ++ later'' := all
    rw [ownHistory_servedOf, milestones, List.filterMap_append, List.filterMap_append, List.filterMap_append,
      served.served_own, reports.1.served_nil, reports.2.1.served_nil, reports.2.2.served_nil]
    rfl

end GrpcServer

end Runs

/-! ### A handle is closed -/

/-- Responses without a content. -/
instance emptyWire : ResponseWire := ⟨Unit, fun _ => .ok ()⟩

def securedConfig : ServiceSecurityConfig := ⟨.secured, none, 128⟩

/-- Everyone is authenticated and allowed, and nothing fails. -/
def allowingWorld : GrpcWorld where
  allocatedRequestId := .ok 1
  allocatedEventIdentity := .ok (1, 1)
  appended _ := .ok ()
  recovered := .ok .healthy
  health := .healthy
  retained := []
  limits := (1, 1, 1)
  futureDated := 0
  time := 0
  authenticated _ _ := some (some ⟨"issuer", "alice", "token"⟩)
  decided _ := some (.allow .explicitPolicyAllow)
  random := none
  inspect _ := none
  saveFault := none
  persistFaults := {}
  disks := ∅

def closeFirst : GrpcCall := .closeWorkspace ⟨none, [], [], ⟨some firstHandle⟩⟩

def closeEvents (steps : Nat) : List GrpcEvent := .begin 0 closeFirst :: List.replicate steps (.step 0 allowingWorld)

namespace GrpcServer

/-- Whether a call is about to close the handle. -/
def closesNext (server : GrpcServer) (i : Nat) (handle : WorkspaceHandle) : Bool :=
  match server.calls i with
  | some (_, .act (.serve (.closeWorkspace closed)) _) => closed == handle
  | _ => false

/-- Whether a call has returned that it closed the handle. -/
def hasClosed (server : GrpcServer) (i : Nat) (handle : WorkspaceHandle) : Bool :=
  match server.calls i with
  | some (_, .ret (.closed closed)) => closed == handle
  | _ => false

theorem target_of_closesNext {server : GrpcServer} {i : Nat} {handle : WorkspaceHandle} {call : GrpcCall}
    {target : WorkspaceCall} {next : target.Reply → Handler Status GrpcReply} (closes : server.closesNext i handle = true)
    (here : server.calls i = some (call, .act (.serve target) next)) : target = .closeWorkspace handle := by
  unfold closesNext at closes
  rw [here] at closes
  cases target with
  | closeWorkspace closed => rw [beq_iff_eq.1 closes]
  | _ => cases closes

theorem returned_of_hasClosed {server : GrpcServer} {i : Nat} {handle : WorkspaceHandle}
    (closed : server.hasClosed i handle = true) : ∃ call, server.calls i = some (call, .ret (.closed handle)) := by
  unfold hasClosed at closed
  split at closed
  case h_1 call closed' here => exact ⟨call, by rw [here, beq_iff_eq.1 closed]⟩
  case h_2 => cases closed

end GrpcServer

section Closing
variable [Codecs] [Externals]

@[irreducible] def closing (steps : Nat) : GrpcServer := .run securedConfig ⟨notesOpened, notesDisks⟩ (closeEvents steps)

@[irreducible] def closingNext : GrpcServer := (closing 17).apply securedConfig (.step 0 allowingWorld)

theorem closing_run (steps : Nat) :
    closing steps = .run securedConfig ⟨notesOpened, notesDisks⟩ (closeEvents steps) := by unfold closing; rfl

theorem closingNext_apply : closingNext = (closing 17).apply securedConfig (.step 0 allowingWorld) := by
  unfold closingNext; rfl

end Closing

theorem closing_opened :
    (@closing userCodecs .plainOnly 17).shared.process.service.workspaceHandles.contains firstHandle.id = true := by
  decide +kernel

theorem closing_pending : (@closing userCodecs .plainOnly 17).closesNext 0 firstHandle = true := by
  decide +kernel

theorem closing_next :
    (@closingNext userCodecs .plainOnly).shared.process.service.workspaceHandles.contains firstHandle.id = false := by
  decide +kernel

theorem closing_ended : (@closing userCodecs .plainOnly 28).hasClosed 0 firstHandle = true := by
  decide +kernel

/-- The handle goes when its call is cleared. -/
theorem close_when_cleared :
    letI := userCodecs
    letI := Externals.plainOnly
    closingNext.shared.process.service.workspaceHandles.contains firstHandle.id = false ∧
    ∃ call, Cleared securedConfig call (closing 17).shared.process.service (seenBy (closing 17).history 0).milestones
      (.closeWorkspace firstHandle) := by
  refine ⟨closing_next, ?_⟩
  have opened := closing_opened
  have pending := closing_pending
  have gone := closing_next
  rw [@closingNext_apply userCodecs .plainOnly] at gone
  rw [@closing_run userCodecs .plainOnly] at opened pending gone ⊢
  rcases @GrpcServer.workspaces_change_when_cleared userCodecs .plainOnly _ securedConfig ⟨notesOpened, notesDisks⟩ rfl
    (closeEvents 17) (.step 0 allowingWorld) with same | ⟨world, different, -⟩ | ⟨i, world, call, target, next, own, here, -, cleared⟩
  · rw [same, opened] at gone
    cases gone
  · cases different
  · cases own
    obtain rfl := GrpcServer.target_of_closesNext pending here
    exact ⟨call, cleared⟩

/-- The closing is on record. -/
theorem close_on_record :
    letI := userCodecs
    letI := Externals.plainOnly
    ∃ call, Answered securedConfig call (seenBy (closing 28).history 0).milestones (.closed firstHandle) := by
  obtain ⟨call, ended⟩ := GrpcServer.returned_of_hasClosed closing_ended
  rw [@closing_run userCodecs .plainOnly] at ended ⊢
  exact ⟨call, (@GrpcServer.ended_calls_are_on_record userCodecs .plainOnly _ securedConfig ⟨notesOpened, notesDisks⟩ rfl
    (closeEvents 28) 0 call).1 _ ended⟩

/-- The closing is the one thing that its call does on the workspaces. -/
theorem close_in_sequence :
    letI := userCodecs
    letI := Externals.plainOnly
    InSequence ⟨notesOpened, notesDisks⟩ (servedOf (closing 28).history) (closing 28).shared.process ∧
    ∃ entry : ServedEntry, ownHistory (servedOf (closing 28).history) 0 = [entry] ∧
      Gives entry.1 entry.2 (.closed firstHandle) := by
  obtain ⟨call, ended⟩ := GrpcServer.returned_of_hasClosed closing_ended
  rw [@closing_run userCodecs .plainOnly] at ended ⊢
  obtain ⟨sequential, each⟩ := @GrpcServer.calls_take_effect_in_sequence userCodecs .plainOnly _ securedConfig
    ⟨notesOpened, notesDisks⟩ rfl (closeEvents 28)
  exact ⟨sequential, (each 0).2 call _ ended rfl⟩
