import Grm.Lib.Retention
import Grm.Service.AuditStore

/-!
# The bounded audit sink

`BoundedSecurityAuditSink`: the in-memory sink of security audit events. An append evicts
from the front of a queue until the new event has room, and refuses it when there is none
even in an empty queue. The sizes are those of events in memory, so their sums are within
`usize`; a poisoned lock is left out.
-/

set_option autoImplicit false

/-- `BoundedSecurityAuditState`. -/
structure BoundedSecurityAuditState where
  events : List SecurityAuditEvent
  retainedBytes : Nat
  degraded : Bool
  nextRequestId : Nat
  nextEventId : Nat
  nextSequence : Nat

/-- The limits of a `BoundedSecurityAuditSink`. -/
structure BoundedSecurityAuditSink where
  maxEvents : Nat
  maxBytes : Nat
  maxAge : Duration

namespace BoundedSecurityAuditState

/-- The state of `BoundedSecurityAuditSink::new`. -/
def new : BoundedSecurityAuditState where
  events := []
  retainedBytes := 0
  degraded := false
  nextRequestId := 1
  nextEventId := 1
  nextSequence := 1

/-- `allocate_request_id`. -/
def allocateRequestId (state : BoundedSecurityAuditState) :
    BoundedSecurityAuditState × Except SecurityAuditSinkError Nat :=
  match checkedAdd state.nextRequestId 1 with
  | none => (state, .error .unavailable)
  | some next => ({ state with nextRequestId := next }, .ok state.nextRequestId)

/-- `allocate_event_identity`: the event id has been taken when the sequence runs out. -/
def allocateEventIdentity (state : BoundedSecurityAuditState) :
    BoundedSecurityAuditState × Except SecurityAuditSinkError (Nat × Nat) :=
  match checkedAdd state.nextEventId 1 with
  | none => (state, .error .unavailable)
  | some nextEvent =>
    match checkedAdd state.nextSequence 1 with
    | none => ({ state with nextEventId := nextEvent }, .error .unavailable)
    | some nextSequence =>
      ({ state with nextEventId := nextEvent, nextSequence }, .ok (state.nextEventId, state.nextSequence))

/-- `health`. -/
def health (state : BoundedSecurityAuditState) : SecurityAuditSinkHealth :=
  if state.degraded then .degraded else .healthy

end BoundedSecurityAuditState

namespace BoundedSecurityAuditSink
variable (sink : BoundedSecurityAuditSink) (structSize : Nat)

/-- The condition of the eviction loop. -/
def crowded (eventSize : Nat) (cutoff : Option SystemTime) (state : BoundedSecurityAuditState) : Bool :=
  decide (sink.maxEvents ≤ state.events.length) || decide (sink.maxBytes < state.retainedBytes + eventSize) ||
    cutoff.any fun cutoff => state.events.head?.any fun retained => decide (retained.timestamp < cutoff)

/-- The eviction loop, for at most `fuel` tests of its condition; `none` when it has not ended. -/
def evictLoop (eventSize : Nat) (cutoff : Option SystemTime) :
    Nat → BoundedSecurityAuditState → Option BoundedSecurityAuditState
  | 0, _ => none
  | fuel + 1, state =>
    if sink.crowded eventSize cutoff state then
      match state.events with
      | [] => some state
      | expired :: rest =>
        evictLoop eventSize cutoff fuel
          { state with events := rest, retainedBytes := state.retainedBytes - expired.size structSize }
    else some state

/-- What the eviction loop leaves of the events and of the retained bytes. -/
def evict (eventSize : Nat) (cutoff : Option SystemTime) :
    List SecurityAuditEvent → Nat → List SecurityAuditEvent × Nat
  | [], retainedBytes => ([], retainedBytes)
  | expired :: rest, retainedBytes =>
    if sink.maxEvents ≤ rest.length + 1 ∨ sink.maxBytes < retainedBytes + eventSize ∨
        (cutoff.any fun cutoff => decide (expired.timestamp < cutoff)) = true then
      evict eventSize cutoff rest (retainedBytes - expired.size structSize)
    else (expired :: rest, retainedBytes)

/-- `append`. -/
def append (state : BoundedSecurityAuditState) (event : SecurityAuditEvent) :
    BoundedSecurityAuditState × Except SecurityAuditSinkError Unit :=
  let eventSize := event.size structSize
  if securityAuditMaxEventBytes < eventSize ∨ sink.maxBytes < eventSize then (state, .error .eventTooLarge)
  else
    let cutoff := SystemTime.checkedSub event.timestamp sink.maxAge
    let (events, retainedBytes) := sink.evict structSize eventSize cutoff state.events state.retainedBytes
    let state := { state with events, retainedBytes }
    if sink.maxBytes < retainedBytes + eventSize ∨ sink.maxEvents ≤ events.length then
      ({ state with degraded := true }, .error .backpressure)
    else
      ({ state with events := events ++ [event], retainedBytes := retainedBytes + eventSize, degraded := false },
        .ok ())

/-- The loop ends after as many evictions as there are events, with what `evict` leaves. -/
theorem evictLoop_eq (eventSize : Nat) (cutoff : Option SystemTime) (state : BoundedSecurityAuditState) (fuel : Nat)
    (enough : state.events.length < fuel) :
    sink.evictLoop structSize eventSize cutoff fuel state =
      some { state with
        events := (sink.evict structSize eventSize cutoff state.events state.retainedBytes).1
        retainedBytes := (sink.evict structSize eventSize cutoff state.events state.retainedBytes).2 } := by
  obtain ⟨events, retainedBytes, degraded, request, identity, sequence⟩ := state
  dsimp only at enough ⊢
  induction events generalizing retainedBytes fuel with
  | nil =>
    obtain ⟨fuel, rfl⟩ : ∃ more, fuel = more + 1 := ⟨fuel - 1, by omega⟩
    rw [evictLoop, evict]
    split
    · rfl
    · rfl
  | cons expired rest ih =>
    obtain ⟨fuel, rfl⟩ : ∃ more, fuel = more + 1 := ⟨fuel - 1, by omega⟩
    have enough' : rest.length < fuel := by
      rw [List.length_cons] at enough
      omega
    have condition : sink.crowded eventSize cutoff ⟨expired :: rest, retainedBytes, degraded, request, identity, sequence⟩ =
        true ↔ (sink.maxEvents ≤ rest.length + 1 ∨ sink.maxBytes < retainedBytes + eventSize ∨
          (cutoff.any fun cutoff => decide (expired.timestamp < cutoff)) = true) := by
      simp only [crowded, List.length_cons, List.head?_cons, Option.any_some, Bool.or_eq_true, decide_eq_true_eq, or_assoc]
    rw [evictLoop, evict]
    by_cases more : sink.maxEvents ≤ rest.length + 1 ∨ sink.maxBytes < retainedBytes + eventSize ∨
        (cutoff.any fun cutoff => decide (expired.timestamp < cutoff)) = true
    · rw [if_pos (condition.2 more), if_pos more]
      exact ih _ _ enough'
    · rw [if_neg (fun crowded => more (condition.1 crowded)), if_neg more]

/-! ## The invariant -/

/-- The bytes of events. -/
def bytesOf (events : List SecurityAuditEvent) : Nat := (events.map (SecurityAuditEvent.size structSize)).sum

/-- Events that leave room for another one of the size. -/
def leavesRoom (eventSize : Nat) (cutoff : Option SystemTime) (events : List SecurityAuditEvent) : Bool :=
  decide (events.length < sink.maxEvents) && decide (bytesOf structSize events + eventSize ≤ sink.maxBytes) &&
    !(cutoff.any fun cutoff => events.head?.any fun retained => decide (retained.timestamp < cutoff))

/-- With the bytes of its events accounted for, eviction is retention. -/
theorem evict_eq (eventSize : Nat) (cutoff : Option SystemTime) (events : List SecurityAuditEvent) :
    sink.evict structSize eventSize cutoff events (bytesOf structSize events) =
      (Retention.retain (sink.leavesRoom structSize eventSize cutoff) events,
        bytesOf structSize (Retention.retain (sink.leavesRoom structSize eventSize cutoff) events)) := by
  induction events with
  | nil => rfl
  | cons expired rest ih =>
    have bytes : bytesOf structSize (expired :: rest) = expired.size structSize + bytesOf structSize rest := List.sum_cons
    have drops : (sink.maxEvents ≤ rest.length + 1 ∨ sink.maxBytes < bytesOf structSize (expired :: rest) + eventSize ∨
        (cutoff.any fun cutoff => decide (expired.timestamp < cutoff)) = true) ↔
        ¬sink.leavesRoom structSize eventSize cutoff (expired :: rest) = true := by
      simp only [leavesRoom, List.length_cons, List.head?_cons, Option.any_some, Bool.and_eq_true, decide_eq_true_eq,
        Bool.not_eq_true', Bool.not_eq_false, not_and_or, Nat.not_le, Nat.not_lt, or_assoc]
    rw [evict, Retention.retain]
    by_cases kept : sink.leavesRoom structSize eventSize cutoff (expired :: rest) = true
    · rw [if_neg (fun dropped => drops.1 dropped kept), if_pos kept]
    · rw [if_pos (drops.2 kept), if_neg kept, bytes, Nat.add_sub_cancel_left]
      exact ih

/-- The retained bytes are those of the retained events, and both are within the limits. -/
structure Within (state : BoundedSecurityAuditState) : Prop where
  bytes : state.retainedBytes = bytesOf structSize state.events
  maxBytes : state.retainedBytes ≤ sink.maxBytes
  maxEvents : state.events.length ≤ sink.maxEvents

theorem within_new : sink.Within structSize .new := ⟨rfl, Nat.zero_le _, Nat.zero_le _⟩

variable {sink structSize}

/-- What an append does on a sink within its limits: the event is too large, or every event that it
leaves is a recent one and it is appended, or the sink takes no events. -/
theorem Within.append_cases {state : BoundedSecurityAuditState} (h : sink.Within structSize state)
    (event : SecurityAuditEvent) :
    ((securityAuditMaxEventBytes < event.size structSize ∨ sink.maxBytes < event.size structSize) ∧
        sink.append structSize state event = (state, .error .eventTooLarge)) ∨
      (sink.maxEvents = 0 ∧
        sink.append structSize state event = ({ state with degraded := true }, .error .backpressure)) ∨
      ∃ kept, kept <:+ state.events ∧ kept.length < sink.maxEvents ∧
        bytesOf structSize kept + event.size structSize ≤ sink.maxBytes ∧
        ¬(securityAuditMaxEventBytes < event.size structSize ∨ sink.maxBytes < event.size structSize) ∧
        sink.append structSize state event =
          ({ state with
            events := kept ++ [event], retainedBytes := bytesOf structSize kept + event.size structSize
            degraded := false }, .ok ()) := by
  unfold append
  dsimp only
  by_cases large : securityAuditMaxEventBytes < event.size structSize ∨ sink.maxBytes < event.size structSize
  · exact .inl ⟨large, if_pos large⟩
  rw [if_neg large, h.bytes, evict_eq]
  have suffix := Retention.retain_suffix
    (sink.leavesRoom structSize (event.size structSize) (SystemTime.checkedSub event.timestamp sink.maxAge)) state.events
  rcases Retention.retain_fits_or_nil
    (sink.leavesRoom structSize (event.size structSize) (SystemTime.checkedSub event.timestamp sink.maxAge)) state.events
    with room | empty
  · obtain ⟨⟨fewer, smaller⟩, -⟩ : (_ ∧ _) ∧ _ := by
      simpa only [leavesRoom, Bool.and_eq_true, decide_eq_true_eq] using room
    have accepts := not_or.2 ⟨Nat.not_lt.2 smaller, Nat.not_le.2 fewer⟩
    exact .inr (.inr ⟨_, suffix, fewer, smaller, large, if_neg accepts⟩)
  · rw [empty]
    by_cases none : sink.maxEvents = 0
    · -- with no events allowed the queue was empty before
      have nothing : state.events = [] := List.length_eq_zero_iff.1 (Nat.le_zero.1 (none ▸ h.maxEvents))
      refine .inr (.inl ⟨none, ?_⟩)
      rw [if_pos (.inr (none ▸ Nat.zero_le _)), ← nothing, ← h.bytes]
    · refine .inr (.inr ⟨[], List.nil_suffix, Nat.pos_of_ne_zero none, ?_, large, ?_⟩)
      · show 0 + event.size structSize ≤ sink.maxBytes
        omega
      · refine if_neg (not_or.2 ⟨?_, ?_⟩)
        · show ¬sink.maxBytes < 0 + event.size structSize
          omega
        · show ¬sink.maxEvents ≤ 0
          omega

/-- An append keeps the limits. -/
theorem Within.append {state : BoundedSecurityAuditState} (h : sink.Within structSize state)
    (event : SecurityAuditEvent) : sink.Within structSize (sink.append structSize state event).1 := by
  rcases h.append_cases event with ⟨-, same⟩ | ⟨-, same⟩ | ⟨kept, -, fewer, smaller, -, same⟩
  · rw [same]
    exact h
  · rw [same]
    exact ⟨h.bytes, h.maxBytes, h.maxEvents⟩
  · rw [same]
    refine ⟨?_, smaller, ?_⟩
    · simp [bytesOf]
    · rw [List.length_append, List.length_singleton]
      exact fewer

/-- An append is refused exactly for an event over a size limit or by a sink of no events. -/
theorem Within.refused_iff {state : BoundedSecurityAuditState} (h : sink.Within structSize state)
    (event : SecurityAuditEvent) :
    (∃ error, (sink.append structSize state event).2 = .error error) ↔
      securityAuditMaxEventBytes < event.size structSize ∨ sink.maxBytes < event.size structSize ∨ sink.maxEvents = 0 := by
  rcases h.append_cases event with ⟨large, same⟩ | ⟨none, same⟩ | ⟨kept, -, fewer, -, small, same⟩
  · rw [same]
    exact ⟨fun _ => large.imp_right .inl, fun _ => ⟨_, rfl⟩⟩
  · rw [same]
    exact ⟨fun _ => .inr (.inr none), fun _ => ⟨_, rfl⟩⟩
  · rw [same]
    constructor
    · rintro ⟨error, refused⟩
      cases refused
    · rintro (tooLarge | tooLarge | none)
      · exact absurd (.inl tooLarge) small
      · exact absurd (.inr tooLarge) small
      · omega

/-! ## Runs -/

/-- A call of the sink. -/
inductive Call where
  | append (event : SecurityAuditEvent)
  | allocateRequestId
  | allocateEventIdentity

/-- The state of a sink, and the events whose append returned `Ok`, in order. -/
structure History where
  state : BoundedSecurityAuditState
  accepted : List SecurityAuditEvent

variable (sink structSize)

/-- The history after one more call. -/
def call (h : History) : Call → History
  | .append event =>
    match sink.append structSize h.state event with
    | (state, .ok ()) => { state, accepted := h.accepted ++ [event] }
    | (state, .error _) => { h with state }
  | .allocateRequestId => { h with state := h.state.allocateRequestId.1 }
  | .allocateEventIdentity => { h with state := h.state.allocateEventIdentity.1 }

/-- The history of calls on a new sink. -/
def run (calls : List Call) : History := calls.foldl (sink.call structSize) ⟨.new, []⟩

variable {sink structSize}

/-- The sink is within its limits and retains the last events that it accepted. -/
structure History.Bounded (sink : BoundedSecurityAuditSink) (structSize : Nat) (h : History) : Prop where
  within : sink.Within structSize h.state
  suffix : h.state.events <:+ h.accepted

theorem allocateRequestId_events (state : BoundedSecurityAuditState) :
    state.allocateRequestId.1.events = state.events ∧ state.allocateRequestId.1.retainedBytes = state.retainedBytes := by
  unfold BoundedSecurityAuditState.allocateRequestId
  split
  · exact ⟨rfl, rfl⟩
  · exact ⟨rfl, rfl⟩

theorem allocateEventIdentity_events (state : BoundedSecurityAuditState) :
    state.allocateEventIdentity.1.events = state.events ∧
      state.allocateEventIdentity.1.retainedBytes = state.retainedBytes := by
  unfold BoundedSecurityAuditState.allocateEventIdentity
  split
  · exact ⟨rfl, rfl⟩
  · split
    · exact ⟨rfl, rfl⟩
    · exact ⟨rfl, rfl⟩

theorem Within.congr {state state' : BoundedSecurityAuditState} (h : sink.Within structSize state)
    (same : state'.events = state.events ∧ state'.retainedBytes = state.retainedBytes) : sink.Within structSize state' where
  bytes := by
    rw [same.1, same.2]
    exact h.bytes
  maxBytes := same.2 ▸ h.maxBytes
  maxEvents := same.1 ▸ h.maxEvents

/-- One call on a bounded history. -/
theorem History.Bounded.call {h : History} (bounded : h.Bounded sink structSize) (c : Call) :
    (sink.call structSize h c).Bounded sink structSize := by
  cases c with
  | append event =>
    have within := bounded.within.append event
    unfold BoundedSecurityAuditSink.call
    dsimp only
    rcases bounded.within.append_cases event with ⟨-, same⟩ | ⟨-, same⟩ | ⟨kept, suffix, -, -, -, same⟩
    · rw [same] at within ⊢
      exact ⟨within, bounded.suffix⟩
    · rw [same] at within ⊢
      exact ⟨within, bounded.suffix⟩
    · rw [same] at within ⊢
      refine ⟨within, ?_⟩
      obtain ⟨before, whole⟩ := suffix.trans bounded.suffix
      exact ⟨before, by rw [← whole, List.append_assoc]⟩
  | allocateRequestId =>
    have same := allocateRequestId_events h.state
    exact ⟨bounded.within.congr same, same.1.symm ▸ bounded.suffix⟩
  | allocateEventIdentity =>
    have same := allocateEventIdentity_events h.state
    exact ⟨bounded.within.congr same, same.1.symm ▸ bounded.suffix⟩

theorem run_bounded (sink : BoundedSecurityAuditSink) (structSize : Nat) (calls : List Call) :
    (sink.run structSize calls).Bounded sink structSize := by
  have step : ∀ (calls : List Call) (h : History), h.Bounded sink structSize →
      (calls.foldl (sink.call structSize) h).Bounded sink structSize := by
    intro calls
    induction calls with
    | nil => exact fun h bounded => bounded
    | cons c calls ih => exact fun h bounded => ih _ (bounded.call c)
  exact step calls _ ⟨within_new sink structSize, List.suffix_rfl⟩

/-- After any calls the retained bytes are those of the retained events, count and bytes are within
the limits, and the retained events are the last accepted ones. For any next event the eviction loop
ends within as many rounds as there are events, and the event is refused exactly when it is over a
size limit or the sink takes no events. -/
theorem every_run_bounded (sink : BoundedSecurityAuditSink) (structSize : Nat) (calls : List Call) :
    (sink.run structSize calls).state.retainedBytes =
        ((sink.run structSize calls).state.events.map (SecurityAuditEvent.size structSize)).sum ∧
      (sink.run structSize calls).state.retainedBytes ≤ sink.maxBytes ∧
      (sink.run structSize calls).state.events.length ≤ sink.maxEvents ∧
      (sink.run structSize calls).state.events <:+ (sink.run structSize calls).accepted ∧
      ∀ event : SecurityAuditEvent,
        (∀ fuel, (sink.run structSize calls).state.events.length < fuel →
          (sink.evictLoop structSize (event.size structSize) (SystemTime.checkedSub event.timestamp sink.maxAge) fuel
            (sink.run structSize calls).state).isSome = true) ∧
        ((∃ error, (sink.append structSize (sink.run structSize calls).state event).2 = .error error) ↔
          securityAuditMaxEventBytes < event.size structSize ∨ sink.maxBytes < event.size structSize ∨
            sink.maxEvents = 0) := by
  obtain ⟨within, suffix⟩ := run_bounded sink structSize calls
  refine ⟨within.bytes, within.maxBytes, within.maxEvents, suffix, fun event => ⟨fun fuel enough => ?_, ?_⟩⟩
  · rw [sink.evictLoop_eq structSize _ _ _ fuel enough]
    rfl
  · exact within.refused_iff event

end BoundedSecurityAuditSink
