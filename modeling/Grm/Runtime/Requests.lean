import Grm.Runtime.Dispatch
import Grm.Runtime.Mutations

/-!
# What a request does

A read leaves the durable part and the store's soundness alone. Any request takes the
durable part through the admissible entries it reports, in order; a request that fails
takes it nowhere.
-/

open Std

set_option autoImplicit false

/-! ## Reads -/

namespace GraphStore

/-- A store after a read: the same durable part, and sound if it was. -/
structure ReadsTo (s s' : GraphStore) : Prop where
  persisted : s'.toPersisted = s.toPersisted
  sound : s.Sound → s'.Sound

theorem ReadsTo.refl (s : GraphStore) : s.ReadsTo s := ⟨rfl, id⟩

theorem ReadsTo.trans {s t u : GraphStore} (first : s.ReadsTo t) (second : t.ReadsTo u) : s.ReadsTo u :=
  ⟨second.persisted.trans first.persisted, second.sound ∘ first.sound⟩

theorem readsTo_freshProps (s : GraphStore) : s.ReadsTo s.freshProps where
  persisted := by simp [toPersisted]
  sound h := ⟨h.indexed.freshProps, by simpa using h.nodeBelow, by simpa using h.relBelow⟩

theorem snapshotNodesFiltered_reads (s : GraphStore) (label : String) (id : Option Int)
    (property : Option (String × Value)) : s.ReadsTo (s.snapshotNodesFiltered label id property).1 := by
  cases id with
  | some id => exact .refl s
  | none => cases property with
    | none => exact .refl s
    | some entry => exact readsTo_freshProps s

end GraphStore

theorem TxDelta.applyTo_nothing (s : GraphStore) : ({} : TxDelta).applyTo s = s := by
  simp [applyTo]

namespace InMemoryTx

/-- A read-only transaction commits the store it read. -/
theorem ReadOf.commit_reads {s : GraphStore} {tx : InMemoryTx} (read : (new s).ReadOf tx) : s.ReadsTo tx.commit := by
  rcases read with rfl | rfl
  · rw [commit, new, TxDelta.applyTo_nothing]
    exact .refl s
  · rw [commit, new, TxDelta.applyTo_nothing]
    exact GraphStore.readsTo_freshProps s

theorem executeGraphQuery_read {tx tx' : InMemoryTx} {q : GraphQuery} {rows : List QueryRow}
    (ok : tx.executeGraphQuery q = .ok (tx', rows)) : tx.ReadOf tx' := by
  obtain ⟨⟨after, selected⟩, chosen, ok⟩ := GrmResult.bind_eq_ok.1 ok
  obtain ⟨ctx, -, chosen⟩ := GrmResult.bind_eq_ok.1 chosen
  cases chosen
  cases ok
  exact seedRoots_read tx ctx.rootNm

end InMemoryTx

namespace SessionState
variable [Externals]

/-- A session after a read. -/
structure ReadsTo (s s' : SessionState) : Prop where
  store : s.store.ReadsTo s'.store
  catalog : s'.catalog = s.catalog

omit [Externals] in
theorem ReadsTo.refl (s : SessionState) : s.ReadsTo s := ⟨.refl _, rfl⟩

omit [Externals] in
theorem ReadsTo.persisted {s s' : SessionState} (reads : s.ReadsTo s') : s'.persistedSession = s.persistedSession := by
  rw [persistedSession, persistedSession, reads.store.persisted, reads.catalog]

theorem findNodesWithQuery_reads (s : SessionState) (model : String) (query : NodeFindQuery) :
    s.ReadsTo (s.findNodesWithQuery model query).1 := by
  unfold findNodesWithQuery
  split
  · exact .refl s
  · split
    · exact .refl s
    · exact ⟨GraphStore.snapshotNodesFiltered_reads _ _ _ _, rfl⟩

theorem executeNodeTraversalQuery_reads (s : SessionState) (model : String) (query : NodeFindQuery) :
    s.ReadsTo (s.executeNodeTraversalQuery model query).1 := by
  unfold executeNodeTraversalQuery
  split
  · exact .refl s
  · unfold traversalRows
    dsimp only
    split
    · exact .refl s
    case h_2 executed => exact ⟨(InMemoryTx.executeGraphQuery_read executed).commit_reads, rfl⟩

theorem executeNodeQuery_reads (s : SessionState) (model : String) (query : NodeFindQuery) :
    s.ReadsTo (s.executeNodeQuery model query).1 := by
  unfold executeNodeQuery
  split
  · exact findNodesWithQuery_reads s model query
  · exact executeNodeTraversalQuery_reads s model query

theorem nodeFind_reads (s : SessionState) (request : NodeFindRequest) : s.ReadsTo (s.nodeFind request).1 := by
  unfold nodeFind
  split
  · exact .refl s
  · exact executeNodeQuery_reads s _ _

theorem profileNodeQuery_reads (s : SessionState) (model : String) (query : NodeFindQuery) :
    s.ReadsTo (s.profileNodeQuery model query).1 := by
  unfold profileNodeQuery
  split
  · exact findNodesWithQuery_reads s model query
  · split
    · exact .refl s
    · split
      · exact .refl s
      case h_2 m _ _ filters _ =>
        have counted := GraphStore.snapshotNodesFiltered_reads s.store m.label query.idFilter (indexedProperty filters)
        have found := executeNodeQuery_reads
          { s with store := (s.store.snapshotNodesFiltered m.label query.idFilter (indexedProperty filters)).1 }
          model query
        exact ⟨counted.trans found.store, found.catalog⟩

theorem profile_reads (s : SessionState) (query : QueryRequest) : s.ReadsTo (s.profile query).1 := by
  have node : ∀ request, s.ReadsTo (s.profileNode request).1 := by
    intro request
    unfold profileNode
    split
    · exact .refl s
    · exact profileNodeQuery_reads s _ _
  cases query with
  | nodeFind request => exact node request
  | traversal request => exact node request
  | edgeFind request => exact .refl s

end SessionState

/-! ## Sequences of admissible entries -/

/-- Admissible entries, each in the state the ones before it lead to. -/
inductive Steps [Externals] : PersistedSession → List DurableOperation → PersistedSession → Prop where
  | nil (d : PersistedSession) : Steps d [] d
  | cons {d d' d'' : PersistedSession} {op : DurableOperation} {ops : List DurableOperation}
      (admissible : Admissible d op) (replays : d.replay op = .ok d') (rest : Steps d' ops d'') : Steps d (op :: ops) d''

namespace Steps
variable [Externals] {d d' d'' : PersistedSession} {ops more : List DurableOperation}

theorem of_nil (steps : Steps d [] d') : d' = d := by
  cases steps
  rfl

theorem of_cons {op : DurableOperation} (steps : Steps d (op :: ops) d') :
    ∃ next, Admissible d op ∧ d.replay op = .ok next ∧ Steps next ops d' := by
  cases steps with
  | cons admissible replays rest => exact ⟨_, admissible, replays, rest⟩

theorem append (first : Steps d ops d') (second : Steps d' more d'') : Steps d (ops ++ more) d'' := by
  induction first with
  | nil d => exact second
  | cons admissible replays _ ih => exact .cons admissible replays (ih second)

theorem replayAll (steps : Steps d ops d') : d.replayAll ops = .ok d' := by
  induction steps with
  | nil d => rfl
  | cons admissible replays _ ih =>
    rw [PersistedSession.replayAll, replays]
    exact ih

/-- Packing the entries of a batch into one does not change their meaning. -/
theorem replayAll_pack (steps : Steps d ops d') : d.replayAll (packDurableOps ops) = .ok d' := by
  match ops, steps with
  | [], steps => exact steps.replayAll
  | [op], steps => exact steps.replayAll
  | op :: next :: ops, steps =>
    refine (PersistedSession.replayAll_singleton d _).trans ?_
    rw [PersistedSession.replay]
    exact steps.replayAll

theorem conformant (steps : Steps d ops d') (h : Conformant d) : Conformant d' := by
  induction steps with
  | nil d => exact h
  | cons admissible replays _ ih =>
    obtain ⟨after, replayed, kept⟩ := admissible.keeps h
    rw [replays] at replayed
    cases replayed
    exact ih kept

end Steps

/-! ## Checked models -/

/-- Every registered model passed the checks of `new`. -/
structure SessionModelCatalog.Checked (c : SessionModelCatalog) : Prop where
  node : ∀ name model, c.getNodeModel name = some model → model.Checked
  rel : ∀ name model, c.getRelModel name = some model → model.Checked

section Checked
variable [Externals] {d d' : PersistedSession}

theorem Admissible.checked {op : DurableOperation} (admissible : Admissible d op) (replays : d.replay op = .ok d')
    (h : d.catalog.Checked) : d'.catalog.Checked := by
  cases admissible with
  | @defineNode model checked fresh =>
    rw [PersistedSession.replay, SessionModelCatalog.ensureNodeModel_fresh fresh] at replays
    cases replays
    refine ⟨fun name found ofName => ?_, h.rel⟩
    rw [SessionModelCatalog.getNodeModel, BTreeMap.get_insert] at ofName
    split at ofName
    · cases ofName
      exact checked
    · exact h.node name found ofName
  | @defineEdge model checked source target fresh =>
    rw [PersistedSession.replay, SessionModelCatalog.ensureRelModel_fresh fresh] at replays
    cases replays
    refine ⟨h.node, fun name found ofName => ?_⟩
    rw [SessionModelCatalog.getRelModel, BTreeMap.get_insert] at ofName
    split at ofName
    · cases ofName
      exact checked
    · exact h.rel name found ofName
  | createNode | updateNode | deleteNode | createRel | updateRel | deleteRel =>
    cases replays
    exact h

theorem Steps.checked {ops : List DurableOperation} (steps : Steps d ops d') (h : d.catalog.Checked) :
    d'.catalog.Checked := by
  induction steps with
  | nil d => exact h
  | cons admissible replays _ ih => exact ih (admissible.checked replays h)

end Checked

/-! ## Requests -/

namespace SessionState
variable [Externals]

theorem Logged.steps {s s' : SessionState} {op : DurableOperation} (logged : Logged s op s') :
    Steps s.persistedSession [op] s'.persistedSession :=
  .cons logged.admissible logged.replays (.nil _)

theorem applyBatchOp_logged {s s' : SessionState} (h : s.store.Sound) {refs refs' : BatchRefs} {op : SessionBatchOp}
    {applied : BatchApplied} (ok : applyBatchOp s refs op = .ok (s', refs', applied)) : Logged s applied.durableOp s' := by
  cases op with
  | schemaDefineNode name idField fields =>
    obtain ⟨fields, -, ok⟩ := GrmResult.bind_eq_ok.1 ok
    obtain ⟨⟨after, outcome⟩, done, ok⟩ := GrmResult.bind_eq_ok.1 ok
    cases ok
    exact applyDefineNode_logged h done
  | schemaDefineEdge name fromModel toModel idField fields =>
    obtain ⟨fields, -, ok⟩ := GrmResult.bind_eq_ok.1 ok
    obtain ⟨⟨after, outcome⟩, done, ok⟩ := GrmResult.bind_eq_ok.1 ok
    cases ok
    exact applyDefineEdge_logged h done
  | nodeCreate model props localRef =>
    obtain ⟨-, -, ok⟩ := GrmResult.bind_eq_ok.1 ok
    obtain ⟨⟨after, outcome⟩, done, ok⟩ := GrmResult.bind_eq_ok.1 ok
    cases ok
    exact applyNodeCreate_logged h done
  | nodeUpdate model id props =>
    obtain ⟨⟨after, outcome⟩, done, ok⟩ := GrmResult.bind_eq_ok.1 ok
    cases ok
    exact applyNodeUpdate_logged h done
  | nodeDelete model id =>
    obtain ⟨⟨after, outcome⟩, done, ok⟩ := GrmResult.bind_eq_ok.1 ok
    cases ok
    exact applyNodeDelete_logged h done
  | edgeCreate model fromEnd toEnd props =>
    obtain ⟨fromId, -, ok⟩ := GrmResult.bind_eq_ok.1 ok
    obtain ⟨toId, -, ok⟩ := GrmResult.bind_eq_ok.1 ok
    obtain ⟨⟨after, outcome⟩, done, ok⟩ := GrmResult.bind_eq_ok.1 ok
    cases ok
    exact applyEdgeCreate_logged h done
  | edgeUpdate model id props =>
    obtain ⟨⟨after, outcome⟩, done, ok⟩ := GrmResult.bind_eq_ok.1 ok
    cases ok
    exact applyEdgeUpdate_logged h done
  | edgeDelete model id =>
    obtain ⟨⟨after, outcome⟩, done, ok⟩ := GrmResult.bind_eq_ok.1 ok
    cases ok
    exact applyEdgeDelete_logged h done

/-- What an attempted operation of a batch adds: one logged step and its entry. -/
theorem attemptBatchOp_ok {allowDeletes : Bool} {p p' : BatchProgress} (h : p.state.store.Sound) {op : SessionBatchOp}
    (ok : attemptBatchOp allowDeletes p op = .ok p') :
    ∃ entry, p'.durableOps = p.durableOps ++ [entry] ∧ Logged p.state entry p'.state := by
  unfold attemptBatchOp at ok
  split at ok
  · cases ok
  · split at ok
    case h_1 state refs applied done =>
      cases ok
      exact ⟨applied.durableOp, rfl, applyBatchOp_logged h done⟩
    · cases ok

/-- The loop of a batch, from any progress: the entries it adds are the steps it takes. -/
theorem runBatchOps_steps (atomic allowDeletes : Bool) (ops : List SessionBatchOp) {p : BatchProgress}
    (h : p.state.store.Sound) (index : Nat) :
    ∃ entries, (runBatchOps atomic allowDeletes p index ops).1.durableOps = p.durableOps ++ entries ∧
      Steps p.state.persistedSession entries (runBatchOps atomic allowDeletes p index ops).1.state.persistedSession ∧
      (runBatchOps atomic allowDeletes p index ops).1.state.store.Sound := by
  induction ops generalizing p index with
  | nil => exact ⟨[], (List.append_nil _).symm, .nil _, h⟩
  | cons op ops ih =>
    rw [runBatchOps]
    cases attempted : attemptBatchOp allowDeletes p op with
    | ok p' =>
      obtain ⟨entry, added, logged⟩ := attemptBatchOp_ok h attempted
      obtain ⟨entries, rest, steps, sound⟩ := ih logged.sound (index + 1)
      refine ⟨entry :: entries, ?_, logged.steps.append steps, sound⟩
      show (runBatchOps atomic allowDeletes p' (index + 1) ops).1.durableOps = _
      rw [rest, added, List.append_assoc, List.singleton_append]
    | error message =>
      cases atomic with
      | true => exact ⟨[], (List.append_nil _).symm, .nil _, h⟩
      | false =>
        exact ih (p := { p with summary := p.summary.recordError index message }) h (index + 1)

/-- The steps of one request, and what it reports of them. -/
structure Executes (s : SessionState) (entries : List DurableOperation)
    (result : SessionState × GrmResult RuntimeDispatchOutcome) : Prop where
  steps : Steps s.persistedSession entries result.1.persistedSession
  sound : result.1.store.Sound
  reported : ∀ outcome, result.2 = .ok outcome → outcome.durableOps = packDurableOps entries
  failed : ∀ e, result.2 = .error e → entries = []

theorem executes_read {α : Type} {s : SessionState} (h : s.store.Sound) {read : SessionState × GrmResult α}
    (reads : s.ReadsTo read.1) (response : α → RuntimeResponse) : Executes s [] (reading read response) where
  steps := by
    show Steps _ [] read.1.persistedSession
    rw [reads.persisted]
    exact .nil _
  sound := reads.store.sound h
  reported outcome ok := by
    obtain ⟨value, -, rfl⟩ := GrmResult.map_eq_ok.1 ok
    rfl
  failed _ _ := rfl

theorem executes_mutation {α : Type} {s : SessionState} (h : s.store.Sound)
    {result : GrmResult (SessionState × RuntimeOperationOutcome α)}
    (logged : ∀ s' outcome, result = .ok (s', outcome) → Logged s outcome.durableOp s')
    (response : α → RuntimeResponse) : ∃ entries, Executes s entries (s.mutation result response) := by
  cases result with
  | error e => exact ⟨[], ⟨.nil _, h, nofun, fun _ _ => rfl⟩⟩
  | ok done =>
    obtain ⟨s', outcome⟩ := done
    have step := logged s' outcome rfl
    exact ⟨[outcome.durableOp], ⟨step.steps, step.sound, by rintro _ ⟨⟩; rfl, nofun⟩⟩

theorem executes_batch {s : SessionState} (h : s.store.Sound) (params : SessionBatchParams) :
    ∃ entries, Executes s entries (s.executeBatchRequest params) := by
  obtain ⟨entries, added, steps, sound⟩ :=
    runBatchOps_steps params.atomic params.allowDeletes params.ops (p := .start s params) h 0
  have reported : _ = entries := added.trans (List.nil_append _)
  unfold executeBatchRequest applySessionBatch
  dsimp only
  split
  · exact ⟨[], ⟨.nil _, h, by rintro _ ⟨⟩; rfl, nofun⟩⟩
  · exact ⟨entries, ⟨steps, sound, by rintro _ ⟨⟩; exact congrArg packDurableOps reported, nofun⟩⟩

/-- Every request takes the durable part through the entries it reports. -/
theorem executeRuntime_executes {s : SessionState} (h : s.store.Sound) (request : RuntimeRequest) :
    ∃ entries, Executes s entries (s.executeRuntime request) := by
  have refused : ∀ e : GrmError, ∃ entries, Executes s entries (s, .error e) :=
    fun e => ⟨[], ⟨.nil _, h, nofun, fun _ _ => rfl⟩⟩
  cases request with
  | schema request => cases request with
    | defineNode request => exact executes_mutation h (fun _ _ => applyDefineNode_logged h) _
    | defineEdge request => exact executes_mutation h (fun _ _ => applyDefineEdge_logged h) _
    | list => exact ⟨[], executes_read h (.refl s) _⟩
  | node request => cases request with
    | create model props => exact executes_mutation h (fun _ _ => applyNodeCreate_logged h) _
    | update model id props => exact executes_mutation h (fun _ _ => applyNodeUpdate_logged h) _
    | delete model id => exact executes_mutation h (fun _ _ => applyNodeDelete_logged h) fun deleted => .nodeDelete deleted.1 deleted.2
    | find request => exact ⟨[], executes_read h (nodeFind_reads s request) _⟩
  | edge request => cases request with
    | create model fromId toId props => exact executes_mutation h (fun _ _ => applyEdgeCreate_logged h) _
    | update model id props => exact executes_mutation h (fun _ _ => applyEdgeUpdate_logged h) _
    | delete model id => exact executes_mutation h (fun _ _ => applyEdgeDelete_logged h) fun deleted => .edgeDelete deleted.1 deleted.2
    | find request => exact ⟨[], executes_read h (.refl s) _⟩
  | query request => cases request with
    | nodeFind request => exact ⟨[], executes_read h (nodeFind_reads s request) _⟩
    | edgeFind request => exact ⟨[], executes_read h (.refl s) _⟩
    | traversal root => exact refused _
  | explain query => exact ⟨[], executes_read h (.refl s) _⟩
  | profile query => exact ⟨[], executes_read h (profile_reads s query) _⟩
  | batch params => exact executes_batch h params
  | admin request => cases request with
    | summary => exact ⟨[], executes_read h (.refl s) _⟩
    | _ => exact refused _

/-- The reported operations of a request replay to the state after it. -/
theorem Executes.replays {s : SessionState} (h : s.store.Indexed) {entries : List DurableOperation}
    {result : SessionState × GrmResult RuntimeDispatchOutcome} (executes : Executes s entries result)
    {outcome : RuntimeDispatchOutcome} (ok : result.2 = .ok outcome) :
    ∃ replayed, applySessionLogEntries s outcome.durableOps = .ok replayed ∧
      replayed.persistedSession = result.1.persistedSession := by
  obtain ⟨meaning, -⟩ := applySessionLogEntries_refines h outcome.durableOps
  rw [executes.reported outcome ok, executes.steps.replayAll_pack] at meaning
  rw [executes.reported outcome ok]
  exact GrmResult.map_eq_ok.1 meaning

/-! ## Runs -/

/-- A conformant session whose store is sound. -/
structure Reachable (s : SessionState) : Prop where
  sound : s.store.Sound
  conformant : Conformant s.persistedSession

theorem reachable_new : Reachable new := ⟨GraphStore.sound_empty, conformant_new⟩

/-- One request keeps the invariant, whatever its outcome. -/
theorem Reachable.executeRuntime {s : SessionState} (h : Reachable s) (request : RuntimeRequest) :
    Reachable (s.executeRuntime request).1 := by
  obtain ⟨entries, executes⟩ := executeRuntime_executes h.sound request
  exact ⟨executes.sound, executes.steps.conformant h.conformant⟩

theorem Reachable.run {s : SessionState} (h : Reachable s) (requests : List RuntimeRequest) :
    Reachable (s.run requests) := by
  induction requests generalizing s with
  | nil => exact h
  | cons request requests ih => exact ih (h.executeRuntime request)

/-- Requests register checked models only. -/
theorem checked_run {s : SessionState} (h : Reachable s) (checked : s.catalog.Checked) (requests : List RuntimeRequest) :
    (s.run requests).catalog.Checked := by
  induction requests generalizing s with
  | nil => exact checked
  | cons request requests ih =>
    obtain ⟨entries, executes⟩ := executeRuntime_executes h.sound request
    exact ih (h.executeRuntime request) (executes.steps.checked checked)

omit [Externals] in
theorem checked_new : new.catalog.Checked := by
  constructor <;> simp [new, SessionModelCatalog.getNodeModel, SessionModelCatalog.getRelModel]

/-- In every state a sequence of requests leads to, records fit their models, endpoints
exist, the catalog is closed and ids are below their counters. -/
theorem every_run_conforms (requests : List RuntimeRequest) : Conformant (new.run requests).persistedSession :=
  (reachable_new.run requests).conformant

end SessionState
