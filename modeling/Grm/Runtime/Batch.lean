import Grm.Runtime.Session

/-!
# Batches

`runtime/batch.rs`: operations applied in order, with local refs to nodes created
earlier in the batch. An atomic batch restores the snapshot taken before it at the
first failure; the other kind notes the failure and goes on.
-/

set_option autoImplicit false

/-- `parse_field_value_type`. -/
def parseFieldValueType : String → Option PrimitiveKind
  | "string" => some .string
  | "int" => some .int
  | "float" => some .float
  | "bool" => some .bool
  | "bytes" => some .bytes
  | "decimal" => some .decimal
  | "date" => some .date
  | "datetime" => some .dateTime
  | "duration" => some .duration
  | "uuid" => some .uuid
  | _ => none

/-- `parse_fields`. -/
def parseFields (fields : List SessionBatchFieldParam) : GrmResult (List RuntimeField) :=
  fields.mapM fun field => match parseFieldValueType field.valueType with
    | some valueType => .ok { name := field.name, valueType, required := field.required }
    | none => .error (.constraint ("unsupported field type '" ++ field.valueType ++
        "', expected one of: string, int, float, bool, bytes, decimal, date, datetime, duration, or uuid"))

/-- The local refs of a batch: the ids of the nodes created under them. -/
abbrev BatchRefs := BTreeMap String Int

/-- `resolve_batch_endpoint`. -/
def resolveBatchEndpoint (endpoint : SessionBatchEndpoint) (refs : BatchRefs) (field : String) : GrmResult Int :=
  match endpoint with
  | .id id => .ok id
  | .ref localRef => match refs[localRef]? with
    | some id => .ok id
    | none => .error (.constraint (field ++ " ref '" ++ localRef ++ "' was not created earlier in this batch"))

/-- `BatchApplied`. -/
structure BatchApplied where
  op : String
  model : String
  id : Option Int
  localRef : Option String
  durableOp : DurableOperation

namespace BatchSummary

/-- `BatchSummary::new`. -/
def new (atomic detailed : Bool) (operationCount : Nat) : BatchSummary :=
  { applied := true, atomic, detailed, operationCount, counts := ∅, errors := [], ids := [] }

/-- `record`. -/
def record (summary : BatchSummary) (applied : BatchApplied) : BatchSummary :=
  let byModel := (summary.counts[applied.op]?).getD ∅
  let count := (byModel[applied.model]?).getD 0
  { summary with
    counts := summary.counts.insert applied.op (byModel.insert applied.model (count + 1))
    ids := match summary.detailed, applied.id with
      | true, some id => summary.ids ++ [{ op := applied.op, model := applied.model, id, localRef := applied.localRef }]
      | _, _ => summary.ids }

/-- `record_error`. -/
def recordError (summary : BatchSummary) (index : Nat) (message : String) : BatchSummary :=
  { summary with applied := false, errors := summary.errors ++ [{ index, message }] }

/-- `has_successes`. -/
def hasSuccesses (summary : BatchSummary) : Bool := !summary.counts.isEmpty

end BatchSummary

section Apply
variable [Externals]

/-- A ref is refused before the node is created. -/
def checkFreshRef (refs : BatchRefs) (localRef : Option String) : GrmResult Unit :=
  match localRef with
  | some name => if refs.contains name then .error (.constraint ("duplicate batch ref '" ++ name ++ "'")) else .ok ()
  | none => .ok ()

/-- The refs after a node was created. -/
def bindRef (refs : BatchRefs) (localRef : Option String) (id : Int) : BatchRefs :=
  match localRef with
  | some name => refs.insert name id
  | none => refs

/-- `apply_batch_op`. -/
def applyBatchOp (s : SessionState) (refs : BatchRefs) (op : SessionBatchOp) :
    GrmResult (SessionState × BatchRefs × BatchApplied) :=
  match op with
  | .schemaDefineNode name idField fields => do
    let fields ← parseFields fields
    let (s, outcome) ← s.applyDefineNode { name, idField, fields }
    return (s, refs, { op := op.opName, model := outcome.value.name, id := none, localRef := none,
                       durableOp := outcome.durableOp })
  | .schemaDefineEdge name fromModel toModel idField fields => do
    let fields ← parseFields fields
    let (s, outcome) ← s.applyDefineEdge { name, fromModel, toModel, idField, fields }
    return (s, refs, { op := op.opName, model := outcome.value.name, id := none, localRef := none,
                       durableOp := outcome.durableOp })
  | .nodeCreate model props localRef => do
    checkFreshRef refs localRef
    let (s, outcome) ← s.applyNodeCreate model props
    return (s, bindRef refs localRef outcome.value.id,
      { op := op.opName, model, id := some outcome.value.id, localRef, durableOp := outcome.durableOp })
  | .nodeUpdate model id props => do
    let (s, outcome) ← s.applyNodeUpdate model id props
    return (s, refs, { op := op.opName, model, id := some outcome.value.id, localRef := none,
                       durableOp := outcome.durableOp })
  | .nodeDelete model id => do
    let (s, outcome) ← s.applyNodeDelete model id
    return (s, refs, { op := op.opName, model := outcome.value.1, id := some outcome.value.2, localRef := none,
                       durableOp := outcome.durableOp })
  | .edgeCreate model fromEnd toEnd props => do
    let fromId ← resolveBatchEndpoint fromEnd refs "from"
    let toId ← resolveBatchEndpoint toEnd refs "to"
    let (s, outcome) ← s.applyEdgeCreate model fromId toId props
    return (s, refs, { op := op.opName, model, id := some outcome.value.id, localRef := none,
                       durableOp := outcome.durableOp })
  | .edgeUpdate model id props => do
    let (s, outcome) ← s.applyEdgeUpdate model id props
    return (s, refs, { op := op.opName, model, id := some outcome.value.id, localRef := none,
                       durableOp := outcome.durableOp })
  | .edgeDelete model id => do
    let (s, outcome) ← s.applyEdgeDelete model id
    return (s, refs, { op := op.opName, model := outcome.value.1, id := some outcome.value.2, localRef := none,
                       durableOp := outcome.durableOp })

/-- The loop state of `apply_session_batch`. -/
structure BatchProgress where
  state : SessionState
  refs : BatchRefs
  summary : BatchSummary
  durableOps : List DurableOperation

/-- One operation of a batch: the progress after it, or the message of its failure. -/
def attemptBatchOp (allowDeletes : Bool) (p : BatchProgress) (op : SessionBatchOp) : Except String BatchProgress :=
  if op.isDelete && !allowDeletes then .error (op.opName ++ " requires allow_deletes=true on grm_batch")
  else match applyBatchOp p.state p.refs op with
    | .ok (state, refs, applied) =>
      .ok { state, refs, summary := p.summary.record applied, durableOps := p.durableOps ++ [applied.durableOp] }
    | .error err => .error err.display

/-- The loop of `apply_session_batch`; the flag says that an atomic batch was broken off. -/
def runBatchOps (atomic allowDeletes : Bool) : BatchProgress → Nat → List SessionBatchOp → BatchProgress × Bool
  | p, _, [] => (p, false)
  | p, index, op :: ops => match attemptBatchOp allowDeletes p op with
    | .ok p => runBatchOps atomic allowDeletes p (index + 1) ops
    | .error message =>
      let p := { p with summary := p.summary.recordError index message }
      if atomic then (p, true) else runBatchOps atomic allowDeletes p (index + 1) ops

/-- Two or more durable operations are logged as one batch. -/
def packDurableOps (ops : List DurableOperation) : List DurableOperation :=
  match ops with
  | [] => []
  | [op] => [op]
  | ops => [.batch ops]

/-- The loop state before the first operation. -/
def BatchProgress.start (s : SessionState) (params : SessionBatchParams) : BatchProgress where
  state := s
  refs := ∅
  summary := BatchSummary.new params.atomic (params.response = .detailed) params.ops.length
  durableOps := []

/-- `apply_session_batch`. -/
def applySessionBatch (s : SessionState) (params : SessionBatchParams) : SessionState × SessionBatchOutcome :=
  let (p, brokenOff) := runBatchOps params.atomic params.allowDeletes (.start s params) 0 params.ops
  if brokenOff then
    (s, { value := { p.summary with applied := false }, shouldPersist := false, durableOps := [] })
  else
    (p.state, { value := p.summary, shouldPersist := p.summary.applied || p.summary.hasSuccesses
                durableOps := packDurableOps p.durableOps })

end Apply
