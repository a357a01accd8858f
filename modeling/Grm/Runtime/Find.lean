import Grm.Backend.Snapshot
import Grm.Backend.TxQuery
import Grm.Runtime.Ops

/-!
# Flat finds

`runtime/session.rs`: predicates checked against a model's fields, the flat node and
relationship finds, ordering and paging. A find answers from the shared store; its
only effect is that a property lookup rebuilds dirty caches.
-/

open Std

set_option autoImplicit false

/-- `SessionPredicateValue`: the text of a query term, or a typed value. -/
inductive SessionPredicateValue where
  | lexical (raw : String)
  | typed (value : Value)

/-- `SessionPredicate`. -/
structure SessionPredicate where
  field : String
  op : CompareOp
  value : SessionPredicateValue

/-- `OutputFormat`. -/
inductive OutputFormat where
  | default | jsonl | table | graph
  deriving DecidableEq, Repr

/-- `NodeFindQuery`. -/
structure NodeFindQuery where
  predicates : List SessionPredicate := []
  endPredicates : List SessionPredicate := []
  edgePredicates : List SessionPredicate := []
  traversals : List SessionTraversalStep := []
  order : List SessionOrder := []
  limit : Option Nat := none
  offset : Option Nat := none
  idFilter : Option Int := none
  returnMode : SessionTraversalReturn := .endNode
  format : OutputFormat := .default

/-- `EdgeFindQuery`. -/
structure EdgeFindQuery where
  predicates : List SessionPredicate := []
  order : List SessionOrder := []
  limit : Option Nat := none
  offset : Option Nat := none
  idFilter : Option Int := none
  fromFilter : Option Int := none
  toFilter : Option Int := none
  format : OutputFormat := .default

/-! ## Identifiers -/

/-- `parse_backend_id` for integer ids. -/
def parseBackendId (raw subject : String) : GrmResult Int :=
  match Text.parseInt i64Min i64Max (Text.trim raw.toList) with
  | some id => .ok id
  | none => .error (.constraint (subject ++ " must be an int id"))

/-- `typed_id_value_to_i64`. The text of an integer parses back to it; the text of a
double always has a point or an exponent, which no integer has. -/
def typedIdValueToI64 (value : Value) (subject : String) : GrmResult Int :=
  match value with
  | .string raw => parseBackendId raw subject
  | .number (.int i) =>
    if i.val ≤ i64Max then .ok i.val else .error (.constraint (subject ++ " must be an int id"))
  | .number (.float _) | .bool _ => .error (.constraint (subject ++ " must be an int id"))
  | .null => .error (.constraint "null property values are not supported by runtime operations")
  | value => match value.typedValueParts with
    | some (_, raw) => parseBackendId raw subject
    | none => .error (.constraint "structured property values are not supported by runtime operations")

/-- `session_predicate`. -/
def sessionPredicate (predicate : PropertyPredicate) : SessionPredicate :=
  { field := predicate.field, op := predicate.op, value := .typed predicate.value }

/-! ## Predicates -/

section Predicates
variable [Externals]

/-- `predicate_value`. -/
def predicateValue (value : SessionPredicateValue) (valueType : PrimitiveKind) (field modelKind modelName : String) :
    GrmResult Value :=
  match value with
  | .lexical raw => (parseTypedValue valueType raw).mapError .constraint
  | .typed value =>
    if validateValueForKind valueType value then .ok value
    else .error (.constraint ("predicate field '" ++ field ++ "' for " ++ modelKind ++ " '" ++ modelName ++
      "' must be " ++ valueType.keyword))

/-- `parse_model_predicates` and `parse_rel_predicates`, which differ in the word for the
model. A parsed predicate is a kernel filter. -/
def parsePredicates (modelKind modelName : String) (fields : List RuntimeField) (predicates : List SessionPredicate) :
    GrmResult (List PropertyFilter) :=
  predicates.mapM fun predicate => match fieldNamed fields predicate.field with
    | none => .error (unknownField modelKind modelName predicate.field)
    | some field => do
      let value ← predicateValue predicate.value field.valueType predicate.field modelKind modelName
      return { key := predicate.field, op := predicate.op, value }

/-- `parse_model_predicates`. -/
def parseModelPredicates (predicates : List SessionPredicate) (model : RuntimeNodeModel) :
    GrmResult (List PropertyFilter) :=
  parsePredicates "model" model.name model.fields predicates

/-- `parse_rel_predicates`. -/
def parseRelPredicates (predicates : List SessionPredicate) (model : RuntimeRelModel) :
    GrmResult (List PropertyFilter) :=
  parsePredicates "link" model.name model.fields predicates

/-- `matches_predicates`: a missing property satisfies nothing. -/
def matchesPredicates (props : Props) (filters : List PropertyFilter) : Bool :=
  filters.all fun f => (props[f.key]?).any fun stored => compareTypedValues stored f.op f.value

end Predicates

/-! ## Ordering -/

/-- `validate_node_order_fields` and `validate_rel_order_fields`: the special names and
the model's own fields. -/
def validateOrderFields (special : List String) (modelKind modelName : String) (fields : List RuntimeField)
    (orders : List SessionOrder) : GrmResult Unit :=
  match orders.find? fun order => !special.contains order.field && (fieldNamed fields order.field).isNone with
  | some order => .error (.constraint ("unknown order field '" ++ order.field ++ "' for " ++ modelKind ++ " '" ++
      modelName ++ "'"))
  | none => .ok ()

/-- `validate_node_order_fields`. -/
def validateNodeOrderFields (model : RuntimeNodeModel) (orders : List SessionOrder) : GrmResult Unit :=
  validateOrderFields ["id", model.idFieldName] "model" model.name model.fields orders

/-- `validate_rel_order_fields`. -/
def validateRelOrderFields (model : RuntimeRelModel) (orders : List SessionOrder) : GrmResult Unit :=
  validateOrderFields ["id", model.idFieldName, "from", "to"] "link" model.name model.fields orders

section Order
variable [Externals]

/-- `compare_optional_values`: a missing value comes last, incomparable ones are equal. -/
def compareOptionalValues (left right : Option Value) : Ordering :=
  match left, right with
  | some left, some right => (compareTypedValueOrder left right).getD .eq
  | some _, none => .lt
  | none, some _ => .gt
  | none, none => .eq

/-- The direction of an order term applied to an ascending comparison. -/
def SortDirection.apply (direction : SortDirection) (ordering : Ordering) : Ordering :=
  match direction with
  | .asc => ordering
  | .desc => ordering.swap

/-- `compare_node_order_values`: the first term that tells the nodes apart decides. -/
def compareNodeOrderValues (left right : StoredNode) (model : RuntimeNodeModel) : List SessionOrder → Ordering
  | [] => .eq
  | order :: orders =>
    let ordering := if order.field = "id" ∨ order.field = model.idFieldName then compare left.id right.id
      else compareOptionalValues left.props[order.field]? right.props[order.field]?
    (order.direction.apply ordering).then (compareNodeOrderValues left right model orders)

/-- `compare_rel_order_values`. -/
def compareRelOrderValues (left right : StoredRel) (model : RuntimeRelModel) : List SessionOrder → Ordering
  | [] => .eq
  | order :: orders =>
    let ordering :=
      if order.field = "id" then compare left.id right.id
      else if order.field = "from" then compare left.fromId right.fromId
      else if order.field = "to" then compare left.toId right.toId
      else if order.field = model.idFieldName then compare left.id right.id
      else compareOptionalValues left.props[order.field]? right.props[order.field]?
    (order.direction.apply ordering).then (compareRelOrderValues left right model orders)

/-- `slice::sort_by`, which is stable. -/
def sortBy {α : Type} (cmp : α → α → Ordering) (l : List α) : List α := l.mergeSort fun a b => cmp a b != .gt

/-- `sort_nodes`, called only with order terms. -/
def sortNodes (nodes : List StoredNode) (model : RuntimeNodeModel) (orders : List SessionOrder) :
    GrmResult (List StoredNode) :=
  if orders.isEmpty then .ok nodes
  else (validateNodeOrderFields model orders).map fun _ =>
    sortBy (fun left right => compareNodeOrderValues left right model orders) nodes

/-- `sort_relationships`, called only with order terms. -/
def sortRelationships (rels : List StoredRel) (model : RuntimeRelModel) (orders : List SessionOrder) :
    GrmResult (List StoredRel) :=
  if orders.isEmpty then .ok rels
  else (validateRelOrderFields model orders).map fun _ =>
    sortBy (fun left right => compareRelOrderValues left right model orders) rels

end Order

/-- `apply_offset_limit`. -/
def applyOffsetLimit {α : Type} (items : List α) (offset limit : Option Nat) : List α :=
  let start := offset.getD 0
  if items.length ≤ start then []
  else
    let stop := match limit with
      | some limit => min (start + limit) items.length
      | none => items.length
    (items.drop start).take (stop - start)

/-! ## Queries from requests -/

/-- The predicates on the backend id set the id filter, the last one winning; the others
are kept. `refuse` is the error of an id predicate that is not an equality. -/
def splitIdPredicates (idFieldName : String) (refuse : String → GrmError) :
    Option Int → List PropertyPredicate → GrmResult (Option Int × List SessionPredicate)
  | idFilter, [] => .ok (idFilter, [])
  | idFilter, predicate :: predicates =>
    if predicate.field = "id" ∨ predicate.field = idFieldName then
      if predicate.op ≠ .eq then .error (refuse predicate.field)
      else do
        let id ← typedIdValueToI64 predicate.value predicate.field
        splitIdPredicates idFieldName refuse (some id) predicates
    else do
      let (idFilter, rest) ← splitIdPredicates idFieldName refuse idFilter predicates
      return (idFilter, sessionPredicate predicate :: rest)

namespace SessionState

/-- `node_find_query_from_request`. -/
def nodeFindQueryFromRequest (s : SessionState) (request : NodeFindRequest) : GrmResult NodeFindQuery := do
  let some model := s.catalog.getNodeModel request.model | throw .notFound
  let (idFilter, predicates) ← splitIdPredicates model.idFieldName
    (fun field => .constraint ("backend id filter '" ++ field ++ "' only supports '='")) request.id request.predicates
  let query : NodeFindQuery :=
    { predicates, idFilter, endPredicates := request.endPredicates.map sessionPredicate
      edgePredicates := request.edgePredicates.map sessionPredicate, traversals := request.traversals
      order := request.order, limit := request.limit, offset := request.offset
      returnMode := request.returnMode.getD .endNode }
  if query.traversals.isEmpty then
    if !query.endPredicates.isEmpty || !query.edgePredicates.isEmpty then
      throw (.constraint "traversal filters require at least one traversal step")
    if query.returnMode ≠ .endNode then
      throw (.constraint "return=root|end|edge is only supported with traversal steps")
  return query

/-- `edge_find_query_from_request`. -/
def edgeFindQueryFromRequest (s : SessionState) (request : EdgeFindRequest) : GrmResult EdgeFindQuery := do
  let some model := s.catalog.getRelModel request.model | throw .notFound
  let (idFilter, predicates) ← splitIdPredicates model.idFieldName
    (fun field => .constraint ("special filter '" ++ field ++ "' only supports '='")) request.id request.predicates
  return { predicates, idFilter, order := request.order, limit := request.limit, offset := request.offset
           fromFilter := request.fromId, toFilter := request.toId }

section Find
variable [Externals]

/-- The equality predicate whose property index `find_nodes_with_query` starts from. -/
def indexedProperty (filters : List PropertyFilter) : Option (String × Value) :=
  (filters.find? fun f => f.op = .eq && !f.value.isObject).map fun f => (f.key, f.value)

/-- The nodes `find_nodes_with_query` selects, before ordering and paging, and the store
after the lookup. -/
def selectNodes (store : GraphStore) (model : RuntimeNodeModel) (idFilter : Option Int)
    (filters : List PropertyFilter) : GraphStore × List StoredNode :=
  let (store, nodes) := store.snapshotNodesFiltered model.label idFilter (indexedProperty filters)
  (store, nodes.filter fun node => matchesPredicates node.props filters)

/-- `find_nodes_with_query`. -/
def findNodesWithQuery (s : SessionState) (modelName : String) (query : NodeFindQuery) :
    SessionState × GrmResult (List StoredNode) :=
  match s.catalog.getNodeModel modelName with
  | none => (s, .error .notFound)
  | some model => match parseModelPredicates query.predicates model with
    | .error e => (s, .error e)
    | .ok filters =>
      let (store, nodes) := selectNodes s.store model query.idFilter filters
      ({ s with store },
        (sortNodes nodes model query.order).map fun nodes => applyOffsetLimit nodes query.offset query.limit)

/-- `find_relationships_with_query`. -/
def findRelationshipsWithQuery (s : SessionState) (modelName : String) (query : EdgeFindQuery) :
    GrmResult (List StoredRel) := do
  let some model := s.catalog.getRelModel modelName | throw .notFound
  let filters ← parseRelPredicates query.predicates model
  let rels := s.store.snapshotRelationshipsFiltered model.relType query.idFilter query.fromFilter query.toFilter
  let rels := rels.filter fun rel => matchesPredicates rel.props filters
  let rels ← sortRelationships rels model query.order
  return applyOffsetLimit rels query.offset query.limit

/-- `find_relationships` with the one filter `id`; the id goes through its decimal text
and back. -/
def findRelationshipById (s : SessionState) (modelName : String) (id : Int) : GrmResult (Option StoredRel) :=
  (s.findRelationshipsWithQuery modelName { idFilter := some id }).map List.head?

/-- `edge_find`. -/
def edgeFind (s : SessionState) (request : EdgeFindRequest) : GrmResult (List StoredRel) := do
  let query ← s.edgeFindQueryFromRequest request
  s.findRelationshipsWithQuery request.model query

end Find

end SessionState
