import Grm.Runtime.EdgeFind

/-!
# Node finds by query terms

The two readers of the terms of `node.find`: `parse_node_find_terms` of `runtime/session.rs`,
which keeps the values of predicates as text, and `from_adapter_query_terms` of
`runtime/ops.rs`, which makes a structured request whose predicates have text values.
-/

set_option autoImplicit false

/-! ## The session's reader -/

/-- The words for a direction. -/
def traversalDirection (word : String) : Option Direction :=
  if word = "out" ∨ word = "outgoing" then some .out
  else if word = "in" ∨ word = "incoming" then some .incoming
  else if word = "both" then some .both
  else none

/-- `SessionTraversalReturn::parse`. -/
def SessionTraversalReturn.parse (raw : String) : GrmResult SessionTraversalReturn :=
  if raw = "end" then .ok .endNode
  else if raw = "root" then .ok .root
  else if raw = "edge" ∨ raw = "rel" then .ok .edge
  else .error (.constraint "return must be one of: root, end, edge")

/-- The parts of a `via` value, `raw.split(':')`. -/
def viaParts (raw : String) : List String := (raw.toList.splitOn ':').map String.ofList

/-- `parse_traversal_step`. -/
def parseTraversalStep (raw : String) : GrmResult SessionTraversalStep :=
  let usage : GrmError := .constraint "via must use via=<out|in|both>:<LinkName|*>:<EndModel>"
  match viaParts raw with
  | direction :: link :: endModel :: rest =>
    match traversalDirection direction with
    | none => .error usage
    | some direction =>
      if link = "" ∨ endModel = "" ∨ rest ≠ [] then .error usage
      else .ok ⟨direction, if link = "*" then none else some link, endModel⟩
  | _ => .error usage

/-- `trim_start_matches("end.")`. -/
def trimEndPrefixes : List Char → List Char
  | 'e' :: 'n' :: 'd' :: '.' :: rest => trimEndPrefixes rest
  | key => key

/-- `strip_prefix("edge.")` or else `strip_prefix("rel.")`. -/
def stripEdgePrefix? (key : List Char) : Option (List Char) :=
  (Text.stripPrefix? "edge.".toList key).orElse fun _ => Text.stripPrefix? "rel.".toList key

/-- A predicate of `parse_node_find_terms`, whose value is kept as text. -/
def lexicalPredicate (key : List Char) (value : String) : SessionPredicate :=
  let (field, op) := splitPredicateKey key
  { field := String.ofList field, op, value := .lexical value }

/-- One turn of the loop of `parse_node_find_terms`. -/
def readNodeTerm (model : RuntimeNodeModel) (query : NodeFindQuery) (term : QueryTerm) : GrmResult NodeFindQuery :=
  if term.key = "format" then (OutputFormat.parse term.value).map fun format => { query with format }
  else if term.key = "limit" then (parseUsizeTerm term.value "limit").map fun limit => { query with limit := some limit }
  else if term.key = "offset" then (parseUsizeTerm term.value "offset").map fun offset => { query with offset := some offset }
  else if term.key = "order" then (parseOrderTerm term.value).map fun order => { query with order }
  else if term.key = "via" then
    (parseTraversalStep term.value).map fun step => { query with traversals := query.traversals ++ [step] }
  else if term.key = "return" then
    (SessionTraversalReturn.parse term.value).map fun returnMode => { query with returnMode }
  else if term.key = "id" ∨ term.key = model.idFieldName then
    (parseBackendId term.value term.key).map fun id => { query with idFilter := some id }
  else if "end.".toList.isPrefixOf term.key.toList then
    .ok { query with
      endPredicates := query.endPredicates ++ [lexicalPredicate (trimEndPrefixes term.key.toList) term.value] }
  else match stripEdgePrefix? term.key.toList with
    | some inner => .ok { query with edgePredicates := query.edgePredicates ++ [lexicalPredicate inner term.value] }
    | none =>
      let predicate := lexicalPredicate term.key.toList term.value
      if predicate.field = "id" ∨ predicate.field = model.idFieldName then
        .error (.constraint ("backend id filter '" ++ predicate.field ++ "' only supports '='"))
      else .ok { query with predicates := query.predicates ++ [predicate] }

/-- The check at the end of `parse_node_find_terms`. -/
def checkTraversalTerms (query : NodeFindQuery) : GrmResult NodeFindQuery :=
  if query.traversals.isEmpty then
    if !query.endPredicates.isEmpty || !query.edgePredicates.isEmpty then
      .error (.constraint "traversal filters require at least one via= traversal")
    else if query.returnMode ≠ .endNode then
      .error (.constraint "return=root|end|edge is only supported with via= traversal")
    else .ok query
  else .ok query

/-- `parse_node_find_terms`. -/
def NodeFindQuery.parseNodeFindTerms (terms : List QueryTerm) (model : RuntimeNodeModel) : GrmResult NodeFindQuery :=
  (terms.foldlM (readNodeTerm model) {}).bind checkTraversalTerms

/-- `SessionState::parse_node_find_terms`. -/
def SessionState.parseNodeFindTerms (s : SessionState) (modelName : String) (terms : List QueryTerm) :
    GrmResult NodeFindQuery :=
  match s.catalog.getNodeModel modelName with
  | none => .error .notFound
  | some model => NodeFindQuery.parseNodeFindTerms terms model

/-! ## The adapter's reader -/

/-- `parse_usize_value`. -/
def parseUsizeValue (raw field : String) : GrmResult Nat := parseUsizeTerm (String.ofList (Text.trim raw.toList)) field

/-- `parse_i64_value`. -/
def parseI64Value (raw field : String) : GrmResult Int :=
  match Text.parseInt i64Min i64Max (Text.trim raw.toList) with
  | some id => .ok id
  | none => .error (.constraint (field ++ " must be an int id"))

/-- The loop of `parse_order_value`, which looks for duplicates before it reads the direction. -/
def parseOrderSpecs (seen : BTreeSet String) (orders : List SessionOrder) : List (List Char) → GrmResult (List SessionOrder)
  | [] => .ok orders
  | segment :: segments =>
    match Split.splitOnce [':'] segment with
    | none => .error (.constraint "order must use order=<field>:asc|desc[,<field>:asc|desc ...]")
    | some (field, direction) =>
      let field := String.ofList field
      if seen.contains field then .error (.constraint ("duplicate order field '" ++ field ++ "'"))
      else do
        let direction ←
          if direction = "asc".toList then .ok SortDirection.asc
          else if direction = "desc".toList then .ok .desc
          else .error (.constraint "order direction must be asc or desc")
        parseOrderSpecs (seen.insert field) (orders ++ [{ field, direction }]) segments

/-- `parse_order_value`. -/
def parseOrderValue (raw : String) : GrmResult (List SessionOrder) := parseOrderSpecs ∅ [] (raw.toList.splitOn ',')

/-- `parse_traversal_value`. -/
def parseTraversalValue (raw : String) : GrmResult SessionTraversalStep :=
  match viaParts raw with
  | [direction, link, endModel] =>
    match traversalDirection direction with
    | none => .error (.constraint "via direction must be one of: out, in, both")
    | some direction =>
      if link = "" then .error (.constraint "via link model cannot be empty")
      else if endModel = "" then .error (.constraint "via end model cannot be empty")
      else .ok ⟨direction, if link = "*" then none else some link, endModel⟩
  | _ => .error (.constraint "via must use via=<out|in|both>:<LinkName|*>:<EndModel>")

/-- `parse_traversal_return_value`. -/
def parseTraversalReturnValue (raw : String) : GrmResult SessionTraversalReturn := SessionTraversalReturn.parse raw

/-- A predicate of `push_node_find_adapter_value`, whose value is the text itself. -/
def textPredicate (key : List Char) (value : String) : PropertyPredicate :=
  let (field, op) := splitFilterKey key
  { field := String.ofList field, op, value := .string value }

/-- `push_node_find_adapter_value` on a text, as `from_adapter_query_terms` calls it. -/
def pushNodeFindAdapterValue (request : NodeFindRequest) (term : QueryTerm) : GrmResult NodeFindRequest :=
  if term.key = "format" then .ok request
  else if term.key = "limit" then (parseUsizeValue term.value "limit").map fun limit => { request with limit := some limit }
  else if term.key = "offset" then (parseUsizeValue term.value "offset").map fun offset => { request with offset := some offset }
  else if term.key = "order" then (parseOrderValue term.value).map fun order => { request with order }
  else if term.key = "id" then (parseI64Value term.value "id").map fun id => { request with id := some id }
  else if term.key = "via" then
    (parseTraversalValue term.value).map fun step => { request with traversals := request.traversals ++ [step] }
  else if term.key = "return" then
    (parseTraversalReturnValue term.value).map fun returnMode => { request with returnMode := some returnMode }
  else if "end.".toList.isPrefixOf term.key.toList then
    .ok { request with
      endPredicates := request.endPredicates ++ [textPredicate (trimEndPrefixes term.key.toList) term.value] }
  else match stripEdgePrefix? term.key.toList with
    | some inner => .ok { request with edgePredicates := request.edgePredicates ++ [textPredicate inner term.value] }
    | none =>
      let predicate := textPredicate term.key.toList term.value
      if predicate.field = "id" then .error (.constraint "backend id filter 'id' only supports '='")
      else .ok { request with predicates := request.predicates ++ [predicate] }

/-- `NodeFindRequest::from_adapter_query_terms`. -/
def NodeFindRequest.fromAdapterQueryTerms (model : String) (terms : List QueryTerm) : GrmResult NodeFindRequest :=
  terms.foldlM pushNodeFindAdapterValue { model }

/-- The query of the adapter's request, as a session reads it. -/
def SessionState.adapterQuery (s : SessionState) (modelName : String) (terms : List QueryTerm) : GrmResult NodeFindQuery :=
  (NodeFindRequest.fromAdapterQueryTerms modelName terms).bind s.nodeFindQueryFromRequest
