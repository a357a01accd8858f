import Grm.Backend.RelationshipLookup
import Grm.Backend.Search
import Grm.Runtime.CommandLine
import Grm.Runtime.QueryTerms
import Grm.Runtime.Requests

/-!
# Edge finds by query terms

`edge.find` of the command line. The terms go through a map by key into the query, so of
each key the last term is kept, and the query has one slot for the id. What a term asks of
an edge is stated for each term by itself; the query asks what the kept terms ask.
-/

open Std

set_option autoImplicit false

/-! ### Reading the terms -/

/-- `OutputFormat::parse`. -/
def OutputFormat.parse (raw : String) : GrmResult OutputFormat :=
  if raw = "default" then .ok .default
  else if raw = "jsonl" then .ok .jsonl
  else if raw = "table" then .ok .table
  else if raw = "graph" then .ok .graph
  else .error (.constraint "format must be one of: default, jsonl, table, graph")

/-- `parse_usize_term`: decimal digits after an optional plus sign. -/
def parseUsizeTerm (raw subject : String) : GrmResult Nat :=
  let digits := match raw.toList with
    | '+' :: rest => rest
    | text => text
  match (Text.parseDigits digits).filter fun n => n < 2 ^ 64 with
  | some n => .ok n
  | none => .error (.constraint (subject ++ " must be a non-negative integer"))

/-- The loop of `parse_order_term`. -/
def parseOrderSegments (seen : BTreeSet String) (orders : List SessionOrder) : List (List Char) → GrmResult (List SessionOrder)
  | [] => .ok orders
  | segment :: segments =>
    match Split.splitOnce [':'] segment with
    | none => .error (.constraint "order must use order=<field>:asc|desc[,<field>:asc|desc ...]")
    | some (field, direction) => do
      let direction ←
        if direction = "asc".toList then .ok SortDirection.asc
        else if direction = "desc".toList then .ok .desc
        else .error (.constraint "order direction must be asc or desc")
      let field := String.ofList field
      if seen.contains field then .error (.constraint ("duplicate order field '" ++ field ++ "'"))
      else parseOrderSegments (seen.insert field) (orders ++ [{ field, direction }]) segments

/-- `parse_order_term`. -/
def parseOrderTerm (raw : String) : GrmResult (List SessionOrder) := parseOrderSegments ∅ [] (raw.toList.splitOn ',')

/-- `collect_query_terms`. -/
def collectQueryTerms (terms : List QueryTerm) : BTreeMap String String :=
  BTreeMap.insertAll ∅ (terms.map fun term => (term.key, term.value))

/-- The words of a term that pages, orders or renders. -/
def controlWords : List String := ["format", "limit", "offset", "order"]

/-- One turn of the loop of `parse_edge_find_query`. -/
def readEdgeTerm (model : RuntimeRelModel) (query : EdgeFindQuery) (term : QueryTerm) : GrmResult EdgeFindQuery :=
  if term.key = "format" then (OutputFormat.parse term.value).map fun format => { query with format }
  else if term.key = "limit" then (parseUsizeTerm term.value "limit").map fun limit => { query with limit }
  else if term.key = "offset" then (parseUsizeTerm term.value "offset").map fun offset => { query with offset }
  else if term.key = "order" then (parseOrderTerm term.value).map fun order => { query with order }
  else if term.key = "from" then (parseBackendId term.value "from").map fun id => { query with fromFilter := some id }
  else if term.key = "to" then (parseBackendId term.value "to").map fun id => { query with toFilter := some id }
  else if term.key = "id" ∨ term.key = model.idFieldName then
    (parseBackendId term.value term.key).map fun id => { query with idFilter := some id }
  else
    let (field, op) := splitPredicateKey term.key.toList
    let field := String.ofList field
    if field = "id" ∨ field = model.idFieldName ∨ field = "from" ∨ field = "to" then
      .error (.constraint ("special filter '" ++ field ++ "' only supports '='"))
    else .ok { query with predicates := query.predicates ++ [{ field, op, value := .lexical term.value }] }

/-- The terms of a map, in ascending key order. -/
def queryTermsOf (filters : BTreeMap String String) : List QueryTerm := filters.toList.map fun entry => ⟨entry.1, entry.2⟩

/-- `parse_edge_find_query`. -/
def parseEdgeFindQuery (filters : BTreeMap String String) (model : RuntimeRelModel) : GrmResult EdgeFindQuery :=
  (queryTermsOf filters).foldlM (readEdgeTerm model) {}

/-- `handle_edge_find_parsed`, up to the rendering of the rows: the query and the edges. -/
def SessionState.handleEdgeFindParsed [Externals] (s : SessionState) (modelName : String) (terms : List QueryTerm) :
    GrmResult (EdgeFindQuery × List StoredRel) := do
  let some model := s.catalog.getRelModel modelName | throw .notFound
  let query ← parseEdgeFindQuery (collectQueryTerms terms) model
  let rels ← s.findRelationshipsWithQuery modelName query
  return (query, rels)

/-! ### What a term asks -/

section Meaning
variable [Externals]

/-- The edge's property meets the predicate. -/
def SessionPredicate.Meets (model : RuntimeRelModel) (props : Props) (predicate : SessionPredicate) : Prop :=
  ∃ field value stored, fieldNamed model.fields predicate.field = some field ∧
    predicateValue predicate.value field.valueType predicate.field "link" model.name = .ok value ∧
    props[predicate.field]? = some stored ∧ compareTypedValues stored predicate.op value = true

/-- The predicate of a term on a property. -/
def QueryTerm.predicate (term : QueryTerm) : SessionPredicate :=
  let (field, op) := splitPredicateKey term.key.toList
  { field := String.ofList field, op, value := .lexical term.value }

/-- The edge meets the term; terms that page, order or render ask nothing of an edge. -/
def QueryTerm.Meets (model : RuntimeRelModel) (rel : StoredRel) (term : QueryTerm) : Prop :=
  if term.key ∈ controlWords then True
  else if term.key = "from" then parseBackendId term.value "from" = .ok rel.fromId
  else if term.key = "to" then parseBackendId term.value "to" = .ok rel.toId
  else if term.key = "id" ∨ term.key = model.idFieldName then parseBackendId term.value term.key = .ok rel.id
  else term.predicate.Meets model rel.props

/-- The term fills the query's slot for the id. -/
def QueryTerm.readsId (model : RuntimeRelModel) (term : QueryTerm) : Bool :=
  !(controlWords ++ ["from", "to"]).contains term.key && (term.key = "id" || term.key = model.idFieldName)

/-- The terms a query keeps: of those on the id, the last. -/
def keptInQuery (model : RuntimeRelModel) : List QueryTerm → List QueryTerm
  | [] => []
  | term :: terms =>
    if term.readsId model && terms.any (QueryTerm.readsId model) then keptInQuery model terms
    else term :: keptInQuery model terms

/-- The terms that reach the search: the last of each key, in key order, and of those on the id the last. -/
def keptTerms (model : RuntimeRelModel) (terms : List QueryTerm) : List QueryTerm :=
  keptInQuery model (queryTermsOf (collectQueryTerms terms))

/-- The edge meets the query. -/
structure EdgeFindQuery.Meets (query : EdgeFindQuery) (model : RuntimeRelModel) (rel : StoredRel) : Prop where
  id : ∀ id, query.idFilter = some id → rel.id = id
  source : ∀ id, query.fromFilter = some id → rel.fromId = id
  target : ∀ id, query.toFilter = some id → rel.toId = id
  predicates : ∀ predicate ∈ query.predicates, predicate.Meets model rel.props

/-! ### One turn of the loop -/

/-- The change of the query makes nothing of what it asks of an edge. -/
def EdgeFindQuery.Keeps (change : EdgeFindQuery → EdgeFindQuery) : Prop :=
  ∀ query, (change query).idFilter = query.idFilter ∧ (change query).fromFilter = query.fromFilter ∧
    (change query).toFilter = query.toFilter ∧ (change query).predicates = query.predicates

/-- What reading a term does to the query, whatever the query. -/
inductive TermEffect (model : RuntimeRelModel) (term : QueryTerm) : (EdgeFindQuery → EdgeFindQuery) → Prop where
  | control {change : EdgeFindQuery → EdgeFindQuery} (word : term.key ∈ controlWords)
      (keeps : EdgeFindQuery.Keeps change) : TermEffect model term change
  | source {id : Int} (word : term.key = "from") (parsed : parseBackendId term.value "from" = .ok id) :
      TermEffect model term fun query => { query with fromFilter := some id }
  | target {id : Int} (word : term.key = "to") (parsed : parseBackendId term.value "to" = .ok id) :
      TermEffect model term fun query => { query with toFilter := some id }
  | id {id : Int} (word : term.readsId model = true) (parsed : parseBackendId term.value term.key = .ok id) :
      TermEffect model term fun query => { query with idFilter := some id }
  | predicate (plain : term.key ∉ controlWords ++ ["from", "to"]) (field : term.readsId model = false) :
      TermEffect model term fun query => { query with predicates := query.predicates ++ [term.predicate] }

omit [Externals] in
theorem readEdgeTerm_cases {model : RuntimeRelModel} {query query' : EdgeFindQuery} {term : QueryTerm}
    (ok : readEdgeTerm model query term = .ok query') :
    ∃ change, TermEffect model term change ∧ ∀ query, readEdgeTerm model query term = .ok (change query) := by
  unfold readEdgeTerm at ok ⊢
  by_cases format : term.key = "format"
  · rw [if_pos format] at ok
    obtain ⟨value, parsed, -⟩ := GrmResult.map_eq_ok.1 ok
    refine ⟨fun query => { query with format := value }, .control (by simp [format, controlWords]) fun query => ⟨rfl, rfl, rfl, rfl⟩, fun query => ?_⟩
    rw [if_pos format, parsed]
    rfl
  rw [if_neg format] at ok
  simp only [if_neg format]
  by_cases limit : term.key = "limit"
  · rw [if_pos limit] at ok
    obtain ⟨value, parsed, -⟩ := GrmResult.map_eq_ok.1 ok
    refine ⟨fun query => { query with limit := value }, .control (by simp [limit, controlWords]) fun query => ⟨rfl, rfl, rfl, rfl⟩, fun query => ?_⟩
    rw [if_pos limit, parsed]
    rfl
  rw [if_neg limit] at ok
  simp only [if_neg limit]
  by_cases offset : term.key = "offset"
  · rw [if_pos offset] at ok
    obtain ⟨value, parsed, -⟩ := GrmResult.map_eq_ok.1 ok
    refine ⟨fun query => { query with offset := value }, .control (by simp [offset, controlWords]) fun query => ⟨rfl, rfl, rfl, rfl⟩, fun query => ?_⟩
    rw [if_pos offset, parsed]
    rfl
  rw [if_neg offset] at ok
  simp only [if_neg offset]
  by_cases order : term.key = "order"
  · rw [if_pos order] at ok
    obtain ⟨value, parsed, -⟩ := GrmResult.map_eq_ok.1 ok
    refine ⟨fun query => { query with order := value }, .control (by simp [order, controlWords]) fun query => ⟨rfl, rfl, rfl, rfl⟩, fun query => ?_⟩
    rw [if_pos order, parsed]
    rfl
  rw [if_neg order] at ok
  simp only [if_neg order]
  by_cases source : term.key = "from"
  · rw [if_pos source] at ok
    obtain ⟨value, parsed, -⟩ := GrmResult.map_eq_ok.1 ok
    refine ⟨_, .source source parsed, fun query => ?_⟩
    rw [if_pos source, parsed]
    rfl
  rw [if_neg source] at ok
  simp only [if_neg source]
  by_cases target : term.key = "to"
  · rw [if_pos target] at ok
    obtain ⟨value, parsed, -⟩ := GrmResult.map_eq_ok.1 ok
    refine ⟨_, .target target parsed, fun query => ?_⟩
    rw [if_pos target, parsed]
    rfl
  rw [if_neg target] at ok
  simp only [if_neg target]
  have plain : term.key ∉ controlWords ++ ["from", "to"] := by
    simp [controlWords, format, limit, offset, order, source, target]
  by_cases id : term.key = "id" ∨ term.key = model.idFieldName
  · rw [if_pos id] at ok
    obtain ⟨value, parsed, -⟩ := GrmResult.map_eq_ok.1 ok
    have reads : term.readsId model = true := by
      simp [QueryTerm.readsId, plain, id]
    refine ⟨_, .id reads parsed, fun query => ?_⟩
    rw [if_pos id, parsed]
    rfl
  · rw [if_neg id] at ok
    have reads : term.readsId model = false := by
      simp [QueryTerm.readsId, not_or.1 id]
    refine ⟨_, .predicate plain reads, fun query => ?_⟩
    rw [if_neg id]
    dsimp only at ok ⊢
    split at ok
    · cases ok
    next special => rw [if_neg special]; rfl

omit [Externals] in
theorem QueryTerm.readsId_iff {model : RuntimeRelModel} {term : QueryTerm} :
    term.readsId model = true ↔
      term.key ∉ controlWords ++ ["from", "to"] ∧ (term.key = "id" ∨ term.key = model.idFieldName) := by
  unfold QueryTerm.readsId
  rw [Bool.and_eq_true, Bool.not_eq_true', Bool.or_eq_true, decide_eq_true_eq, decide_eq_true_eq,
    ← Bool.not_eq_true, List.contains_iff_mem]

/-- A term fills its own slot of the query with what it asks, and leaves the others as they are. -/
theorem TermEffect.meets {model : RuntimeRelModel} {term : QueryTerm} {change : EdgeFindQuery → EdgeFindQuery}
    (effect : TermEffect model term change) {query : EdgeFindQuery} (rel : StoredRel)
    (source : term.key = "from" → query.fromFilter = none) (target : term.key = "to" → query.toFilter = none) :
    (change query).Meets model rel ↔
      (if term.readsId model then { query with idFilter := none } else query).Meets model rel ∧
        term.Meets model rel := by
  unfold QueryTerm.Meets
  have asks : ∀ {raw subject : String} {id own : Int}, parseBackendId raw subject = .ok id →
      (parseBackendId raw subject = .ok own ↔ own = id) := by
    intro raw subject id own parsed
    rw [parsed, Except.ok.injEq, eq_comm]
  cases effect with
  | control word keeps =>
    have reads : term.readsId model = false := by
      rw [← Bool.not_eq_true, QueryTerm.readsId_iff]
      intro reads
      exact reads.1 (List.mem_append_left _ word)
    obtain ⟨ids, sources, targets, predicates⟩ := keeps query
    rw [reads, if_pos word, and_true]
    constructor
    · intro meets
      exact ⟨ids ▸ meets.id, sources ▸ meets.source, targets ▸ meets.target, predicates ▸ meets.predicates⟩
    · intro meets
      exact ⟨ids ▸ meets.id, sources ▸ meets.source, targets ▸ meets.target, predicates ▸ meets.predicates⟩
  | source word parsed =>
    have reads : term.readsId model = false := by
      rw [← Bool.not_eq_true, QueryTerm.readsId_iff, word]
      simp [controlWords]
    have plain : term.key ∉ controlWords := by simp [word, controlWords]
    rw [reads, if_neg plain, if_pos word, asks parsed]
    constructor
    · intro meets
      refine ⟨⟨meets.id, fun own asked => ?_, meets.target, meets.predicates⟩, meets.source _ rfl⟩
      have empty : some own = none := asked.symm.trans (source word)
      cases empty
    · rintro ⟨meets, own⟩
      exact ⟨meets.id, fun _ same => own.trans (Option.some.inj same), meets.target, meets.predicates⟩
  | target word parsed =>
    have reads : term.readsId model = false := by
      rw [← Bool.not_eq_true, QueryTerm.readsId_iff, word]
      simp [controlWords]
    have plain : term.key ∉ controlWords := by simp [word, controlWords]
    have apart : term.key ≠ "from" := by simp [word]
    rw [reads, if_neg plain, if_neg apart, if_pos word, asks parsed]
    constructor
    · intro meets
      refine ⟨⟨meets.id, meets.source, fun own asked => ?_, meets.predicates⟩, meets.target _ rfl⟩
      have empty : some own = none := asked.symm.trans (target word)
      cases empty
    · rintro ⟨meets, own⟩
      exact ⟨meets.id, meets.source, fun _ same => own.trans (Option.some.inj same), meets.predicates⟩
  | id reads parsed =>
    obtain ⟨plain, word⟩ := QueryTerm.readsId_iff.1 reads
    rw [List.mem_append, not_or] at plain
    have apart : term.key ≠ "from" ∧ term.key ≠ "to" := by simpa using plain.2
    rw [if_pos reads, if_neg plain.1, if_neg apart.1, if_neg apart.2, if_pos word, asks parsed]
    constructor
    · intro meets
      exact ⟨⟨nofun, meets.source, meets.target, meets.predicates⟩, meets.id _ rfl⟩
    · rintro ⟨meets, same⟩
      exact ⟨fun _ asked => same.trans (Option.some.inj asked), meets.source, meets.target, meets.predicates⟩
  | predicate plain field =>
    have notId : ¬ (term.key = "id" ∨ term.key = model.idFieldName) := by
      intro word
      rw [QueryTerm.readsId_iff.2 ⟨plain, word⟩] at field
      cases field
    rw [List.mem_append, not_or] at plain
    have apart : term.key ≠ "from" ∧ term.key ≠ "to" := by simpa using plain.2
    rw [field, if_neg plain.1, if_neg apart.1, if_neg apart.2, if_neg notId]
    constructor
    · intro meets
      obtain ⟨earlier, last⟩ := List.forall_mem_append.1 meets.predicates
      exact ⟨⟨meets.id, meets.source, meets.target, earlier⟩, last _ (List.mem_singleton.2 rfl)⟩
    · rintro ⟨meets, own⟩
      refine ⟨meets.id, meets.source, meets.target, List.forall_mem_append.2 ⟨meets.predicates, ?_⟩⟩
      intro predicate listed
      rw [List.mem_singleton.1 listed]
      exact own

omit [Externals] in
/-- A term fills no slot for an end but its own. -/
theorem TermEffect.ends {model : RuntimeRelModel} {term : QueryTerm} {change : EdgeFindQuery → EdgeFindQuery}
    (effect : TermEffect model term change) (query : EdgeFindQuery) :
    (term.key ≠ "from" → (change query).fromFilter = query.fromFilter) ∧
      (term.key ≠ "to" → (change query).toFilter = query.toFilter) := by
  cases effect with
  | control word keeps => exact ⟨fun _ => (keeps query).2.1, fun _ => (keeps query).2.2.1⟩
  | source word parsed => exact ⟨fun apart => absurd word apart, fun _ => rfl⟩
  | target word parsed => exact ⟨fun _ => rfl, fun apart => absurd word apart⟩
  | id reads parsed => exact ⟨fun _ => rfl, fun _ => rfl⟩
  | predicate plain field => exact ⟨fun _ => rfl, fun _ => rfl⟩

theorem EdgeFindQuery.Meets.congr {query query' : EdgeFindQuery} {model : RuntimeRelModel} {rel : StoredRel}
    (ids : query'.idFilter = query.idFilter) (sources : query'.fromFilter = query.fromFilter)
    (targets : query'.toFilter = query.toFilter) (predicates : query'.predicates = query.predicates) :
    query'.Meets model rel ↔ query.Meets model rel := by
  constructor
  · intro meets
    exact ⟨ids ▸ meets.id, sources ▸ meets.source, targets ▸ meets.target, predicates ▸ meets.predicates⟩
  · intro meets
    exact ⟨ids ▸ meets.id, sources ▸ meets.source, targets ▸ meets.target, predicates ▸ meets.predicates⟩

/-- With the slot for the id emptied afterwards, a term on the id asks nothing, and any other term
asks the same. -/
theorem TermEffect.meets_idEmptied {model : RuntimeRelModel} {term : QueryTerm}
    {change : EdgeFindQuery → EdgeFindQuery} (effect : TermEffect model term change) {query : EdgeFindQuery}
    (rel : StoredRel) (source : term.key = "from" → query.fromFilter = none)
    (target : term.key = "to" → query.toFilter = none) :
    ({ change query with idFilter := none } : EdgeFindQuery).Meets model rel ↔
      ({ query with idFilter := none } : EdgeFindQuery).Meets model rel ∧
        (term.readsId model = false → term.Meets model rel) := by
  cases reads : term.readsId model with
  | true =>
    have same : ({ change query with idFilter := none } : EdgeFindQuery).Meets model rel ↔
        ({ query with idFilter := none } : EdgeFindQuery).Meets model rel := by
      cases effect with
      | control word keeps => exact absurd word fun word => (QueryTerm.readsId_iff.1 reads).1 (List.mem_append_left _ word)
      | source word parsed => exact absurd (QueryTerm.readsId_iff.1 reads).1 (by simp [word])
      | target word parsed => exact absurd (QueryTerm.readsId_iff.1 reads).1 (by simp [word])
      | id word parsed => rfl
      | predicate plain field => rw [field] at reads; cases reads
    rw [same]
    simp
  | false =>
    have moved : ({ change query with idFilter := none } : EdgeFindQuery).Meets model rel ↔
        (change { query with idFilter := none }).Meets model rel := by
      cases effect with
      | control word keeps =>
        obtain ⟨-, sources, targets, predicates⟩ := keeps query
        obtain ⟨ids, sources', targets', predicates'⟩ := keeps { query with idFilter := none }
        exact EdgeFindQuery.Meets.congr ids.symm (sources.trans sources'.symm) (targets.trans targets'.symm)
          (predicates.trans predicates'.symm)
      | source word parsed => rfl
      | target word parsed => rfl
      | id word parsed => rw [word] at reads; cases reads
      | predicate plain field => rfl
    have step := @TermEffect.meets _ model term change effect { query with idFilter := none } rel source target
    rw [reads] at step
    rw [moved, step]
    simp

/-! ### The loop -/

/-- The query asks what the kept terms ask; the slot for the id is the last term's. -/
theorem readEdgeTerms_meets {model : RuntimeRelModel} {terms : List QueryTerm} {query result : EdgeFindQuery}
    (ok : terms.foldlM (readEdgeTerm model) query = .ok result) (distinct : (terms.map QueryTerm.key).Nodup)
    (source : "from" ∈ terms.map QueryTerm.key → query.fromFilter = none)
    (target : "to" ∈ terms.map QueryTerm.key → query.toFilter = none) (rel : StoredRel) :
    result.Meets model rel ↔
      (if terms.any (QueryTerm.readsId model) then { query with idFilter := none } else query).Meets model rel ∧
        ∀ term ∈ keptInQuery model terms, term.Meets model rel := by
  induction terms generalizing query with
  | nil => cases ok; simp [keptInQuery]
  | cons term terms ih =>
    rw [List.foldlM_cons] at ok
    obtain ⟨next, first, rest⟩ := GrmResult.bind_eq_ok.1 ok
    obtain ⟨change, effect, reads⟩ := readEdgeTerm_cases first
    rw [reads query] at first
    cases first
    rw [List.map_cons, List.nodup_cons] at distinct
    rw [List.map_cons] at source target
    obtain ⟨sources, targets⟩ := effect.ends query
    have freeSource : term.key = "from" → query.fromFilter = none := fun same => source (same ▸ List.mem_cons_self)
    have freeTarget : term.key = "to" → query.toFilter = none := fun same => target (same ▸ List.mem_cons_self)
    have later := ih rest distinct.2
      (fun listed => (sources fun same => distinct.1 (same ▸ listed)).trans (source (List.mem_cons_of_mem _ listed)))
      (fun listed => (targets fun same => distinct.1 (same ▸ listed)).trans (target (List.mem_cons_of_mem _ listed)))
    rw [later, keptInQuery, List.any_cons]
    cases another : terms.any (QueryTerm.readsId model) with
    | true =>
      simp only [if_true, Bool.or_true, Bool.and_true]
      rw [effect.meets_idEmptied rel freeSource freeTarget]
      cases own : term.readsId model with
      | true => simp
      | false => simp [and_assoc]
    | false =>
      simp only [Bool.false_eq_true, if_false, Bool.or_false, Bool.and_false]
      rw [effect.meets rel freeSource freeTarget, List.forall_mem_cons, and_assoc]

end Meaning

/-! ### The search -/

section Search
variable [Externals]

/-- The parsed predicates hold of the edges that meet the predicates. -/
theorem matchesPredicates_iff {model : RuntimeRelModel} {predicates : List SessionPredicate}
    {filters : List PropertyFilter} (parsed : parseRelPredicates predicates model = .ok filters) (props : Props) :
    matchesPredicates props filters = true ↔ ∀ predicate ∈ predicates, predicate.Meets model props := by
  unfold parseRelPredicates parsePredicates at parsed
  unfold matchesPredicates
  induction predicates generalizing filters with
  | nil => cases parsed; simp
  | cons predicate predicates ih =>
    rw [List.mapM_cons] at parsed
    obtain ⟨filter, first, parsed⟩ := GrmResult.bind_eq_ok.1 parsed
    obtain ⟨rest, later, parsed⟩ := GrmResult.bind_eq_ok.1 parsed
    cases parsed
    rw [List.all_cons, Bool.and_eq_true, ih later, List.forall_mem_cons]
    refine and_congr_left fun _ => ?_
    cases named : fieldNamed model.fields predicate.field with
    | none => rw [named] at first; cases first
    | some field =>
      rw [named] at first
      obtain ⟨value, valued, first⟩ := GrmResult.bind_eq_ok.1 first
      cases first
      unfold SessionPredicate.Meets
      rw [named]
      simp [valued, Option.any_eq_true]

theorem sortRelationships_perm {rels sorted : List StoredRel} {model : RuntimeRelModel} {orders : List SessionOrder}
    (ok : sortRelationships rels model orders = .ok sorted) : sorted.Perm rels := by
  unfold sortRelationships at ok
  split at ok
  · cases ok
    exact List.Perm.refl rels
  · obtain ⟨_, -, rfl⟩ := GrmResult.map_eq_ok.1 ok
    exact List.mergeSort_perm rels _

namespace SessionState

/-- A search returns the page of what it finds, and it finds the edges of the model that meet the query. -/
theorem findRelationshipsWithQuery_ok {s : SessionState} (indexed : s.store.Indexed) {modelName : String}
    {model : RuntimeRelModel} (known : s.catalog.getRelModel modelName = some model) {query : EdgeFindQuery}
    {returned : List StoredRel} (ok : s.findRelationshipsWithQuery modelName query = .ok returned) :
    ∃ found, s.findRelationshipsWithQuery modelName { query with offset := none, limit := none } = .ok found ∧
      returned = applyOffsetLimit found query.offset query.limit ∧
        ∀ rel, rel ∈ found ↔
          s.store.rels[rel.id]? = some rel ∧ rel.relType = model.relType ∧ query.Meets model rel := by
  unfold findRelationshipsWithQuery at ok ⊢
  rw [known] at ok ⊢
  dsimp only at ok ⊢
  obtain ⟨filters, parsed, ok⟩ := GrmResult.bind_eq_ok.1 ok
  obtain ⟨found, sorted, ok⟩ := GrmResult.bind_eq_ok.1 ok
  cases ok
  refine ⟨found, ?_, rfl, fun rel => ?_⟩
  · show (parseRelPredicates query.predicates model >>= _) = _
    rw [parsed]
    show (sortRelationships _ model query.order >>= _) = _
    rw [sorted]
    show Except.ok (applyOffsetLimit found none none) = _
    simp [applyOffsetLimit]
  · rw [(sortRelationships_perm sorted).mem_iff, List.mem_filter, indexed.mem_snapshotRelationshipsFiltered,
      matchesPredicates_iff parsed]
    unfold GraphStore.relSelected
    simp only [Bool.and_eq_true, beq_iff_eq, Option.all_eq_true]
    constructor
    · rintro ⟨⟨stored, ⟨⟨type, source⟩, target⟩, id⟩, predicates⟩
      exact ⟨stored, type, id, source, target, predicates⟩
    · rintro ⟨stored, type, meets⟩
      exact ⟨⟨stored, ⟨⟨type, meets.source⟩, meets.target⟩, meets.id⟩, meets.predicates⟩

end SessionState

omit [Externals] in
theorem keptInQuery_subset (model : RuntimeRelModel) (terms : List QueryTerm) : keptInQuery model terms ⊆ terms := by
  induction terms with
  | nil => exact List.Subset.refl _
  | cons term terms ih =>
    unfold keptInQuery
    split
    · exact List.subset_cons_of_subset term ih
    · exact List.cons_subset_cons term ih

omit [Externals] in
theorem queryTermsOf_keys (filters : BTreeMap String String) : ((queryTermsOf filters).map QueryTerm.key).Nodup := by
  have ordered := BTreeMap.ordered_toList filters
  unfold queryTermsOf
  rw [List.map_map, List.nodup_iff_pairwise_ne, List.pairwise_map]
  refine ordered.imp fun {a b} less same => ?_
  have self : compare b.1 b.1 = .eq := ReflCmp.compare_self
  rw [show a.1 = b.1 from same, self] at less
  cases less

omit [Externals] in
/-- The terms of the map are among those collected. -/
theorem queryTermsOf_collect (terms : List QueryTerm) : queryTermsOf (collectQueryTerms terms) ⊆ terms := by
  intro term listed
  obtain ⟨⟨key, value⟩, entry, rfl⟩ := List.mem_map.1 listed
  have found := ExtTreeMap.mem_toList_iff_getElem?_eq_some.1 entry
  rcases BTreeMap.insertAll_source found with written | earlier
  · obtain ⟨term, member, same⟩ := List.mem_map.1 written
    cases same
    exact member
  · simp at earlier

omit [Externals] in
theorem keptTerms_subset (model : RuntimeRelModel) (terms : List QueryTerm) : keptTerms model terms ⊆ terms :=
  List.Subset.trans (keptInQuery_subset model _) (queryTermsOf_collect terms)

theorem parseEdgeFindQuery_meets {model : RuntimeRelModel} {terms : List QueryTerm} {query : EdgeFindQuery}
    (ok : parseEdgeFindQuery (collectQueryTerms terms) model = .ok query) (rel : StoredRel) :
    query.Meets model rel ↔ ∀ term ∈ keptTerms model terms, term.Meets model rel := by
  rw [readEdgeTerms_meets ok (queryTermsOf_keys _) (fun _ => rfl) (fun _ => rfl) rel]
  unfold keptTerms
  apply and_iff_right
  split
  · exact ⟨nofun, nofun, nofun, nofun⟩
  · exact ⟨nofun, nofun, nofun, nofun⟩

namespace SessionState

/-- The edges found are those that meet every term of the list if and only if each edge of the model
that meets the terms the map and the query keep meets the terms they drop too. -/
theorem edge_find_conjunction_iff {s : SessionState} (reachable : s.Reachable) {modelName : String}
    {model : RuntimeRelModel} (known : s.catalog.getRelModel modelName = some model) {terms : List QueryTerm}
    {query : EdgeFindQuery} {returned : List StoredRel}
    (accepted : s.handleEdgeFindParsed modelName terms = .ok (query, returned)) :
    ∃ found, s.findRelationshipsWithQuery modelName { query with offset := none, limit := none } = .ok found ∧
      returned = applyOffsetLimit found query.offset query.limit ∧
      (((∀ rel ∈ found, ∀ term ∈ terms, term.Meets model rel) ∧
          ∀ rel, s.store.rels[rel.id]? = some rel → rel.relType = model.relType →
            (∀ term ∈ terms, term.Meets model rel) → rel ∈ found) ↔
        ∀ rel, s.store.rels[rel.id]? = some rel → rel.relType = model.relType →
          (∀ term ∈ keptTerms model terms, term.Meets model rel) →
            ∀ term ∈ terms, term ∉ keptTerms model terms → term.Meets model rel) := by
  unfold handleEdgeFindParsed at accepted
  rw [known] at accepted
  dsimp only at accepted
  obtain ⟨query', parsed, accepted⟩ := GrmResult.bind_eq_ok.1 accepted
  obtain ⟨rels, searched, accepted⟩ := GrmResult.bind_eq_ok.1 accepted
  cases accepted
  obtain ⟨found, unpaged, page, members⟩ := findRelationshipsWithQuery_ok reachable.sound.indexed known searched
  refine ⟨found, unpaged, page, ?_⟩
  simp only [members, parseEdgeFindQuery_meets parsed]
  constructor
  · intro ⟨sound, _⟩ rel stored type kept term listed _
    exact sound rel ⟨stored, type, kept⟩ term listed
  · intro dropped
    constructor
    · intro rel ⟨stored, type, kept⟩ term listed
      by_cases here : term ∈ keptTerms model terms
      · exact kept term here
      · exact dropped rel stored type kept term listed here
    · intro rel stored type meets
      exact ⟨stored, type, fun term kept => meets term (keptTerms_subset model terms kept)⟩

end SessionState

end Search

/-! ### A repeated key -/

/-- Two users who know each other since year 3. -/
def datedRequests : List RuntimeRequest :=
  [.schema (.defineNode ⟨"User", "uid", []⟩),
    .schema (.defineEdge ⟨"Knows", "User", "User", "kid", [⟨"year", .int, true⟩]⟩),
    .node (.create "User" ∅), .node (.create "User" ∅),
    .edge (.create "Knows" 1 2 ((∅ : Props).insert "year" (.number (.int ⟨3, by decide, by decide⟩))))]

def datedSession : SessionState := @SessionState.run Externals.plainOnly .new datedRequests

/-- The model of the relationship. -/
def datedModel : RuntimeRelModel :=
  ⟨"Knows", "Knows", "User", "User", "kid", .int64, .declared, [⟨"year", .int, true⟩]⟩

/-- The relationship. -/
def datedKnows : StoredRel := ⟨1, "Knows", 1, 2, (∅ : Props).insert "year" (.number (.int ⟨3, by decide, by decide⟩))⟩

/-- `year>5 year>1`. -/
def narrowedTerms : List QueryTerm := [⟨"year>", "5"⟩, ⟨"year>", "1"⟩]

/-- The query of the last term alone. -/
def narrowedQuery : EdgeFindQuery := { predicates := [⟨"year", .gt, .lexical "1"⟩] }

theorem datedSession_model : datedSession.catalog.getRelModel "Knows" = some datedModel := rfl

theorem narrowedTerms_found :
    letI := Externals.plainOnly
    datedSession.handleEdgeFindParsed "Knows" narrowedTerms = .ok (narrowedQuery, [datedKnows]) := by
  rfl

/-- `from=1 year>1`, of which nothing is dropped. -/
def sourcedTerms : List QueryTerm := [⟨"from", "1"⟩, ⟨"year>", "1"⟩]

theorem sourcedTerms_kept : keptTerms datedModel sourcedTerms = sourcedTerms := rfl

theorem edge_find_conjunction_iff_sourced :
    letI := Externals.plainOnly
    ∃ found, datedSession.findRelationshipsWithQuery "Knows"
        { predicates := [⟨"year", .gt, .lexical "1"⟩], fromFilter := some 1 } = .ok found ∧
      (∀ rel ∈ found, ∀ term ∈ sourcedTerms, term.Meets datedModel rel) ∧
        ∀ rel, datedSession.store.rels[rel.id]? = some rel → rel.relType = "Knows" →
          (∀ term ∈ sourcedTerms, term.Meets datedModel rel) → rel ∈ found := by
  let := Externals.plainOnly
  have accepted : datedSession.handleEdgeFindParsed "Knows" sourcedTerms =
      .ok ({ predicates := [⟨"year", .gt, .lexical "1"⟩], fromFilter := some 1 }, [datedKnows]) := rfl
  obtain ⟨found, searched, -, iff⟩ := SessionState.edge_find_conjunction_iff
    (SessionState.reachable_new.run datedRequests) datedSession_model accepted
  refine ⟨found, searched, iff.2 ?_⟩
  intro rel stored type kept term listed dropped
  rw [sourcedTerms_kept] at dropped
  exact absurd listed dropped

/-- Of `year>5 year>1` the first term is lost: the relationship since year 3 is returned. -/
theorem repeated_term_lost :
    letI := Externals.plainOnly
    datedSession.Reachable ∧ datedSession.handleEdgeFindParsed "Knows" narrowedTerms = .ok (narrowedQuery, [datedKnows]) ∧
      ⟨"year>", "5"⟩ ∈ narrowedTerms ∧ ¬ (⟨"year>", "5"⟩ : QueryTerm).Meets datedModel datedKnows := by
  let := Externals.plainOnly
  refine ⟨SessionState.reachable_new.run datedRequests, narrowedTerms_found, List.mem_cons_self, fun meets => ?_⟩
  have predicate : (⟨"year>", "5"⟩ : QueryTerm).predicate.Meets datedModel datedKnows.props := meets
  obtain ⟨field, value, stored, named, valued, held, compared⟩ := predicate
  have typed : fieldNamed datedModel.fields "year" = some ⟨"year", .int, true⟩ := rfl
  rw [show (⟨"year>", "5"⟩ : QueryTerm).predicate.field = "year" from rfl] at named held
  rw [typed] at named
  cases named
  have five : predicateValue (.lexical "5") .int "year" "link" "Knows" = .ok (.number (.int ⟨5, by decide, by decide⟩)) := rfl
  have read : predicateValue (.lexical "5") .int "year" "link" "Knows" = .ok value := valued
  rw [five] at read
  cases read
  have three : datedKnows.props["year"]? = some (.number (.int ⟨3, by decide, by decide⟩)) := rfl
  rw [three] at held
  cases held
  revert compared
  decide
