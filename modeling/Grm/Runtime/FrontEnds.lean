import Grm.Runtime.TermReadings

/-!
# The two queries of a list of terms

The session makes of a list of terms the query that its readings ask for. The adapter makes the
same query but for the values of predicates, which stay texts in the request and are not parsed
for the field, and for the id, of which the last one given by the model's id field is taken.
-/

set_option autoImplicit false

/-! ## Texts for lexical values -/

/-- The predicate `text` has the text of the predicate `lexical` as its value. -/
structure AsText (lexical text : SessionPredicate) : Prop where
  field : text.field = lexical.field
  op : text.op = lexical.op
  value : ∃ raw, lexical.value = .lexical raw ∧ text.value = .typed (.string raw)

theorem asText_predicates (key : List Char) (value : String) :
    AsText (lexicalPredicate key value) (sessionPredicate (textPredicate key value)) :=
  ⟨rfl, rfl, value, rfl, rfl⟩

/-- The queries are one but for the id and the values of predicates. -/
structure SameButText (query query' : NodeFindQuery) : Prop where
  predicates : List.Forall₂ AsText query.predicates query'.predicates
  endPredicates : List.Forall₂ AsText query.endPredicates query'.endPredicates
  edgePredicates : List.Forall₂ AsText query.edgePredicates query'.edgePredicates
  traversals : query'.traversals = query.traversals
  order : query'.order = query.order
  limit : query'.limit = query.limit
  offset : query'.offset = query.offset
  returnMode : query'.returnMode = query.returnMode
  format : query'.format = query.format

theorem forall₂_snoc {α β : Type} {R : α → β → Prop} {as : List α} {bs : List β} {a : α} {b : β}
    (related : List.Forall₂ R as bs) (last : R a b) : List.Forall₂ R (as ++ [a]) (bs ++ [b]) :=
  List.rel_append related (.cons last .nil)

theorem forall₂_nil_iff {α β : Type} {R : α → β → Prop} {as : List α} {bs : List β} (related : List.Forall₂ R as bs) :
    bs.isEmpty = as.isEmpty := by
  cases related <;> rfl

/-! ## Ids among the predicates -/

section Split
variable {idFieldName : String} {refuse : String → GrmError}

/-- An id from outside the predicates is taken when they have none. -/
theorem splitIdPredicates_initial (idFilter : Option Int) (predicates : List PropertyPredicate) :
    splitIdPredicates idFieldName refuse idFilter predicates =
      (splitIdPredicates idFieldName refuse none predicates).map fun split => (split.1.or idFilter, split.2) := by
  induction predicates generalizing idFilter with
  | nil => rfl
  | cons predicate predicates ih =>
    unfold splitIdPredicates
    split
    · split
      · rfl
      · cases typedIdValueToI64 predicate.value predicate.field with
        | error e => rfl
        | ok id =>
          show splitIdPredicates idFieldName refuse (some id) predicates =
            (splitIdPredicates idFieldName refuse (some id) predicates).map _
          rw [ih (some id)]
          cases splitIdPredicates idFieldName refuse none predicates with
          | error e => rfl
          | ok rest =>
            obtain ⟨found, kept⟩ := rest
            cases found <;> rfl
    · rw [ih idFilter]
      cases splitIdPredicates idFieldName refuse none predicates <;> rfl

theorem splitIdPredicates_snoc (idFilter : Option Int) (predicates : List PropertyPredicate) (last : PropertyPredicate) :
    splitIdPredicates idFieldName refuse idFilter (predicates ++ [last]) =
      (splitIdPredicates idFieldName refuse idFilter predicates).bind fun split =>
        (splitIdPredicates idFieldName refuse split.1 [last]).map fun end_ => (end_.1, split.2 ++ end_.2) := by
  obtain ⟨tail, known⟩ : ∃ tail : Option Int → GrmResult (Option Int × List SessionPredicate),
      ∀ idFilter, splitIdPredicates idFieldName refuse idFilter [last] = tail idFilter := ⟨_, fun _ => rfl⟩
  simp only [known]
  induction predicates generalizing idFilter with
  | nil =>
    rw [List.nil_append, known]
    show tail idFilter = (tail idFilter).map _
    cases tail idFilter <;> rfl
  | cons predicate predicates ih =>
    rw [List.cons_append]
    unfold splitIdPredicates
    split
    · split
      · rfl
      · cases typedIdValueToI64 predicate.value predicate.field with
        | error e => rfl
        | ok id => exact ih (some id)
    · rw [ih idFilter]
      cases splitIdPredicates idFieldName refuse idFilter predicates with
      | error e => rfl
      | ok split =>
        show (tail split.1).map _ >>= _ = (tail split.1).map _
        cases tail split.1 <;> rfl

/-- A predicate on the id field that is no id spoils the request, whatever comes before. -/
theorem splitIdPredicates_noId {predicates : List PropertyPredicate} {last : PropertyPredicate}
    (bad : last.NoId idFieldName) (idFilter : Option Int) (result : Option Int × List SessionPredicate) :
    splitIdPredicates idFieldName refuse idFilter (predicates ++ [last]) ≠ .ok result := by
  have alone : ∀ idFilter, ∃ e, splitIdPredicates idFieldName refuse idFilter [last] = .error e := by
    intro idFilter
    unfold splitIdPredicates
    rw [if_pos (.inr bad.1)]
    by_cases equality : last.op = .eq
    · rcases bad.2 with other | ⟨text, value, unread⟩
      · exact absurd equality other
      · rw [if_neg (not_not_intro equality), value, bad.1]
        cases parsed : parseBackendId text idFieldName with
        | ok id => exact absurd parsed (unread id)
        | error e =>
          refine ⟨e, ?_⟩
          show typedIdValueToI64 (.string text) idFieldName >>= _ = _
          rw [show typedIdValueToI64 (.string text) idFieldName = parseBackendId text idFieldName from rfl, parsed]
          rfl
    · exact ⟨_, by rw [if_pos equality]⟩
  rw [splitIdPredicates_snoc]
  cases splitIdPredicates idFieldName refuse idFilter predicates with
  | error e => exact nofun
  | ok split =>
    obtain ⟨e, failed⟩ := alone split.1
    show (splitIdPredicates idFieldName refuse split.1 [last]).map _ ≠ _
    rw [failed]
    exact nofun

end Split

/-! ## Reading the terms -/

/-- The id a reading gives by the model's id field. -/
def TermReading.byField? : TermReading → Option Int
  | .id true given => some given
  | _ => none

/-- The readings of a list of terms, if every term is well formed. -/
def termReadings (idFieldName : String) (terms : List QueryTerm) : Option (List TermReading) :=
  terms.mapM (QueryTerm.reading idFieldName)

/-- The query that asks what the readings ask. -/
def asked (readings : List TermReading) : NodeFindQuery := readings.foldl NodeFindQuery.ask {}

/-- The last id that is given by the model's id field. -/
def lastByField (readings : List TermReading) : Option Int :=
  readings.foldl (fun last reading => reading.byField?.or last) none

/-- Filters on the ends and edges of a traversal, and a return mode, come with a traversal. -/
def NodeFindQuery.Anchored (query : NodeFindQuery) : Prop :=
  query.traversals = [] → query.endPredicates = [] ∧ query.edgePredicates = [] ∧ query.returnMode = .endNode

theorem checkTraversalTerms_ok_iff {query query' : NodeFindQuery} :
    checkTraversalTerms query = .ok query' ↔ query.Anchored ∧ query = query' := by
  unfold checkTraversalTerms NodeFindQuery.Anchored
  cases query.traversals <;> cases query.endPredicates <;> cases query.edgePredicates <;> cases query.returnMode <;> simp

theorem foldlM_readNodeTerm_iff {model : RuntimeNodeModel} {terms : List QueryTerm}
    (unformatted : ∀ term ∈ terms, term.key ≠ "format") {query query' : NodeFindQuery} :
    terms.foldlM (readNodeTerm model) query = .ok query' ↔
      (∀ term ∈ terms, ¬term.Padded) ∧
        ∃ readings, termReadings model.idFieldName terms = some readings ∧ readings.foldl NodeFindQuery.ask query = query' := by
  unfold termReadings
  induction terms generalizing query with
  | nil => exact ⟨fun ok => ⟨nofun, [], rfl, Except.ok.inj ok⟩, by rintro ⟨-, _, ⟨⟩, rfl⟩; rfl⟩
  | cons term terms ih =>
    rw [List.forall_mem_cons] at unformatted
    rw [List.foldlM_cons, GrmResult.bind_eq_ok, List.mapM_cons, List.forall_mem_cons]
    constructor
    · rintro ⟨next, first, rest⟩
      obtain ⟨plain, r, read, rfl⟩ := (readNodeTerm_ok_iff unformatted.1).1 first
      obtain ⟨others, readings, found, rfl⟩ := (ih unformatted.2).1 rest
      exact ⟨⟨plain, others⟩, r :: readings, by rw [read, found]; rfl, rfl⟩
    · rintro ⟨⟨plain, others⟩, readings, found, rfl⟩
      cases read : term.reading model.idFieldName with
      | none => rw [read] at found; cases found
      | some r =>
        cases rest : terms.mapM (QueryTerm.reading model.idFieldName) with
        | none => rw [read, rest] at found; cases found
        | some more =>
          rw [read, rest] at found
          cases found
          exact ⟨query.ask r, (readNodeTerm_ok_iff unformatted.1).2 ⟨plain, r, read, rfl⟩,
            (ih unformatted.2).2 ⟨others, more, rest, rfl⟩⟩

/-- The session accepts well formed terms with plain paging values, and asks what they ask. -/
theorem parseNodeFindTerms_ok_iff {model : RuntimeNodeModel} {terms : List QueryTerm}
    (unformatted : ∀ term ∈ terms, term.key ≠ "format") {query : NodeFindQuery} :
    NodeFindQuery.parseNodeFindTerms terms model = .ok query ↔
      (∀ term ∈ terms, ¬term.Padded) ∧ ∃ readings, termReadings model.idFieldName terms = some readings ∧
        (asked readings).Anchored ∧ asked readings = query := by
  have run : NodeFindQuery.parseNodeFindTerms terms model =
      (terms.foldlM (readNodeTerm model) {} >>= checkTraversalTerms) := rfl
  rw [run, GrmResult.bind_eq_ok]
  constructor
  · rintro ⟨read, folded, checked⟩
    obtain ⟨plain, readings, found, rfl⟩ := (foldlM_readNodeTerm_iff unformatted).1 folded
    obtain ⟨anchored, rfl⟩ := checkTraversalTerms_ok_iff.1 checked
    exact ⟨plain, readings, found, anchored, rfl⟩
  · rintro ⟨plain, readings, found, anchored, rfl⟩
    exact ⟨asked readings, (foldlM_readNodeTerm_iff unformatted).2 ⟨plain, readings, found, rfl⟩,
      checkTraversalTerms_ok_iff.2 ⟨anchored, rfl⟩⟩

/-! ## The adapter's request -/

/-- The request asks what the query asks; `byField` is the last id among its predicates. -/
structure Requests (idFieldName : String) (query : NodeFindQuery) (request : NodeFindRequest) (byField : Option Int) :
    Prop where
  limit : request.limit = query.limit
  offset : request.offset = query.offset
  order : request.order = query.order
  traversals : request.traversals = query.traversals
  returnMode : request.returnMode.getD .endNode = query.returnMode
  format : query.format = .default
  endPredicates : List.Forall₂ AsText query.endPredicates (request.endPredicates.map sessionPredicate)
  edgePredicates : List.Forall₂ AsText query.edgePredicates (request.edgePredicates.map sessionPredicate)
  predicates : ∀ refuse, ∃ kept, splitIdPredicates idFieldName refuse none request.predicates = .ok (byField, kept) ∧
    List.Forall₂ AsText query.predicates kept
  id : byField = none → request.id = query.idFilter

theorem requests_empty (idFieldName model : String) : Requests idFieldName {} { model } none :=
  ⟨rfl, rfl, rfl, rfl, rfl, rfl, .nil, .nil, fun _ => ⟨[], rfl, .nil⟩, fun _ => rfl⟩

/-- What a reading says of its term. -/
theorem QueryTerm.reading_says {idFieldName : String} {term : QueryTerm} {r : TermReading}
    (read : term.reading idFieldName = some r) :
    (∀ id, r = .id true id → parseBackendId term.value idFieldName = .ok id) ∧
      ∀ key value, r = .predicate key value →
        String.ofList (splitPredicateKey key).1 ≠ "id" ∧ String.ofList (splitPredicateKey key).1 ≠ idFieldName := by
  have other : ∀ {α : Type} {x : GrmResult α} {reading : α → TermReading},
      (∀ a id, reading a ≠ .id true id) → (∀ a key value, reading a ≠ .predicate key value) →
      x.toOption.map reading = some r →
      (∀ id, r = .id true id → parseBackendId term.value idFieldName = .ok id) ∧
        ∀ key value, r = .predicate key value →
          String.ofList (splitPredicateKey key).1 ≠ "id" ∧ String.ofList (splitPredicateKey key).1 ≠ idFieldName := by
    intro α x reading noId noPredicate found
    obtain ⟨a, -, rfl⟩ := Option.map_eq_some_iff.1 found
    exact ⟨fun id same => absurd same (noId a id), fun key value same => absurd same (noPredicate a key value)⟩
  unfold QueryTerm.reading at read
  split at read
  · exact other nofun nofun read
  split at read
  · exact other nofun nofun read
  split at read
  · exact other nofun nofun read
  split at read
  · exact other nofun nofun read
  split at read
  · exact other nofun nofun read
  split at read
  · exact other nofun nofun read
  split at read
  · obtain ⟨a, found, rfl⟩ := Option.map_eq_some_iff.1 read
    exact ⟨fun id same => by cases same; exact GrmResult.toOption_eq_some.1 found, fun key value => nofun⟩
  split at read
  · cases read
    exact ⟨fun id => nofun, fun key value => nofun⟩
  split at read
  · cases read
    exact ⟨fun id => nofun, fun key value => nofun⟩
  · dsimp only at read
    split at read
    · cases read
    next apart =>
      cases read
      exact ⟨fun id => nofun, fun key value same => by cases same; exact not_or.1 apart⟩

theorem splitIdPredicates_snoc_ok {idFieldName : String} {refuse : String → GrmError} {idFilter given last : Option Int}
    {predicates : List PropertyPredicate} {predicate : PropertyPredicate} {kept end_ : List SessionPredicate}
    (first : splitIdPredicates idFieldName refuse idFilter predicates = .ok (given, kept))
    (alone : splitIdPredicates idFieldName refuse given [predicate] = .ok (last, end_)) :
    splitIdPredicates idFieldName refuse idFilter (predicates ++ [predicate]) = .ok (last, kept ++ end_) := by
  rw [splitIdPredicates_snoc, first]
  show (splitIdPredicates idFieldName refuse given [predicate]).map _ = _
  rw [alone]
  rfl

/-- One term: the request asks what the query asks. -/
theorem Requests.ask {idFieldName : String} {query : NodeFindQuery} {request : NodeFindRequest} {byField : Option Int}
    (h : Requests idFieldName query request byField) {term : QueryTerm} {r : TermReading}
    (read : term.reading idFieldName = some r) :
    Requests idFieldName (query.ask r) (request.ask idFieldName term.value r) (r.byField?.or byField) := by
  obtain ⟨idSays, predicateSays⟩ := QueryTerm.reading_says read
  cases r with
  | limit n => exact { h with limit := rfl }
  | offset n => exact { h with offset := rfl }
  | order orders => exact { h with order := rfl }
  | via step => exact { h with traversals := congrArg (· ++ [step]) h.traversals }
  | returns mode => exact { h with returnMode := rfl }
  | endPredicate key value =>
    refine { h with endPredicates := ?_ }
    show List.Forall₂ AsText (_ ++ [_]) ((_ ++ [_]).map sessionPredicate)
    rw [List.map_append]
    exact forall₂_snoc h.endPredicates (asText_predicates key value)
  | edgePredicate key value =>
    refine { h with edgePredicates := ?_ }
    show List.Forall₂ AsText (_ ++ [_]) ((_ ++ [_]).map sessionPredicate)
    rw [List.map_append]
    exact forall₂_snoc h.edgePredicates (asText_predicates key value)
  | predicate key value =>
    obtain ⟨noId, noField⟩ := predicateSays key value rfl
    refine { h with predicates := fun refuse => ?_ }
    obtain ⟨kept, split, related⟩ := h.predicates refuse
    refine ⟨kept ++ [sessionPredicate (textPredicate key value)], splitIdPredicates_snoc_ok split ?_,
      forall₂_snoc related (asText_predicates key value)⟩
    have plain : ¬((textPredicate key value).field = "id" ∨ (textPredicate key value).field = idFieldName) :=
      not_or.2 ⟨noId, noField⟩
    unfold splitIdPredicates
    rw [if_neg plain]
    rfl
  | id own given =>
    cases own with
    | false => exact { h with id := fun _ => rfl }
    | true =>
      refine { h with predicates := fun refuse => ?_, id := nofun }
      obtain ⟨kept, split, related⟩ := h.predicates refuse
      refine ⟨kept ++ [], splitIdPredicates_snoc_ok split ?_, by rw [List.append_nil]; exact related⟩
      unfold splitIdPredicates
      rw [if_pos (.inr rfl), if_neg (not_not_intro rfl)]
      show parseBackendId term.value idFieldName >>= _ = _
      rw [idSays given rfl]
      rfl

/-- All terms: the request asks what they ask. -/
theorem foldlM_push_reads {idFieldName : String} (named : validateFieldName idFieldName = .ok ()) {terms : List QueryTerm}
    (unformatted : ∀ term ∈ terms, term.key ≠ "format") {readings : List TermReading}
    (found : termReadings idFieldName terms = some readings) {query : NodeFindQuery} {request : NodeFindRequest}
    {byField : Option Int} (h : Requests idFieldName query request byField) :
    ∃ request', terms.foldlM pushNodeFindAdapterValue request = .ok request' ∧
      Requests idFieldName (readings.foldl NodeFindQuery.ask query) request'
        (readings.foldl (fun last reading => reading.byField?.or last) byField) := by
  unfold termReadings at found
  induction terms generalizing query request byField readings with
  | nil => cases found; exact ⟨request, rfl, h⟩
  | cons term terms ih =>
    rw [List.forall_mem_cons] at unformatted
    rw [List.mapM_cons] at found
    obtain ⟨r, read, found⟩ := Option.bind_eq_some_iff.1 found
    obtain ⟨more, rest, found⟩ := Option.bind_eq_some_iff.1 found
    cases found
    have pushed := pushNodeFindAdapterValue_as named request unformatted.1
    unfold PushedAs at pushed
    rw [read] at pushed
    obtain ⟨request', run, holds⟩ := ih unformatted.2 rest (h.ask read)
    refine ⟨request', ?_, holds⟩
    rw [List.foldlM_cons, show pushNodeFindAdapterValue request term = _ from pushed]
    exact run

/-- No session reads an id from every predicate on its id field. -/
def NodeFindRequest.Spoiled (idFieldName : String) (request : NodeFindRequest) : Prop :=
  ∀ refuse idFilter result, splitIdPredicates idFieldName refuse idFilter request.predicates ≠ .ok result

theorem spoiled_snoc {idFieldName : String} {predicates : List PropertyPredicate}
    (spoiled : ∀ refuse idFilter result, splitIdPredicates idFieldName refuse idFilter predicates ≠ .ok result)
    (last : PropertyPredicate) (refuse : String → GrmError) (idFilter : Option Int)
    (result : Option Int × List SessionPredicate) :
    splitIdPredicates idFieldName refuse idFilter (predicates ++ [last]) ≠ .ok result := by
  rw [splitIdPredicates_snoc]
  cases first : splitIdPredicates idFieldName refuse idFilter predicates with
  | error e => exact nofun
  | ok split => exact absurd first (spoiled refuse idFilter split)

theorem NodeFindRequest.Spoiled.push {idFieldName : String} (named : validateFieldName idFieldName = .ok ())
    {request request' : NodeFindRequest} (spoiled : request.Spoiled idFieldName) {term : QueryTerm}
    (unformatted : term.key ≠ "format") (ok : pushNodeFindAdapterValue request term = .ok request') :
    request'.Spoiled idFieldName := by
  have pushed := pushNodeFindAdapterValue_as named request unformatted
  unfold PushedAs at pushed
  rw [ok] at pushed
  cases read : term.reading idFieldName with
  | some r =>
    rw [read] at pushed
    cases pushed
    cases r with
    | id own given =>
      cases own with
      | false => exact spoiled
      | true => exact spoiled_snoc spoiled _
    | predicate key value => exact spoiled_snoc spoiled _
    | _ => exact spoiled
  | none =>
    rw [read] at pushed
    rcases pushed with ⟨e, failed⟩ | ⟨predicate, -, appended⟩
    · cases failed
    · cases appended
      exact spoiled_snoc spoiled _

theorem foldlM_push_model {idFieldName : String} (named : validateFieldName idFieldName = .ok ()) {terms : List QueryTerm}
    (unformatted : ∀ term ∈ terms, term.key ≠ "format") {request request' : NodeFindRequest}
    (ok : terms.foldlM pushNodeFindAdapterValue request = .ok request') : request'.model = request.model := by
  induction terms generalizing request with
  | nil => cases ok; rfl
  | cons term terms ih =>
    rw [List.forall_mem_cons] at unformatted
    rw [List.foldlM_cons] at ok
    obtain ⟨next, pushed, ok⟩ := GrmResult.bind_eq_ok.1 ok
    refine (ih unformatted.2 ok).trans ?_
    have as_ := pushNodeFindAdapterValue_as named request unformatted.1
    unfold PushedAs at as_
    rw [pushed] at as_
    cases read : term.reading idFieldName with
    | none =>
      rw [read] at as_
      rcases as_ with ⟨e, failed⟩ | ⟨predicate, -, appended⟩
      · cases failed
      · cases appended; rfl
    | some r =>
      rw [read] at as_
      cases as_
      cases r with
      | id own given => cases own <;> rfl
      | _ => rfl

theorem foldlM_push_spoiled {idFieldName : String} (named : validateFieldName idFieldName = .ok ()) {terms : List QueryTerm}
    (unformatted : ∀ term ∈ terms, term.key ≠ "format") {request request' : NodeFindRequest}
    (ok : terms.foldlM pushNodeFindAdapterValue request = .ok request')
    (bad : request.Spoiled idFieldName ∨ termReadings idFieldName terms = none) : request'.Spoiled idFieldName := by
  unfold termReadings at bad
  induction terms generalizing request with
  | nil =>
    cases ok
    exact bad.resolve_right nofun
  | cons term terms ih =>
    rw [List.forall_mem_cons] at unformatted
    rw [List.foldlM_cons] at ok
    obtain ⟨next, pushed, ok⟩ := GrmResult.bind_eq_ok.1 ok
    apply ih unformatted.2 ok
    rcases bad with spoiled | unread
    · exact .inl (spoiled.push named unformatted.1 pushed)
    · have as_ := pushNodeFindAdapterValue_as named request unformatted.1
      unfold PushedAs at as_
      rw [pushed] at as_
      cases read : term.reading idFieldName with
      | none =>
        rw [read] at as_
        rcases as_ with ⟨e, failed⟩ | ⟨predicate, noId, appended⟩
        · cases failed
        · cases appended
          exact .inl fun refuse idFilter result => splitIdPredicates_noId noId idFilter result
      | some r =>
        right
        rw [List.mapM_cons, read] at unread
        cases rest : terms.mapM (QueryTerm.reading idFieldName) with
        | none => rfl
        | some more => rw [rest] at unread; cases unread

/-! ## The two queries -/

/-- Terms that both front ends read. -/
def WellFormed (model : RuntimeNodeModel) (terms : List QueryTerm) : Prop :=
  ∃ readings, termReadings model.idFieldName terms = some readings ∧ (asked readings).Anchored

namespace SessionState
variable {s : SessionState} {modelName : String} {model : RuntimeNodeModel}

/-- A session reads a request if its ids are ids and filters come with a traversal. -/
theorem nodeFindQueryFromRequest_ok_iff (known : s.catalog.getNodeModel modelName = some model) {request : NodeFindRequest}
    (addressed : request.model = modelName) {byField : Option Int} {kept : List SessionPredicate}
    (split : splitIdPredicates model.idFieldName
      (fun field => .constraint ("backend id filter '" ++ field ++ "' only supports '='")) none request.predicates =
        .ok (byField, kept))
    {query : NodeFindQuery} :
    s.nodeFindQueryFromRequest request = .ok query ↔ query.Anchored ∧
      { predicates := kept, endPredicates := request.endPredicates.map sessionPredicate
        edgePredicates := request.edgePredicates.map sessionPredicate, traversals := request.traversals
        order := request.order, limit := request.limit, offset := request.offset, idFilter := byField.or request.id
        returnMode := request.returnMode.getD .endNode } = query := by
  unfold nodeFindQueryFromRequest NodeFindQuery.Anchored
  rw [addressed, known]
  dsimp only
  rw [splitIdPredicates_initial, split]
  dsimp only [Except.map, bind, Except.bind, pure, Except.pure, throw, throwThe, MonadExceptOf.throw]
  constructor
  · intro ok
    split at ok
    next none_ =>
      split at ok
      · cases ok
      next noFilters =>
        split at ok
        · cases ok
        next mode =>
          cases ok
          refine ⟨fun _ => ?_, rfl⟩
          simpa [not_or, and_assoc] using And.intro noFilters mode
    next some_ =>
      cases ok
      exact ⟨fun empty => absurd (List.isEmpty_iff.2 empty) some_, rfl⟩
  · rintro ⟨anchored, rfl⟩
    dsimp only at anchored ⊢
    split
    next none_ =>
      obtain ⟨noEnd, noEdge, mode⟩ := anchored (List.isEmpty_iff.1 none_)
      simp [noEnd, noEdge, mode]
    · rfl

/-- Reading a request that asks what a query asks. -/
theorem nodeFindQueryFromRequest_of (known : s.catalog.getNodeModel modelName = some model) {request : NodeFindRequest}
    (addressed : request.model = modelName) {query : NodeFindQuery} {byField : Option Int}
    (requests : Requests model.idFieldName query request byField) :
    ∃ query', SameButText query query' ∧ query'.idFilter = byField.or request.id ∧
      ∀ result, s.nodeFindQueryFromRequest request = .ok result ↔ query.Anchored ∧ query' = result := by
  obtain ⟨kept, split, related⟩ := requests.predicates fun field =>
    .constraint ("backend id filter '" ++ field ++ "' only supports '='")
  refine ⟨{ predicates := kept, endPredicates := request.endPredicates.map sessionPredicate
            edgePredicates := request.edgePredicates.map sessionPredicate, traversals := request.traversals
            order := request.order, limit := request.limit, offset := request.offset, idFilter := byField.or request.id
            returnMode := request.returnMode.getD .endNode }, ⟨related, requests.endPredicates, requests.edgePredicates, requests.traversals, requests.order,
    requests.limit, requests.offset, requests.returnMode, requests.format.symm⟩, rfl, fun result => ?_⟩
  rw [nodeFindQueryFromRequest_ok_iff known addressed split]
  apply and_congr_left
  rintro rfl
  unfold NodeFindQuery.Anchored
  dsimp only
  rw [requests.traversals, requests.returnMode, ← List.isEmpty_iff (l := request.endPredicates.map _),
    ← List.isEmpty_iff (l := request.edgePredicates.map _), forall₂_nil_iff requests.endPredicates,
    forall₂_nil_iff requests.edgePredicates, List.isEmpty_iff, List.isEmpty_iff]

/-- Terms that are not well formed are refused by the adapter, or its request by the session. -/
theorem adapterQuery_refused (known : s.catalog.getNodeModel modelName = some model)
    (named : validateFieldName model.idFieldName = .ok ()) {terms : List QueryTerm}
    (unformatted : ∀ term ∈ terms, term.key ≠ "format") (unread : termReadings model.idFieldName terms = none)
    (query : NodeFindQuery) : s.adapterQuery modelName terms ≠ .ok query := by
  intro ok
  obtain ⟨request, pushed, ok⟩ := GrmResult.bind_eq_ok.1 ok
  have spoiled := foldlM_push_spoiled named unformatted pushed (.inr unread)
  have addressed : request.model = modelName := foldlM_push_model named unformatted pushed
  unfold nodeFindQueryFromRequest at ok
  rw [addressed, known] at ok
  obtain ⟨split, accepted, -⟩ := GrmResult.bind_eq_ok.1 ok
  exact spoiled _ _ split accepted

/-- Both front ends on the same terms: the session accepts well formed terms with plain paging values, and
the adapter all well formed ones. The queries are one but for the values of predicates and the id, which is
the adapter's too unless the last id by the model's id field is not the last of all. -/
theorem front_ends (known : s.catalog.getNodeModel modelName = some model)
    (named : validateFieldName model.idFieldName = .ok ()) {terms : List QueryTerm}
    (unformatted : ∀ term ∈ terms, term.key ≠ "format") :
    (¬WellFormed model terms → (∀ query, s.parseNodeFindTerms modelName terms ≠ .ok query) ∧
      ∀ query, s.adapterQuery modelName terms ≠ .ok query) ∧
    ∀ readings, termReadings model.idFieldName terms = some readings → (asked readings).Anchored →
      (∀ query, s.parseNodeFindTerms modelName terms = .ok query ↔
        (∀ term ∈ terms, ¬term.Padded) ∧ asked readings = query) ∧
      ∃ query', s.adapterQuery modelName terms = .ok query' ∧ SameButText (asked readings) query' ∧
        (query'.idFilter = (asked readings).idFilter ↔
          ∀ id, lastByField readings = some id → (asked readings).idFilter = some id) := by
  have session : s.parseNodeFindTerms modelName terms = NodeFindQuery.parseNodeFindTerms terms model := by
    unfold parseNodeFindTerms
    rw [known]
  constructor
  · intro malformed
    constructor
    · intro query ok
      rw [session, parseNodeFindTerms_ok_iff unformatted] at ok
      obtain ⟨-, readings, found, anchored, -⟩ := ok
      exact malformed ⟨readings, found, anchored⟩
    · intro query ok
      cases found : termReadings model.idFieldName terms with
      | none => exact adapterQuery_refused known named unformatted found query ok
      | some readings =>
        obtain ⟨request, pushed, requests⟩ := foldlM_push_reads named unformatted found
          (requests_empty model.idFieldName modelName)
        obtain ⟨query', -, -, iff⟩ := nodeFindQueryFromRequest_of known (foldlM_push_model named unformatted pushed) requests
        obtain ⟨request', pushed', ok⟩ := GrmResult.bind_eq_ok.1 ok
        cases pushed.symm.trans pushed'
        exact malformed ⟨readings, found, ((iff query).1 ok).1⟩
  · intro readings found anchored
    constructor
    · intro query
      rw [session, parseNodeFindTerms_ok_iff unformatted, found]
      constructor
      · rintro ⟨plain, _, ⟨⟩, -, rfl⟩
        exact ⟨plain, rfl⟩
      · rintro ⟨plain, rfl⟩
        exact ⟨plain, readings, rfl, anchored, rfl⟩
    · obtain ⟨request, pushed, requests⟩ := foldlM_push_reads named unformatted found
        (requests_empty model.idFieldName modelName)
      obtain ⟨query', same, id, iff⟩ := nodeFindQueryFromRequest_of known (foldlM_push_model named unformatted pushed) requests
      refine ⟨query', GrmResult.bind_eq_ok.2 ⟨request, pushed, (iff query').2 ⟨anchored, rfl⟩⟩, same, ?_⟩
      rw [id]
      have last : lastByField readings = readings.foldl (fun last reading => reading.byField?.or last) none := rfl
      cases own : lastByField readings with
      | none =>
        rw [← last, own]
        exact ⟨fun _ => nofun, fun _ => requests.id (last.symm.trans own)⟩
      | some given =>
        rw [← last, own]
        constructor
        · rintro same _ ⟨⟩
          exact same.symm
        · intro same
          exact (same given rfl).symm

end SessionState
