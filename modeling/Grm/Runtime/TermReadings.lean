import Grm.Lib.Digits
import Grm.Runtime.NodeTerms

/-!
# What the terms of a node find ask

Each term asks one thing of the find, which does not depend on the other terms. The session
asks what the terms ask, but for paging values with white space around the number, which it
refuses. The adapter accepts these, and of the ids it prefers one that is given by the
model's id field.
-/

set_option autoImplicit false

/-- Two computations give the same value, or both fail. -/
def SameOutcome {α : Type} (x y : GrmResult α) : Prop := ∀ a, x = .ok a ↔ y = .ok a

theorem SameOutcome.of_eq {α : Type} {x y : GrmResult α} (same : x = y) : SameOutcome x y := fun a => by rw [same]

/-! ## Values -/

/-- A digit and the plus sign are no white space. -/
theorem isWhitespace_numeral {c : Char} (numeral : c.isDigit = true ∨ c = '+') : Text.isWhitespace c = false := by
  have between : 43 = c.toNat ∨ 48 ≤ c.toNat ∧ c.toNat ≤ 57 := by
    rcases numeral with digit | rfl
    · exact .inr (Text.isDigit_iff.1 digit)
    · exact .inl rfl
  unfold Text.isWhitespace
  simp only [Bool.or_eq_false_iff, Bool.and_eq_false_iff, decide_eq_false_iff_not, beq_eq_false_iff_ne]
  omega

/-- A number has no white space around it. -/
theorem parseUsizeTerm_trimmed {raw subject : String} {n : Nat} (parsed : parseUsizeTerm raw subject = .ok n) :
    Text.trim raw.toList = raw.toList := by
  have numerals : ∀ c ∈ raw.toList, c.isDigit = true ∨ c = '+' := by
    unfold parseUsizeTerm at parsed
    dsimp only at parsed
    split at parsed
    case h_2 => cases parsed
    case h_1 found =>
      obtain ⟨found, -⟩ := Option.filter_eq_some_iff.1 found
      have digits : ∀ {text : List Char}, Text.parseDigits text = some n → ∀ c ∈ text, c.isDigit = true := by
        intro text read c member
        unfold Text.parseDigits at read
        split at read
        case isTrue digits => exact List.all_eq_true.1 digits.2 c member
        case isFalse => cases read
      cases parsed
      intro c member
      split at found
      case h_1 rest text =>
        rw [text, List.mem_cons] at member
        exact member.symm.imp_left (digits found c)
      case h_2 => exact .inl (digits found c member)
  apply Text.trim_eq_self
  · intro c first
    exact isWhitespace_numeral (numerals c (List.mem_of_head? first))
  · intro c last
    exact isWhitespace_numeral (numerals c (List.mem_of_getLast? last))

theorem parseUsizeValue_of_trimmed {raw : String} (trimmed : Text.trim raw.toList = raw.toList) (subject : String) :
    parseUsizeValue raw subject = parseUsizeTerm raw subject := by
  unfold parseUsizeValue
  rw [trimmed, String.ofList_toList]

/-- The two readers of an order differ only in which of two errors they find first. -/
theorem parseOrderSpecs_same (segments : List (List Char)) (seen : BTreeSet String) (orders : List SessionOrder) :
    SameOutcome (parseOrderSpecs seen orders segments) (parseOrderSegments seen orders segments) := by
  induction segments generalizing seen orders with
  | nil => exact .of_eq rfl
  | cons segment segments ih =>
    intro result
    unfold parseOrderSpecs parseOrderSegments
    cases Split.splitOnce [':'] segment with
    | none => exact ⟨nofun, nofun⟩
    | some parts =>
      obtain ⟨field, direction⟩ := parts
      dsimp only
      by_cases repeated : seen.contains (String.ofList field)
      · rw [if_pos repeated]
        refine ⟨nofun, fun ok => ?_⟩
        split at ok
        · cases ok
        · split at ok
          · cases ok
          · cases ok
      · simp only [if_neg repeated]
        split
        · exact ih _ _ result
        · split
          · exact ih _ _ result
          · exact ⟨nofun, nofun⟩

theorem parseOrderValue_same (raw : String) : SameOutcome (parseOrderValue raw) (parseOrderTerm raw) :=
  parseOrderSpecs_same _ _ _

theorem parseTraversalValue_same (raw : String) : SameOutcome (parseTraversalValue raw) (parseTraversalStep raw) := by
  intro step
  unfold parseTraversalValue parseTraversalStep
  match viaParts raw with
  | [] | [_] | [_, _] => exact ⟨nofun, nofun⟩
  | [direction, link, endModel] =>
    dsimp only
    cases traversalDirection direction with
    | none => exact ⟨nofun, nofun⟩
    | some direction =>
      dsimp only
      by_cases noLink : link = ""
      · simp [noLink]
      · by_cases noEnd : endModel = ""
        · simp [noLink, noEnd]
        · simp [noLink, noEnd]
  | direction :: link :: endModel :: next :: rest =>
    dsimp only
    refine ⟨nofun, ?_⟩
    cases traversalDirection direction with
    | none => exact nofun
    | some direction =>
      dsimp only
      rw [if_pos (.inr (.inr (List.cons_ne_nil next rest)))]
      exact nofun

/-! ## Readings -/

/-- What a term asks of a node find. An id is given by the name `id` or by the model's id field; a
predicate is kept as its key and its text. -/
inductive TermReading where
  | limit (n : Nat)
  | offset (n : Nat)
  | order (orders : List SessionOrder)
  | via (step : SessionTraversalStep)
  | returns (mode : SessionTraversalReturn)
  | id (byField : Bool) (id : Int)
  | endPredicate (key : List Char) (value : String)
  | edgePredicate (key : List Char) (value : String)
  | predicate (key : List Char) (value : String)

/-- What a term asks, if it is well formed. -/
def QueryTerm.reading (idFieldName : String) (term : QueryTerm) : Option TermReading :=
  if term.key = "limit" then (parseUsizeValue term.value "limit").toOption.map .limit
  else if term.key = "offset" then (parseUsizeValue term.value "offset").toOption.map .offset
  else if term.key = "order" then (parseOrderTerm term.value).toOption.map .order
  else if term.key = "via" then (parseTraversalStep term.value).toOption.map .via
  else if term.key = "return" then (SessionTraversalReturn.parse term.value).toOption.map .returns
  else if term.key = "id" then (parseBackendId term.value "id").toOption.map (.id false)
  else if term.key = idFieldName then (parseBackendId term.value idFieldName).toOption.map (.id true)
  else if "end.".toList.isPrefixOf term.key.toList then some (.endPredicate (trimEndPrefixes term.key.toList) term.value)
  else match stripEdgePrefix? term.key.toList with
    | some inner => some (.edgePredicate inner term.value)
    | none =>
      let field := String.ofList (splitPredicateKey term.key.toList).1
      if field = "id" ∨ field = idFieldName then none else some (.predicate term.key.toList term.value)

/-- A paging value with white space around it. -/
def QueryTerm.Padded (term : QueryTerm) : Prop :=
  (term.key = "limit" ∨ term.key = "offset") ∧ Text.trim term.value.toList ≠ term.value.toList

/-- The query with what the reading asks. -/
def NodeFindQuery.ask (query : NodeFindQuery) : TermReading → NodeFindQuery
  | .limit n => { query with limit := some n }
  | .offset n => { query with offset := some n }
  | .order order => { query with order }
  | .via step => { query with traversals := query.traversals ++ [step] }
  | .returns returnMode => { query with returnMode }
  | .id _ id => { query with idFilter := some id }
  | .endPredicate key value => { query with endPredicates := query.endPredicates ++ [lexicalPredicate key value] }
  | .edgePredicate key value => { query with edgePredicates := query.edgePredicates ++ [lexicalPredicate key value] }
  | .predicate key value => { query with predicates := query.predicates ++ [lexicalPredicate key value] }

theorem GrmResult.toOption_eq_some {α : Type} {x : GrmResult α} {a : α} : x.toOption = some a ↔ x = .ok a := by
  cases x with
  | ok b => exact ⟨fun same => congrArg Except.ok (Option.some.inj same), fun same => congrArg some (Except.ok.inj same)⟩
  | error e => exact ⟨nofun, nofun⟩

/-- A read value and what the query becomes by it, once without and once with its reading. -/
theorem map_ok_iff_reading {α : Type} {x : GrmResult α} {f : α → NodeFindQuery} {reading : α → TermReading}
    {query query' : NodeFindQuery} (asks : ∀ a, query.ask (reading a) = f a) :
    x.map f = .ok query' ↔ ∃ r, x.toOption.map reading = some r ∧ query.ask r = query' := by
  rw [GrmResult.map_eq_ok]
  constructor
  · rintro ⟨a, rfl, rfl⟩
    exact ⟨reading a, rfl, asks a⟩
  · rintro ⟨r, read, rfl⟩
    obtain ⟨a, found, rfl⟩ := Option.map_eq_some_iff.1 read
    exact ⟨a, GrmResult.toOption_eq_some.1 found, (asks a).symm⟩

/-- The session asks what a term asks, and refuses padded paging values. -/
theorem readNodeTerm_ok_iff {model : RuntimeNodeModel} {query query' : NodeFindQuery} {term : QueryTerm}
    (unformatted : term.key ≠ "format") :
    readNodeTerm model query term = .ok query' ↔
      ¬term.Padded ∧ ∃ r, term.reading model.idFieldName = some r ∧ query.ask r = query' := by
  have paging : ∀ {subject : String} {f : Nat → NodeFindQuery} {reading : Nat → TermReading},
      (∀ n, query.ask (reading n) = f n) → (term.key = "limit" ∨ term.key = "offset") →
      ((parseUsizeTerm term.value subject).map f = .ok query' ↔
        ¬term.Padded ∧ ∃ r, (parseUsizeValue term.value subject).toOption.map reading = some r ∧ query.ask r = query') := by
    intro subject f reading asks named
    by_cases trimmed : Text.trim term.value.toList = term.value.toList
    · rw [parseUsizeValue_of_trimmed trimmed, map_ok_iff_reading asks]
      exact ⟨fun read => ⟨fun padded => padded.2 trimmed, read⟩, fun read => read.2⟩
    · constructor
      · intro ok
        obtain ⟨n, parsed, -⟩ := GrmResult.map_eq_ok.1 ok
        exact absurd (parseUsizeTerm_trimmed parsed) trimmed
      · rintro ⟨plain, -⟩
        exact absurd ⟨named, trimmed⟩ plain
  unfold readNodeTerm QueryTerm.reading
  rw [if_neg unformatted]
  by_cases limit : term.key = "limit"
  · rw [if_pos limit, if_pos limit]
    exact paging (fun _ => rfl) (.inl limit)
  rw [if_neg limit, if_neg limit]
  by_cases offset : term.key = "offset"
  · rw [if_pos offset, if_pos offset]
    exact paging (fun _ => rfl) (.inr offset)
  rw [if_neg offset, if_neg offset]
  have plain : ¬term.Padded := fun padded => padded.1.elim limit offset
  rw [and_iff_right plain]
  by_cases order : term.key = "order"
  · rw [if_pos order, if_pos order]
    exact map_ok_iff_reading fun _ => rfl
  rw [if_neg order, if_neg order]
  by_cases via : term.key = "via"
  · rw [if_pos via, if_pos via]
    exact map_ok_iff_reading fun _ => rfl
  rw [if_neg via, if_neg via]
  by_cases returns : term.key = "return"
  · rw [if_pos returns, if_pos returns]
    exact map_ok_iff_reading fun _ => rfl
  rw [if_neg returns, if_neg returns]
  by_cases named : term.key = "id"
  · rw [if_pos (.inl named), if_pos named, named]
    exact map_ok_iff_reading fun _ => rfl
  rw [if_neg named]
  by_cases field : term.key = model.idFieldName
  · rw [if_pos (.inr field), if_pos field, field]
    exact map_ok_iff_reading fun _ => rfl
  rw [if_neg (not_or.2 ⟨named, field⟩), if_neg field]
  split
  · exact ⟨fun ok => ⟨_, rfl, Except.ok.inj ok⟩, by rintro ⟨r, ⟨⟩, rfl⟩; rfl⟩
  cases stripEdgePrefix? term.key.toList with
  | some inner => exact ⟨fun ok => ⟨_, rfl, Except.ok.inj ok⟩, by rintro ⟨r, ⟨⟩, rfl⟩; rfl⟩
  | none =>
    dsimp only [lexicalPredicate]
    split
    · exact ⟨nofun, by rintro ⟨r, ⟨⟩, -⟩⟩
    · exact ⟨fun ok => ⟨_, rfl, Except.ok.inj ok⟩, by rintro ⟨r, ⟨⟩, rfl⟩; rfl⟩

/-! ## The adapter -/

/-- The request with what the reading asks; an id given by the model's id field is a predicate on it. -/
def NodeFindRequest.ask (idFieldName value : String) (request : NodeFindRequest) : TermReading → NodeFindRequest
  | .limit n => { request with limit := some n }
  | .offset n => { request with offset := some n }
  | .order order => { request with order }
  | .via step => { request with traversals := request.traversals ++ [step] }
  | .returns mode => { request with returnMode := some mode }
  | .id false id => { request with id := some id }
  | .id true _ => { request with predicates := request.predicates ++ [⟨idFieldName, .eq, .string value⟩] }
  | .endPredicate key value => { request with endPredicates := request.endPredicates ++ [textPredicate key value] }
  | .edgePredicate key value => { request with edgePredicates := request.edgePredicates ++ [textPredicate key value] }
  | .predicate key value => { request with predicates := request.predicates ++ [textPredicate key value] }

/-- A predicate on the id field that a session does not read as an id. -/
def PropertyPredicate.NoId (idFieldName : String) (predicate : PropertyPredicate) : Prop :=
  predicate.field = idFieldName ∧
    (predicate.op ≠ .eq ∨ ∃ text, predicate.value = .string text ∧ ∀ id, parseBackendId text idFieldName ≠ .ok id)

/-- What the adapter does with a term: it asks what the term asks; a term that asks nothing is refused,
or kept as a predicate on the id field that a session refuses. -/
def PushedAs (idFieldName : String) (request : NodeFindRequest) (term : QueryTerm) (result : GrmResult NodeFindRequest) :
    Prop :=
  match term.reading idFieldName with
  | some r => result = .ok (request.ask idFieldName term.value r)
  | none => (∃ e, result = .error e) ∨
      ∃ predicate : PropertyPredicate, predicate.NoId idFieldName ∧
        result = .ok { request with predicates := request.predicates ++ [predicate] }

/-- A key without an operator is its own field. -/
theorem stripKeySuffix_eq {rawKey : List Char} {suffixes : List (List Char × CompareOp)}
    (operators : ∀ suffix ∈ suffixes, suffix.2 ≠ .eq) (equality : (stripKeySuffix rawKey suffixes).2 = .eq) :
    (stripKeySuffix rawKey suffixes).1 = rawKey := by
  induction suffixes with
  | nil => rfl
  | cons suffix suffixes ih =>
    rw [List.forall_mem_cons] at operators
    unfold stripKeySuffix at equality ⊢
    split at equality
    next field stripped =>
      split
      · rfl
      next given =>
        rw [if_neg given] at equality
        exact absurd equality operators.1
    · exact ih operators.2 equality

/-- A name has no prefix with a point, and no operator at its end. -/
theorem name_plain {name : String} (ok : validateFieldName name = .ok ()) :
    ("end.".toList.isPrefixOf name.toList) = false ∧ stripEdgePrefix? name.toList = none ∧
      splitPredicateKey name.toList = (name.toList, .eq) ∧ name ≠ "id" := by
  have noPoint := name_avoids ok (c := '.') (by decide)
  have apart : ∀ lit : List Char, '.' ∈ lit → lit.isPrefixOf name.toList = false := by
    intro lit point
    rw [← Bool.not_eq_true, List.isPrefixOf_iff_prefix]
    exact fun front => noPoint (front.subset point)
  have plain := stripKeySuffix_mark ok .eq
  rw [show CompareOp.mark .eq = [] from rfl, List.append_nil] at plain
  refine ⟨apart _ (by decide), ?_, plain, ?_⟩
  · unfold stripEdgePrefix? Text.stripPrefix?
    rw [apart _ (by decide), apart _ (by decide)]
    rfl
  · rintro rfl
    cases ok

theorem pushNodeFindAdapterValue_as {idFieldName : String} (named : validateFieldName idFieldName = .ok ())
    (request : NodeFindRequest) {term : QueryTerm} (unformatted : term.key ≠ "format") :
    PushedAs idFieldName request term (pushNodeFindAdapterValue request term) := by
  have value : ∀ {α : Type} {x y : GrmResult α} {f : α → NodeFindRequest} {reading : α → TermReading},
      SameOutcome x y → (∀ a, request.ask idFieldName term.value (reading a) = f a) →
      term.reading idFieldName = y.toOption.map reading → PushedAs idFieldName request term (x.map f) := by
    intro α x y f reading same asks read
    unfold PushedAs
    rw [read]
    cases outcome : y with
    | ok a =>
      rw [(same a).2 outcome]
      exact congrArg Except.ok (asks a).symm
    | error e =>
      refine .inl ?_
      cases failed : x with
      | ok a => rw [(same a).1 failed] at outcome; cases outcome
      | error e => exact ⟨e, rfl⟩
  have reading := @QueryTerm.reading.eq_1 idFieldName term
  unfold pushNodeFindAdapterValue
  rw [if_neg unformatted]
  by_cases limit : term.key = "limit"
  · rw [if_pos limit] at reading ⊢
    exact value (.of_eq rfl) (fun _ => rfl) reading
  rw [if_neg limit] at reading ⊢
  by_cases offset : term.key = "offset"
  · rw [if_pos offset] at reading ⊢
    exact value (.of_eq rfl) (fun _ => rfl) reading
  rw [if_neg offset] at reading ⊢
  by_cases order : term.key = "order"
  · rw [if_pos order] at reading ⊢
    exact value (parseOrderValue_same _) (fun _ => rfl) reading
  rw [if_neg order] at reading ⊢
  by_cases id : term.key = "id"
  · rw [if_neg (by simp [id]), if_neg (by simp [id]), if_pos id] at reading
    rw [if_pos id]
    exact value (.of_eq rfl) (fun _ => rfl) reading
  rw [if_neg id]
  by_cases via : term.key = "via"
  · rw [if_pos via] at reading ⊢
    exact value (parseTraversalValue_same _) (fun _ => rfl) reading
  rw [if_neg via] at reading ⊢
  by_cases returns : term.key = "return"
  · rw [if_pos returns] at reading ⊢
    exact value (.of_eq rfl) (fun _ => rfl) reading
  rw [if_neg returns] at reading ⊢
  rw [if_neg id] at reading
  by_cases field : term.key = idFieldName
  · obtain ⟨noEnd, noEdge, noOperator, reserved⟩ := name_plain named
    rw [if_pos field] at reading
    rw [field, noEnd, noEdge, if_neg Bool.false_ne_true]
    have predicate : textPredicate idFieldName.toList term.value = ⟨idFieldName, .eq, .string term.value⟩ := by
      unfold textPredicate
      rw [show splitFilterKey idFieldName.toList = _ from noOperator]
      dsimp only
      rw [String.ofList_toList]
    rw [predicate]
    dsimp only
    rw [if_neg reserved]
    unfold PushedAs
    rw [reading]
    cases parsed : parseBackendId term.value idFieldName with
    | ok id => rfl
    | error e =>
      refine .inr ⟨⟨idFieldName, .eq, .string term.value⟩, ⟨rfl, .inr ⟨term.value, rfl, fun id ok => ?_⟩⟩, rfl⟩
      rw [parsed] at ok
      cases ok
  rw [if_neg field] at reading
  unfold PushedAs
  rw [reading]
  cases ending : "end.".toList.isPrefixOf term.key.toList with
  | true => rfl
  | false =>
    rw [if_neg Bool.false_ne_true, if_neg Bool.false_ne_true]
    cases stripEdgePrefix? term.key.toList with
    | some inner => rfl
    | none =>
      dsimp only [textPredicate]
      rw [show splitFilterKey term.key.toList = splitPredicateKey term.key.toList from rfl]
      by_cases word : String.ofList (splitPredicateKey term.key.toList).1 = "id"
      · rw [if_pos word, if_pos (.inl word)]
        exact .inl ⟨_, rfl⟩
      rw [if_neg word]
      by_cases own : String.ofList (splitPredicateKey term.key.toList).1 = idFieldName
      · rw [if_pos (.inr own)]
        refine .inr ⟨_, ⟨own, .inl fun equality => field ?_⟩, rfl⟩
        have whole : (splitPredicateKey term.key.toList).1 = term.key.toList := stripKeySuffix_eq (by decide) equality
        rw [whole, String.ofList_toList] at own
        exact own
      · rw [if_neg (not_or.2 ⟨word, own⟩)]
        rfl
