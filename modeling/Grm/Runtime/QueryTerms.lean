import Grm.Lib.Split
import Grm.Dsl.Graph
import Grm.Runtime.Catalog

/-!
# Query terms

`split_query_term` of `parser.rs`, which cuts a term at the first operator it finds, and
`split_predicate_key` and `split_filter_key`, which read the operator back from the end of
the key. A place in the input is the text before it and the text after it.
-/

open Split

set_option autoImplicit false

/-- A place in the input, `(input, offset)`. -/
structure InputPlace where
  before : List Char
  after : List Char

/-- The part of the line that precedes the place. -/
def InputPlace.lineBefore (place : InputPlace) : List Char := (place.before.reverse.takeWhile (· != '\n')).reverse

/-- `constraint_at`. -/
def constraintAt (place : InputPlace) (message : String) : GrmError :=
  let line := place.lineBefore ++ place.after.takeWhile (· != '\n')
  let lineNumber := place.before.count '\n' + 1
  let column := place.lineBefore.length + 1
  .constraint (message ++ " at line " ++ toString lineNumber ++ ", column " ++ toString column ++ "\n" ++
    String.ofList line ++ "\n" ++ String.ofList (List.replicate (column - 1) ' ') ++ "^")

/-- `validate_format_term_shape`. -/
def validateFormatTermShape (raw : List Char) (place : InputPlace) : GrmResult Unit :=
  if raw = "default".toList ∨ raw = "jsonl".toList ∨ raw = "table".toList ∨ raw = "graph".toList then .ok ()
  else .error (constraintAt place "format must be one of: default, jsonl, table, graph")

/-- `validate_order_term_shape`. -/
def validateOrderTermShape (raw : List Char) (place : InputPlace) : GrmResult Unit :=
  (raw.splitOn ',').forM fun segment =>
    match splitOnce [':'] segment with
    | none => .error (constraintAt place "order must use order=<field>:asc|desc[,<field>:asc|desc ...]")
    | some (field, direction) =>
      if field = [] then
        .error (constraintAt place "order must use order=<field>:asc|desc[,<field>:asc|desc ...]")
      else if direction = "asc".toList ∨ direction = "desc".toList then .ok ()
      else .error (constraintAt place "order direction must be asc or desc")

/-- The error of a term that has no operator, no field or no value. -/
def invalidQueryTerm (arg : List Char) (place : InputPlace) : GrmError :=
  constraintAt place ("invalid query term '" ++ String.ofList arg ++ "'")

/-- One turn of the loop of `split_query_term`: the key keeps the operator, but for `=`, of
which nothing is kept, and `!=`, of which the exclamation mark is. -/
def splitAtOperator (operator arg key value : List Char) (place : InputPlace) : GrmResult (List Char × List Char) :=
  if key = [] ∨ value = [] then .error (invalidQueryTerm arg place)
  else do
    let resultKey :=
      if operator = "=".toList then key
      else if operator = "!=".toList then arg.take (key.length + 1)
      else if operator = ">=".toList ∨ operator = "<=".toList then arg.take (key.length + 2)
      else if operator = ">".toList ∨ operator = "<".toList ∨ operator = "~".toList then arg.take (key.length + 1)
      else key
    if resultKey = "order".toList then validateOrderTermShape value place
    if resultKey = "format".toList then validateFormatTermShape value place
    return (resultKey, value)

/-- The loop of `split_query_term` over the operators. -/
def splitAtOperators (arg : List Char) (place : InputPlace) : List (List Char) → GrmResult (List Char × List Char)
  | [] => .error (invalidQueryTerm arg place)
  | operator :: operators =>
    match splitOnce operator arg with
    | some (key, value) => splitAtOperator operator arg key value place
    | none => splitAtOperators arg place operators

/-- The operators, in the order in which they are looked for. -/
def termOperators : List (List Char) :=
  ["!=".toList, ">=".toList, "<=".toList, ">".toList, "<".toList, "~".toList, "=".toList]

/-- `split_query_term`. -/
def splitQueryTerm (arg : List Char) (place : InputPlace) : GrmResult (List Char × List Char) :=
  if ">>".toList <:+: arg ∨ "<<".toList <:+: arg then .error (invalidQueryTerm arg place)
  else splitAtOperators arg place termOperators

/-- The suffixes of a key and the operators they stand for. -/
def keySuffixes : List (List Char × CompareOp) :=
  [("!".toList, .ne), (">=".toList, .ge), ("<=".toList, .le), (">".toList, .gt), ("<".toList, .lt),
    ("~".toList, .contains)]

/-- The loop over the suffixes: a bare suffix is taken for a field. -/
def stripKeySuffix (rawKey : List Char) : List (List Char × CompareOp) → List Char × CompareOp
  | [] => (rawKey, .eq)
  | (suffix, op) :: suffixes =>
    match Text.stripSuffix? suffix rawKey with
    | some field => if field = [] then (rawKey, .eq) else (field, op)
    | none => stripKeySuffix rawKey suffixes

/-- `split_predicate_key`, which never fails. -/
def splitPredicateKey (rawKey : List Char) : List Char × CompareOp := stripKeySuffix rawKey keySuffixes

/-- `split_filter_key`, which never fails. -/
def splitFilterKey (rawKey : List Char) : List Char × CompareOp := stripKeySuffix rawKey keySuffixes

/-! ### A term and its parts -/

/-- An operator as it is written. -/
def CompareOp.text : CompareOp → List Char
  | .eq => "=".toList
  | .ne => "!=".toList
  | .gt => ">".toList
  | .ge => ">=".toList
  | .lt => "<".toList
  | .le => "<=".toList
  | .contains => "~".toList

/-- What a key keeps of its operator. -/
def CompareOp.mark : CompareOp → List Char
  | .eq => []
  | .ne => "!".toList
  | op => op.text

/-- The operators that are looked for before this one. -/
def CompareOp.earlier (op : CompareOp) : List CompareOp :=
  [CompareOp.ne, .ge, .le, .gt, .lt, .contains, .eq].takeWhile (· ≠ op)

/-- The words a term uses for other purposes than a field. -/
def reservedTermWords : List String := ["format", "limit", "offset", "order", "via", "return", "id", "from", "to"]

/-- The term of a field, an operator and a value. -/
def termText (field : String) (op : CompareOp) (value : String) : List Char := field.toList ++ (op.text ++ value.toList)

/-- Neither the operator nor the value holds a doubled comparison or an operator that is looked for before. -/
structure CompareOp.Readable (op : CompareOp) (value : String) : Prop where
  notDoubled : ¬ ">>".toList <:+: op.text ++ value.toList ∧ ¬ "<<".toList <:+: op.text ++ value.toList
  first : ∀ other ∈ op.earlier, ¬ other.text <:+: op.text ++ value.toList

/-- The term is read as its field, operator and value, by both splitters of the key. -/
def Recovers (field : String) (op : CompareOp) (value : String) (place : InputPlace) : Prop :=
  ∃ key, splitQueryTerm (termText field op value) place = .ok (key, value.toList) ∧
    splitPredicateKey key = (field.toList, op) ∧ splitFilterKey key = (field.toList, op)

/-! ### Field names -/

theorem validateFieldName_ok {name : String} (ok : validateFieldName name = .ok ()) :
    name.toList ≠ [] ∧ ∀ c ∈ name.toList, isNameChar c = true := by
  unfold validateFieldName at ok
  split at ok
  · cases ok
  next first rest text =>
  split at ok
  · cases ok
  split at ok
  · cases ok
  split at ok
  · cases ok
  next named =>
  rw [text]
  refine ⟨List.cons_ne_nil first rest, List.all_eq_true.1 ?_⟩
  simpa using named

/-- No character of an operator is one of a name. -/
theorem name_avoids {name : String} (ok : validateFieldName name = .ok ()) {c : Char} (symbol : isNameChar c = false) :
    c ∉ name.toList := by
  intro member
  rw [(validateFieldName_ok ok).2 c member] at symbol
  cases symbol

/-- Every operator starts with a character that no name has. -/
theorem CompareOp.text_symbol (op : CompareOp) : ∃ c rest, op.text = c :: rest ∧ isNameChar c = false := by
  cases op
  all_goals exact ⟨_, _, rfl, by decide⟩

/-! ### Finding the operator -/

theorem splitAtOperators_reach {arg operator key value : List Char} {place : InputPlace}
    {before after : List (List Char)} (absent : ∀ other ∈ before, ¬ other <:+: arg)
    (found : splitOnce operator arg = some (key, value)) :
    splitAtOperators arg place (before ++ operator :: after) = splitAtOperator operator arg key value place := by
  induction before with
  | nil => simp [splitAtOperators, found]
  | cons other before ih =>
    rw [List.forall_mem_cons] at absent
    rw [List.cons_append, splitAtOperators, splitOnce_eq_none.2 absent.1]
    exact ih absent.2

theorem termOperators_eq (op : CompareOp) :
    ∃ after, termOperators = op.earlier.map CompareOp.text ++ op.text :: after := by
  cases op
  all_goals exact ⟨_, rfl⟩

/-- In a readable term the first operator found is the one written. -/
theorem splitQueryTerm_readable {field value : String} {op : CompareOp} (named : validateFieldName field = .ok ())
    (readable : op.Readable value) (place : InputPlace) :
    splitQueryTerm (termText field op value) place =
      splitAtOperator op.text (termText field op value) field.toList value.toList place := by
  obtain ⟨after, order⟩ := termOperators_eq op
  obtain ⟨greater, less⟩ := readable.notDoubled
  have greater' : ¬ ">>".toList <:+: termText field op value := by
    rwa [show ">>".toList = ['>', '>'] from rfl, termText, infix_skip (name_avoids named (by decide))]
  have less' : ¬ "<<".toList <:+: termText field op value := by
    rwa [show "<<".toList = ['<', '<'] from rfl, termText, infix_skip (name_avoids named (by decide))]
  rw [splitQueryTerm, if_neg (by simp only [greater', less', or_self, not_false_eq_true]), order]
  apply splitAtOperators_reach
  · intro other member
    obtain ⟨earlier, listed, rfl⟩ := List.mem_map.1 member
    obtain ⟨c, rest, text, symbol⟩ := earlier.text_symbol
    have absent := readable.first earlier listed
    rw [text] at absent ⊢
    rwa [termText, infix_skip (name_avoids named symbol)]
  · obtain ⟨c, rest, text, symbol⟩ := op.text_symbol
    rw [termText]
    have here := splitOnce_self op.text value.toList
    rw [text] at here ⊢
    rw [splitOnce_skip (name_avoids named symbol), here]
    simp

/-! ### Reading the key -/

/-- A key with an operator's mark is none of the words whose values have a shape of their own. -/
theorem mark_not_word {field : String} {op : CompareOp} {word : String}
    (letters : word.toList.all isNameChar = true) (apart : field ≠ word) :
    field.toList ++ op.mark ≠ word.toList := by
  intro same
  have noMark : ∀ c ∈ op.mark, isNameChar c = true := by
    intro c member
    apply List.all_eq_true.1 letters c
    rw [← same]
    exact List.mem_append_right _ member
  cases op
  case eq => exact apart (String.toList_injective (by simpa [CompareOp.mark] using same))
  all_goals exact absurd (noMark _ List.mem_cons_self) (by decide)

theorem splitAtOperator_ok {field value : String} {op : CompareOp} (named : validateFieldName field = .ok ())
    (apart : field ∉ reservedTermWords) (given : value ≠ "") (place : InputPlace) :
    splitAtOperator op.text (termText field op value) field.toList value.toList place =
      .ok (field.toList ++ op.mark, value.toList) := by
  have fieldGiven : field.toList ≠ [] := (validateFieldName_ok named).1
  have valueGiven : value.toList ≠ [] := fun empty => given (String.toList_injective empty)
  have notOrder : field.toList ++ op.mark ≠ "order".toList :=
    mark_not_word rfl fun same => apart (by rw [same]; decide)
  have notFormat : field.toList ++ op.mark ≠ "format".toList :=
    mark_not_word rfl fun same => apart (by rw [same]; decide)
  unfold splitAtOperator
  rw [if_neg (by simp only [fieldGiven, valueGiven, or_self, not_false_eq_true])]
  have kept : (if op.text = "=".toList then field.toList
      else if op.text = "!=".toList then (termText field op value).take (field.toList.length + 1)
      else if op.text = ">=".toList ∨ op.text = "<=".toList then (termText field op value).take (field.toList.length + 2)
      else if op.text = ">".toList ∨ op.text = "<".toList ∨ op.text = "~".toList then
        (termText field op value).take (field.toList.length + 1)
      else field.toList) = field.toList ++ op.mark := by
    unfold termText
    cases op <;> simp [CompareOp.text, CompareOp.mark, List.take_append]
  rw [kept, if_neg notOrder, if_neg notFormat]
  rfl

/-- The operator is read back from the end of the key; the end of a name is no operator's. -/
theorem stripKeySuffix_mark {field : String} (named : validateFieldName field = .ok ()) (op : CompareOp) :
    stripKeySuffix (field.toList ++ op.mark) keySuffixes = (field.toList, op) := by
  obtain ⟨given, letters⟩ := validateFieldName_ok named
  cases op
  case eq =>
    obtain ⟨last, front, reversed⟩ := List.exists_cons_of_ne_nil (mt List.reverse_eq_nil_iff.1 given)
    have letter : isNameChar last = true := by
      apply letters last
      rw [← List.mem_reverse, reversed]
      exact List.mem_cons_self
    have apart : ∀ c, isNameChar c = false → ¬ c = last := by
      intro c symbol same
      rw [same, letter] at symbol
      cases symbol
    simp [CompareOp.mark, stripKeySuffix, keySuffixes, Text.stripSuffix?, List.isSuffixOf, List.isPrefixOf, reversed,
      apart '!' (by decide), apart '=' (by decide), apart '>' (by decide), apart '<' (by decide),
      apart '~' (by decide)]
  all_goals
    simp [CompareOp.mark, CompareOp.text, stripKeySuffix, keySuffixes, Text.stripSuffix?, List.isSuffixOf,
      List.isPrefixOf, given]

theorem readable_recovers {field value : String} {op : CompareOp} (named : validateFieldName field = .ok ())
    (apart : field ∉ reservedTermWords) (given : value ≠ "") (readable : op.Readable value) (place : InputPlace) :
    Recovers field op value place := by
  refine ⟨field.toList ++ op.mark, ?_, stripKeySuffix_mark named op, stripKeySuffix_mark named op⟩
  rw [splitQueryTerm_readable named readable, splitAtOperator_ok named apart given]

/-- A comparison that is written twice is refused. -/
theorem doubled_refused {field : String} {rest : List Char} {op : CompareOp} {c : Char} (written : op.text = [c])
    (comparison : c = '>' ∨ c = '<') (place : InputPlace) :
    splitQueryTerm (termText field op (String.ofList (c :: rest))) place =
      .error (invalidQueryTerm (termText field op (String.ofList (c :: rest))) place) := by
  have doubled : [c, c] <:+: termText field op (String.ofList (c :: rest)) := by
    refine ⟨field.toList, rest, ?_⟩
    simp [termText, written]
  rw [splitQueryTerm, if_pos]
  rcases comparison with rfl | rfl
  · exact Or.inl doubled
  · exact Or.inr doubled

/-- A comparison before an equals sign is the comparison that allows equality. -/
theorem termText_orEqual {field rest : String} {op wider : CompareOp} (joined : wider.text = op.text ++ ['=']) :
    termText field op ("=" ++ rest) = termText field wider rest := by
  simp [termText, joined]

/-- A term means what was written: its field, operator and value are read back wherever no operator
that is looked for before is written in it. A comparison written twice is refused, and one before an
equals sign is the comparison that allows equality. -/
theorem terms_mean_what_was_written :
    (∀ field op value place, validateFieldName field = .ok () → field ∉ reservedTermWords → value ≠ "" →
      op.Readable value → Recovers field op value place) ∧
    (∀ field rest place, ∀ op ∈ [CompareOp.gt, .lt], ∀ c ∈ op.text,
      splitQueryTerm (termText field op (String.ofList (c :: rest))) place =
        .error (invalidQueryTerm (termText field op (String.ofList (c :: rest))) place)) ∧
    ∀ field rest place, ∀ pair ∈ [(CompareOp.gt, CompareOp.ge), (.lt, .le)],
      validateFieldName field = .ok () → field ∉ reservedTermWords → rest ≠ "" → pair.2.Readable rest →
        ∃ key, splitQueryTerm (termText field pair.1 ("=" ++ rest)) place = .ok (key, rest.toList) ∧
          splitPredicateKey key = (field.toList, pair.2) ∧ splitFilterKey key = (field.toList, pair.2) := by
  refine ⟨?_, ?_, ?_⟩
  · intro field op value place named apart given readable
    exact readable_recovers named apart given readable place
  · intro field rest place op comparison c written
    simp only [List.mem_cons, List.not_mem_nil, or_false] at comparison
    rcases comparison with rfl | rfl
    · rw [List.mem_singleton.1 written]
      exact doubled_refused rfl (Or.inl rfl) place
    · rw [List.mem_singleton.1 written]
      exact doubled_refused rfl (Or.inr rfl) place
  · intro field rest place pair joined named apart given readable
    have text : pair.2.text = pair.1.text ++ ['='] := by
      simp only [List.mem_cons, List.not_mem_nil, or_false] at joined
      rcases joined with rfl | rfl
      · rfl
      · rfl
    rw [termText_orEqual text]
    exact readable_recovers named apart given readable place

/-- `age>40` and `age>=40` are read, `age>>40` is refused. -/
theorem terms_mean_what_was_written_age :
    Recovers "age" .gt "40" ⟨[], "age>40".toList⟩ ∧
      splitQueryTerm "age>>40".toList ⟨[], "age>>40".toList⟩ =
        .error (invalidQueryTerm "age>>40".toList ⟨[], "age>>40".toList⟩) ∧
      ∃ key, splitQueryTerm "age>=40".toList ⟨[], "age>=40".toList⟩ = .ok (key, "40".toList) ∧
        splitPredicateKey key = ("age".toList, .ge) ∧ splitFilterKey key = ("age".toList, .ge) := by
  obtain ⟨reads, refuses, joins⟩ := terms_mean_what_was_written
  refine ⟨?_, ?_, ?_⟩
  · exact reads "age" .gt "40" _ rfl (by decide) (by decide) ⟨by decide, by decide⟩
  · exact refuses "age" "40".toList _ .gt List.mem_cons_self '>' List.mem_cons_self
  · exact joins "age" "40" _ (.gt, .ge) List.mem_cons_self rfl (by decide) (by decide) ⟨by decide, by decide⟩

/-- The value `>40` is not read after `>`. -/
theorem doubled_not_recovered :
    validateFieldName "age" = .ok () ∧ "age" ∉ reservedTermWords ∧ ">40" ≠ "" ∧
      ¬ Recovers "age" .gt ">40" ⟨"node.find User ".toList, "age>>40".toList⟩ := by
  refine ⟨rfl, by decide, by decide, ?_⟩
  intro recovers
  obtain ⟨key, read, -⟩ := recovers
  have refused : splitQueryTerm (termText "age" .gt ">40") ⟨"node.find User ".toList, "age>>40".toList⟩ =
      .error (invalidQueryTerm (termText "age" .gt ">40") ⟨"node.find User ".toList, "age>>40".toList⟩) := by
    exact @doubled_refused "age" "40".toList .gt '>' rfl (Or.inl rfl) _
  rw [read] at refused
  cases refused
