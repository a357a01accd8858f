import Grm.Runtime.CommandLine

/-!
# The parser does not panic

The offsets that the tokenizer records are between two characters of the input, so the
errors can be placed there, and every argument that a branch takes from the list is there.
-/

open Split ByteText Panics

set_option autoImplicit false

namespace CommandLine

/-! ## Placing errors -/

/-- A text without line breaks is passed over. -/
theorem takeWhile_line {line : List Char} (absent : '\n' ∉ line) (rest : List Char) :
    (line ++ rest).takeWhile (· != '\n') = line ++ rest.takeWhile (· != '\n') :=
  List.takeWhile_append_of_pos fun _ within => bne_iff_ne.2 fun same => absent (same ▸ within)

theorem takeWhile_whole {line : List Char} (absent : '\n' ∉ line) : line.takeWhile (· != '\n') = line := by
  have passed := takeWhile_line absent []
  rwa [List.append_nil, List.takeWhile_nil, List.append_nil] at passed

/-- The line starts behind the last line break. -/
theorem lineStart_split (before after : List Char) :
    ∃ head, before = head ++ (⟨before, after⟩ : InputPlace).lineBefore ∧
      ((rfind '\n' before).map (· + 1)).getD 0 = byteLength head := by
  rw [InputPlace.lineBefore]
  rcases rfind_cases '\n' before with ⟨missing, absent⟩ | ⟨head, line, rfl, absent, found⟩
  · refine ⟨[], ?_, by rw [missing]; rfl⟩
    rw [takeWhile_whole fun within => absent (List.mem_reverse.1 within), List.reverse_reverse]
    rfl
  · refine ⟨head ++ ['\n'], ?_, ?_⟩
    · rw [List.reverse_append, List.reverse_cons, List.append_assoc, List.append_assoc,
        takeWhile_line fun within => absent (List.mem_reverse.1 within)]
      simp
    · rw [found, byteLength_append]
      rfl

/-- The line ends before the next line break. -/
theorem lineEnd_split (after : List Char) (offset whole : Nat) (total : whole = offset + byteLength after) :
    ∃ tail, after = after.takeWhile (· != '\n') ++ tail ∧
      ((find '\n' after).map (offset + ·)).getD whole = offset + byteLength (after.takeWhile (· != '\n')) := by
  rcases find_cases '\n' after with ⟨missing, absent⟩ | ⟨line, tail, rfl, absent, found⟩
  · refine ⟨[], ?_, ?_⟩
    · rw [takeWhile_whole absent, List.append_nil]
    · rw [missing, takeWhile_whole absent, ← total]
      rfl
  · have line' : (line ++ '\n' :: tail).takeWhile (· != '\n') = line := by
      rw [takeWhile_line absent]
      simp
    refine ⟨'\n' :: tail, by rw [line'], ?_⟩
    rw [found, line']
    rfl

/-- At an offset between two characters the error is that of the place. -/
theorem constraintAtOffset_place (before after : List Char) (message : String) :
    constraintAtOffset (before ++ after) (byteLength before) message = some (constraintAt ⟨before, after⟩ message) := by
  obtain ⟨head, atStart, lineStart⟩ := lineStart_split before after
  obtain ⟨tail, atEnd, lineEnd⟩ := lineEnd_split after (byteLength before) (byteLength (before ++ after))
    (byteLength_append before after)
  have offset : min (byteLength before) (byteLength (before ++ after)) = byteLength before := by
    rw [byteLength_append]
    omega
  have size : byteLength before = byteLength head + byteLength (⟨before, after⟩ : InputPlace).lineBefore := by
    conv_lhs => rw [atStart]
    exact byteLength_append _ _
  have line := slice_append head ((⟨before, after⟩ : InputPlace).lineBefore ++ after.takeWhile (· != '\n')) tail
  rw [byteLength_append, ← Nat.add_assoc, ← size, List.append_assoc, ← atEnd, ← List.append_assoc, ← atStart] at line
  have column := slice_append head (⟨before, after⟩ : InputPlace).lineBefore after
  rw [← size, ← List.append_assoc, ← atStart] at column
  rw [constraintAtOffset]
  simp only [offset, upTo_append, startingAt_append, lineStart, lineEnd, line, column, Option.pure_def,
    Option.bind_eq_bind, Option.bind_some]
  rfl

theorem failAt_ensures {α : Type} {post : α → Prop} {input : List Char} {offset : Nat} (within : Boundary input offset)
    (message : String) : Ensures (failAt input offset message : Parse α) post := by
  obtain ⟨before, after, rfl, rfl⟩ := within
  have placed : Ensures (liftM (constraintAtOffset (before ++ after) (byteLength before) message) : Parse GrmError)
      fun _ => True := Ensures.lift (constraintAtOffset_place before after message) trivial
  exact placed.bind fun error _ => Ensures.throw error

/-! ## The tokenizer -/

/-- What the loop has recorded so far are offsets between two characters. -/
structure Tokenizing.Placed (input : List Char) (st : Tokenizing) : Prop where
  tokens : ∀ token ∈ st.tokens, Boundary input token.start
  start : Boundary input st.currentStart
  quoted : ∀ q, st.quote = some q → ∃ i, st.quoteStart = some i ∧ Boundary input i

namespace Tokenizing.Placed
variable {input : List Char} {st : Tokenizing}

theorem initial (input : List Char) : Placed input {} := ⟨nofun, Boundary.zero input, nofun⟩

theorem push (h : Placed input st) (c : Char) : Placed input (st.push c) := ⟨h.tokens, h.start, h.quoted⟩

theorem mark (h : Placed input st) {index : Nat} (within : Boundary input index) : Placed input (st.mark index) := by
  rw [Tokenizing.mark]
  split
  · exact ⟨h.tokens, within, h.quoted⟩
  · exact h

theorem flush (h : Placed input st) : Placed input st.flush := by
  rw [Tokenizing.flush]
  split
  · exact h
  · refine ⟨?_, h.start, h.quoted⟩
    intro token within
    rcases List.mem_append.1 within with old | new
    · exact h.tokens token old
    · rw [List.mem_singleton.1 new]
      exact h.start

theorem openQuote (h : Placed input st) (q : Char) {index : Nat} (within : Boundary input index) :
    Placed input (st.openQuote q index) := ⟨h.tokens, h.start, fun _ _ => ⟨index, rfl, within⟩⟩

theorem closeQuote (h : Placed input st) : Placed input st.closeQuote := ⟨h.tokens, h.start, nofun⟩

theorem plainStep (h : Placed input st) {index : Nat} (within : Boundary input index) (c : Char) :
    Placed input (plainStep st index c) := by
  rw [CommandLine.plainStep]
  split
  · exact (h.mark within).openQuote c within
  · split
    · exact h.flush
    · exact (h.mark within).push c

end Tokenizing.Placed

theorem finishTokens_placed {input : List Char} {st : Tokenizing} (h : st.Placed input) :
    Ensures (finishTokens input st) fun tokens => ∀ token ∈ tokens, Boundary input token.start := by
  rw [finishTokens]
  refine Ensures.ite (fun unterminated => ?_) fun _ => Ensures.pure h.flush.tokens
  obtain ⟨q, inside⟩ := Option.isSome_iff_exists.1 unterminated
  obtain ⟨i, opened, within⟩ := h.quoted q inside
  rw [opened]
  exact failAt_ensures within _

/-- The loop has consumed the part of the input before the index. -/
def Consumed (input consumed : List Char) (index : Nat) (rest : List Char) : Prop :=
  input = consumed ++ rest ∧ index = byteLength consumed

namespace Consumed
variable {input consumed rest : List Char} {index : Nat}

theorem boundary (h : Consumed input consumed index rest) : Boundary input index := ⟨consumed, rest, h⟩

theorem next {c : Char} (h : Consumed input consumed index (c :: rest)) :
    Consumed input (consumed ++ [c]) (index + c.utf8Size) rest := by
  refine ⟨?_, ?_⟩
  · rw [h.1, List.append_assoc, List.singleton_append]
  · rw [h.2, byteLength_append]
    rfl

end Consumed

/-- The offsets of the tokens, by the recursion of the loop. -/
theorem tokenizeLoop_placed (input : List Char) (index : Nat) (rest : List Char) (st : Tokenizing)
    (consumed : List Char) (place : Consumed input consumed index rest) (h : st.Placed input) :
    Ensures (tokenizeLoop input index rest st) fun tokens => ∀ token ∈ tokens, Boundary input token.start := by
  induction index, rest, st using tokenizeLoop.induct generalizing consumed with
  | case1 index st =>
    rw [tokenizeLoop]
    exact finishTokens_placed h
  | case2 index c rest st outside ih =>
    rw [tokenizeLoop_plain outside]
    exact ih _ place.next (h.plainStep place.boundary c)
  | case3 index st q inside =>
    rw [tokenizeLoop.eq_def]
    simp only [inside, if_true]
    exact failAt_ensures place.boundary _
  | case4 index st q inside next rest d meaning ih =>
    rw [tokenizeLoop_sequence inside meaning]
    exact ih _ place.next.next (h.push d)
  | case5 index st q inside next rest meaningless =>
    rw [tokenizeLoop.eq_def]
    simp only [inside, if_true, meaningless]
    exact failAt_ensures place.boundary _
  | case6 index rest st q inside plain ih =>
    rw [tokenizeLoop_quoted inside plain, if_pos rfl]
    exact ih _ place.next h.closeQuote
  | case7 index c rest st q inside plain other ih =>
    rw [tokenizeLoop_quoted inside plain, if_neg other]
    exact ih _ place.next (h.push c)

theorem tokenizeCommandLine_placed (input : List Char) :
    Ensures (tokenizeCommandLine input) fun tokens => ∀ token ∈ tokens, Boundary input token.start :=
  tokenizeLoop_placed input 0 input {} [] ⟨rfl, rfl⟩ (.initial input)

/-! ## Arguments -/

/-- The arguments start between two characters of the input. -/
def PlacedArgs (input : List Char) (args : List ParsedToken) : Prop := ∀ token ∈ args, Boundary input token.start

theorem PlacedArgs.drop {input : List Char} {args : List ParsedToken} (h : PlacedArgs input args) (k : Nat) :
    PlacedArgs input (args.drop k) := fun token within => h token (List.mem_of_mem_drop within)

/-- The start of an argument, or the end of the input where there is none. -/
theorem PlacedArgs.boundary {input : List Char} {args : List ParsedToken} (h : PlacedArgs input args)
    {found : Option ParsedToken} (within : ∀ token, found = some token → token ∈ args) :
    Boundary input ((found.map ParsedToken.start).getD (byteLength input)) := by
  cases found with
  | none => exact Boundary.whole input
  | some token => exact h token (within token rfl)

theorem argsFrom_ensures {args : List ParsedToken} {k : Nat} (enough : k ≤ args.length) :
    Ensures (argsFrom args k) fun rest => rest = args.drop k := Ensures.lift (if_pos enough) rfl

theorem requiredPositional_ensures (command : String) (args : List ParsedToken) (index : Nat) :
    Ensures (requiredPositional command args index) fun _ => index < args.length := by
  rw [requiredPositional]
  split
  next token found => exact Ensures.pure (List.getElem?_eq_some_iff.1 found).1
  next => exact Ensures.throw _

theorem expectSingleArg_safe (command : String) (args : List ParsedToken) : Safe (expectSingleArg command args) := by
  rw [expectSingleArg]
  refine Ensures.ite (fun _ => Ensures.throw _) fun single => ?_
  obtain ⟨token, rfl⟩ := List.length_eq_one_iff.1 (not_not.1 single)
  exact Ensures.pure trivial

theorem parseAssignments_safe {args : List ParsedToken} {input : List Char} (placed : PlacedArgs input args) :
    Safe (parseAssignments args input) := by
  refine Safe.mapM args fun arg within => ?_
  split
  next => exact Ensures.pure trivial
  next => exact failAt_ensures (placed arg within) _

/-! ## Query terms

At an offset between two characters a term is split as at the place. -/

section terms
variable (before after : List Char)

theorem failAt_run {α : Type} (message : String) :
    (failAt (before ++ after) (byteLength before) message : Parse α).run =
      some (.error (constraintAt ⟨before, after⟩ message)) := by
  have placed : (liftM (constraintAtOffset (before ++ after) (byteLength before) message) : Parse GrmError).run =
      some (.ok (constraintAt ⟨before, after⟩ message)) := by
    rw [constraintAtOffset_place]
    rfl
  exact run_bind placed fun error => rfl

theorem validateFormatTermShapeAt_run (raw : List Char) :
    (validateFormatTermShapeAt raw (before ++ after) (byteLength before)).run =
      some (validateFormatTermShape raw ⟨before, after⟩) := by
  rw [validateFormatTermShapeAt, validateFormatTermShape]
  split
  · rfl
  · exact failAt_run before after _

theorem validateOrderTermShapeAt_run (raw : List Char) :
    (validateOrderTermShapeAt raw (before ++ after) (byteLength before)).run =
      some (validateOrderTermShape raw ⟨before, after⟩) := by
  rw [validateOrderTermShapeAt, validateOrderTermShape, List.forM_eq_forM]
  induction raw.splitOn ',' with
  | nil => rfl
  | cons segment rest ih =>
    rw [validateOrderSegments, List.forM_cons]
    cases splitOnce [':'] segment with
    | none => exact failAt_run before after _
    | some parts =>
      obtain ⟨field, direction⟩ := parts
      dsimp only
      by_cases noField : field = []
      · rw [if_pos noField, if_pos noField]
        exact failAt_run before after _
      · rw [if_neg noField, if_neg noField]
        by_cases known : direction = "asc".toList ∨ direction = "desc".toList
        · rw [if_pos known, if_pos known]
          exact ih
        · rw [if_neg known, if_neg known]
          exact failAt_run before after _

/-- The key of a term is cut off behind its operator. -/
theorem resultKey_eq {operator arg key value : List Char} (listed : operator ∈ termOperators)
    (found : splitOnce operator arg = some (key, value)) :
    resultKey operator arg key = some
      (if operator = "=".toList then key
      else if operator = "!=".toList then arg.take (key.length + 1)
      else if operator = ">=".toList ∨ operator = "<=".toList then arg.take (key.length + 2)
      else if operator = ">".toList ∨ operator = "<".toList ∨ operator = "~".toList then arg.take (key.length + 1)
      else key) := by
  have behind : ∀ first second, operator = first ++ second →
      upTo arg (byteLength key + byteLength first) = some (arg.take (key.length + first.length)) := by
    rintro first second rfl
    have whole : arg = key ++ first ++ (second ++ value) := by
      rw [splitOnce_some found]
      simp only [List.append_assoc]
    have cut : arg.take (key.length + first.length) = key ++ first := by
      rw [whole, ← List.length_append]
      exact List.take_left
    rw [cut, whole, ← byteLength_append, upTo_append]
  simp only [termOperators, List.mem_cons, List.not_mem_nil, or_false] at listed
  rcases listed with rfl | rfl | rfl | rfl | rfl | rfl | rfl
  · exact behind ['!'] ['='] rfl
  · exact behind ['>', '='] [] rfl
  · exact behind ['<', '='] [] rfl
  · exact behind ['>'] [] rfl
  · exact behind ['<'] [] rfl
  · exact behind ['~'] [] rfl
  · rfl

/-- The checks of the two terms with a shape of their own. -/
theorem checkedTerm_run (value key : List Char) :
    (do
      if key = "order".toList then validateOrderTermShapeAt value (before ++ after) (byteLength before)
      if key = "format".toList then validateFormatTermShapeAt value (before ++ after) (byteLength before)
      return (key, value) : Parse (List Char × List Char)).run =
    some (do
      if key = "order".toList then validateOrderTermShape value ⟨before, after⟩
      if key = "format".toList then validateFormatTermShape value ⟨before, after⟩
      return (key, value)) := by
  have accepted : (pure (key, value) : Parse (List Char × List Char)).run = some (pure (key, value)) := rfl
  have checked := run_bind (validateFormatTermShapeAt_run before after value) fun _ => accepted
  have format := @run_ite _ _ (key = "format".toList) _ _ _ _ _ checked accepted
  exact run_ite (run_bind (validateOrderTermShapeAt_run before after value) fun _ => format) format

theorem splitAtOperatorsAt_run (arg : List Char) (operators : List (List Char)) (listed : operators ⊆ termOperators) :
    (splitAtOperatorsAt arg (before ++ after) (byteLength before) operators).run =
      some (splitAtOperators arg ⟨before, after⟩ operators) := by
  induction operators with
  | nil => exact failAt_run before after _
  | cons operator operators ih =>
    rw [splitAtOperatorsAt, splitAtOperators]
    cases found : splitOnce operator arg with
    | none => exact ih fun _ further => listed (List.mem_cons_of_mem _ further)
    | some parts =>
      obtain ⟨key, value⟩ := parts
      dsimp only
      rw [splitAtOperator]
      by_cases partless : key = [] ∨ value = []
      · rw [if_pos partless, if_pos partless]
        exact failAt_run before after _
      · rw [if_neg partless, if_neg partless, resultKey_eq (listed List.mem_cons_self) found]
        exact checkedTerm_run before after value _

theorem splitQueryTermAt_run (arg : List Char) :
    (splitQueryTermAt arg (before ++ after) (byteLength before)).run = some (splitQueryTerm arg ⟨before, after⟩) := by
  rw [splitQueryTermAt, splitQueryTerm]
  split
  · exact failAt_run before after _
  · exact splitAtOperatorsAt_run before after arg termOperators (List.Subset.refl _)

end terms

theorem parseQueryTerm_safe {arg input : List Char} {start : Nat} (within : Boundary input start) :
    Safe (parseQueryTerm arg input start) := by
  obtain ⟨before, after, rfl, rfl⟩ := within
  exact (Safe.of_run (splitQueryTermAt_run before after arg)).bind fun _ => Ensures.pure trivial

theorem parseQueryTerms_safe {args : List ParsedToken} {input : List Char} (placed : PlacedArgs input args) :
    Safe (parseQueryTerms args input) := Safe.mapM args fun arg within => parseQueryTerm_safe (placed arg within)

theorem parseQueryTermsFromStrs_safe (args : List String) : Safe (parseQueryTermsFromStrs args) :=
  Safe.mapM args fun arg _ => parseQueryTerm_safe (Boundary.zero arg.toList)

/-! ## Commands -/

section commands
variable {args : List ParsedToken} {input : List Char}

theorem parseOptionalVerboseFlag_safe (command : String) (args : List ParsedToken) :
    Safe (parseOptionalVerboseFlag command args) := by
  rcases args with - | ⟨arg, - | ⟨next, rest⟩⟩
  · exact Ensures.pure trivial
  · exact Ensures.ite (fun _ => Ensures.pure trivial) fun _ => Ensures.throw _
  · exact Ensures.throw _

theorem stripOptionalVerboseFlag_placed (placed : PlacedArgs input args) :
    Ensures (stripOptionalVerboseFlag args) fun stripped => PlacedArgs input stripped.2 := by
  rw [stripOptionalVerboseFlag]
  refine Ensures.ite (fun flag => ?_) fun _ => Ensures.pure placed
  have one : 1 ≤ args.length := by
    cases args with
    | nil => cases flag
    | cons arg rest => exact Nat.succ_pos _
  refine (argsFrom_ensures one).bind ?_
  rintro _ rfl
  exact Ensures.pure (placed.drop 1)

/-- The arguments behind one that was required. -/
theorem argsFrom_placed (placed : PlacedArgs input args) {k : Nat} (required : k < args.length) :
    Ensures (argsFrom args (k + 1)) (PlacedArgs input) :=
  (argsFrom_ensures required).mono fun _ rest => rest ▸ placed.drop (k + 1)

theorem validateBindingName_safe {start : Nat} (within : Boundary input start) (name : String) :
    Safe (validateBindingName name input start) := by
  rw [validateBindingName]
  split
  next => exact failAt_ensures within _
  next =>
    refine Ensures.ite (fun _ => failAt_ensures within _) fun _ => ?_
    exact Ensures.ite (fun _ => failAt_ensures within _) fun _ => Ensures.pure trivial

theorem parseNodeCreate_safe (command : String) (placed : PlacedArgs input args) (binding : Option String) :
    Safe (parseNodeCreate command args input binding) := by
  refine (requiredPositional_ensures command args 0).bind fun modelName named => ?_
  refine (argsFrom_placed placed named).bind fun rest behind => ?_
  exact (parseAssignments_safe behind).bind fun _ => Ensures.pure trivial

theorem parseLetCommand_safe (placed : PlacedArgs input args) : Safe (parseLetCommand args input) := by
  refine (requiredPositional_ensures "let" args 0).bind fun binding bound => ?_
  refine (Ensures.lift (List.getElem?_eq_getElem bound) (List.getElem_mem bound)).bind fun first within => ?_
  refine (validateBindingName_safe (placed first within) binding).bind fun _ => ?_
  refine (requiredPositional_ensures "let" args 1).bind fun equals _ => ?_
  refine Ensures.ite (fun _ => failAt_ensures (placed.boundary fun _ => List.mem_of_getElem?) _) fun _ => ?_
  refine (requiredPositional_ensures "let" args 2).bind fun nestedCommand nested => ?_
  refine Ensures.ite (fun _ => ?_) fun _ => failAt_ensures (placed.boundary fun _ => List.mem_of_getElem?) _
  refine (argsFrom_placed placed nested).bind fun rest behind => ?_
  exact parseNodeCreate_safe nestedCommand behind _

theorem findCommand_safe (command : String) (placed : PlacedArgs input args)
    (make : String → List QueryTerm → SessionCommand) : Safe (findCommand command args input make) := by
  refine (requiredPositional_ensures command args 0).bind fun modelName named => ?_
  refine (argsFrom_placed placed named).bind fun rest behind => ?_
  exact (parseQueryTerms_safe behind).bind fun _ => Ensures.pure trivial

theorem updateCommand_safe (command : String) (placed : PlacedArgs input args)
    (make : String → String → List KeyValueArg → SessionCommand) : Safe (updateCommand command args input make) := by
  refine (requiredPositional_ensures command args 0).bind fun modelName _ => ?_
  refine (requiredPositional_ensures command args 1).bind fun id identified => ?_
  refine (argsFrom_placed placed identified).bind fun rest behind => ?_
  exact (parseAssignments_safe behind).bind fun _ => Ensures.pure trivial

theorem deleteCommand_safe (command : String) (args : List ParsedToken) (make : String → String → SessionCommand) :
    Safe (deleteCommand command args make) := by
  refine (requiredPositional_ensures command args 0).bind fun modelName _ => ?_
  exact (requiredPositional_ensures command args 1).bind fun id _ => Ensures.pure trivial

theorem withoutArgs_safe (usage : String) (args : List ParsedToken) (command : SessionCommand) :
    Safe (withoutArgs usage args command) := Ensures.ite (fun _ => Ensures.pure trivial) fun _ => Ensures.throw _

theorem parseSessionIntrospection_safe (command : String) (placed : PlacedArgs input args) (profile : Bool) :
    Safe (parseSessionIntrospection command args input profile) := by
  refine (stripOptionalVerboseFlag_placed placed).bind fun stripped placed => ?_
  obtain ⟨verbose, args⟩ := stripped
  refine (requiredPositional_ensures command args 0).bind fun nested _ => ?_
  refine Ensures.ite (fun _ => ?_) fun _ => Ensures.ite (fun _ => ?_) fun _ => ?_
  · refine (requiredPositional_ensures command args 1).bind fun modelName named => ?_
    refine (argsFrom_placed placed named).bind fun rest behind => ?_
    exact (parseQueryTerms_safe behind).bind fun _ => Ensures.pure trivial
  · refine (requiredPositional_ensures command args 1).bind fun modelName named => ?_
    refine (argsFrom_placed placed named).bind fun rest behind => ?_
    exact (parseQueryTerms_safe behind).bind fun _ => Ensures.pure trivial
  · exact failAt_ensures (placed.boundary fun _ => List.mem_of_head?) _

theorem parseCommand_safe (command : String) (placed : PlacedArgs input args) :
    Safe (parseCommand command args input) := by
  have created : Safe (do
      let modelName ← requiredPositional "edge.create" args 0
      let rest ← argsFrom args 1
      return SessionCommand.edgeCreate modelName (← parseAssignments rest input)) := by
    refine (requiredPositional_ensures "edge.create" args 0).bind fun modelName named => ?_
    refine (argsFrom_placed placed named).bind fun rest behind => ?_
    exact (parseAssignments_safe behind).bind fun _ => Ensures.pure trivial
  unfold parseCommand
  split
  all_goals
    dsimp only
    with_reducible first
      | exact Ensures.pure trivial
      | exact (parseOptionalVerboseFlag_safe _ args).bind fun _ => Ensures.pure trivial
      | exact (expectSingleArg_safe _ args).bind fun _ => Ensures.pure trivial
      | exact withoutArgs_safe _ args _
      | exact findCommand_safe _ placed _
      | exact updateCommand_safe _ placed _
      | exact deleteCommand_safe _ args _
      | exact parseNodeCreate_safe _ placed _
      | exact parseLetCommand_safe placed
      | exact parseSessionIntrospection_safe _ placed _
      | exact created

end commands

theorem parseCommandLine_safe (input : String) : Safe (parseCommandLine input) := by
  refine (tokenizeCommandLine_placed (Text.trim input.toList)).bind fun tokens placed => ?_
  refine Ensures.ite (fun _ => Ensures.pure trivial) fun some => ?_
  cases tokens with
  | nil => exact absurd rfl some
  | cons first args =>
    refine (Safe.lift ⟨first, rfl⟩).bind fun first => ?_
    refine (argsFrom_placed placed (Nat.succ_pos args.length)).bind fun rest behind => ?_
    exact parseCommand_safe _ behind

/-- The parser returns for every input, and the tokens start between two characters of it. -/
theorem parser_never_panics :
    (∀ input : String, ∃ r, (parseCommandLine input).run = some r) ∧
      (∀ args : List String, ∃ r, (parseQueryTermsFromStrs args).run = some r) ∧
      ∀ input : List Char,
        Ensures (tokenizeCommandLine input) fun tokens => ∀ token ∈ tokens, Boundary input token.start :=
  ⟨fun input => (parseCommandLine_safe input).returns, fun args => (parseQueryTermsFromStrs_safe args).returns,
    tokenizeCommandLine_placed⟩

end CommandLine
