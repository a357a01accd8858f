import Grm.Runtime.CommandLine

/-!
# Quoted words

`strip_script_comment` of `session.rs` and the tokenizer of the command line both follow
quotes and escapes. A line of quoted words has no comment for the first and is split into
the words by the second, and a comment behind the words is cut off.
-/

open Text

set_option autoImplicit false

namespace CommandLine

/-! ## Comments -/

/-- The loop of `strip_script_comment`: the text before the comment, if there is one. -/
def beforeComment : Option Char → List Char → Option (List Char)
  | _, [] => none
  | none, c :: rest =>
    if c = '"' ∨ c = '\'' then (beforeComment (some c) rest).map (c :: ·)
    else if c = '#' then some []
    else (beforeComment none rest).map (c :: ·)
  | some q, c :: rest =>
    if c = '\\' then
      match rest with
      | [] => none
      | next :: rest => (beforeComment (some q) rest).map (c :: next :: ·)
    else (beforeComment (if c = q then none else some q) rest).map (c :: ·)

/-- `strip_script_comment`. -/
def stripScriptComment (line : List Char) : List Char :=
  match beforeComment none line with
  | some before => trimEnd before
  | none => line

/-! ## Writing words between quotes -/

/-- The two kinds of quotes. -/
inductive Quote where
  | double
  | single
  deriving DecidableEq, Repr

namespace Quote

def char : Quote → Char
  | double => '"'
  | single => '\''

/-- A character between such quotes. -/
def escape (q : Quote) (c : Char) : List Char :=
  if c = '\\' then ['\\', '\\']
  else if c = q.char then ['\\', q.char]
  else if c = '\n' then ['\\', 'n']
  else if c = '\t' then ['\\', 't']
  else [c]

theorem char_ne_backslash (q : Quote) : q.char ≠ '\\' := by cases q <;> decide

theorem unescape_char (q : Quote) : unescape q.char = some q.char := by cases q <;> rfl

/-- A character is written as itself or as an escape sequence that stands for it. -/
theorem escape_cases (q : Quote) (c : Char) :
    (q.escape c = [c] ∧ c ≠ '\\' ∧ c ≠ q.char) ∨ ∃ d, q.escape c = ['\\', d] ∧ unescape d = some c := by
  unfold escape
  by_cases backslash : c = '\\'
  · subst backslash
    exact .inr ⟨'\\', if_pos rfl, rfl⟩
  · rw [if_neg backslash]
    by_cases same : c = q.char
    · subst same
      exact .inr ⟨q.char, if_pos rfl, q.unescape_char⟩
    · rw [if_neg same]
      by_cases newline : c = '\n'
      · subst newline
        exact .inr ⟨'n', if_pos rfl, rfl⟩
      · rw [if_neg newline]
        by_cases tab : c = '\t'
        · subst tab
          exact .inr ⟨'t', if_pos rfl, rfl⟩
        · exact .inl ⟨if_neg tab, backslash, same⟩

end Quote

/-- A non-empty word, and the quotes to write it between. -/
structure QuotedWord where
  quote : Quote
  text : String
  nonempty : text.toList ≠ []

namespace QuotedWord

/-- The word between its quotes. -/
def written (w : QuotedWord) : List Char := w.quote.char :: (w.text.toList.flatMap w.quote.escape ++ [w.quote.char])

/-- The words with a blank between each two of them. -/
def line : List QuotedWord → List Char
  | [] => []
  | [w] => w.written
  | w :: v :: words => w.written ++ ' ' :: line (v :: words)

end QuotedWord

/-! ## Comment stripping passes over quoted words -/

theorem beforeComment_quoted {q c : Char} (plain : c ≠ '\\') (rest : List Char) :
    beforeComment (some q) (c :: rest) = (beforeComment (if c = q then none else some q) rest).map (c :: ·) := by
  rw [beforeComment.eq_def]
  exact if_neg plain

theorem beforeComment_sequence (q d : Char) (rest : List Char) :
    beforeComment (some q) ('\\' :: d :: rest) = (beforeComment (some q) rest).map ('\\' :: d :: ·) := by
  rw [beforeComment.eq_def]
  exact if_pos rfl

theorem beforeComment_escaped (q : Quote) (text rest : List Char) :
    beforeComment (some q.char) (text.flatMap q.escape ++ rest) =
      (beforeComment (some q.char) rest).map (text.flatMap q.escape ++ ·) := by
  induction text with
  | nil =>
    simp only [List.flatMap_nil, List.nil_append]
    exact Option.map_id'.symm
  | cons c text ih =>
    rcases q.escape_cases c with ⟨plain, backslash, other⟩ | ⟨d, escaped, -⟩
    · rw [List.flatMap_cons, plain, List.append_assoc, List.singleton_append,
        beforeComment_quoted backslash, if_neg other, ih, Option.map_map]
      rfl
    · rw [List.flatMap_cons, escaped, List.append_assoc]
      change beforeComment (some q.char) ('\\' :: d :: (text.flatMap q.escape ++ rest)) = _
      rw [beforeComment_sequence, ih, Option.map_map]
      rfl

theorem beforeComment_written (w : QuotedWord) (rest : List Char) :
    beforeComment none (w.written ++ rest) = (beforeComment none rest).map (w.written ++ ·) := by
  have opens : w.quote.char = '"' ∨ w.quote.char = '\'' := by cases w.quote <;> simp [Quote.char]
  rw [QuotedWord.written, List.cons_append, List.append_assoc, beforeComment, if_pos opens, beforeComment_escaped,
    List.singleton_append, beforeComment_quoted w.quote.char_ne_backslash, if_pos rfl, Option.map_map, Option.map_map]
  refine congrArg (Option.map · _) (funext fun after => ?_)
  simp

theorem beforeComment_line (words : List QuotedWord) (rest : List Char) :
    beforeComment none (QuotedWord.line words ++ rest) =
      (beforeComment none rest).map (QuotedWord.line words ++ ·) := by
  induction words with
  | nil => exact Option.map_id'.symm
  | cons w words ih =>
    cases words with
    | nil => exact beforeComment_written w rest
    | cons v words =>
      rw [QuotedWord.line, List.append_assoc, beforeComment_written, List.cons_append, beforeComment,
        if_neg (by decide), if_neg (by decide), ih, Option.map_map, Option.map_map]
      refine congrArg (Option.map · _) (funext fun after => ?_)
      simp

theorem beforeComment_blanks (n : Nat) (comment : List Char) :
    beforeComment none (List.replicate n ' ' ++ '#' :: comment) = some (List.replicate n ' ') := by
  induction n with
  | zero => rfl
  | succ n ih =>
    rw [List.replicate_succ, List.cons_append, beforeComment, if_neg (by decide), if_neg (by decide), ih]
    rfl

/-- The line ends with a quote. -/
theorem QuotedWord.line_ends (words : List QuotedWord) :
    line words = [] ∨ ∃ before q, line words = before ++ [Quote.char q] := by
  induction words with
  | nil => exact .inl rfl
  | cons w words ih =>
    have single : w.written = (w.quote.char :: w.text.toList.flatMap w.quote.escape) ++ [w.quote.char] := rfl
    cases words with
    | nil => exact .inr ⟨_, w.quote, single⟩
    | cons v words =>
      rw [line]
      rcases ih with empty | ⟨before, q, ends⟩
      · cases words <;> simp [line, written] at empty
      · exact .inr ⟨w.written ++ ' ' :: before, q, by rw [ends, List.append_assoc, List.cons_append]⟩

theorem QuotedWord.trimEnd_line (words : List QuotedWord) (n : Nat) :
    trimEnd (line words ++ List.replicate n ' ') = line words := by
  have blanks : (List.replicate n ' ').all isWhitespace := by
    rw [List.all_eq_true]
    intro c within
    rw [List.eq_of_mem_replicate within]
    rfl
  rw [trimEnd, List.reverse_append, List.reverse_replicate,
    List.dropWhile_append_of_pos (fun c within => List.all_eq_true.1 blanks c within)]
  rcases line_ends words with empty | ⟨before, q, ends⟩
  · rw [empty]
    rfl
  · have quote : isWhitespace q.char = false := by cases q <;> decide
    rw [ends, List.reverse_append, List.reverse_singleton, List.singleton_append, List.dropWhile_cons, quote,
      if_neg Bool.false_ne_true, List.reverse_cons, List.reverse_reverse]

/-! ## The tokenizer reads quoted words -/

/-- Between its quotes a word is read character by character. -/
theorem tokenizeLoop_escaped (input rest : List Char) (q : Quote) (text : List Char) (index : Nat) (st : Tokenizing)
    (inside : st.quote = some q.char) :
    ∃ after, tokenizeLoop input index (text.flatMap q.escape ++ rest) st =
      tokenizeLoop input after rest { st with current := st.current ++ text } := by
  induction text generalizing index st with
  | nil => exact ⟨index, by simp⟩
  | cons c text ih =>
    have pushed : { st with current := st.current ++ c :: text } =
        { st.push c with current := (st.push c).current ++ text } := by simp [Tokenizing.push]
    rw [pushed]
    rcases q.escape_cases c with ⟨plain, backslash, other⟩ | ⟨d, escaped, meaning⟩
    · rw [List.flatMap_cons, plain, List.append_assoc, List.singleton_append, tokenizeLoop_quoted inside backslash,
        if_neg other]
      exact ih _ (st.push c) inside
    · rw [List.flatMap_cons, escaped, List.append_assoc]
      change ∃ after, tokenizeLoop input index ('\\' :: d :: (text.flatMap q.escape ++ rest)) st = _
      rw [tokenizeLoop_sequence inside meaning]
      exact ih _ (st.push c) inside

/-- A word between quotes becomes the current token. -/
theorem tokenizeLoop_written (input rest : List Char) (w : QuotedWord) (index : Nat) (st : Tokenizing)
    (outside : st.quote = none) (fresh : st.current = []) :
    ∃ after, tokenizeLoop input index (w.written ++ rest) st =
      tokenizeLoop input after rest
        { st with current := w.text.toList, currentStart := index, quote := none, quoteStart := none } := by
  have opens : w.quote.char = '"' ∨ w.quote.char = '\'' := by cases w.quote <;> simp [Quote.char]
  have marked : st.mark index = { st with currentStart := index } := by simp [Tokenizing.mark, fresh]
  obtain ⟨after, read⟩ := tokenizeLoop_escaped input (w.quote.char :: rest) w.quote w.text.toList
    (index + w.quote.char.utf8Size) ((st.mark index).openQuote w.quote.char index) rfl
  refine ⟨after + w.quote.char.utf8Size, ?_⟩
  rw [QuotedWord.written, List.cons_append, List.append_assoc, List.singleton_append, tokenizeLoop_plain outside,
    plainStep, if_pos opens, read, tokenizeLoop_quoted rfl w.quote.char_ne_backslash, if_pos rfl, marked]
  simp [Tokenizing.closeQuote, Tokenizing.openQuote, fresh]

/-- The end of a token that is not empty. -/
theorem Tokenizing.flush_token {st : Tokenizing} (token : st.current ≠ []) :
    st.flush = { st with tokens := st.tokens ++ [⟨st.current, st.currentStart⟩], current := [] } := by
  simp [Tokenizing.flush, token]

/-- A line of words becomes their tokens. -/
theorem tokenizeLoop_line (input : List Char) (words : List QuotedWord) (index : Nat) (st : Tokenizing)
    (outside : st.quote = none) (fresh : st.current = []) :
    ∃ tokens, (tokenizeLoop input index (QuotedWord.line words) st).run = some (.ok (st.tokens ++ tokens)) ∧
      tokens.map ParsedToken.text = words.map fun w => w.text.toList := by
  induction words generalizing index st with
  | nil =>
    refine ⟨[], ?_, rfl⟩
    have unchanged : st.flush.tokens = st.tokens ++ [] := by simp [Tokenizing.flush, fresh]
    rw [QuotedWord.line, tokenizeLoop, finishTokens, outside, ← unchanged]
    rfl
  | cons w words ih =>
    cases words with
    | nil =>
      obtain ⟨after, read⟩ := tokenizeLoop_written input [] w index st outside fresh
      refine ⟨[⟨w.text.toList, index⟩], ?_, rfl⟩
      rw [List.append_nil] at read
      rw [QuotedWord.line, read, tokenizeLoop, finishTokens, Tokenizing.flush_token w.nonempty]
      rfl
    | cons v words =>
      obtain ⟨after, read⟩ := tokenizeLoop_written input (' ' :: QuotedWord.line (v :: words)) w index st outside fresh
      rw [tokenizeLoop_plain rfl, plainStep, if_neg (by decide), if_pos (by decide),
        Tokenizing.flush_token w.nonempty] at read
      obtain ⟨tokens, run, texts⟩ := ih (after + ' '.utf8Size)
        { st with
          tokens := st.tokens ++ [⟨w.text.toList, index⟩], current := [], currentStart := index, quote := none,
          quoteStart := none } rfl rfl
      refine ⟨⟨w.text.toList, index⟩ :: tokens, ?_, by simp only [List.map_cons, texts]⟩
      rw [QuotedWord.line, read, run, List.append_assoc, List.singleton_append]

/-- A line of quoted words is not changed by comment stripping, is split into the words, and a
comment behind it is cut off. -/
theorem quoted_words_round_trip (words : List QuotedWord) :
    stripScriptComment (QuotedWord.line words) = QuotedWord.line words ∧
      (∃ tokens, (tokenizeCommandLine (QuotedWord.line words)).run = some (.ok tokens) ∧
        tokens.map (fun token => String.ofList token.text) = words.map QuotedWord.text) ∧
      ∀ (blanks : Nat) (comment : List Char),
        stripScriptComment (QuotedWord.line words ++ (List.replicate blanks ' ' ++ '#' :: comment)) =
          QuotedWord.line words := by
  refine ⟨?_, ?_, fun blanks comment => ?_⟩
  · have silent := beforeComment_line words []
    rw [List.append_nil] at silent
    rw [stripScriptComment, silent, beforeComment, Option.map_none]
  · obtain ⟨tokens, run, texts⟩ := tokenizeLoop_line (QuotedWord.line words) words 0 {} rfl rfl
    refine ⟨tokens, run, ?_⟩
    have strings := congrArg (List.map String.ofList) texts
    simpa only [List.map_map, Function.comp_def, String.ofList_toList] using strings
  · rw [stripScriptComment, beforeComment_line, beforeComment_blanks, Option.map_some]
    exact QuotedWord.trimEnd_line words blanks

end CommandLine
