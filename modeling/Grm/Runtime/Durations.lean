import Grm.Runtime.Decimals

/-!
# Durations

A duration text is the text that `format_duration_nanos` gives for a number of
nanoseconds, and `parse_duration_nanos` reads that number back from it. The parser and
the formatter stay within an `i128`, because a parsed count is at most `i128::MAX` and
its sign is applied last.
-/

open Text

set_option autoImplicit false

/-! ## Digits of a second -/

theorem trimEndMatches_append (c : Char) (s : List Char) :
    trimEndMatches c s ++ List.replicate (s.length - (trimEndMatches c s).length) c = s := by
  have whole : s.reverse.takeWhile (· == c) ++ s.reverse.dropWhile (· == c) = s.reverse := List.takeWhile_append_dropWhile
  have alike : ∀ d ∈ s.reverse.takeWhile (· == c), d = c := fun d member => by
    have every : (s.reverse.takeWhile (· == c)).all (· == c) = true := List.all_takeWhile
    simpa using List.all_eq_true.1 every d member
  have repeated := List.eq_replicate_iff.2 ⟨rfl, alike⟩
  have length := congrArg List.length whole
  rw [List.length_append, List.length_reverse] at length
  have count : s.length - (trimEndMatches c s).length = (s.reverse.takeWhile (· == c)).length := by
    unfold trimEndMatches
    rw [List.length_reverse]
    omega
  rw [count]
  calc trimEndMatches c s ++ List.replicate (s.reverse.takeWhile (· == c)).length c
      = trimEndMatches c s ++ (List.replicate (s.reverse.takeWhile (· == c)).length c).reverse := by rw [List.reverse_replicate]
    _ = (s.reverse.takeWhile (· == c) ++ s.reverse.dropWhile (· == c)).reverse := by
      rw [List.reverse_append, ← repeated]
      rfl
    _ = s := by rw [whole, List.reverse_reverse]

/-- The nine digits of the nanoseconds. -/
def nanoDigits (frac : Nat) : List Char :=
  List.replicate (9 - (Nat.toDigits 10 frac).length) '0' ++ Nat.toDigits 10 frac

theorem nanoDigits_length {frac : Nat} (small : frac < 1000000000) : (nanoDigits frac).length = 9 := by
  have short : (Nat.toDigits 10 frac).length ≤ 9 := (Nat.length_toDigits_le_iff (by decide) (by decide)).2 small
  unfold nanoDigits
  rw [List.length_append, List.length_replicate]
  omega

theorem nanoDigits_digits (frac : Nat) : (nanoDigits frac).all Char.isDigit = true := by
  unfold nanoDigits
  rw [List.all_append, (canonical_toDigits frac).digits, Bool.and_true]
  refine List.all_eq_true.2 fun c member => ?_
  rw [List.eq_of_mem_replicate member]
  rfl

theorem digitsValue_nanoDigits (frac : Nat) : digitsValue (nanoDigits frac) = frac := by
  unfold nanoDigits
  rw [digitsValue_append, digitsValue_replicate_zero, digitsValue_toDigits, Nat.zero_mul, Nat.zero_add]

/-- The fraction that the formatter writes. -/
def fractionDigits (frac : Nat) : List Char := if frac = 0 then [] else trimEndMatches '0' (nanoDigits frac)

theorem fractionDigits_digits (frac : Nat) : (fractionDigits frac).all Char.isDigit = true := by
  unfold fractionDigits
  split
  · rfl
  · refine List.all_eq_true.2 fun c member => ?_
    exact List.all_eq_true.1 (nanoDigits_digits frac) c ((prefix_trimEndMatches _ _).subset member)

theorem fractionDigits_length {frac : Nat} (small : frac < 1000000000) : (fractionDigits frac).length ≤ 9 := by
  unfold fractionDigits
  split
  · exact Nat.zero_le 9
  · have shorter := (prefix_trimEndMatches '0' (nanoDigits frac)).length_le
    rwa [nanoDigits_length small] at shorter

/-- The parser pads the fraction to the nine digits it came from. -/
theorem fractionDigits_padded {frac : Nat} (small : frac < 1000000000) :
    digitsValue (fractionDigits frac ++ List.replicate (9 - (fractionDigits frac).length) '0') = frac := by
  unfold fractionDigits
  split
  case isTrue none => rw [none]; decide
  case isFalse =>
    have restored := trimEndMatches_append '0' (nanoDigits frac)
    rw [nanoDigits_length small] at restored
    rw [restored, digitsValue_nanoDigits]

theorem fractionDigits_nil {frac : Nat} (small : frac < 1000000000) : fractionDigits frac = [] ↔ frac = 0 := by
  constructor
  · intro none
    have value := fractionDigits_padded small
    rw [none] at value
    rw [← value]
    decide
  · intro zero
    unfold fractionDigits
    rw [if_pos zero]

/-! ## Reading what was written -/

/-- The seconds of a duration text. -/
def secondsChars (count : Nat) : List Char :=
  Nat.toDigits 10 (count / 1000000000) ++
    if count % 1000000000 = 0 then [] else '.' :: fractionDigits (count % 1000000000)

theorem parseDecimalSecondsToNanos_written {count : Nat} (inRange : (count : Int) ≤ i128Max) :
    parseDecimalSecondsToNanos (secondsChars count) = .ok count := by
  have small : count % 1000000000 < 1000000000 := Nat.mod_lt _ (by decide)
  have whole := canonical_toDigits (count / 1000000000)
  have digits := fractionDigits_digits (count % 1000000000)
  have parts : (secondsChars count).splitOn '.' = if count % 1000000000 = 0 then [Nat.toDigits 10 (count / 1000000000)]
      else [Nat.toDigits 10 (count / 1000000000), fractionDigits (count % 1000000000)] := by
    unfold secondsChars
    split
    · rw [List.append_nil]
      exact splitOn_alone (not_mem_digits whole.digits rfl)
    · exact splitOn_pair (not_mem_digits whole.digits rfl) (not_mem_digits digits rfl)
  have someText : ¬secondsChars count = [] := fun none => whole.nonempty (List.append_eq_nil_iff.1 none).1
  have sum : ((count / 1000000000 : Nat) : Int) * 1000000000 + ((count % 1000000000 : Nat) : Int) = count := by omega
  unfold parseDecimalSecondsToNanos
  -- the bound stays a name, so that nothing evaluates it
  generalize i128Max = top at inRange ⊢
  dsimp only
  rw [if_neg someText, parts]
  by_cases zero : count % 1000000000 = 0
  · rw [if_pos zero, if_neg (by simp [whole.nonempty, whole.digits])]
    simp only [List.headD_cons, digitsValue_toDigits, List.getElem?_cons_succ, List.getElem?_nil, Option.getD_none,
      List.length_nil, List.nil_append, digitsValue_replicate_zero]
    rw [if_neg (by omega), ← zero, if_neg (by omega), sum]
  · have filled : fractionDigits (count % 1000000000) ≠ [] := fun none => zero ((fractionDigits_nil small).1 none)
    have short := fractionDigits_length small
    rw [if_neg zero, if_neg (by simp [whole.nonempty, whole.digits, filled, short, digits])]
    simp only [List.headD_cons, digitsValue_toDigits, List.getElem?_cons_succ, List.getElem?_cons_zero, Option.getD_some,
      fractionDigits_padded small]
    rw [if_neg (by omega), if_neg (by omega), sum]

/-- A count that the parser returns is at most `i128::MAX`, and is not negative. -/
theorem parseDecimalSecondsToNanos_range {raw : List Char} {nanos : Int} (parsed : parseDecimalSecondsToNanos raw = .ok nanos) :
    0 ≤ nanos ∧ nanos ≤ i128Max := by
  unfold parseDecimalSecondsToNanos at parsed
  dsimp only at parsed
  split at parsed
  · cases parsed
  split at parsed
  · cases parsed
  split at parsed
  · cases parsed
  split at parsed
  · cases parsed
  next fits =>
    cases parsed
    rw [not_or, Int.not_lt, Int.not_lt] at fits
    refine ⟨?_, fits.2⟩
    omega

/-- The text of a count with its sign. -/
def durationChars (nanos : Int) : List Char :=
  (if nanos < 0 then ['-'] else []) ++ ("PT".toList ++ secondsChars nanos.natAbs ++ ['S'])

theorem formatDurationNanos_eq (nanos : Int) : formatDurationNanos nanos = String.ofList (durationChars nanos) := by
  unfold formatDurationNanos durationChars secondsChars fractionDigits nanoDigits
  dsimp only
  congr 1
  by_cases zero : nanos.natAbs % 1000000000 = 0
  · rw [if_pos zero, if_pos zero]
    simp only [List.append_assoc]
  · rw [if_neg zero, if_neg zero, if_neg zero]
    simp only [List.append_assoc]

theorem durationSeconds_written (nanos : Int) :
    durationSeconds (durationChars nanos) = .ok (decide (nanos < 0), secondsChars nanos.natAbs) := by
  have body : (stripPrefix? "PT".toList ("PT".toList ++ secondsChars nanos.natAbs ++ ['S'])).bind (stripSuffix? ['S']) =
      some (secondsChars nanos.natAbs) := by
    unfold stripPrefix? stripSuffix?
    rw [List.append_assoc, if_pos (by simp)]
    simp
  unfold durationSeconds durationChars
  by_cases negative : nanos < 0
  · rw [if_pos negative, List.singleton_append]
    dsimp only
    rw [List.head?_cons, if_pos rfl, List.drop_succ_cons, List.drop_zero, body, decide_eq_true rfl, decide_eq_true negative]
  · have unsigned : ¬(("PT".toList ++ secondsChars nanos.natAbs ++ ['S']).head? = some '-') := by simp
    rw [if_neg negative, List.nil_append]
    dsimp only
    rw [if_neg unsigned, body, decide_eq_false unsigned, decide_eq_false negative]

theorem parseDurationNanos_written {nanos : Int} (inRange : (nanos.natAbs : Int) ≤ i128Max) :
    parseDurationNanos (formatDurationNanos nanos) = .ok nanos := by
  unfold parseDurationNanos
  rw [formatDurationNanos_eq, String.toList_ofList, durationSeconds_written]
  show (do
    let count ← parseDecimalSecondsToNanos (secondsChars nanos.natAbs)
    return if decide (nanos < 0) = true then -count else count : Except String Int) = _
  rw [parseDecimalSecondsToNanos_written inRange]
  show Except.ok (if decide (nanos < 0) = true then -(nanos.natAbs : Int) else (nanos.natAbs : Int)) = _
  simp only [decide_eq_true_eq]
  split <;> congr 1 <;> omega

/-! ## Acceptance -/

/-- The steps of `canonical_duration_value`. -/
theorem canonicalDuration_eq (input : String) : canonicalDuration input =
    if trim input.toList = [] then .error canonicalDurationError
    else match durationSeconds (trim input.toList) with
      | .error error => .error error
      | .ok (negative, seconds) => match parseDecimalSecondsToNanos seconds with
        | .error error => .error error
        | .ok count =>
          if formatDurationNanos (if negative then -count else count) ≠ String.ofList (trim input.toList) then
            .error canonicalDurationError
          else .ok (formatDurationNanos (if negative then -count else count)) := by
  unfold canonicalDuration
  dsimp only
  split
  · rfl
  · cases durationSeconds (trim input.toList) with
    | error error => rfl
    | ok parts =>
      dsimp only [bind, Except.bind, pure, Except.pure]
      cases parseDecimalSecondsToNanos parts.2 with
      | error error => rfl
      | ok count =>
        dsimp only
        split <;> rfl

theorem canonicalDuration_written {input : String} {nanos : Int} (inRange : (nanos.natAbs : Int) ≤ i128Max)
    (raw : String.ofList (trim input.toList) = formatDurationNanos nanos) :
    canonicalDuration input = .ok (formatDurationNanos nanos) := by
  have chars : trim input.toList = durationChars nanos := by
    rw [formatDurationNanos_eq] at raw
    exact String.ofList_injective raw
  have someText : ¬durationChars nanos = [] := by
    unfold durationChars
    simp
  have signed : (if decide (nanos < 0) = true then -(nanos.natAbs : Int) else (nanos.natAbs : Int)) = nanos := by
    simp only [decide_eq_true_eq]
    split <;> omega
  rw [canonicalDuration_eq, chars, if_neg someText, durationSeconds_written]
  dsimp only
  rw [parseDecimalSecondsToNanos_written inRange]
  dsimp only
  rw [signed, formatDurationNanos_eq, if_neg (fun other => other rfl)]

theorem canonicalDuration_ok {input out : String} (accepted : canonicalDuration input = .ok out) :
    ∃ nanos : Int, (nanos.natAbs : Int) ≤ i128Max ∧ String.ofList (trim input.toList) = formatDurationNanos nanos ∧
      out = formatDurationNanos nanos := by
  rw [canonicalDuration_eq] at accepted
  split at accepted
  · cases accepted
  cases parts : durationSeconds (trim input.toList) with
  | error error => rw [parts] at accepted; cases accepted
  | ok pair =>
    obtain ⟨negative, seconds⟩ := pair
    rw [parts] at accepted
    dsimp only at accepted
    cases parsed : parseDecimalSecondsToNanos seconds with
    | error error => rw [parsed] at accepted; cases accepted
    | ok count =>
      obtain ⟨unsigned, inRange⟩ := parseDecimalSecondsToNanos_range parsed
      rw [parsed] at accepted
      dsimp only at accepted
      generalize signed : (if negative = true then -count else count) = nanos at accepted
      split at accepted
      · cases accepted
      next same =>
        rw [ne_eq, Decidable.not_not] at same
        cases accepted
        refine ⟨nanos, ?_, same.symm, rfl⟩
        rw [← signed]
        split <;> omega

/-! ## Arithmetic in 128 bits -/

def i128Min : Int := -2 ^ 127

/-- The result of an operation on `i128`, if it is in range. -/
def i128 (result : Int) : Option Int := if i128Min ≤ result ∧ result ≤ i128Max then some result else none

/-- `format_duration_nanos`, or nothing where `abs` overflows. -/
def formatDurationNanosI128 (nanos : Int) : Option String :=
  (i128 nanos.natAbs).map fun _ => formatDurationNanos nanos

/-- The sign that both parsers apply, or nothing where the negation overflows. -/
def signedI128 (negative : Bool) (nanos : Int) : Option Int := if negative then i128 (-nanos) else some nanos

/-- `parse_duration_nanos`, or nothing where an operation overflows. Its product and its
sum are `checked_`: where these do not fit they are an error. -/
def parseDurationNanosI128 (raw : String) : Option (Except String Int) :=
  match durationSeconds raw.toList with
  | .error error => some (.error error)
  | .ok (negative, seconds) => match parseDecimalSecondsToNanos seconds with
    | .error error => some (.error error)
    | .ok nanos => (signedI128 negative nanos).map .ok

/-- `canonical_duration_value`, or nothing where an operation overflows. -/
def canonicalDurationI128 (input : String) : Option (Except String String) :=
  let raw := trim input.toList
  if raw = [] then some (.error canonicalDurationError)
  else match durationSeconds raw with
    | .error error => some (.error error)
    | .ok (negative, seconds) => match parseDecimalSecondsToNanos seconds with
      | .error error => some (.error error)
      | .ok nanos => do
        let signed ← signedI128 negative nanos
        let canonical ← formatDurationNanosI128 signed
        return if canonical ≠ String.ofList raw then .error canonicalDurationError else .ok canonical

theorem signedI128_parsed {negative : Bool} {raw : List Char} {nanos : Int} (parsed : parseDecimalSecondsToNanos raw = .ok nanos) :
    signedI128 negative nanos = some (if negative then -nanos else nanos) := by
  obtain ⟨unsigned, inRange⟩ := parseDecimalSecondsToNanos_range parsed
  unfold signedI128
  cases negative with
  | false => rfl
  | true =>
    unfold i128
    rw [if_pos rfl, if_pos rfl, if_pos]
    unfold i128Min
    unfold i128Max at inRange ⊢
    omega

theorem formatDurationNanosI128_inRange {nanos : Int} (inRange : (nanos.natAbs : Int) ≤ i128Max) :
    formatDurationNanosI128 nanos = some (formatDurationNanos nanos) := by
  have fits : i128 nanos.natAbs = some (nanos.natAbs : Int) := by
    unfold i128
    rw [if_pos]
    unfold i128Min
    omega
  unfold formatDurationNanosI128
  rw [fits]
  rfl

theorem parseDurationNanosI128_eq (raw : String) : parseDurationNanosI128 raw = some (parseDurationNanos raw) := by
  unfold parseDurationNanosI128 parseDurationNanos
  cases durationSeconds raw.toList with
  | error error => rfl
  | ok parts =>
    dsimp only [bind, Except.bind, pure, Except.pure]
    cases parsed : parseDecimalSecondsToNanos parts.2 with
    | error error => rfl
    | ok nanos =>
      dsimp only
      rw [signedI128_parsed parsed]
      rfl

theorem canonicalDurationI128_eq (input : String) : canonicalDurationI128 input = some (canonicalDuration input) := by
  unfold canonicalDurationI128
  rw [canonicalDuration_eq]
  dsimp only
  split
  · rfl
  · cases durationSeconds (trim input.toList) with
    | error error => rfl
    | ok parts =>
      dsimp only
      cases parsed : parseDecimalSecondsToNanos parts.2 with
      | error error => rfl
      | ok nanos =>
        obtain ⟨unsigned, inRange⟩ := parseDecimalSecondsToNanos_range parsed
        have fits : ((if parts.1 = true then -nanos else nanos).natAbs : Int) ≤ i128Max := by split <;> omega
        dsimp only
        rw [signedI128_parsed parsed]
        dsimp only [bind, Option.bind]
        rw [formatDurationNanosI128_inRange fits]
        rfl

/-! ## Order -/

/-- Values of one tagged kind are compared by their texts. -/
theorem compareTypedValueOrder_tagged [Externals] (kind : PrimitiveKind) (left right : String) :
    compareTypedValueOrder (.tagged kind left) (.tagged kind right) = compareTagged kind.keyword left right := by
  have same : valuesHaveSameKind (.tagged kind left) (.tagged kind right) = true := beq_self_eq_true kind.keyword
  unfold compareTypedValueOrder
  rw [same]
  show (if kind.keyword ≠ kind.keyword then none else compareTagged kind.keyword left right) = _
  rw [if_neg (fun other => other rfl)]

/-- Inputs that `canonical_duration_value` accepts are those whose trimmed text is that of a
number of nanoseconds; this number is read back, nothing overflows on the way, and the
order of two accepted durations is that of their numbers. -/
theorem durations_exact [Externals] :
    (∀ input, (∃ out, canonicalDuration input = .ok out) ↔
      ∃ nanos : Int, (nanos.natAbs : Int) ≤ i128Max ∧ String.ofList (trim input.toList) = formatDurationNanos nanos) ∧
    (∀ nanos : Int, (nanos.natAbs : Int) ≤ i128Max → parseDurationNanos (formatDurationNanos nanos) = .ok nanos) ∧
    ((∀ raw, parseDurationNanosI128 raw = some (parseDurationNanos raw)) ∧
      (∀ input, canonicalDurationI128 input = some (canonicalDuration input)) ∧
      ∀ nanos : Int, (nanos.natAbs : Int) ≤ i128Max → formatDurationNanosI128 nanos = some (formatDurationNanos nanos)) ∧
    ∀ first second a b, canonicalDuration first = .ok a → canonicalDuration second = .ok b →
      ∃ m n, parseDurationNanos a = .ok m ∧ parseDurationNanos b = .ok n ∧
        compareTypedValueOrder (.tagged .duration a) (.tagged .duration b) = some (compare m n) := by
  refine ⟨fun input => ⟨?_, ?_⟩, fun _ => parseDurationNanos_written,
    ⟨parseDurationNanosI128_eq, canonicalDurationI128_eq, fun _ => formatDurationNanosI128_inRange⟩, ?_⟩
  · rintro ⟨out, accepted⟩
    obtain ⟨nanos, inRange, raw, -⟩ := canonicalDuration_ok accepted
    exact ⟨nanos, inRange, raw⟩
  · rintro ⟨nanos, inRange, raw⟩
    exact ⟨_, canonicalDuration_written inRange raw⟩
  · intro first second a b left right
    obtain ⟨m, leftRange, -, rfl⟩ := canonicalDuration_ok left
    obtain ⟨n, rightRange, -, rfl⟩ := canonicalDuration_ok right
    have leftRead := parseDurationNanos_written leftRange
    have rightRead := parseDurationNanos_written rightRange
    refine ⟨m, n, leftRead, rightRead, ?_⟩
    rw [compareTypedValueOrder_tagged]
    show (do
      let l ← (parseDurationNanos (formatDurationNanos m)).toOption
      let r ← (parseDurationNanos (formatDurationNanos n)).toOption
      return compare l r : Option Ordering) = _
    rw [leftRead, rightRead]
    rfl

/-- White space around a duration is accepted, and is not part of any formatted text. -/
theorem spaced_duration_accepted :
    ¬∀ input, (∃ out, canonicalDuration input = .ok out) ↔
      ∃ nanos : Int, (nanos.natAbs : Int) ≤ i128Max ∧ input = formatDurationNanos nanos := by
  intro claim
  have zero : canonicalDuration " PT0S" = .ok (formatDurationNanos 0) := canonicalDuration_written (by decide) (by decide)
  obtain ⟨nanos, -, same⟩ := (claim " PT0S").1 ⟨_, zero⟩
  rw [formatDurationNanos_eq] at same
  have chars : " PT0S".toList = durationChars nanos := by
    rw [same, String.toList_ofList]
  unfold durationChars at chars
  split at chars
  · exact absurd (List.cons.inj chars).1 (by decide)
  · exact absurd (List.cons.inj chars).1 (by decide)
