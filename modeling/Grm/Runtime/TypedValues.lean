import Grm.Runtime.Durations

/-!
# Parsed values are valid

A value that `parse_typed_value` gives passes `validate_value_for_kind`, when parsing its
text gives it again. The canonical text of every kind but one is the trimmed input
itself. A datetime is rewritten, and its new text does not parse where the year has left
0..=9999 in UTC, or where a leap second without a fraction leaves a bare point.
-/

open Text

set_option autoImplicit false

/-! ## Tagged values -/

theorem typedValueParts_tagged (kind : PrimitiveKind) (raw : String) :
    (Value.tagged kind raw).typedValueParts = some (kind.keyword, raw) := rfl

theorem keyword_injective {a b : PrimitiveKind} (same : a.keyword = b.keyword) : a = b := by
  cases a <;> cases b <;> first | rfl | exact absurd same (by decide)

theorem tagged_eq {kind : PrimitiveKind} {raw : String} {value : Value} (same : (Value.tagged kind raw).eq value = true) :
    value = Value.tagged kind raw := by
  unfold Value.tagged at same
  cases value with
  | object fields =>
    rw [Value.eq] at same
    match fields, same with
    | [(k, a), (l, b)], same =>
      simp only [Value.eqFields, Bool.and_eq_true, beq_iff_eq, Bool.and_true] at same
      obtain ⟨⟨rfl, first⟩, rfl, second⟩ := same
      cases a with
      | string s =>
        cases b with
        | string t =>
          rw [Value.eq, beq_iff_eq] at first second
          rw [← first, ← second]
          rfl
        | _ => simp [Value.eq] at second
      | _ => simp [Value.eq] at first
    | [], same => simp [Value.eqFields] at same
    | [(k, a)], same => simp [Value.eqFields] at same
    | (k, a) :: (l, b) :: c :: more, same => simp [Value.eqFields] at same
  | _ => simp [Value.eq] at same

theorem tagged_eq_self (kind : PrimitiveKind) (raw : String) : (Value.tagged kind raw).eq (Value.tagged kind raw) = true := by
  simp [Value.tagged, Value.eq, Value.eqFields]

section Kinds
variable [Externals]

/-- The canonical text of a kind that is stored tagged. -/
def canonicalText (kind : PrimitiveKind) (input : String) : Except String String :=
  match kind with
  | .bytes => canonicalBytes input
  | .decimal => canonicalDecimal input
  | .date => canonicalDate input
  | .dateTime => canonicalDatetime input
  | .duration => canonicalDuration input
  | .uuid => canonicalUuid input
  | _ => .error ""

theorem parseTypedValue_tagged {kind : PrimitiveKind} (isTagged : kind.isTagged = true) (input : String) :
    parseTypedValue kind input = (canonicalText kind input).map (Value.tagged kind) := by
  cases kind <;> first | rfl | cases isTagged

theorem validateValueForKind_eq {kind : PrimitiveKind} (isTagged : kind.isTagged = true) (value : Value) :
    validateValueForKind kind value = match value.typedValueParts with
      | some (actual, raw) => actual == kind.keyword &&
        match parseTypedValue kind raw with
        | .ok parsed => parsed.eq value
        | .error _ => false
      | none => false := by
  cases kind <;> first | rfl | cases isTagged

/-- A tagged value is valid exactly when its text is canonical. -/
theorem valid_tagged {kind : PrimitiveKind} (isTagged : kind.isTagged = true) {value : Value} :
    validateValueForKind kind value = true ↔ ∃ raw, value = .tagged kind raw ∧ canonicalText kind raw = .ok raw := by
  rw [validateValueForKind_eq isTagged]
  constructor
  · intro valid
    cases parts : value.typedValueParts with
    | none => rw [parts] at valid; cases valid
    | some pair =>
      obtain ⟨actual, raw⟩ := pair
      rw [parts] at valid
      dsimp only at valid
      rw [Bool.and_eq_true, beq_iff_eq, parseTypedValue_tagged isTagged] at valid
      cases canonical : canonicalText kind raw with
      | error error => rw [canonical] at valid; cases valid.2
      | ok text =>
        rw [canonical] at valid
        have same : value = Value.tagged kind text := tagged_eq valid.2
        have text' : text = raw := by
          rw [same, typedValueParts_tagged] at parts
          cases parts
          rfl
        exact ⟨raw, by rw [same, text'], by rw [canonical, text']⟩
  · rintro ⟨raw, rfl, canonical⟩
    rw [typedValueParts_tagged]
    dsimp only
    rw [parseTypedValue_tagged isTagged, canonical, Bool.and_eq_true, beq_iff_eq]
    exact ⟨rfl, tagged_eq_self kind raw⟩

/-! ## Values of the plain kinds -/

theorem valid_string {value : Value} : validateValueForKind .string value = true ↔ ∃ s, value = .string s := by
  cases value with
  | string s => exact ⟨fun _ => ⟨s, rfl⟩, fun _ => rfl⟩
  | _ => exact ⟨fun valid => (by cases valid), fun ⟨_, same⟩ => (by cases same)⟩

theorem valid_int {value : Value} : validateValueForKind .int value = true ↔ ∃ i, value.asI64 = some i :=
  Option.isSome_iff_exists

theorem valid_float {value : Value} : validateValueForKind .float value = true ↔ ∃ x, value = .number (.float x) := by
  constructor
  · intro valid
    cases value with
    | number n =>
      cases n with
      | int i => cases valid
      | float x => exact ⟨x, rfl⟩
    | _ => cases valid
  · rintro ⟨x, rfl⟩
    rfl

theorem valid_bool {value : Value} : validateValueForKind .bool value = true ↔ ∃ b, value = .bool b := by
  cases value with
  | bool b => exact ⟨fun _ => ⟨b, rfl⟩, fun _ => rfl⟩
  | _ => exact ⟨fun valid => (by cases valid), fun ⟨_, same⟩ => (by cases same)⟩

/-! ## Texts that are kept as they are -/

omit [Externals] in
/-- A reading of the trimmed input that keeps it keeps its own result. -/
theorem trimmed_again {canonical : String → Except String String} {input out : String}
    (trimmed : ∀ a b : String, trim a.toList = trim b.toList → canonical a = canonical b)
    (accepted : canonical input = .ok out) (kept : out = String.ofList (trim input.toList)) :
    out = String.ofList (trim input.toList) ∧ canonical out = .ok out := by
  refine ⟨kept, ?_⟩
  rw [trimmed out input (by rw [kept, String.toList_ofList, trim_trim])]
  exact accepted

/-- A text is kept when what it reads as is written in the same way. -/
def keptReading {α : Type} (read : String → Option α) (write : α → String) (error text : String) : Except String String :=
  match read text with
  | none => .error error
  | some value => if write value ≠ text then .error error else .ok (write value)

omit [Externals] in
theorem keptReading_ok {α : Type} {read : String → Option α} {write : α → String} {error text out : String}
    (kept : keptReading read write error text = .ok out) : out = text ∧ ∃ value, read text = some value ∧ write value = text := by
  unfold keptReading at kept
  cases found : read text with
  | none => rw [found] at kept; cases kept
  | some value =>
    rw [found] at kept
    dsimp only at kept
    split at kept
    · cases kept
    next same =>
      rw [ne_eq, Decidable.not_not] at same
      cases kept
      exact ⟨same, value, rfl, same⟩

theorem canonicalBytes_eq (input : String) : canonicalBytes input = keptReading Externals.base64Decode
    Externals.base64Encode "expected canonical base64 bytes value" (String.ofList (trim input.toList)) := by
  unfold canonicalBytes keptReading
  dsimp only
  cases Externals.base64Decode (String.ofList (trim input.toList)) <;> rfl

theorem canonicalDate_eq (input : String) : canonicalDate input = keptReading Externals.parseDate
    Externals.formatDate "expected canonical date value YYYY-MM-DD" (String.ofList (trim input.toList)) := by
  unfold canonicalDate keptReading
  dsimp only
  cases Externals.parseDate (String.ofList (trim input.toList)) <;> rfl

theorem canonicalUuid_eq (input : String) : canonicalUuid input = keptReading Externals.parseUuid
    Externals.formatUuid "expected canonical uuid value" (String.ofList (trim input.toList)) := by
  unfold canonicalUuid keptReading
  dsimp only
  cases Externals.parseUuid (String.ofList (trim input.toList)) <;> rfl

/-- The canonical texts but those of datetimes are the trimmed input, and do not depend on
what was trimmed. -/
theorem canonicalText_kept {kind : PrimitiveKind} (other : kind ≠ .dateTime) {input out : String}
    (accepted : canonicalText kind input = .ok out) :
    out = String.ofList (trim input.toList) ∧ canonicalText kind out = .ok out := by
  cases kind with
  | bytes =>
    have kept := (keptReading_ok ((canonicalBytes_eq input).symm.trans accepted)).1
    refine trimmed_again (fun a b same => ?_) accepted kept
    unfold canonicalText canonicalBytes
    rw [same]
  | decimal =>
    refine trimmed_again (fun a b same => ?_) accepted (canonicalDecimal_ok accepted).2
    unfold canonicalText canonicalDecimal
    rw [same]
  | date =>
    have kept := (keptReading_ok ((canonicalDate_eq input).symm.trans accepted)).1
    refine trimmed_again (fun a b same => ?_) accepted kept
    unfold canonicalText canonicalDate
    rw [same]
  | duration =>
    obtain ⟨nanos, -, raw, written⟩ := canonicalDuration_ok accepted
    refine trimmed_again (fun a b same => ?_) accepted (written.trans raw.symm)
    show canonicalDuration a = canonicalDuration b
    rw [canonicalDuration_eq, canonicalDuration_eq, same]
  | uuid =>
    have kept := (keptReading_ok ((canonicalUuid_eq input).symm.trans accepted)).1
    refine trimmed_again (fun a b same => ?_) accepted kept
    unfold canonicalText canonicalUuid
    rw [same]
  | dateTime => exact absurd rfl other
  | _ => cases accepted

end Kinds

/-! ## Datetimes -/

theorem trimEndMatches_append_of_ne {c : Char} {a b : List Char} (d : Char) (other : d ≠ c) :
    trimEndMatches c (a ++ d :: b) = a ++ d :: trimEndMatches c b := by
  unfold trimEndMatches
  rw [List.reverse_append, List.reverse_cons, List.append_assoc, List.dropWhile_append]
  split
  next none =>
    rw [List.isEmpty_iff] at none
    rw [none, List.singleton_append, List.dropWhile_cons, beq_false_of_ne other, if_neg Bool.false_ne_true]
    simp
  next => simp

theorem trimEndMatches_zeros (n : Nat) : trimEndMatches '0' (List.replicate n '0') = [] := by
  unfold trimEndMatches
  rw [List.reverse_replicate, List.reverse_eq_nil_iff]
  induction n with
  | zero => rfl
  | succ n ih => rw [List.replicate_succ, List.dropWhile_cons, if_pos (beq_self_eq_true '0'), ih]

theorem fractionDigits_eq (frac : Nat) : fractionDigits frac = trimEndMatches '0' (nanoDigits frac) := by
  unfold fractionDigits
  split
  case isTrue zero =>
    rw [zero]
    exact (trimEndMatches_zeros 9).symm
  case isFalse => rfl

/-- The year in UTC is one of those that RFC 3339 can write, 0 to 9999. -/
def UtcInstant.InYears (t : UtcInstant) : Prop := -62167219200 ≤ t.secs ∧ t.secs < 253402300800

instance (t : UtcInstant) : Decidable t.InYears := inferInstanceAs (Decidable (_ ∧ _))

/-- The nanoseconds stay within the second, or within the leap second at the end of a minute. -/
def UtcInstant.Valid (t : UtcInstant) : Prop := t.nanos < 1000000000 ∨ (t.secs % 60 = 59 ∧ t.nanos < 2000000000)

/-- What `chrono` documents of its RFC 3339 texts, over the text `stamp` of an instant up to
its seconds. Such a text is read back where its year has four digits; a sign before the
year or a point without digits after it is not read. -/
structure Externals.Rfc3339 [Externals] (stamp : UtcInstant → List Char) : Prop where
  visible : ∀ t, ∃ c rest, stamp t = c :: rest ∧ isWhitespace c = false
  secs : ∀ t, Externals.formatRfc3339Secs t = String.ofList (stamp t ++ ['Z'])
  nanos : ∀ t, Externals.formatRfc3339Nanos t = String.ofList (stamp t ++ '.' :: nanoDigits (t.nanos % 1000000000) ++ ['Z'])
  valid : ∀ s t, Externals.parseRfc3339 s = some t → t.Valid
  reads : ∀ t fraction, t.InYears → t.Valid → fraction.all Char.isDigit = true → fraction.length ≤ 9 →
    digitsValue (fraction ++ List.replicate (9 - fraction.length) '0') = t.nanos % 1000000000 →
    Externals.parseRfc3339 (String.ofList (stamp t ++ (if fraction = [] then [] else '.' :: fraction) ++ ['Z'])) = some t
  barePoint : ∀ t, Externals.parseRfc3339 (String.ofList (stamp t ++ ['.'] ++ ['Z'])) = none
  otherYears : ∀ t rest, ¬t.InYears → Externals.parseRfc3339 (String.ofList (stamp t ++ rest)) = none

section DateTime
variable [Externals] {stamp : UtcInstant → List Char}

/-- The canonical text of an instant. -/
def canonicalInstant (stamp : UtcInstant → List Char) (t : UtcInstant) : List Char :=
  stamp t ++ (if t.nanos = 0 then [] else '.' :: fractionDigits (t.nanos % 1000000000)) ++ ['Z']

theorem canonicalDatetime_read (chrono : Externals.Rfc3339 stamp) {input : String} {t : UtcInstant}
    (read : Externals.parseRfc3339 (String.ofList (trim input.toList)) = some t) :
    canonicalDatetime input = .ok (String.ofList (canonicalInstant stamp t)) := by
  unfold canonicalDatetime canonicalInstant
  rw [read]
  dsimp only
  split
  next whole => rw [chrono.secs, List.append_nil]
  next fraction =>
    rw [chrono.nanos, String.toList_ofList, List.dropLast_concat, trimEndMatches_append_of_ne '.' (by decide), fractionDigits_eq]

theorem canonicalDatetime_ok {input out : String} (accepted : canonicalDatetime input = .ok out) :
    ∃ t, Externals.parseRfc3339 (String.ofList (trim input.toList)) = some t := by
  unfold canonicalDatetime at accepted
  cases read : Externals.parseRfc3339 (String.ofList (trim input.toList)) with
  | none => rw [read] at accepted; cases accepted
  | some t => exact ⟨t, rfl⟩

theorem trim_canonicalInstant (chrono : Externals.Rfc3339 stamp) (t : UtcInstant) :
    trim (canonicalInstant stamp t) = canonicalInstant stamp t := by
  obtain ⟨c, rest, split, visible⟩ := chrono.visible t
  unfold canonicalInstant
  apply trim_eq_self
  · intro d first
    rw [split] at first
    cases first
    exact visible
  · intro d last
    rw [List.getLast?_concat] at last
    cases last
    rfl

/-- The canonical text of an instant is read again exactly where it has a fraction or no
leap second, in the years of RFC 3339. -/
theorem reads_canonicalInstant (chrono : Externals.Rfc3339 stamp) {t : UtcInstant} (valid : t.Valid) :
    Externals.parseRfc3339 (String.ofList (canonicalInstant stamp t)) =
      if t.InYears ∧ t.nanos ≠ 1000000000 then some t else none := by
  have bound : t.nanos < 2000000000 := by
    rcases valid with whole | ⟨-, leap⟩
    · omega
    · exact leap
  have small : t.nanos % 1000000000 < 1000000000 := Nat.mod_lt _ (by decide)
  by_cases years : t.InYears
  · by_cases whole : t.nanos = 0
    · have text : canonicalInstant stamp t = stamp t ++ (if ([] : List Char) = [] then [] else '.' :: []) ++ ['Z'] := by
        unfold canonicalInstant
        rw [if_pos whole, if_pos rfl]
      have kept : t.InYears ∧ t.nanos ≠ 1000000000 := ⟨years, by omega⟩
      rw [if_pos kept, text]
      exact chrono.reads t [] years valid rfl (Nat.zero_le 9) (by rw [whole]; decide)
    · by_cases leap : t.nanos = 1000000000
      · have text : canonicalInstant stamp t = stamp t ++ ['.'] ++ ['Z'] := by
          unfold canonicalInstant
          rw [if_neg whole, leap]
          rfl
        rw [text, if_neg fun both => both.2 leap]
        exact chrono.barePoint t
      · have digits : fractionDigits (t.nanos % 1000000000) ≠ [] := by
          rw [ne_eq, fractionDigits_nil small]
          omega
        have text : canonicalInstant stamp t = stamp t ++ (if fractionDigits (t.nanos % 1000000000) = [] then []
            else '.' :: fractionDigits (t.nanos % 1000000000)) ++ ['Z'] := by
          unfold canonicalInstant
          rw [if_neg whole, if_neg digits]
        have kept : t.InYears ∧ t.nanos ≠ 1000000000 := ⟨years, leap⟩
        rw [if_pos kept, text]
        exact chrono.reads t _ years valid (fractionDigits_digits _) (fractionDigits_length small) (fractionDigits_padded small)
  · rw [if_neg fun both => years both.1]
    unfold canonicalInstant
    rw [List.append_assoc]
    exact chrono.otherYears t _ years

/-- The datetime that an input denotes is one whose canonical text is read again. -/
def RewritesToReadable (input : String) : Prop :=
  ∀ t, Externals.parseRfc3339 (String.ofList (trim input.toList)) = some t → t.InYears ∧ t.nanos ≠ 1000000000

/-- A parsed value is valid, but for a datetime whose rewritten text is not read. -/
theorem parsed_valid_iff (chrono : Externals.Rfc3339 stamp) {kind : PrimitiveKind} {input : String} {value : Value}
    (parsed : parseTypedValue kind input = .ok value) :
    validateValueForKind kind value = true ↔ (kind = .dateTime → RewritesToReadable input) := by
  cases isTagged : kind.isTagged with
  | true =>
    rw [parseTypedValue_tagged isTagged] at parsed
    cases canonical : canonicalText kind input with
    | error error => rw [canonical] at parsed; cases parsed
    | ok text =>
      rw [canonical] at parsed
      cases parsed
      have validText : validateValueForKind kind (.tagged kind text) = true ↔ canonicalText kind text = .ok text := by
        rw [valid_tagged isTagged]
        constructor
        · rintro ⟨raw, same, ok⟩
          have parts := congrArg Value.typedValueParts same
          rw [typedValueParts_tagged, typedValueParts_tagged] at parts
          cases parts
          exact ok
        · intro ok
          exact ⟨text, rfl, ok⟩
      rw [validText]
      by_cases datetime : kind = .dateTime
      · subst datetime
        obtain ⟨t, read⟩ := canonicalDatetime_ok canonical
        have written := canonicalDatetime_read chrono read
        have same : text = String.ofList (canonicalInstant stamp t) := Except.ok.inj (canonical.symm.trans written)
        have trimmed : String.ofList (trim text.toList) = text := by
          rw [same, String.toList_ofList, trim_canonicalInstant chrono]
        have again := reads_canonicalInstant chrono (chrono.valid _ _ read)
        rw [← same] at again
        refine Iff.trans (b := t.InYears ∧ t.nanos ≠ 1000000000) ⟨fun ok => ?_, fun kept => ?_⟩ ⟨fun kept _ u other => ?_, fun kept => ?_⟩
        · obtain ⟨u, reread⟩ := canonicalDatetime_ok ok
          rw [trimmed, again] at reread
          split at reread
          · next kept => exact kept
          · cases reread
        · rw [if_pos kept, ← trimmed] at again
          rw [canonicalText, canonicalDatetime_read chrono again, same]
        · cases read.symm.trans other
          exact kept
        · exact kept rfl t read
      · exact iff_of_true (canonicalText_kept datetime canonical).2 fun same => absurd same datetime
  | false =>
    refine iff_of_true ?_ fun same => by subst same; cases isTagged
    cases kind with
    | string =>
      cases parsed
      rfl
    | int =>
      unfold parseTypedValue at parsed
      dsimp only at parsed
      split at parsed
      next found given =>
        cases parsed
        obtain ⟨i, integer, number⟩ := Option.bind_eq_some_iff.1 given
        have range := (Option.filter_eq_some_iff.1 integer).2
        rw [Bool.and_eq_true, decide_eq_true_eq, decide_eq_true_eq] at range
        unfold Value.ofInt? at number
        split at number
        · cases number
          have fits : i < 2 ^ 63 := by
            have high := range.2
            unfold i64Max at high
            omega
          show (if i < 2 ^ 63 then some i else none).isSome = true
          rw [if_pos fits]
          rfl
        · cases number
      next => cases parsed
    | float =>
      obtain ⟨x, rfl⟩ := parseFiniteFloat_float parsed
      rfl
    | bool =>
      unfold parseTypedValue at parsed
      dsimp only at parsed
      split at parsed
      · cases parsed; rfl
      · split at parsed
        · cases parsed; rfl
        · cases parsed
    | _ => cases isTagged

end DateTime
