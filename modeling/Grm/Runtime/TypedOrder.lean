import Mathlib.Data.Prod.Lex
import Grm.Lib.Base64
import Grm.Lib.Comparators
import Grm.Runtime.LexicalInput
import Grm.Runtime.ValueTexts

/-!
# The order of typed values

Two values that are valid for one kind are always comparable: `compare_typed_value_order`
compares keys that each valid value has. For most kinds this is the order of the values
that are denoted. Bytes and dates are compared by their texts, which for some of them
come in another order.
-/

open Std Text

set_option autoImplicit false

/-! ## The order of the plain kinds -/

section Plain
variable [Externals]

theorem compareTypedValueOrder_string (l r : String) :
    compareTypedValueOrder (.string l) (.string r) = some (compare l r) := rfl

theorem compareTypedValueOrder_float (l r : F64) :
    compareTypedValueOrder (.number (.float l)) (.number (.float r)) = some (compare l.units r.units) := rfl

theorem compareTypedValueOrder_bool (l r : Bool) :
    compareTypedValueOrder (.bool l) (.bool r) = some (compare l r) := rfl

theorem compareTypedValueOrder_int {left right : Value} {l r : Int} (leftInt : left.asI64 = some l)
    (rightInt : right.asI64 = some r) : compareTypedValueOrder left right = some (compare l r) := by
  have isInt : ∀ {value : Value} {i : Int}, value.asI64 = some i → ∃ n, value = .number n ∧ n.isI64 = true := by
    intro value i found
    cases value with
    | number n => exact ⟨n, rfl, Option.isSome_iff_exists.2 ⟨i, found⟩⟩
    | _ => cases found
  obtain ⟨m, rfl, leftSmall⟩ := isInt leftInt
  obtain ⟨n, rfl, rightSmall⟩ := isInt rightInt
  have same : valuesHaveSameKind (.number m) (.number n) = true := by
    show ((m.isI64 && n.isI64) || (m.isU64 && n.isU64) || (m.isF64 && n.isF64)) = true
    rw [leftSmall, rightSmall]
    rfl
  unfold compareTypedValueOrder
  rw [same, leftInt, rightInt]
  rfl

/-! ## Valid values of the tagged kinds -/

theorem canonicalDatetime_valid {stamp : UtcInstant → List Char} (chrono : Externals.Rfc3339 stamp) {raw : String}
    (canonical : canonicalDatetime raw = .ok raw) :
    ∃ t, raw = String.ofList (canonicalInstant stamp t) ∧ Externals.parseRfc3339 raw = some t := by
  obtain ⟨t, read⟩ := canonicalDatetime_ok canonical
  have text := canonicalDatetime_read chrono read
  rw [canonical] at text
  cases text
  rw [String.toList_ofList, trim_canonicalInstant chrono] at read
  exact ⟨t, rfl, read⟩

omit [Externals] in
theorem canonicalDecimal_valid {raw : String} (canonical : canonicalDecimal raw = .ok raw) :
    ∃ d : DecimalText, d.Valid ∧ raw = String.ofList d.chars := by
  obtain ⟨⟨d, valid, text⟩, kept⟩ := canonicalDecimal_ok canonical
  exact ⟨d, valid, by rw [kept, text]⟩

omit [Externals] in
theorem canonicalDuration_valid {raw : String} (canonical : canonicalDuration raw = .ok raw) :
    ∃ nanos, raw = formatDurationNanos nanos ∧ parseDurationNanos raw = .ok nanos := by
  obtain ⟨nanos, inRange, -, written⟩ := canonicalDuration_ok canonical
  refine ⟨nanos, written, ?_⟩
  rw [written]
  exact parseDurationNanos_written inRange

/-! ## Keys -/

/-- `key` orders the valid values of a kind, which are all comparable. -/
def OrdersBy (kind : PrimitiveKind) {κ : Type} [Ord κ] (key : Value → κ) : Prop :=
  ∀ l r, validateValueForKind kind l = true → validateValueForKind kind r = true →
    compareTypedValueOrder l r = some (compare (key l) (key r))

/-- The text of a tagged value. -/
def Value.rawText (value : Value) : String := (value.typedValueParts.map Prod.snd).getD ""

/-- A tagged kind is ordered by any key of its texts that the comparison of texts follows. -/
theorem ordersBy_tagged {kind : PrimitiveKind} (isTagged : kind.isTagged = true) {κ : Type} [Ord κ] (key : String → κ)
    (texts : ∀ l r, canonicalText kind l = .ok l → canonicalText kind r = .ok r →
      compareTagged kind.keyword l r = some (compare (key l) (key r))) : OrdersBy kind fun value => key value.rawText := by
  intro left right leftValid rightValid
  obtain ⟨l, rfl, leftText⟩ := (valid_tagged isTagged).1 leftValid
  obtain ⟨r, rfl, rightText⟩ := (valid_tagged isTagged).1 rightValid
  rw [compareTypedValueOrder_tagged]
  exact texts l r leftText rightText

/-- The instant of a datetime text, seconds first. -/
def instantKey (raw : String) : Int ×ₗ Nat :=
  match Externals.parseRfc3339 raw with
  | some t => toLex (t.secs, t.nanos)
  | none => toLex (0, 0)

/-- Valid values of a kind are ordered by a key. -/
theorem exists_ordersBy {stamp : UtcInstant → List Char} (chrono : Externals.Rfc3339 stamp) (kind : PrimitiveKind) :
    ∃ (κ : Type) (_ : Ord κ) (_ : TransOrd κ) (key : Value → κ), OrdersBy kind key := by
  cases kind with
  | string =>
    refine ⟨String, inferInstance, inferInstance, fun value => value.asStr.getD "", ?_⟩
    intro left right leftValid rightValid
    obtain ⟨l, rfl⟩ := valid_string.1 leftValid
    obtain ⟨r, rfl⟩ := valid_string.1 rightValid
    exact compareTypedValueOrder_string l r
  | int =>
    refine ⟨Int, inferInstance, inferInstance, fun value => value.asI64.getD 0, ?_⟩
    intro left right leftValid rightValid
    obtain ⟨l, leftInt⟩ := valid_int.1 leftValid
    obtain ⟨r, rightInt⟩ := valid_int.1 rightValid
    dsimp only
    rw [leftInt, rightInt]
    exact compareTypedValueOrder_int leftInt rightInt
  | float =>
    refine ⟨Int, inferInstance, inferInstance, fun value => value.asF64.getD 0, ?_⟩
    intro left right leftValid rightValid
    obtain ⟨l, rfl⟩ := valid_float.1 leftValid
    obtain ⟨r, rfl⟩ := valid_float.1 rightValid
    exact compareTypedValueOrder_float l r
  | bool =>
    refine ⟨Bool, inferInstance, inferInstance, fun value => value.asBool.getD false, ?_⟩
    intro left right leftValid rightValid
    obtain ⟨l, rfl⟩ := valid_bool.1 leftValid
    obtain ⟨r, rfl⟩ := valid_bool.1 rightValid
    exact compareTypedValueOrder_bool l r
  | bytes => exact ⟨String, inferInstance, inferInstance, _, ordersBy_tagged rfl id fun _ _ _ _ => rfl⟩
  | date => exact ⟨String, inferInstance, inferInstance, _, ordersBy_tagged rfl id fun _ _ _ _ => rfl⟩
  | uuid => exact ⟨String, inferInstance, inferInstance, _, ordersBy_tagged rfl id fun _ _ _ _ => rfl⟩
  | dateTime =>
    refine ⟨Int ×ₗ Nat, inferInstance, inferInstance, _, ordersBy_tagged rfl instantKey fun left right leftText rightText => ?_⟩
    obtain ⟨l, -, leftRead⟩ := canonicalDatetime_valid chrono leftText
    obtain ⟨r, -, rightRead⟩ := canonicalDatetime_valid chrono rightText
    show (do
      let l ← Externals.parseRfc3339 left
      let r ← Externals.parseRfc3339 right
      return (compare l.secs r.secs).then (compare l.nanos r.nanos) : Option Ordering) = _
    unfold instantKey
    rw [leftRead, rightRead]
    rfl
  | decimal =>
    refine ⟨ℚ, inferInstance, inferInstance, _,
      ordersBy_tagged rfl (fun raw => decimalValue raw.toList) fun left right leftText rightText => ?_⟩
    obtain ⟨d, leftDecimal, rfl⟩ := canonicalDecimal_valid leftText
    obtain ⟨e, rightDecimal, rfl⟩ := canonicalDecimal_valid rightText
    rw [String.toList_ofList, String.toList_ofList, decimalValue_chars leftDecimal, decimalValue_chars rightDecimal,
      ← cmp_eq_compare, ← compareDecimal_chars leftDecimal rightDecimal]
    rfl
  | duration =>
    refine ⟨Int, inferInstance, inferInstance, _,
      ordersBy_tagged rfl (fun raw => (parseDurationNanos raw).toOption.getD 0) fun left right leftText rightText => ?_⟩
    obtain ⟨l, -, leftRead⟩ := canonicalDuration_valid leftText
    obtain ⟨r, -, rightRead⟩ := canonicalDuration_valid rightText
    show (do
      let l ← (parseDurationNanos left).toOption
      let r ← (parseDurationNanos right).toOption
      return compare l r : Option Ordering) = _
    rw [leftRead, rightRead]
    rfl

/-! ## The order of what is denoted -/

/-- The logical value that a stored value stands for; a double in units of the least one. -/
inductive LogicalValue where
  | string (text : String)
  | int (i : Int)
  | float (units : Int)
  | bool (b : Bool)
  | bytes (octets : List UInt8)
  | decimal (number : ℚ)
  | date (date : NaiveDate)
  | dateTime (instant : UtcInstant)
  | duration (nanos : Int)
  | uuid (bits : BitVec 128)

/-- The order of the logical type: strings by code point, bytes octet by octet, dates by the
calendar, instants by seconds and then nanoseconds, uuids by their bits. -/
def LogicalValue.order : LogicalValue → LogicalValue → Option Ordering
  | string l, string r => some (compare l r)
  | int l, int r => some (compare l r)
  | float l, float r => some (compare l r)
  | bool l, bool r => some (compare l r)
  | bytes l, bytes r => some (compare l r)
  | decimal l, decimal r => some (compare l r)
  | date l, date r => some (l.order r)
  | dateTime l, dateTime r => some ((compare l.secs r.secs).then (compare l.nanos r.nanos))
  | duration l, duration r => some (compare l r)
  | uuid l, uuid r => some (compare l.toNat r.toNat)
  | _, _ => none

/-- What a stored value of a kind denotes. -/
def logicalValue (kind : PrimitiveKind) (value : Value) : Option LogicalValue :=
  match kind with
  | .string => value.asStr.map .string
  | .int => value.asI64.map .int
  | .float => value.asF64.map .float
  | .bool => value.asBool.map .bool
  | .bytes => (Externals.base64Decode value.rawText).map .bytes
  | .decimal => some (.decimal (decimalValue value.rawText.toList))
  | .date => (Externals.parseDate value.rawText).map .date
  | .dateTime => (Externals.parseRfc3339 value.rawText).map .dateTime
  | .duration => (parseDurationNanos value.rawText).toOption.map .duration
  | .uuid => (Externals.parseUuid value.rawText).map .uuid

/-- The comparison is that of the logical values, and equal exactly on equal values. -/
def FollowsLogicalOrder (kind : PrimitiveKind) (left right : Value) : Prop :=
  ∃ l r order, logicalValue kind left = some l ∧ logicalValue kind right = some r ∧ l.order r = some order ∧
    compareTypedValueOrder left right = some order ∧ (order = .eq ↔ left.eq right = true)

/-- The texts of two bytes or date values come in the order of what they denote. -/
def TextsFollow (kind : PrimitiveKind) (left right : Value) : Prop :=
  match kind with
  | .bytes => Base64.GroupsAgree left.rawText.toList right.rawText.toList
  | .date => ∀ l r, Externals.parseDate left.rawText = some l → Externals.parseDate right.rawText = some r →
      YearTextsFollow l.year r.year
  | _ => True

/-- The texts that the libraries of bytes, dates and uuids are documented to write. -/
structure Externals.TextForms : Prop where
  bytes : ∀ octets, Externals.base64Encode octets = String.ofList (Base64.encode octets)
  date : ∀ date, Externals.formatDate date = String.ofList (dateText date)
  calendar : ∀ text date, Externals.parseDate text = some date → 1 ≤ date.month ∧ date.month ≤ 12 ∧ 1 ≤ date.day ∧ date.day ≤ 31
  uuid : ∀ bits, Externals.formatUuid bits = String.ofList (uuidText bits)

omit [Externals] in
theorem tagged_eq_iff {kind : PrimitiveKind} {l r : String} :
    (Value.tagged kind l).eq (Value.tagged kind r) = true ↔ l = r := by
  constructor
  · intro same
    have parts := congrArg Value.typedValueParts (tagged_eq same)
    rw [typedValueParts_tagged, typedValueParts_tagged] at parts
    cases parts
    rfl
  · rintro rfl
    exact tagged_eq_self kind l

/-- A tagged kind whose texts are compared as their readings are. -/
theorem follows_tagged {kind : PrimitiveKind} {l r : String} {first second : LogicalValue} {order : Ordering}
    (left : logicalValue kind (.tagged kind l) = some first) (right : logicalValue kind (.tagged kind r) = some second)
    (compared : compareTagged kind.keyword l r = some order) (same : order = .eq ↔ l = r) :
    FollowsLogicalOrder kind (.tagged kind l) (.tagged kind r) ↔ first.order second = some order := by
  unfold FollowsLogicalOrder
  rw [left, right, compareTypedValueOrder_tagged, compared, tagged_eq_iff]
  constructor
  · rintro ⟨_, _, o, leftSame, rightSame, logical, agreed, -⟩
    cases leftSame
    cases rightSame
    rw [logical, agreed]
  · intro logical
    exact ⟨first, second, order, rfl, rfl, logical, rfl, same⟩

/-- A kind that is compared by text. -/
theorem follows_text {kind : PrimitiveKind} {l r : String} {first second : LogicalValue} {order : Ordering}
    (left : logicalValue kind (.tagged kind l) = some first) (right : logicalValue kind (.tagged kind r) = some second)
    (compared : compareTagged kind.keyword l r = some (compare l r)) (logical : first.order second = some order) :
    FollowsLogicalOrder kind (.tagged kind l) (.tagged kind r) ↔ compare l r = order := by
  rw [follows_tagged left right compared LawfulEqOrd.compare_eq_iff_eq, logical, Option.some.injEq, eq_comm]

theorem follows_plain {kind : PrimitiveKind} {left right : Value} {l r : LogicalValue} {order : Ordering}
    (leftValue : logicalValue kind left = some l) (rightValue : logicalValue kind right = some r)
    (logical : l.order r = some order) (compared : compareTypedValueOrder left right = some order)
    (same : order = .eq ↔ left.eq right = true) : FollowsLogicalOrder kind left right :=
  ⟨l, r, order, leftValue, rightValue, logical, compared, same⟩

theorem follows_int {left right : Value} (leftValid : validateValueForKind .int left = true)
    (rightValid : validateValueForKind .int right = true) : FollowsLogicalOrder .int left right := by
  obtain ⟨l, leftInt⟩ := valid_int.1 leftValid
  obtain ⟨r, rightInt⟩ := valid_int.1 rightValid
  have value : ∀ {v : Value} {i : Int}, v.asI64 = some i → ∃ n : JsonInt, v = .number (.int n) ∧ n.val = i := by
    intro v i found
    match v, found with
    | .number (.int n), found =>
      have bounded : (if n.val < 2 ^ 63 then some n.val else none) = some i := found
      split at bounded
      · exact ⟨n, rfl, Option.some.inj bounded⟩
      · cases bounded
  obtain ⟨m, rfl, rfl⟩ := value leftInt
  obtain ⟨n, rfl, rfl⟩ := value rightInt
  have leftValue : logicalValue .int (.number (.int m)) = some (.int m.val) := congrArg (Option.map LogicalValue.int) leftInt
  have rightValue : logicalValue .int (.number (.int n)) = some (.int n.val) := congrArg (Option.map LogicalValue.int) rightInt
  refine follows_plain leftValue rightValue rfl (compareTypedValueOrder_int leftInt rightInt) ?_
  rw [Value.eq, Number.eq, beq_iff_eq]
  exact Int.compare_eq_eq

theorem follows_dateTime {stamp : UtcInstant → List Char} (chrono : Externals.Rfc3339 stamp) {left right : String}
    (leftText : canonicalDatetime left = .ok left) (rightText : canonicalDatetime right = .ok right) :
    FollowsLogicalOrder .dateTime (.tagged .dateTime left) (.tagged .dateTime right) := by
  obtain ⟨l, leftWritten, leftRead⟩ := canonicalDatetime_valid chrono leftText
  obtain ⟨r, rightWritten, rightRead⟩ := canonicalDatetime_valid chrono rightText
  have compared : compareTagged PrimitiveKind.dateTime.keyword left right =
      some ((compare l.secs r.secs).then (compare l.nanos r.nanos)) := by
    show (do
      let l ← Externals.parseRfc3339 left
      let r ← Externals.parseRfc3339 right
      return (compare l.secs r.secs).then (compare l.nanos r.nanos) : Option Ordering) = _
    rw [leftRead, rightRead]
    rfl
  have leftValue : logicalValue .dateTime (.tagged .dateTime left) = some (.dateTime l) :=
    congrArg (Option.map LogicalValue.dateTime) leftRead
  have rightValue : logicalValue .dateTime (.tagged .dateTime right) = some (.dateTime r) :=
    congrArg (Option.map LogicalValue.dateTime) rightRead
  refine (follows_tagged leftValue rightValue compared ?_).2 rfl
  rw [Ordering.then_eq_eq, Int.compare_eq_eq, Nat.compare_eq_eq]
  constructor
  · rintro ⟨secs, nanos⟩
    have same : l = r := by
      cases l
      cases r
      rw [UtcInstant.mk.injEq]
      exact ⟨secs, nanos⟩
    rw [leftWritten, rightWritten, same]
  · rintro rfl
    cases leftRead.symm.trans rightRead
    exact ⟨rfl, rfl⟩

omit [Externals] in
theorem compareDecimal_eq {d e : DecimalText} (left : d.Valid) (right : e.Valid) :
    compareDecimal (String.ofList d.chars) (String.ofList e.chars) = .eq ↔ String.ofList d.chars = String.ofList e.chars := by
  rw [compareDecimal_chars left right, cmp_eq_eq_iff, String.ofList_inj]
  constructor
  · exact value_injective left right
  · intro same
    rw [← decimalValue_chars left, ← decimalValue_chars right, same]

theorem follows_decimal {left right : String} (leftText : canonicalDecimal left = .ok left)
    (rightText : canonicalDecimal right = .ok right) :
    FollowsLogicalOrder .decimal (.tagged .decimal left) (.tagged .decimal right) := by
  obtain ⟨d, leftDecimal, rfl⟩ := canonicalDecimal_valid leftText
  obtain ⟨e, rightDecimal, rfl⟩ := canonicalDecimal_valid rightText
  refine (follows_tagged rfl rfl rfl (compareDecimal_eq leftDecimal rightDecimal)).2 ?_
  show some (compare (decimalValue (String.ofList d.chars).toList) (decimalValue (String.ofList e.chars).toList)) = _
  rw [String.toList_ofList, String.toList_ofList, decimalValue_chars leftDecimal, decimalValue_chars rightDecimal,
    ← cmp_eq_compare, ← compareDecimal_chars leftDecimal rightDecimal]

theorem follows_duration {left right : String} (leftText : canonicalDuration left = .ok left)
    (rightText : canonicalDuration right = .ok right) :
    FollowsLogicalOrder .duration (.tagged .duration left) (.tagged .duration right) := by
  obtain ⟨l, leftWritten, leftRead⟩ := canonicalDuration_valid leftText
  obtain ⟨r, rightWritten, rightRead⟩ := canonicalDuration_valid rightText
  have value : ∀ {raw : String} {nanos : Int}, parseDurationNanos raw = .ok nanos →
      logicalValue .duration (.tagged .duration raw) = some (.duration nanos) := by
    intro raw nanos read
    show (parseDurationNanos raw).toOption.map LogicalValue.duration = _
    rw [read]
    rfl
  have compared : compareTagged PrimitiveKind.duration.keyword left right = some (compare l r) := by
    show (do
      let l ← (parseDurationNanos left).toOption
      let r ← (parseDurationNanos right).toOption
      return compare l r : Option Ordering) = _
    rw [leftRead, rightRead]
    rfl
  refine (follows_tagged (value leftRead) (value rightRead) compared ?_).2 rfl
  rw [Int.compare_eq_eq]
  constructor
  · intro same
    rw [leftWritten, rightWritten, same]
  · rintro rfl
    cases leftRead.symm.trans rightRead
    rfl

theorem canonicalBytes_valid (forms : Externals.TextForms) {raw : String} (canonical : canonicalBytes raw = .ok raw) :
    ∃ octets, Externals.base64Decode raw = some octets ∧ raw = String.ofList (Base64.encode octets) := by
  obtain ⟨kept, octets, read, written⟩ := keptReading_ok ((canonicalBytes_eq raw).symm.trans canonical)
  rw [← kept] at read written
  exact ⟨octets, read, written.symm.trans (forms.bytes octets)⟩

theorem canonicalDate_valid (forms : Externals.TextForms) {raw : String} (canonical : canonicalDate raw = .ok raw) :
    ∃ date, Externals.parseDate raw = some date ∧ raw = String.ofList (dateText date) ∧ date.Short := by
  obtain ⟨kept, date, read, written⟩ := keptReading_ok ((canonicalDate_eq raw).symm.trans canonical)
  rw [← kept] at read written
  have := forms.calendar raw date read
  exact ⟨date, read, written.symm.trans (forms.date date), by omega, by omega⟩

theorem canonicalUuid_valid (forms : Externals.TextForms) {raw : String} (canonical : canonicalUuid raw = .ok raw) :
    ∃ bits, Externals.parseUuid raw = some bits ∧ raw = String.ofList (uuidText bits) := by
  obtain ⟨kept, bits, read, written⟩ := keptReading_ok ((canonicalUuid_eq raw).symm.trans canonical)
  rw [← kept] at read written
  exact ⟨bits, read, written.symm.trans (forms.uuid bits)⟩

theorem follows_bytes_iff (forms : Externals.TextForms) {left right : String} (leftText : canonicalBytes left = .ok left)
    (rightText : canonicalBytes right = .ok right) :
    FollowsLogicalOrder .bytes (.tagged .bytes left) (.tagged .bytes right) ↔
      Base64.GroupsAgree left.toList right.toList := by
  obtain ⟨l, leftRead, leftWritten⟩ := canonicalBytes_valid forms leftText
  obtain ⟨r, rightRead, rightWritten⟩ := canonicalBytes_valid forms rightText
  have leftValue : logicalValue .bytes (.tagged .bytes left) = some (.bytes l) := congrArg (Option.map LogicalValue.bytes) leftRead
  have rightValue : logicalValue .bytes (.tagged .bytes right) = some (.bytes r) := congrArg (Option.map LogicalValue.bytes) rightRead
  rw [follows_text leftValue rightValue rfl rfl, leftWritten, rightWritten, String.toList_ofList, String.toList_ofList]
  exact Base64.compare_encode_iff l r

theorem follows_date_iff (forms : Externals.TextForms) {left right : String} (leftText : canonicalDate left = .ok left)
    (rightText : canonicalDate right = .ok right) :
    FollowsLogicalOrder .date (.tagged .date left) (.tagged .date right) ↔
      ∀ l r, Externals.parseDate left = some l → Externals.parseDate right = some r → YearTextsFollow l.year r.year := by
  obtain ⟨l, leftRead, leftWritten, leftShort⟩ := canonicalDate_valid forms leftText
  obtain ⟨r, rightRead, rightWritten, rightShort⟩ := canonicalDate_valid forms rightText
  have leftValue : logicalValue .date (.tagged .date left) = some (.date l) := congrArg (Option.map LogicalValue.date) leftRead
  have rightValue : logicalValue .date (.tagged .date right) = some (.date r) := congrArg (Option.map LogicalValue.date) rightRead
  rw [follows_text leftValue rightValue rfl rfl]
  have texts := compare_dateText_iff leftShort rightShort
  rw [← leftWritten, ← rightWritten] at texts
  rw [texts, leftRead, rightRead]
  constructor
  · rintro follow _ _ ⟨⟩ ⟨⟩
    exact follow
  · intro follow
    exact follow l r rfl rfl

theorem follows_uuid (forms : Externals.TextForms) {left right : String} (leftText : canonicalUuid left = .ok left)
    (rightText : canonicalUuid right = .ok right) :
    FollowsLogicalOrder .uuid (.tagged .uuid left) (.tagged .uuid right) := by
  obtain ⟨l, leftRead, leftWritten⟩ := canonicalUuid_valid forms leftText
  obtain ⟨r, rightRead, rightWritten⟩ := canonicalUuid_valid forms rightText
  have leftValue : logicalValue .uuid (.tagged .uuid left) = some (.uuid l) := congrArg (Option.map LogicalValue.uuid) leftRead
  have rightValue : logicalValue .uuid (.tagged .uuid right) = some (.uuid r) := congrArg (Option.map LogicalValue.uuid) rightRead
  rw [follows_text leftValue rightValue rfl rfl, leftWritten, rightWritten]
  exact compare_uuidText l r

/-- Two valid values of a kind are compared as what they denote, and are equal exactly where
they compare so, but for bytes and dates whose texts come in another order. -/
theorem typed_order_follows_iff {stamp : UtcInstant → List Char} (chrono : Externals.Rfc3339 stamp)
    (forms : Externals.TextForms) {kind : PrimitiveKind} {left right : Value}
    (leftValid : validateValueForKind kind left = true) (rightValid : validateValueForKind kind right = true) :
    FollowsLogicalOrder kind left right ↔ TextsFollow kind left right := by
  cases isTagged : kind.isTagged with
  | false =>
    cases kind with
    | string =>
      obtain ⟨l, rfl⟩ := valid_string.1 leftValid
      obtain ⟨r, rfl⟩ := valid_string.1 rightValid
      refine iff_of_true (follows_plain rfl rfl rfl (compareTypedValueOrder_string l r) ?_) trivial
      rw [Value.eq, beq_iff_eq]
      exact LawfulEqOrd.compare_eq_iff_eq
    | int => exact iff_of_true (follows_int leftValid rightValid) trivial
    | float =>
      obtain ⟨x, rfl⟩ := valid_float.1 leftValid
      obtain ⟨y, rfl⟩ := valid_float.1 rightValid
      refine iff_of_true (follows_plain rfl rfl rfl (compareTypedValueOrder_float x y) ?_) trivial
      rw [Value.eq, Number.eq, F64.eq, beq_iff_eq]
      exact Int.compare_eq_eq
    | bool =>
      obtain ⟨a, rfl⟩ := valid_bool.1 leftValid
      obtain ⟨b, rfl⟩ := valid_bool.1 rightValid
      refine iff_of_true (follows_plain rfl rfl rfl (compareTypedValueOrder_bool a b) ?_) trivial
      rw [Value.eq, beq_iff_eq]
      exact LawfulEqOrd.compare_eq_iff_eq
    | _ => cases isTagged
  | true =>
    obtain ⟨l, rfl, leftText⟩ := (valid_tagged isTagged).1 leftValid
    obtain ⟨r, rfl, rightText⟩ := (valid_tagged isTagged).1 rightValid
    cases kind with
    | bytes => exact follows_bytes_iff forms leftText rightText
    | date => exact follows_date_iff forms leftText rightText
    | decimal => exact iff_of_true (follows_decimal leftText rightText) trivial
    | dateTime => exact iff_of_true (follows_dateTime chrono leftText rightText) trivial
    | duration => exact iff_of_true (follows_duration leftText rightText) trivial
    | uuid => exact iff_of_true (follows_uuid forms leftText rightText) trivial
    | _ => cases isTagged

end Plain

/-- Libraries that write texts as documented, and read three dates. -/
@[reducible] noncomputable def datedLibraries : Externals where
  base64Decode _ := none
  base64Encode octets := String.ofList (Base64.encode octets)
  parseDate text := [⟨1999, 12, 31⟩, ⟨2000, 1, 1⟩, ⟨10000, 1, 1⟩].find? fun date => String.ofList (dateText date) = text
  formatDate date := String.ofList (dateText date)
  parseRfc3339 := leapLibraries.parseRfc3339
  formatRfc3339Secs := leapLibraries.formatRfc3339Secs
  formatRfc3339Nanos := leapLibraries.formatRfc3339Nanos
  parseUuid _ := none
  formatUuid bits := String.ofList (uuidText bits)

theorem datedLibraries_rfc3339 : @Externals.Rfc3339 datedLibraries leapStamp := by
  obtain ⟨visible, secs, nanos, valid, reads, barePoint, otherYears⟩ := leapLibraries_rfc3339
  exact @Externals.Rfc3339.mk datedLibraries leapStamp visible secs nanos valid reads barePoint otherYears

theorem datedLibraries_forms : @Externals.TextForms datedLibraries := by
  let := datedLibraries
  refine ⟨fun _ => rfl, fun _ => rfl, fun text date read => ?_, fun _ => rfl⟩
  have member := List.mem_of_find?_eq_some read
  simp only [List.mem_cons, List.not_mem_nil, or_false] at member
  obtain rfl | rfl | rfl := member <;> decide

theorem datedLibraries_valid {text : String} (canonical : @canonicalDate datedLibraries text = .ok text) :
    @validateValueForKind datedLibraries .date (.tagged .date text) = true :=
  (@valid_tagged datedLibraries .date rfl _).2 ⟨text, rfl, canonical⟩

theorem typed_order_follows_dates :
    letI := datedLibraries
    FollowsLogicalOrder .date (.tagged .date "1999-12-31") (.tagged .date "2000-01-01") := by
  let := datedLibraries
  refine (typed_order_follows_iff datedLibraries_rfc3339 datedLibraries_forms (datedLibraries_valid rfl)
    (datedLibraries_valid rfl)).2 ?_
  intro l r leftRead rightRead
  have first : Externals.parseDate "1999-12-31" = some ⟨1999, 12, 31⟩ := rfl
  have second : Externals.parseDate "2000-01-01" = some ⟨2000, 1, 1⟩ := rfl
  cases first.symm.trans leftRead
  cases second.symm.trans rightRead
  exact ⟨by decide, by decide⟩

/-- The first day of the year 10000 is compared as earlier than that of 2000. -/
theorem later_date_first :
    letI := datedLibraries
    ¬∀ kind left right, validateValueForKind kind left = true → validateValueForKind kind right = true →
      FollowsLogicalOrder kind left right := by
  let := datedLibraries
  intro claim
  have follows := claim .date (.tagged .date "+10000-01-01") (.tagged .date "2000-01-01") (datedLibraries_valid rfl)
    (datedLibraries_valid rfl)
  have years := (follows_date_iff datedLibraries_forms rfl rfl).1 follows ⟨10000, 1, 1⟩ ⟨2000, 1, 1⟩ rfl rfl
  exact absurd (years.2 (by decide)) (by decide)
