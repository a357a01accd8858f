import Grm.Dsl.Graph

/-!
# Typed property values

`runtime/value.rs`: the primitive kinds, their lexical forms, and comparison of
stored values. Strings, integers, doubles and booleans are plain JSON; the other
kinds are two-field objects tagged with the kind's keyword. Date, time, base64 and
uuid parsing come from libraries outside the repository and are the parameter
`Externals`.
-/

set_option autoImplicit false

/-- `chrono::NaiveDate`. -/
structure NaiveDate where
  year : Int
  month : Nat
  day : Nat
  deriving DecidableEq

/-- `chrono::DateTime<Utc>`: seconds since the epoch and the nanosecond part, which
reaches past a second in a leap second. -/
structure UtcInstant where
  secs : Int
  nanos : Nat
  deriving DecidableEq

/-- The library calls of `value.rs`. -/
class Externals where
  base64Decode : String → Option (List UInt8)
  base64Encode : List UInt8 → String
  parseDate : String → Option NaiveDate
  formatDate : NaiveDate → String
  parseRfc3339 : String → Option UtcInstant
  formatRfc3339Secs : UtcInstant → String
  formatRfc3339Nanos : UtcInstant → String
  parseUuid : String → Option (BitVec 128)
  formatUuid : BitVec 128 → String

/-- Libraries that recognise no text: enough where every value is plain JSON. -/
@[reducible] def Externals.plainOnly : Externals where
  base64Decode _ := none
  base64Encode _ := ""
  parseDate _ := none
  formatDate _ := ""
  parseRfc3339 _ := none
  formatRfc3339Secs _ := ""
  formatRfc3339Nanos _ := ""
  parseUuid _ := none
  formatUuid _ := ""

/-- `PrimitiveKind` and `RuntimeValueType`, which convert to each other constructor by
constructor. -/
inductive PrimitiveKind where
  | string | int | float | bool | bytes | decimal | date | dateTime | duration | uuid
  deriving DecidableEq, Repr

namespace PrimitiveKind

def keyword : PrimitiveKind → String
  | string => "string"
  | int => "int"
  | float => "float"
  | bool => "bool"
  | bytes => "bytes"
  | decimal => "decimal"
  | date => "date"
  | dateTime => "datetime"
  | duration => "duration"
  | uuid => "uuid"

/-- The kinds stored as tagged objects. -/
def isTagged : PrimitiveKind → Bool
  | string | int | float | bool => false
  | _ => true

end PrimitiveKind

def i64Min : Int := -2 ^ 63

def i64Max : Int := 2 ^ 63 - 1

def i128Max : Int := 2 ^ 127 - 1

/-- `u64::MAX`, which is also `usize::MAX`. -/
def u64Max : Nat := 2 ^ 64 - 1

namespace Value

/-- `tagged`: the object `{"$grm_type": keyword, "value": raw}`. -/
def tagged (kind : PrimitiveKind) (raw : String) : Value :=
  object [("$grm_type", string kind.keyword), ("value", string raw)]

/-- `typed_value_parts`: the keyword and the payload of a two-field tagged object. -/
def typedValueParts : Value → Option (String × String)
  | object fields => do
    let kind ← (← fields.lookup "$grm_type").asStr
    let raw ← (← fields.lookup "value").asStr
    if fields.length = 2 then some (kind, raw) else none
  | _ => none

end Value

/-! ## Lexical forms -/

section Lexical
open Text

def canonicalDecimalError : String := "expected canonical finite decimal value"

/-- `canonical_decimal`. -/
def canonicalDecimal (input : String) : Except String String :=
  let raw := trim input.toList
  if raw.head? = some '+' then .error canonicalDecimalError
  else
    let negative := raw.head? = some '-'
    let rest := if negative then raw.drop 1 else raw
    if rest = [] ∨ 'e' ∈ rest ∨ 'E' ∈ rest then .error canonicalDecimalError
    else
      let parts := rest.splitOn '.'
      let int := parts.headD []
      let frac := parts[1]?
      if 2 < parts.length ∨ int = [] ∨ ¬ int.all Char.isDigit ∨
          frac.any (fun part => part = [] || !part.all Char.isDigit) then .error canonicalDecimalError
      else if 1 < int.length ∧ int.head? = some '0' then .error canonicalDecimalError
      else
        let frac := trimEndMatches '0' (frac.getD [])
        let isZero := int.all (· == '0') && frac.isEmpty
        if negative ∧ isZero then .error canonicalDecimalError
        else
          let out := (if negative then ['-'] else []) ++ int ++ if frac.isEmpty then [] else '.' :: frac
          if out ≠ raw then .error canonicalDecimalError else .ok (String.ofList out)

def canonicalDurationError : String := "expected canonical duration value like PT0S or -PT1.5S"

/-- `parse_decimal_seconds_to_nanos`. -/
def parseDecimalSecondsToNanos (raw : List Char) : Except String Int :=
  if raw = [] then .error canonicalDurationError
  else
    let parts := raw.splitOn '.'
    let whole := parts.headD []
    let frac := parts[1]?
    if 2 < parts.length ∨ whole = [] ∨ ¬ whole.all Char.isDigit ∨
        frac.any (fun part => part = [] || 9 < part.length || !part.all Char.isDigit) then
      .error canonicalDurationError
    else
      let seconds : Int := digitsValue whole
      if i128Max < seconds then .error "duration seconds are outside supported range"
      else
        let digits := frac.getD []
        let nanos : Int := digitsValue (digits ++ List.replicate (9 - digits.length) '0')
        -- `checked_mul` and `checked_add`: both results are non-negative
        if i128Max < seconds * 1000000000 ∨ i128Max < seconds * 1000000000 + nanos then
          .error "duration is outside supported range"
        else .ok (seconds * 1000000000 + nanos)

/-- The sign and the seconds between `PT` and `S`. -/
def durationSeconds (raw : List Char) : Except String (Bool × List Char) :=
  let negative := raw.head? = some '-'
  let body := if negative then raw.drop 1 else raw
  match (stripPrefix? "PT".toList body).bind (stripSuffix? ['S']) with
  | some seconds => .ok (negative, seconds)
  | none => .error canonicalDurationError

/-- `parse_duration_nanos`. -/
def parseDurationNanos (raw : String) : Except String Int := do
  let (negative, seconds) ← durationSeconds raw.toList
  let nanos ← parseDecimalSecondsToNanos seconds
  return if negative then -nanos else nanos

/-- `format_duration_nanos`. -/
def formatDurationNanos (nanos : Int) : String :=
  let whole := nanos.natAbs / 1000000000
  let frac := nanos.natAbs % 1000000000
  let digits := Nat.toDigits 10 frac
  let padded := List.replicate (9 - digits.length) '0' ++ digits
  String.ofList <| (if nanos < 0 then ['-'] else []) ++ "PT".toList ++ Nat.toDigits 10 whole ++
    (if frac = 0 then [] else '.' :: trimEndMatches '0' padded) ++ ['S']

/-- `canonical_duration_value`, before tagging. -/
def canonicalDuration (input : String) : Except String String := do
  let raw := trim input.toList
  if raw = [] then throw canonicalDurationError
  let (negative, seconds) ← durationSeconds raw
  let nanos ← parseDecimalSecondsToNanos seconds
  let canonical := formatDurationNanos (if negative then -nanos else nanos)
  if canonical ≠ String.ofList raw then throw canonicalDurationError
  return canonical

variable [Externals]

/-- `canonical_bytes_value`, before tagging. -/
def canonicalBytes (input : String) : Except String String :=
  let trimmed := String.ofList (trim input.toList)
  match Externals.base64Decode trimmed with
  | none => .error "expected canonical base64 bytes value"
  | some bytes =>
    let canonical := Externals.base64Encode bytes
    if canonical ≠ trimmed then .error "expected canonical base64 bytes value" else .ok canonical

/-- `canonical_date_value`, before tagging. -/
def canonicalDate (input : String) : Except String String :=
  let raw := String.ofList (trim input.toList)
  match Externals.parseDate raw with
  | none => .error "expected canonical date value YYYY-MM-DD"
  | some date =>
    let canonical := Externals.formatDate date
    if canonical ≠ raw then .error "expected canonical date value YYYY-MM-DD" else .ok canonical

/-- `canonical_datetime_value`, before tagging. -/
def canonicalDatetime (input : String) : Except String String :=
  match Externals.parseRfc3339 (String.ofList (trim input.toList)) with
  | none => .error "expected RFC3339 datetime with explicit offset"
  | some utc =>
    if utc.nanos = 0 then .ok (Externals.formatRfc3339Secs utc)
    else
      let value := (Externals.formatRfc3339Nanos utc).toList.dropLast
      .ok (String.ofList (trimEndMatches '0' value ++ ['Z']))

/-- `canonical_uuid_value`, before tagging. -/
def canonicalUuid (input : String) : Except String String :=
  let raw := String.ofList (trim input.toList)
  match Externals.parseUuid raw with
  | none => .error "expected canonical uuid value"
  | some uuid =>
    let canonical := Externals.formatUuid uuid
    if canonical ≠ raw then .error "expected canonical uuid value" else .ok canonical

/-- `finite_float_value` after `str::parse::<f64>`. -/
def parseFiniteFloat (input : List Char) : Except String Value :=
  match parseFloat input with
  | some (.number d) => match F64.ofRatio d.negative d.num d.den with
    | some x => .ok (.number (.float x))
    | none => .error "expected finite float value"
  | _ => .error "expected finite float value"

omit [Externals] in
theorem float_of_number {text : Option FloatText} {convert : Decimal → Except String Value} {error : String} {value : Value}
    (parsed : (match text with
      | some (.number d) => convert d
      | _ => .error error) = .ok value) : ∃ d, convert d = .ok value := by
  split at parsed
  · exact ⟨_, parsed⟩
  · cases parsed

omit [Externals] in
theorem float_of_double {rounded : Option F64} {value : Value}
    (converted : (match rounded with
      | some x => Except.ok (Value.number (.float x))
      | none => .error "expected finite float value") = .ok value) : ∃ x, value = .number (.float x) := by
  split at converted
  · cases converted
    exact ⟨_, rfl⟩
  · cases converted

-- Through the two steps above, whose rounding is any: the kernel would compute with `ofRatio`.
omit [Externals] in
theorem parseFiniteFloat_float {input : List Char} {value : Value} (parsed : parseFiniteFloat input = .ok value) :
    ∃ x, value = .number (.float x) := by
  unfold parseFiniteFloat at parsed
  obtain ⟨d, converted⟩ := float_of_number parsed
  exact @float_of_double (F64.ofRatio d.negative d.num d.den) value converted

/-- `parse_typed_value`. -/
def parseTypedValue (kind : PrimitiveKind) (input : String) : Except String Value :=
  match kind with
  | .string => .ok (.string input)
  | .int => match (parseInt i64Min i64Max (trim input.toList)).bind Value.ofInt? with
    | some value => .ok value
    | none => .error "expected int value"
  | .float => parseFiniteFloat (trim input.toList)
  | .bool =>
    let word := toAsciiLower (trim input.toList)
    if word = "true".toList then .ok (.bool true)
    else if word = "false".toList then .ok (.bool false)
    else .error "expected bool value (true/false)"
  | .bytes => (canonicalBytes input).map (Value.tagged .bytes)
  | .decimal => (canonicalDecimal input).map (Value.tagged .decimal)
  | .date => (canonicalDate input).map (Value.tagged .date)
  | .dateTime => (canonicalDatetime input).map (Value.tagged .dateTime)
  | .duration => (canonicalDuration input).map (Value.tagged .duration)
  | .uuid => (canonicalUuid input).map (Value.tagged .uuid)

/-- `validate_value_for_kind`. -/
def validateValueForKind (kind : PrimitiveKind) (value : Value) : Bool :=
  match kind with
  | .string => value.asStr.isSome
  | .int => value.asI64.isSome
  | .float => value.asNumber.any Number.isF64
  | .bool => value.asBool.isSome
  | kind => match value.typedValueParts with
    | some (actual, raw) => actual == kind.keyword &&
      match parseTypedValue kind raw with
      | .ok parsed => parsed.eq value
      | .error _ => false
    | none => false

end Lexical

/-! ## Comparison -/

/-- `values_have_same_kind`. -/
def valuesHaveSameKind : Value → Value → Bool
  | .null, .null => true
  | .bool _, .bool _ => true
  | .string _, .string _ => true
  | .number l, .number r => (l.isI64 && r.isI64) || (l.isU64 && r.isU64) || (l.isF64 && r.isF64)
  | .object l, .object r => match (Value.object l).typedValueParts, (Value.object r).typedValueParts with
    | some (leftKind, _), some (rightKind, _) => leftKind == rightKind
    | _, _ => false
  | .array _, .array _ => true
  | _, _ => false

/-- `decimal_parts`: the sign, the integer digits and the fraction digits. -/
def decimalParts (raw : String) : Bool × List Char × List Char :=
  let negative := raw.toList.head? = some '-'
  let parts := (if negative then raw.toList.drop 1 else raw.toList).splitOn '.'
  (negative, parts.headD [], parts[1]?.getD [])

/-- The first differing digit decides; a missing digit is a zero. -/
def compareFraction : List Char → List Char → Ordering
  | [], [] => .eq
  | l :: ls, [] => (compare l '0').then (compareFraction ls [])
  | [], r :: rs => (compare '0' r).then (compareFraction [] rs)
  | l :: ls, r :: rs => (compare l r).then (compareFraction ls rs)

/-- `compare_decimal`. -/
def compareDecimal (left right : String) : Ordering :=
  let (leftNeg, leftInt, leftFrac) := decimalParts left
  let (rightNeg, rightInt, rightFrac) := decimalParts right
  if leftNeg ≠ rightNeg then if leftNeg then .lt else .gt
  else
    let intOrd := (compare leftInt.length rightInt.length).then
      (compare (String.ofList leftInt) (String.ofList rightInt))
    let ord := intOrd.then (compareFraction leftFrac rightFrac)
    if leftNeg then ord.swap else ord

section Order
variable [Externals]

/-- The order of two payloads tagged with the same keyword. -/
def compareTagged (kind leftRaw rightRaw : String) : Option Ordering :=
  match kind with
  | "bytes" | "uuid" | "date" => some (compare leftRaw rightRaw)
  | "datetime" => do
    let l ← Externals.parseRfc3339 leftRaw
    let r ← Externals.parseRfc3339 rightRaw
    return (compare l.secs r.secs).then (compare l.nanos r.nanos)
  | "decimal" => some (compareDecimal leftRaw rightRaw)
  | "duration" => do
    let l ← (parseDurationNanos leftRaw).toOption
    let r ← (parseDurationNanos rightRaw).toOption
    return compare l r
  | _ => none

/-- `compare_typed_value_order`. -/
def compareTypedValueOrder (left right : Value) : Option Ordering :=
  if !valuesHaveSameKind left right then none
  else match left.asI64, right.asI64 with
  | some l, some r => some (compare l r)
  | _, _ => match left, right with
    | .number (.float l), .number (.float r) => some (compare l.units r.units)
    | .string l, .string r => some (compare l r)
    | .bool l, .bool r => some (compare l r)
    | _, _ => do
      let (leftKind, leftRaw) ← left.typedValueParts
      let (rightKind, rightRaw) ← right.typedValueParts
      if leftKind ≠ rightKind then none else compareTagged leftKind leftRaw rightRaw

/-- `compare_typed_values`: the session's comparison. -/
def compareTypedValues (left : Value) (op : CompareOp) (right : Value) : Bool :=
  if !valuesHaveSameKind left right then false
  else match op with
  | .eq => left.eq right
  | .ne => !left.eq right
  | .gt => (compareTypedValueOrder left right).any (· == .gt)
  | .ge => (compareTypedValueOrder left right).any (· != .lt)
  | .lt => (compareTypedValueOrder left right).any (· == .lt)
  | .le => (compareTypedValueOrder left right).any (· != .gt)
  | .contains => valueContains left right

end Order
