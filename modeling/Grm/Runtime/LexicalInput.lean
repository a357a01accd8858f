import Grm.Runtime.TypedValues
import Grm.Runtime.Conformance

/-!
# Records from lexical input

`validate_instance_input` parses the texts given for the fields of a model. The record
passes the typed validation of its model exactly when each datetime among the texts is
rewritten to one that is read again.
-/

open Text

set_option autoImplicit false

section Input
variable [Externals]

/-- One turn of the field loop of `validate_instance_input`. -/
def collectInput (values : BTreeMap String String) (props : Props) (field : RuntimeField) : GrmResult Props :=
  match values[field.name]? with
  | some text =>
    match parseTypedValue field.valueType text with
    | .ok parsed => .ok (props.insert field.name parsed)
    | .error message => .error (.constraint message)
  | none =>
    if field.required then .error (.constraint ("missing required field '" ++ field.name ++ "'"))
    else .ok props

/-- `validate_instance_input`, for a model of either sort. -/
def validateInstanceInputFor (kind modelName : String) (fields : List RuntimeField) (values : BTreeMap String String) :
    GrmResult Props :=
  match values.keys.find? fun key => !fields.any fun field => field.name == key with
  | some key => .error (unknownField kind modelName key)
  | none => fields.foldlM (collectInput values) ∅

/-- `RuntimeNodeModel::validate_instance_input`. -/
def RuntimeNodeModel.validateInstanceInput (model : RuntimeNodeModel) (values : BTreeMap String String) : GrmResult Props :=
  validateInstanceInputFor "model" model.name model.fields values

/-- `RuntimeRelModel::validate_instance_input`. -/
def RuntimeRelModel.validateInstanceInput (model : RuntimeRelModel) (values : BTreeMap String String) : GrmResult Props :=
  validateInstanceInputFor "relationship model" model.name model.fields values

/-- The typed validation passes exactly where each field's value does. -/
theorem validatePropsForFields_iff {kind name : String} {fields : List RuntimeField} {values : Props}
    (known : ∀ key ∈ values, ∃ field ∈ fields, field.name = key) :
    validatePropsForFields kind name fields values = .ok values ↔
      ∀ field ∈ fields, (∀ value, values[field.name]? = some value → validateValueForKind field.valueType value = true) ∧
        (values[field.name]? = none → field.required = false) := by
  have listed : (values.keys.find? fun key => !fields.any fun field => field.name == key) = none := by
    refine List.find?_eq_none.2 fun key member => ?_
    obtain ⟨field, among, named⟩ := known key (Std.ExtTreeMap.mem_keys.1 member)
    simp only [Bool.not_eq_true', Bool.not_eq_false]
    exact List.any_eq_true.2 ⟨field, among, by rw [named]; exact beq_self_eq_true key⟩
  constructor
  · intro ok
    unfold validatePropsForFields at ok
    rw [listed] at ok
    exact (collectFields_ok fields ok).1
  · intro checks
    have runs : ∀ (some : List RuntimeField) (props : Props), (∀ field ∈ some, field ∈ fields) →
        ∃ after, some.foldlM (collectField kind name values) props = .ok after := by
      intro some
      induction some with
      | nil => exact fun props _ => ⟨props, rfl⟩
      | cons field rest ih =>
        intro props among
        obtain ⟨valid, optional⟩ := checks field (among field List.mem_cons_self)
        have first : ∃ middle, collectField kind name values props field = .ok middle := by
          unfold collectField
          cases given : values[field.name]? with
          | none =>
            dsimp only
            rw [if_neg (by rw [optional given]; exact Bool.false_ne_true)]
            exact ⟨_, rfl⟩
          | some value =>
            dsimp only
            rw [if_pos (valid value given)]
            exact ⟨_, rfl⟩
        obtain ⟨middle, done⟩ := first
        obtain ⟨after, later⟩ := ih middle fun other member => among other (List.mem_cons_of_mem _ member)
        rw [List.foldlM_cons, done]
        exact ⟨after, later⟩
    obtain ⟨after, done⟩ := runs fields ∅ fun _ => id
    have ok : validatePropsForFields kind name fields values = .ok after := by
      unfold validatePropsForFields
      rw [listed]
      exact done
    rw [ok, (validatePropsForFields_ok ok).1]

theorem collectInput_ok {values : BTreeMap String String} {props after : Props} {field : RuntimeField}
    (ok : collectInput values props field = .ok after) :
    (∀ text, values[field.name]? = some text →
      ∃ value, parseTypedValue field.valueType text = .ok value ∧ after = props.insert field.name value) ∧
      (values[field.name]? = none → field.required = false ∧ after = props) := by
  unfold collectInput at ok
  cases given : values[field.name]? with
  | none =>
    rw [given] at ok
    dsimp only at ok
    split at ok
    · cases ok
    case isFalse optional =>
      cases ok
      refine ⟨fun _ none => ?_, fun _ => ⟨by simpa using optional, rfl⟩⟩
      cases none
  | some text =>
    rw [given] at ok
    dsimp only at ok
    cases parsed : parseTypedValue field.valueType text with
    | error message => rw [parsed] at ok; cases ok
    | ok value =>
      rw [parsed] at ok
      cases ok
      refine ⟨fun other same => ?_, fun none => by cases none⟩
      cases same
      exact ⟨value, parsed, rfl⟩

/-- The field loop parses the text of each field, and stores nothing else. -/
theorem collectInputs_ok {values : BTreeMap String String} (fields : List RuntimeField) {props after : Props}
    (distinct : (fields.map RuntimeField.name).Nodup) (ok : fields.foldlM (collectInput values) props = .ok after) :
    (∀ key, key ∉ fields.map RuntimeField.name → after[key]? = props[key]?) ∧
      ∀ field ∈ fields,
        (∀ text, values[field.name]? = some text →
          ∃ value, parseTypedValue field.valueType text = .ok value ∧ after[field.name]? = some value) ∧
        (values[field.name]? = none → field.required = false ∧ after[field.name]? = props[field.name]?) := by
  induction fields generalizing props with
  | nil =>
    cases ok
    exact ⟨fun _ _ => rfl, fun _ member => by cases member⟩
  | cons field fields ih =>
    rw [List.map_cons, List.nodup_cons] at distinct
    rw [List.foldlM_cons] at ok
    cases first : collectInput values props field with
    | error e => rw [first] at ok; cases ok
    | ok middle =>
      rw [first] at ok
      obtain ⟨others, rest⟩ := ih distinct.2 ok
      obtain ⟨given, missing⟩ := collectInput_ok first
      have elsewhere : ∀ key, key ≠ field.name → middle[key]? = props[key]? := by
        intro key other
        cases text : values[field.name]? with
        | none => rw [(missing text).2]
        | some t =>
          obtain ⟨value, -, rfl⟩ := given t text
          rw [BTreeMap.get_insert, if_neg (Ne.symm other)]
      refine ⟨fun key absent => ?_, fun f member => ?_⟩
      · rw [List.map_cons, List.mem_cons, not_or] at absent
        rw [others key absent.2, elsewhere key absent.1]
      · rcases List.mem_cons.1 member with rfl | later
        · refine ⟨fun text found => ?_, fun none => ?_⟩
          · obtain ⟨value, parsed, stored⟩ := given text found
            refine ⟨value, parsed, ?_⟩
            rw [others _ distinct.1, stored, BTreeMap.get_insert, if_pos rfl]
          · obtain ⟨optional, same⟩ := missing none
            exact ⟨optional, by rw [others _ distinct.1, same]⟩
        · have apart : f.name ≠ field.name := fun same => distinct.1 (same ▸ List.mem_map_of_mem later)
          obtain ⟨present, absent⟩ := rest f later
          refine ⟨present, fun none => ?_⟩
          obtain ⟨optional, same⟩ := absent none
          exact ⟨optional, by rw [same, elsewhere _ apart]⟩

variable {stamp : UtcInstant → List Char}

/-- A record from lexical input passes the typed validation of its model exactly when its
datetimes are rewritten to readable ones. -/
theorem record_valid_iff (chrono : Externals.Rfc3339 stamp) {kind name : String} {fields : List RuntimeField}
    (distinct : (fields.map RuntimeField.name).Nodup) {values : BTreeMap String String} {props : Props}
    (accepted : validateInstanceInputFor kind name fields values = .ok props) :
    validatePropsForFields kind name fields props = .ok props ↔
      ∀ field ∈ fields, field.valueType = .dateTime → ∀ text, values[field.name]? = some text → RewritesToReadable text := by
  unfold validateInstanceInputFor at accepted
  split at accepted
  · cases accepted
  · obtain ⟨others, stored⟩ := collectInputs_ok fields distinct accepted
    have known : ∀ key ∈ props, ∃ field ∈ fields, field.name = key := by
      intro key member
      by_contra unknown
      have absent : key ∉ fields.map RuntimeField.name := by
        intro listed
        obtain ⟨field, among, named⟩ := List.mem_map.1 listed
        exact unknown ⟨field, among, named⟩
      obtain ⟨value, found⟩ := BTreeMap.mem_iff_get.1 member
      rw [others key absent] at found
      simp at found
    rw [validatePropsForFields_iff known]
    constructor
    · intro checks field among datetime text given
      obtain ⟨value, parsed, found⟩ := (stored field among).1 text given
      exact (parsed_valid_iff chrono parsed).1 ((checks field among).1 value found) datetime
    · intro readable field among
      constructor
      · intro value found
        cases given : values[field.name]? with
        | none =>
          rw [((stored field among).2 given).2] at found
          simp at found
        | some text =>
          obtain ⟨parsedValue, parsed, same⟩ := (stored field among).1 text given
          cases found.symm.trans same
          exact (parsed_valid_iff chrono parsed).2 fun datetime => readable field among datetime text given
      · intro absent
        cases given : values[field.name]? with
        | none => exact ((stored field among).2 given).1
        | some text =>
          obtain ⟨value, -, found⟩ := (stored field among).1 text given
          rw [found] at absent
          cases absent

/-- A parsed value passes the typed validation of its kind, and a record from lexical input
that of its model, exactly when each datetime among the texts is rewritten to one that is
read again: its year in UTC is within 0 to 9999, and it is no leap second without a
fraction. -/
theorem lexical_input_valid_iff (chrono : Externals.Rfc3339 stamp) :
    (∀ kind input value, parseTypedValue kind input = .ok value →
      (validateValueForKind kind value = true ↔ (kind = .dateTime → RewritesToReadable input))) ∧
    ∀ kind name fields values props, (fields.map RuntimeField.name).Nodup →
      validateInstanceInputFor kind name fields values = .ok props →
      (validatePropsForFields kind name fields props = .ok props ↔
        ∀ field ∈ fields, field.valueType = .dateTime → ∀ text, values[field.name]? = some text →
          RewritesToReadable text) :=
  ⟨fun _ _ _ => parsed_valid_iff chrono, fun _ _ _ _ _ distinct => record_valid_iff chrono distinct⟩

end Input

/-! ## A leap second -/

/-- The end of 2016 in UTC. -/
def leapSecond (nanos : Nat) : UtcInstant := ⟨1483228799, nanos⟩

/-- A second other than that one, as a text of its own. -/
def plainStamp (t : UtcInstant) : List Char :=
  (if 1000000000 ≤ t.nanos then 'l' else 's') :: (if t.secs < 0 then '-' else '+') :: (Nat.toDigits 10 t.secs.natAbs ++ [';'])

/-- Texts up to the seconds: that of the leap second at the end of 2016 as it is written,
and one text each for the other seconds. -/
def leapStamp (t : UtcInstant) : List Char :=
  if t.secs = 1483228799 ∧ 1000000000 ≤ t.nanos then '2' :: "016-12-31T23:59:60".toList else plainStamp t

theorem append_separator {a b r s : List Char} {c : Char} (first : c ∉ a) (second : c ∉ b) (same : a ++ c :: r = b ++ c :: s) :
    a = b ∧ r = s := by
  induction a generalizing b with
  | nil =>
    cases b with
    | nil => exact ⟨rfl, (List.cons.inj same).2⟩
    | cons d b =>
      rw [(List.cons.inj same).1] at second
      exact absurd List.mem_cons_self second
  | cons d a ih =>
    cases b with
    | nil =>
      rw [← (List.cons.inj same).1] at first
      exact absurd List.mem_cons_self first
    | cons e b =>
      obtain ⟨head, tail⟩ := List.cons.inj same
      rw [List.mem_cons, not_or] at first second
      obtain ⟨rest, later⟩ := ih first.2 second.2 tail
      exact ⟨by rw [head, rest], later⟩

theorem plainStamp_head (t : UtcInstant) (r s : List Char) : '2' :: r ≠ plainStamp t ++ s := by
  intro same
  have head := (List.cons.inj same).1
  split at head <;> exact absurd head (by decide)

theorem plainStamp_append {t u : UtcInstant} {r s : List Char} (same : plainStamp t ++ r = plainStamp u ++ s) :
    t.secs = u.secs ∧ (1000000000 ≤ t.nanos ↔ 1000000000 ≤ u.nanos) ∧ r = s := by
  have ordinary : ∀ v : UtcInstant, ';' ∉ Nat.toDigits 10 v.secs.natAbs :=
    fun v => not_mem_digits (canonical_toDigits _).digits rfl
  unfold plainStamp at same
  rw [List.cons_append, List.cons_append, List.cons_append, List.cons_append, List.append_assoc, List.append_assoc] at same
  obtain ⟨leap, more⟩ := List.cons.inj same
  obtain ⟨sign, rest⟩ := List.cons.inj more
  obtain ⟨digits, tail⟩ := append_separator (ordinary t) (ordinary u) rest
  have size : t.secs.natAbs = u.secs.natAbs := by
    rw [← digitsValue_toDigits t.secs.natAbs, digits, digitsValue_toDigits]
  refine ⟨?_, ?_, tail⟩
  · split at sign <;> split at sign <;> first | omega | exact absurd sign (by decide)
  · split at leap <;> split at leap <;> first | omega | exact absurd leap (by decide)

theorem leapStamp_append {t u : UtcInstant} {r s : List Char} (same : leapStamp t ++ r = leapStamp u ++ s) :
    t.secs = u.secs ∧ (1000000000 ≤ t.nanos ↔ 1000000000 ≤ u.nanos) ∧ r = s := by
  unfold leapStamp at same
  by_cases first : t.secs = 1483228799 ∧ 1000000000 ≤ t.nanos
  · by_cases second : u.secs = 1483228799 ∧ 1000000000 ≤ u.nanos
    · rw [if_pos first, if_pos second] at same
      exact ⟨by rw [first.1, second.1], iff_of_true first.2 second.2, List.append_cancel_left same⟩
    · rw [if_pos first, if_neg second] at same
      exact absurd same (plainStamp_head u _ s)
  · by_cases second : u.secs = 1483228799 ∧ 1000000000 ≤ u.nanos
    · rw [if_neg first, if_pos second] at same
      exact absurd same.symm (plainStamp_head t _ r)
    · rw [if_neg first, if_neg second] at same
      exact plainStamp_append same

/-- A fraction that stands for the nanoseconds of an instant. -/
structure FractionOf (t : UtcInstant) (fraction : List Char) : Prop where
  years : t.InYears
  valid : t.Valid
  digits : fraction.all Char.isDigit = true
  short : fraction.length ≤ 9
  value : digitsValue (fraction ++ List.replicate (9 - fraction.length) '0') = t.nanos % 1000000000

/-- The text of an instant with a fraction. -/
def leapText (t : UtcInstant) (fraction : List Char) : List Char :=
  leapStamp t ++ (if fraction = [] then [] else '.' :: fraction) ++ ['Z']

theorem leapText_injective {t u : UtcInstant} {f g : List Char} (first : FractionOf t f) (second : FractionOf u g)
    (same : leapText t f = leapText u g) : t = u := by
  unfold leapText at same
  rw [List.append_assoc, List.append_assoc] at same
  obtain ⟨secs, leap, tails⟩ := leapStamp_append same
  have fractions : f = g := by
    have cut := List.append_cancel_right tails
    split at cut <;> split at cut
    case isTrue.isTrue hf hg => rw [hf, hg]
    case isTrue.isFalse => cases cut
    case isFalse.isTrue => cases cut
    case isFalse.isFalse => exact (List.cons.inj cut).2
  have nanos : t.nanos % 1000000000 = u.nanos % 1000000000 := by
    rw [← first.value, fractions, second.value]
  have bound : ∀ v : UtcInstant, v.Valid → v.nanos < 2000000000 := by
    intro v valid
    rcases valid with whole | ⟨-, inside⟩
    · omega
    · exact inside
  have left := bound t first.valid
  have right := bound u second.valid
  cases t
  cases u
  dsimp only at secs leap nanos left right
  rw [secs, UtcInstant.mk.injEq]
  exact ⟨rfl, by omega⟩

open Classical in
/-- The instant of such a text. -/
noncomputable def readLeapText (s : String) : Option UtcInstant :=
  if written : ∃ t fraction, FractionOf t fraction ∧ s = String.ofList (leapText t fraction) then some written.choose else none

theorem readLeapText_some {s : String} {t : UtcInstant} :
    readLeapText s = some t ↔ ∃ fraction, FractionOf t fraction ∧ s = String.ofList (leapText t fraction) := by
  unfold readLeapText
  constructor
  · intro read
    split at read
    next written =>
      cases read
      exact written.choose_spec
    next => cases read
  · rintro ⟨fraction, stands, same⟩
    have written : ∃ u other, FractionOf u other ∧ s = String.ofList (leapText u other) := ⟨t, fraction, stands, same⟩
    rw [dif_pos written]
    obtain ⟨other, chosen, text⟩ := written.choose_spec
    exact congrArg some (leapText_injective stands chosen (String.ofList_injective (same.symm.trans text))).symm

/-- Libraries that read and write these texts, and recognise no others. -/
@[reducible] noncomputable def leapLibraries : Externals where
  base64Decode _ := none
  base64Encode _ := ""
  parseDate _ := none
  formatDate _ := ""
  parseRfc3339 := readLeapText
  formatRfc3339Secs t := String.ofList (leapStamp t ++ ['Z'])
  formatRfc3339Nanos t := String.ofList (leapStamp t ++ '.' :: nanoDigits (t.nanos % 1000000000) ++ ['Z'])
  parseUuid _ := none
  formatUuid _ := ""

theorem leapLibraries_rfc3339 : @Externals.Rfc3339 leapLibraries leapStamp := by
  let := leapLibraries
  have unread : ∀ t rest, (∀ u fraction, FractionOf u fraction → leapStamp t ++ rest ≠ leapText u fraction) →
      readLeapText (String.ofList (leapStamp t ++ rest)) = none := by
    intro t rest none
    refine Option.eq_none_iff_forall_ne_some.2 fun u read => ?_
    obtain ⟨fraction, stands, same⟩ := readLeapText_some.1 read
    exact none u fraction stands (String.ofList_injective same)
  constructor
  · intro t
    unfold leapStamp
    split
    · exact ⟨'2', _, rfl, rfl⟩
    · refine ⟨_, _, rfl, ?_⟩
      split <;> rfl
  · intro t
    rfl
  · intro t
    rfl
  · intro s t read
    obtain ⟨fraction, stands, -⟩ := readLeapText_some.1 read
    exact stands.valid
  · intro t fraction years valid digits short value
    exact readLeapText_some.2 ⟨fraction, ⟨years, valid, digits, short, value⟩, rfl⟩
  · intro t
    rw [List.append_assoc]
    refine unread t _ fun u fraction stands same => ?_
    unfold leapText at same
    rw [List.append_assoc] at same
    have tails := (leapStamp_append same).2.2
    split at tails
    · cases tails
    · have cut := (List.cons.inj tails).2
      cases fraction with
      | nil => contradiction
      | cons c fraction =>
        have digit := stands.digits
        rw [List.all_cons, Bool.and_eq_true, ← (List.cons.inj cut).1] at digit
        exact absurd digit.1 (by decide)
  · intro t rest years
    refine unread t rest fun u fraction stands same => years ?_
    unfold leapText at same
    rw [List.append_assoc] at same
    have secs := (leapStamp_append same).1
    unfold UtcInstant.InYears
    rw [secs]
    exact stands.years

/-- The last second of 2016 with half a second more is read and written as it is, while
the leap second alone is written with a bare point. -/
theorem leapLibraries_read (fraction : List Char) (nanos : Nat) (stands : FractionOf (leapSecond nanos) fraction) :
    readLeapText (String.ofList (leapText (leapSecond nanos) fraction)) = some (leapSecond nanos) :=
  readLeapText_some.2 ⟨fraction, stands, rfl⟩

theorem half_leap_second_valid :
    letI := leapLibraries
    parseTypedValue .dateTime "2016-12-31T23:59:60.5Z" = .ok (.tagged .dateTime "2016-12-31T23:59:60.5Z") ∧
      validateValueForKind .dateTime (.tagged .dateTime "2016-12-31T23:59:60.5Z") = true := by
  let := leapLibraries
  have stands : FractionOf (leapSecond 1500000000) ['5'] := by
    refine ⟨by decide, .inr (by decide), rfl, by decide, by decide⟩
  have trimmed : String.ofList (trim "2016-12-31T23:59:60.5Z".toList) = String.ofList (leapText (leapSecond 1500000000) ['5']) := by
    decide
  have read : Externals.parseRfc3339 (String.ofList (trim "2016-12-31T23:59:60.5Z".toList)) = some (leapSecond 1500000000) := by
    rw [trimmed]
    exact leapLibraries_read _ _ stands
  have parsed : parseTypedValue .dateTime "2016-12-31T23:59:60.5Z" = .ok (.tagged .dateTime "2016-12-31T23:59:60.5Z") := by
    have text : String.ofList (canonicalInstant leapStamp (leapSecond 1500000000)) = "2016-12-31T23:59:60.5Z" := by decide
    rw [parseTypedValue_tagged rfl, canonicalText, canonicalDatetime_read leapLibraries_rfc3339 read, text]
    rfl
  refine ⟨parsed, ((lexical_input_valid_iff leapLibraries_rfc3339).1 _ _ _ parsed).2 fun _ t other => ?_⟩
  cases read.symm.trans other
  exact ⟨by decide, by decide⟩

theorem leap_second_not_valid :
    letI := leapLibraries
    ¬∀ kind input value, parseTypedValue kind input = .ok value → validateValueForKind kind value = true := by
  let := leapLibraries
  intro claim
  have stands : FractionOf (leapSecond 1000000000) [] := by
    refine ⟨by decide, .inr (by decide), rfl, by decide, by decide⟩
  have trimmed : String.ofList (trim "2016-12-31T23:59:60Z".toList) = String.ofList (leapText (leapSecond 1000000000) []) := by
    decide
  have read : Externals.parseRfc3339 (String.ofList (trim "2016-12-31T23:59:60Z".toList)) = some (leapSecond 1000000000) := by
    rw [trimmed]
    exact leapLibraries_read _ _ stands
  have parsed : parseTypedValue .dateTime "2016-12-31T23:59:60Z" = .ok (.tagged .dateTime "2016-12-31T23:59:60.Z") := by
    have text : String.ofList (canonicalInstant leapStamp (leapSecond 1000000000)) = "2016-12-31T23:59:60.Z" := by decide
    rw [parseTypedValue_tagged rfl, canonicalText, canonicalDatetime_read leapLibraries_rfc3339 read, text]
    rfl
  have kept := (parsed_valid_iff leapLibraries_rfc3339 parsed).1 (claim _ _ _ parsed) rfl _ read
  exact kept.2 rfl
