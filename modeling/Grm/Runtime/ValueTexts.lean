import Grm.Lib.Digits
import Grm.Runtime.Value

/-!
# The order of date and uuid texts

The texts that `chrono` and `uuid` write. A uuid has a fixed width, so its texts are in
the order of its bits. A year has four digits only from 0 to 9999; another one has a sign
and as many digits as it needs, and such texts are in the order of years only in part.
-/

open Text

set_option autoImplicit false

/-! ## Digits of a fixed width -/

/-- A number in `width` digits, the highest first. -/
def fixedDigits (base : Nat) : Nat → Nat → List Char
  | 0, _ => []
  | width + 1, n => fixedDigits base width (n / base) ++ [Nat.digitChar (n % base)]

theorem fixedDigits_length (base width n : Nat) : (fixedDigits base width n).length = width := by
  induction width generalizing n with
  | zero => rfl
  | succ width ih => rw [fixedDigits, List.length_append, ih]; rfl

theorem compare_digitChar {m n : Nat} (left : m < 16) (right : n < 16) :
    compare (Nat.digitChar m) (Nat.digitChar n) = compare m n := by
  have all : ∀ m < 16, ∀ n < 16, compare (Nat.digitChar m) (Nat.digitChar n) = compare m n := by decide
  exact all m left n right

/-- Numbers of one width are in the order of their digits. -/
theorem compare_fixedDigits {base : Nat} (positive : 0 < base) (small : base ≤ 16) {width m n : Nat}
    (left : m < base ^ width) (right : n < base ^ width) :
    compare (String.ofList (fixedDigits base width m)) (String.ofList (fixedDigits base width n)) = compare m n := by
  induction width generalizing m n with
  | zero =>
    rw [Nat.pow_zero, Nat.lt_one_iff] at left right
    rw [left, right]
    exact compare_text_nil
  | succ width ih =>
    have lowM := Nat.mod_lt m positive
    have lowN := Nat.mod_lt n positive
    have last : compare (String.ofList [Nat.digitChar (m % base)]) (String.ofList [Nat.digitChar (n % base)]) =
        compare (m % base) (n % base) := by
      rw [compare_text_cons, compare_text_nil, compare_digitChar (by omega) (by omega), Ordering.then_eq]
    rw [fixedDigits, fixedDigits, compare_text_append_append (by rw [fixedDigits_length, fixedDigits_length]), last,
      ih (Nat.div_lt_of_lt_mul (by rwa [Nat.pow_succ'] at left)) (Nat.div_lt_of_lt_mul (by rwa [Nat.pow_succ'] at right)),
      ← compare_mul_add lowM lowN, Nat.div_add_mod', Nat.div_add_mod']

/-! ## Uuids -/

/-- The text with a hyphen after each part of the given lengths. -/
def hyphenate : List Nat → List Char → List Char
  | [], s => s
  | n :: lengths, s => s.take n ++ '-' :: hyphenate lengths (s.drop n)

/-- `Uuid::hyphenated`. -/
def uuidText (uuid : BitVec 128) : List Char := hyphenate [8, 4, 4, 4] (fixedDigits 16 32 uuid.toNat)

theorem compare_hyphenate (lengths : List Nat) {s t : List Char} (same : s.length = t.length) :
    compare (String.ofList (hyphenate lengths s)) (String.ofList (hyphenate lengths t)) =
      compare (String.ofList s) (String.ofList t) := by
  induction lengths generalizing s t with
  | nil => rfl
  | cons n lengths ih =>
    have parts : (s.take n).length = (t.take n).length := by rw [List.length_take, List.length_take, same]
    have rest : (s.drop n).length = (t.drop n).length := by rw [List.length_drop, List.length_drop, same]
    rw [hyphenate, hyphenate, compare_text_append_append parts, compare_text_cons, compare_char_eq.2 rfl, Ordering.eq_then,
      ih rest, ← compare_text_append_append parts, List.take_append_drop, List.take_append_drop]

/-- Uuids are in the order of their texts. -/
theorem compare_uuidText (u v : BitVec 128) :
    compare (String.ofList (uuidText u)) (String.ofList (uuidText v)) = compare u.toNat v.toNat := by
  have bound : 16 ^ 32 = 2 ^ 128 := by decide
  unfold uuidText
  rw [compare_hyphenate _ (by rw [fixedDigits_length, fixedDigits_length])]
  exact compare_fixedDigits (by decide) (by decide) (by rw [bound]; exact u.isLt) (by rw [bound]; exact v.isLt)

/-! ## Dates -/

/-- The digits of a year, at least four. -/
def yearDigits (n : Nat) : List Char :=
  List.replicate (4 - (Nat.toDigits 10 n).length) '0' ++ Nat.toDigits 10 n

/-- `%Y`. -/
def yearText (year : Int) : List Char :=
  if year < 0 then '-' :: yearDigits year.natAbs
  else if 9999 < year then '+' :: yearDigits year.natAbs
  else yearDigits year.natAbs

/-- `%Y-%m-%d`. -/
def dateText (date : NaiveDate) : List Char :=
  yearText date.year ++ '-' :: (fixedDigits 10 2 date.month ++ '-' :: fixedDigits 10 2 date.day)

/-- The order of the calendar. -/
def NaiveDate.order (left right : NaiveDate) : Ordering :=
  (compare left.year right.year).then ((compare left.month right.month).then (compare left.day right.day))

/-- The texts of a year and a later one come in that order: the later one has four digits
and no sign, or both have a sign and enough of the first digits put them in that order. -/
def YearTextsAscend (lower upper : Int) : Prop :=
  0 ≤ upper ∧ upper ≤ 9999 ∨
  9999 < lower ∧ lower.natAbs ≤
    upper.natAbs / 10 ^ ((yearDigits upper.natAbs).length - (yearDigits lower.natAbs).length) ∨
  upper < 0 ∧
    lower.natAbs / 10 ^ ((yearDigits lower.natAbs).length - (yearDigits upper.natAbs).length) < upper.natAbs

instance (lower upper : Int) : Decidable (YearTextsAscend lower upper) := inferInstanceAs (Decidable (_ ∨ _))

theorem yearDigits_digits (n : Nat) : (yearDigits n).all Char.isDigit = true := by
  unfold yearDigits
  rw [List.all_append, (canonical_toDigits n).digits, Bool.and_true, List.all_eq_true]
  intro c member
  rw [List.eq_of_mem_replicate member]
  decide

theorem yearDigits_value (n : Nat) : digitsValue (yearDigits n) = n := by
  unfold yearDigits
  rw [digitsValue_append, digitsValue_replicate_zero, Nat.zero_mul, Nat.zero_add, digitsValue_toDigits]

theorem yearDigits_length (n : Nat) : (yearDigits n).length = max 4 (Nat.toDigits 10 n).length := by
  unfold yearDigits
  rw [List.length_append, List.length_replicate]
  omega

theorem yearDigits_length_mono {m n : Nat} (le : m ≤ n) : (yearDigits m).length ≤ (yearDigits n).length := by
  have positive : 0 < (Nat.toDigits 10 n).length := List.length_pos_of_ne_nil (canonical_toDigits n).nonempty
  have bound := (Nat.length_toDigits_le_iff (n := n) (by decide : 1 < 10) positive).1 (Nat.le_refl _)
  have shorter := (Nat.length_toDigits_le_iff (by decide : 1 < 10) positive).2 (le.trans_lt bound)
  rw [yearDigits_length, yearDigits_length]
  omega

theorem yearDigits_length_small {n : Nat} (small : n ≤ 9999) : (yearDigits n).length = 4 := by
  have short := (Nat.length_toDigits_le_iff (k := 4) (n := n) (by decide : 1 < 10) (by decide)).2 (by omega)
  rw [yearDigits_length]
  omega

theorem yearDigits_head (n : Nat) : ∃ c rest, yearDigits n = c :: rest ∧ c.isDigit = true := by
  have digits := yearDigits_digits n
  have length := yearDigits_length n
  cases year : yearDigits n with
  | nil =>
    rw [year, List.length_nil] at length
    omega
  | cons c rest =>
    rw [year, List.all_cons, Bool.and_eq_true] at digits
    exact ⟨c, rest, rfl, digits.1⟩

theorem compare_sign {sign c : Char} (low : sign.toNat < 48) (digit : c.isDigit = true) : compare sign c = .lt := by
  have := isDigit_iff.1 digit
  rw [compare_char_lt, Char.lt_def, UInt32.lt_iff_toNat_lt]
  show sign.toNat < c.toNat
  omega

/-- A run of digits that ends first comes before those that it begins. -/
theorem compare_runs {p q : List Char} (left : p.all Char.isDigit = true) (right : q.all Char.isDigit = true)
    (shorter : p.length ≤ q.length) (other : digitsValue p ≠ digitsValue q) (s t : List Char) :
    compare (String.ofList (p ++ '-' :: s)) (String.ofList (q ++ '-' :: t)) =
      if digitsValue p ≤ digitsValue q / 10 ^ (q.length - p.length) then .lt else .gt := by
  obtain ⟨first, rest, split, length⟩ : ∃ first rest, q = first ++ rest ∧ p.length = first.length :=
    ⟨q.take p.length, q.drop p.length, (List.take_append_drop _ _).symm, by rw [List.length_take]; omega⟩
  subst split
  rw [List.all_append, Bool.and_eq_true] at right
  have low := digitsValue_lt right.2
  have quotient : digitsValue (first ++ rest) / 10 ^ ((first ++ rest).length - p.length) = digitsValue first := by
    rw [List.length_append, length, Nat.add_sub_cancel_left, digitsValue_append, Nat.mul_comm,
      Nat.mul_add_div (Nat.pow_pos (by decide)), Nat.div_eq_of_lt low, Nat.add_zero]
  rw [quotient, List.append_assoc, compare_text_append_append length, compare_digit_texts length left right.1]
  rcases Nat.lt_trichotomy (digitsValue p) (digitsValue first) with less | equal | greater
  · rw [Nat.compare_eq_lt.2 less, if_pos less.le]
    rfl
  · rw [Nat.compare_eq_eq.2 equal, if_pos equal.le, Ordering.eq_then]
    cases rest with
    | nil =>
      rw [List.append_nil] at other
      exact absurd equal other
    | cons d rest =>
      rw [List.all_cons, Bool.and_eq_true] at right
      rw [List.cons_append, compare_text_cons, compare_sign (by decide) right.2.1]
      rfl
  · rw [Nat.compare_eq_gt.2 greater, if_neg (Nat.not_le.2 greater)]
    rfl

/-- The text of an earlier date comes first exactly where the years' texts ascend. -/
theorem compare_years {y z : Int} (earlier : y < z) (s t : List Char) :
    compare (String.ofList (yearText y ++ '-' :: s)) (String.ofList (yearText z ++ '-' :: t)) =
      if YearTextsAscend y z then .lt else .gt := by
  have digitsY := yearDigits_digits y.natAbs
  have digitsZ := yearDigits_digits z.natAbs
  have valueY := yearDigits_value y.natAbs
  have valueZ := yearDigits_value z.natAbs
  obtain ⟨c, restY, headY, digitY⟩ := yearDigits_head y.natAbs
  obtain ⟨d, restZ, headZ, digitZ⟩ := yearDigits_head z.natAbs
  unfold yearText
  by_cases negativeZ : z < 0
  · -- both have the sign '-', and the longer run of digits is the earlier year
    have region : YearTextsAscend y z ↔ ¬z.natAbs ≤
        y.natAbs / 10 ^ ((yearDigits y.natAbs).length - (yearDigits z.natAbs).length) := by
      unfold YearTextsAscend
      omega
    rw [if_pos (by omega : y < 0), if_pos negativeZ, List.cons_append, List.cons_append, compare_text_cons,
      compare_char_eq.2 rfl, Ordering.eq_then, Std.OrientedOrd.eq_swap,
      compare_runs digitsZ digitsY (yearDigits_length_mono (by omega)) (by omega), valueY, valueZ]
    by_cases descend : z.natAbs ≤ y.natAbs / 10 ^ ((yearDigits y.natAbs).length - (yearDigits z.natAbs).length)
    · rw [if_pos descend, if_neg fun ascend => region.1 ascend descend]
      rfl
    · rw [if_neg descend, if_pos (region.2 descend)]
      rfl
  by_cases longZ : 9999 < z
  · rw [if_neg negativeZ, if_pos longZ]
    by_cases longY : 9999 < y
    · -- both have the sign '+'
      have region : YearTextsAscend y z ↔
          y.natAbs ≤ z.natAbs / 10 ^ ((yearDigits z.natAbs).length - (yearDigits y.natAbs).length) := by
        unfold YearTextsAscend
        omega
      rw [if_neg (by omega : ¬y < 0), if_pos longY, List.cons_append, List.cons_append, compare_text_cons,
        compare_char_eq.2 rfl, Ordering.eq_then, compare_runs digitsY digitsZ (yearDigits_length_mono (by omega)) (by omega),
        valueY, valueZ]
      by_cases ascend : y.natAbs ≤ z.natAbs / 10 ^ ((yearDigits z.natAbs).length - (yearDigits y.natAbs).length)
      · rw [if_pos ascend, if_pos (region.2 ascend)]
      · rw [if_neg ascend, if_neg (mt region.1 ascend)]
    · -- the sign '+' comes before any digit, and before '-'
      have region : ¬YearTextsAscend y z := by
        unfold YearTextsAscend
        omega
      rw [if_neg region]
      by_cases negativeY : y < 0
      · rw [if_pos negativeY, List.cons_append, List.cons_append, compare_text_cons]
        rfl
      · rw [if_neg negativeY, if_neg longY, headY, List.cons_append, List.cons_append, compare_text_cons,
          Std.OrientedOrd.eq_swap (a := c), compare_sign (by decide) digitY]
        rfl
  · have region : YearTextsAscend y z := .inl ⟨by omega, by omega⟩
    rw [if_neg negativeZ, if_neg longZ, if_pos region]
    by_cases negativeY : y < 0
    · rw [if_pos negativeY, headZ, List.cons_append, List.cons_append, compare_text_cons, compare_sign (by decide) digitZ]
      rfl
    · have lengthY := yearDigits_length_small (n := y.natAbs) (by omega)
      have lengthZ := yearDigits_length_small (n := z.natAbs) (by omega)
      rw [if_neg negativeY, if_neg (by omega), compare_runs digitsY digitsZ (by omega) (by omega), valueY, valueZ, lengthY,
        lengthZ, if_pos (by omega)]

/-- The texts of two years come in the order of the years. -/
def YearTextsFollow (left right : Int) : Prop :=
  (left < right → YearTextsAscend left right) ∧ (right < left → YearTextsAscend right left)

/-- The month and the day of a date have at most two digits. -/
def NaiveDate.Short (date : NaiveDate) : Prop := date.month < 100 ∧ date.day < 100

/-- The texts of two dates come in the order of the dates exactly where those of their years do. -/
theorem compare_dateText_iff {l r : NaiveDate} (left : l.Short) (right : r.Short) :
    compare (String.ofList (dateText l)) (String.ofList (dateText r)) = l.order r ↔ YearTextsFollow l.year r.year := by
  unfold dateText NaiveDate.order YearTextsFollow
  rcases lt_trichotomy l.year r.year with earlier | same | later
  · rw [compare_years earlier, Int.compare_eq_lt.2 earlier]
    by_cases ascend : YearTextsAscend l.year r.year
    · rw [if_pos ascend]
      exact ⟨fun _ => ⟨fun _ => ascend, fun later => absurd later earlier.asymm⟩, fun _ => rfl⟩
    · rw [if_neg ascend]
      exact ⟨fun differ => (by cases differ), fun both => absurd (both.1 earlier) ascend⟩
  · have shape : ∀ d : NaiveDate, (fixedDigits 10 2 d.month).length = 2 := fun _ => fixedDigits_length 10 2 _
    rw [same, compare_text_append, compare_text_cons, compare_char_eq.2 rfl, Ordering.eq_then,
      compare_text_append_append ((shape l).trans (shape r).symm), compare_text_cons, compare_char_eq.2 rfl, Ordering.eq_then,
      compare_fixedDigits (by decide) (by decide) left.1 right.1, compare_fixedDigits (by decide) (by decide) left.2 right.2,
      Int.compare_eq_eq.2 rfl, Ordering.eq_then]
    exact ⟨fun _ => ⟨fun less => absurd less (lt_irrefl _), fun less => absurd less (lt_irrefl _)⟩, fun _ => rfl⟩
  · rw [Std.OrientedOrd.eq_swap, compare_years later, Int.compare_eq_gt.2 later]
    by_cases ascend : YearTextsAscend r.year l.year
    · rw [if_pos ascend]
      exact ⟨fun _ => ⟨fun earlier => absurd earlier later.asymm, fun _ => ascend⟩, fun _ => rfl⟩
    · rw [if_neg ascend]
      exact ⟨fun differ => (by cases differ), fun both => absurd (both.2 later) ascend⟩
