import Mathlib.Algebra.Order.Field.Rat
import Mathlib.Tactic.FieldSimp
import Mathlib.Tactic.Linarith
import Mathlib.Tactic.Positivity
import Grm.Lib.Digits
import Grm.Runtime.Value

/-!
# Decimals

`canonical_decimal` accepts one text for each decimal number, and `compare_decimal`
orders these texts like the rational numbers they denote. A text is compared digit by
digit; over a common power of ten that is the comparison of two numerators.
-/

open Text

set_option autoImplicit false

/-- The parts of a decimal text. -/
structure DecimalText where
  negative : Bool
  int : List Char
  frac : List Char

namespace DecimalText

def chars (d : DecimalText) : List Char :=
  (if d.negative then ['-'] else []) ++ d.int ++ if d.frac = [] then [] else '.' :: d.frac

/-- The grammar: an integer part without leading zeros, a fraction that does not end in
zero, and no negative zero. -/
structure Valid (d : DecimalText) : Prop where
  int : Canonical d.int
  frac : d.frac.all Char.isDigit = true
  last : d.frac.getLast? ≠ some '0'
  zero : ¬(d.negative = true ∧ d.int = ['0'] ∧ d.frac = [])

/-- The rational number that the parts denote. -/
def value (d : DecimalText) : ℚ :=
  (if d.negative then -1 else 1) * (digitsValue d.int + digitsValue d.frac / 10 ^ d.frac.length)

end DecimalText

/-- The texts of the grammar. -/
def IsDecimal (raw : List Char) : Prop := ∃ d : DecimalText, d.Valid ∧ raw = d.chars

/-- The rational number that a decimal text denotes. -/
def decimalValue (raw : List Char) : ℚ :=
  let unsigned := if raw.head? = some '-' then raw.drop 1 else raw
  let frac := (unsigned.dropWhile (· != '.')).drop 1
  (if raw.head? = some '-' then -1 else 1) *
    (digitsValue (unsigned.takeWhile (· != '.')) + digitsValue frac / 10 ^ frac.length)

/-! ## The parts of a text -/

theorem digit_ne {c d : Char} (digit : c.isDigit = true) (other : d.isDigit = false) : c ≠ d := by
  rintro rfl
  rw [digit] at other
  cases other

theorem not_mem_digits {s : List Char} (digits : s.all Char.isDigit = true) {c : Char} (other : c.isDigit = false) : c ∉ s :=
  fun member => digit_ne (List.all_eq_true.1 digits c member) other rfl

theorem splitOn_alone {s : List Char} {c : Char} (absent : c ∉ s) : s.splitOn c = [s] := by
  rw [List.splitOn_eq_splitOnP]
  refine List.splitOnP_eq_singleton fun x member => ?_
  rw [beq_eq_false_iff_ne]
  rintro rfl
  exact absent member

theorem splitOn_pair {a b : List Char} {c : Char} (first : c ∉ a) (second : c ∉ b) : (a ++ c :: b).splitOn c = [a, b] := by
  rw [List.splitOn_eq_splitOnP, List.splitOnP_append_cons_of_forall_mem _ c (by simp), ← List.splitOn_eq_splitOnP,
    splitOn_alone second]
  intro x member
  rw [beq_eq_false_iff_ne]
  rintro rfl
  exact first member

theorem trimEndMatches_eq_self {c : Char} {s : List Char} (last : s.getLast? ≠ some c) : trimEndMatches c s = s := by
  unfold trimEndMatches
  cases reversed : s.reverse with
  | nil => rw [List.reverse_eq_nil_iff.1 reversed]; rfl
  | cons d rest =>
    have other : (d == c) = false := by
      rw [beq_eq_false_iff_ne]
      rintro rfl
      apply last
      rw [List.getLast?_eq_head?_reverse, reversed]
      rfl
    rw [List.dropWhile_cons, other, if_neg Bool.false_ne_true, ← reversed, List.reverse_reverse]

theorem prefix_trimEndMatches (c : Char) (s : List Char) : trimEndMatches c s <+: s := by
  unfold trimEndMatches
  rw [← List.reverse_suffix, List.reverse_reverse]
  exact List.dropWhile_suffix _

theorem trimEndMatches_last (c : Char) (s : List Char) : (trimEndMatches c s).getLast? ≠ some c := by
  unfold trimEndMatches
  rw [List.getLast?_reverse]
  intro found
  have kept := List.head?_dropWhile_not (· == c) s.reverse
  rw [found] at kept
  simp at kept

namespace DecimalText

variable {d : DecimalText}

/-- What follows the sign. -/
def unsigned (d : DecimalText) : List Char := d.int ++ if d.frac = [] then [] else '.' :: d.frac

theorem chars_eq (d : DecimalText) : d.chars = (if d.negative then ['-'] else []) ++ d.unsigned := List.append_assoc _ _ _

theorem Valid.digit (valid : d.Valid) : ∃ c rest, d.unsigned = c :: rest ∧ c.isDigit = true := by
  obtain ⟨c, rest, split⟩ := List.exists_cons_of_ne_nil valid.int.nonempty
  have digits := valid.int.digits
  rw [split, List.all_cons, Bool.and_eq_true] at digits
  exact ⟨c, _, by rw [unsigned, split]; rfl, digits.1⟩

/-- The sign of a valid text is its first character. -/
theorem Valid.sign (valid : d.Valid) : (d.chars.head? = some '-') = (d.negative = true) ∧ d.chars.head? ≠ some '+' ∧
    (if d.negative = true then d.chars.drop 1 else d.chars) = d.unsigned := by
  obtain ⟨c, rest, split, digit⟩ := valid.digit
  rw [chars_eq, split]
  cases d.negative with
  | true => simp
  | false =>
    have minus : c ≠ '-' := digit_ne digit rfl
    have plus : c ≠ '+' := digit_ne digit rfl
    simp [minus, plus]

theorem Valid.parts (valid : d.Valid) :
    d.unsigned.splitOn '.' = if d.frac = [] then [d.int] else [d.int, d.frac] := by
  have first := not_mem_digits valid.int.digits (c := '.') rfl
  have second := not_mem_digits valid.frac (c := '.') rfl
  unfold unsigned
  split
  · rw [List.append_nil]
    exact splitOn_alone first
  · exact splitOn_pair first second

end DecimalText

/-! ## Acceptance -/

/-- A text of the grammar passes every check. -/
theorem canonicalDecimal_chars {d : DecimalText} (valid : d.Valid) {input : String} (raw : trim input.toList = d.chars) :
    canonicalDecimal input = .ok (String.ofList d.chars) := by
  obtain ⟨sign, plus, rest⟩ := valid.sign
  have int := valid.int
  have nothing : ¬(d.unsigned = [] ∨ 'e' ∈ d.unsigned ∨ 'E' ∈ d.unsigned) := by
    have digits : ∀ c : Char, c.isDigit = false → c ≠ '.' → c ∉ d.unsigned := by
      intro c other point member
      unfold DecimalText.unsigned at member
      rcases List.mem_append.1 member with first | second
      · exact not_mem_digits int.digits other first
      · split at second
        · cases second
        · rcases List.mem_cons.1 second with same | later
          · exact point same
          · exact not_mem_digits valid.frac other later
    obtain ⟨c, more, split, -⟩ := valid.digit
    rintro (empty | small | large)
    · rw [empty] at split
      cases split
    · exact digits 'e' rfl (by decide) small
    · exact digits 'E' rfl (by decide) large
  have leading : ¬(1 < d.int.length ∧ d.int.head? = some '0') := fun zero => int.leading zero.1 zero.2
  have zero : ¬(d.negative = true ∧ (d.int.all (· == '0') && d.frac.isEmpty) = true) := by
    rintro ⟨negative, zeros⟩
    rw [Bool.and_eq_true, List.isEmpty_iff] at zeros
    refine valid.zero ⟨negative, ?_, zeros.2⟩
    cases split : d.int with
    | nil => exact absurd split int.nonempty
    | cons c more =>
      have head := List.all_eq_true.1 zeros.1 c (by rw [split]; exact List.mem_cons_self)
      rw [beq_iff_eq] at head
      subst head
      cases more with
      | nil => rfl
      | cons e more =>
        rw [split] at leading
        exact absurd ⟨by simp, rfl⟩ leading
  have parts : ¬(2 < (if d.frac = [] then [d.int] else [d.int, d.frac]).length ∨
      (if d.frac = [] then [d.int] else [d.int, d.frac]).headD [] = [] ∨
      ¬((if d.frac = [] then [d.int] else [d.int, d.frac]).headD []).all Char.isDigit = true ∨
      ((if d.frac = [] then [d.int] else [d.int, d.frac])[1]?.any
        fun part => decide (part = []) || !part.all Char.isDigit) = true) := by
    split
    · simp [int.nonempty, int.digits]
    · next someFrac => simp [int.nonempty, int.digits, someFrac, valid.frac]
  have head : (if d.frac = [] then [d.int] else [d.int, d.frac]).headD [] = d.int := by split <;> rfl
  have second : (if d.frac = [] then [d.int] else [d.int, d.frac])[1]?.getD [] = d.frac := by
    split
    case isTrue none => rw [none]; rfl
    case isFalse => rfl
  have out : (if d.negative = true then ['-'] else []) ++ d.int ++ (if d.frac.isEmpty = true then [] else '.' :: d.frac) =
      d.chars := by
    unfold DecimalText.chars
    simp only [List.isEmpty_iff]
  unfold canonicalDecimal
  dsimp only
  rw [raw, if_neg plus]
  simp only [sign]
  rw [rest, if_neg nothing, valid.parts, if_neg parts, head, if_neg leading, second, trimEndMatches_eq_self valid.last,
    if_neg zero, out, if_neg (fun other => other rfl)]

/-- A text that passes every check is one of the grammar. -/
theorem canonicalDecimal_ok {input out : String} (accepted : canonicalDecimal input = .ok out) :
    IsDecimal (trim input.toList) ∧ out = String.ofList (trim input.toList) := by
  unfold canonicalDecimal at accepted
  dsimp only at accepted
  generalize trim input.toList = raw at accepted ⊢
  -- the two branches on the sign are named, so that the checks come apart in order
  generalize (if raw.head? = some '-' then raw.drop 1 else raw) = rest at accepted
  generalize rest.splitOn '.' = pieces at accepted
  generalize sign : (if raw.head? = some '-' then ['-'] else []) = mark at accepted
  split at accepted
  · cases accepted
  split at accepted
  · cases accepted
  split at accepted
  · cases accepted
  next checked =>
  split at accepted
  · cases accepted
  next leading =>
  split at accepted
  · cases accepted
  next zero =>
  generalize tail : (if (trimEndMatches '0' (pieces[1]?.getD [])).isEmpty = true then []
    else '.' :: trimEndMatches '0' (pieces[1]?.getD [])) = fraction at accepted
  split at accepted
  · cases accepted
  next same =>
  cases accepted
  rw [ne_eq, Decidable.not_not] at same
  simp only [not_or, Bool.not_eq_true, Bool.not_eq_false] at checked
  obtain ⟨-, nonempty, digits, allowed⟩ := checked
  have whole : (pieces[1]?.getD []).all Char.isDigit = true := by
    cases found : pieces[1]? with
    | none => rfl
    | some part =>
      rw [found] at allowed
      simp only [Option.any_some, Bool.or_eq_false_iff, Bool.not_eq_false'] at allowed
      exact allowed.2
  refine ⟨⟨⟨decide (raw.head? = some '-'), pieces.headD [], trimEndMatches '0' (pieces[1]?.getD [])⟩,
    ⟨⟨digits, nonempty, fun long zero => leading ⟨long, zero⟩⟩, ?_, trimEndMatches_last _ _, ?_⟩, ?_⟩, ?_⟩
  · refine List.all_eq_true.2 fun c member => ?_
    exact List.all_eq_true.1 whole c ((prefix_trimEndMatches _ _).subset member)
  · rintro ⟨negative, int, frac⟩
    refine zero ⟨of_decide_eq_true negative, ?_⟩
    simp only at int frac
    rw [int, frac]
    rfl
  · unfold DecimalText.chars
    simp only [List.isEmpty_iff] at tail
    simp only [decide_eq_true_eq]
    rw [sign, tail]
    exact same.symm
  · rw [same]

theorem canonicalDecimal_iff {input out : String} :
    canonicalDecimal input = .ok out ↔ IsDecimal (trim input.toList) ∧ out = String.ofList (trim input.toList) := by
  constructor
  · exact canonicalDecimal_ok
  · rintro ⟨⟨d, valid, raw⟩, rfl⟩
    rw [raw]
    exact canonicalDecimal_chars valid raw

/-! ## Order -/

/-- The numerator over `10 ^ n` of a fraction. -/
def padded (s : List Char) (n : Nat) : Nat := digitsValue s * 10 ^ (n - s.length)

theorem padded_nil (n : Nat) : padded [] n = 0 := Nat.zero_mul _

/-- A numerator with the leading digit apart. -/
theorem padded_cons (c : Char) {s : List Char} {n : Nat} (short : s.length ≤ n) :
    padded (c :: s) (n + 1) = digitValue c * 10 ^ n + padded s n := by
  unfold padded
  rw [digitsValue_cons, List.length_cons, Nat.add_sub_add_right, Nat.add_mul, Nat.mul_assoc, ← Nat.pow_add,
    Nat.add_sub_cancel' short]

theorem padded_lt {s : List Char} (digits : s.all Char.isDigit = true) {n : Nat} (short : s.length ≤ n) :
    padded s n < 10 ^ n := by
  calc digitsValue s * 10 ^ (n - s.length) < 10 ^ s.length * 10 ^ (n - s.length) :=
        Nat.mul_lt_mul_of_pos_right (digitsValue_lt digits) (Nat.pow_pos (by decide))
    _ = 10 ^ n := by rw [← Nat.pow_add, Nat.add_sub_cancel' short]

/-- A missing digit is a zero, and so is its value. -/
theorem zero_digits (n : Nat) : 0 = digitValue '0' * 10 ^ n + 0 := (Nat.zero_mul _).symm

/-- Digit by digit, fractions are ordered like their numerators over a common power of ten. -/
theorem compareFraction_eq {l r : List Char} (left : l.all Char.isDigit = true) (right : r.all Char.isDigit = true) {n : Nat}
    (leftShort : l.length ≤ n) (rightShort : r.length ≤ n) : compareFraction l r = compare (padded l n) (padded r n) := by
  have positive : ∀ n, 0 < 10 ^ n := fun n => Nat.pow_pos (by decide)
  induction l generalizing r n with
  | nil =>
    induction r generalizing n with
    | nil =>
      rw [padded_nil, compareFraction]
      decide
    | cons d r ih =>
      obtain ⟨n, rfl⟩ : ∃ m, n = m + 1 := ⟨n - 1, by rw [List.length_cons] at rightShort; omega⟩
      rw [List.all_cons, Bool.and_eq_true] at right
      have short : r.length ≤ n := Nat.le_of_succ_le_succ rightShort
      rw [compareFraction, ih right.2 (Nat.zero_le n) short, compare_digits rfl right.1, padded_cons d short, padded_nil,
        padded_nil, ← compare_mul_add (positive n) (padded_lt right.2 short), ← zero_digits]
  | cons c l ih =>
    obtain ⟨n, rfl⟩ : ∃ m, n = m + 1 := ⟨n - 1, by rw [List.length_cons] at leftShort; omega⟩
    rw [List.all_cons, Bool.and_eq_true] at left
    have short : l.length ≤ n := Nat.le_of_succ_le_succ leftShort
    cases r with
    | nil =>
      rw [compareFraction, ih left.2 right short (Nat.zero_le n), compare_digits left.1 rfl, padded_cons c short, padded_nil,
        padded_nil, ← compare_mul_add (padded_lt left.2 short) (positive n), ← zero_digits]
    | cons d r =>
      rw [List.all_cons, Bool.and_eq_true] at right
      have other : r.length ≤ n := Nat.le_of_succ_le_succ rightShort
      rw [compareFraction, ih left.2 right.2 short other, compare_digits left.1 right.1, padded_cons c short,
        padded_cons d other, compare_mul_add (padded_lt left.2 short) (padded_lt right.2 other)]

namespace DecimalText

/-- The numerator over `10 ^ n` of the unsigned number. -/
def scaled (d : DecimalText) (n : Nat) : Nat := digitsValue d.int * 10 ^ n + padded d.frac n

variable {d e : DecimalText}

theorem value_scaled (d : DecimalText) {n : Nat} (short : d.frac.length ≤ n) :
    d.value = (if d.negative then -1 else 1) * ((d.scaled n : ℚ) / 10 ^ n) := by
  have split : (10 : ℚ) ^ n = 10 ^ (n - d.frac.length) * 10 ^ d.frac.length := by
    rw [← pow_add, Nat.sub_add_cancel short]
  unfold value scaled padded
  push_cast
  rw [split]
  congr 1
  field_simp

theorem Valid.positive (valid : d.Valid) (negative : d.negative = true) (n : Nat) :
    0 < d.scaled n := by
  refine Nat.pos_of_ne_zero fun zero => valid.zero ⟨negative, ?_, ?_⟩
  · have int : digitsValue d.int = 0 := by
      have first := (Nat.add_eq_zero_iff.1 zero).1
      exact (Nat.mul_eq_zero.1 first).resolve_right (Nat.pow_pos (by decide)).ne'
    exact canonical_injective valid.int (canonical_toDigits 0) int
  · have frac : digitsValue d.frac = 0 := by
      have second := (Nat.add_eq_zero_iff.1 zero).2
      exact (Nat.mul_eq_zero.1 second).resolve_right (Nat.pow_pos (by decide)).ne'
    -- the last digit of a fraction is not a zero
    cases split : d.frac.reverse with
    | nil => exact List.reverse_eq_nil_iff.1 split
    | cons c rest =>
      have whole : d.frac = rest.reverse ++ [c] := by rw [← List.reverse_reverse d.frac, split, List.reverse_cons]
      have digits := valid.frac
      have last := valid.last
      rw [whole] at digits last frac
      rw [digitsValue_append, Nat.add_eq_zero_iff, digitsValue_cons] at frac
      rw [List.all_append, Bool.and_eq_true, List.all_cons, Bool.and_eq_true] at digits
      have bounds := isDigit_iff.1 digits.2.1
      refine absurd ?_ last
      rw [List.getLast?_concat]
      refine congrArg some (Char.toNat_inj.1 ?_)
      have value : digitValue c = 0 := by
        have sum := frac.2
        simp only [List.length_nil, Nat.pow_zero, Nat.mul_one, Nat.add_eq_zero_iff] at sum
        exact sum.1
      unfold digitValue at value
      show c.toNat = 48
      omega

/-- The two parts of a comparison are one of numerators. -/
theorem Valid.compare_scaled (left : d.Valid) (right : e.Valid) {n : Nat} (leftShort : d.frac.length ≤ n)
    (rightShort : e.frac.length ≤ n) :
    ((compare d.int.length e.int.length).then (compare (String.ofList d.int) (String.ofList e.int))).then
      (compareFraction d.frac e.frac) = compare (d.scaled n) (e.scaled n) := by
  rw [compare_canonical left.int right.int, compareFraction_eq left.frac right.frac leftShort rightShort]
  exact (compare_mul_add (padded_lt left.frac leftShort) (padded_lt right.frac rightShort)).symm

end DecimalText

variable {d e : DecimalText}

/-- `decimal_parts` of a valid text. -/
theorem decimalParts_chars (valid : d.Valid) : decimalParts (String.ofList d.chars) = (d.negative, d.int, d.frac) := by
  obtain ⟨sign, -, rest⟩ := valid.sign
  unfold decimalParts
  dsimp only
  rw [String.toList_ofList]
  simp only [sign, Bool.decide_eq_true]
  rw [rest, valid.parts]
  split
  case isTrue none => rw [none]; rfl
  case isFalse => rfl

/-- The number that a valid text denotes. -/
theorem decimalValue_chars (valid : d.Valid) : decimalValue d.chars = d.value := by
  obtain ⟨sign, -, rest⟩ := valid.sign
  have point : ∀ c ∈ d.int, (c != '.') = true := by
    intro c member
    rw [bne_iff_ne]
    exact digit_ne (List.all_eq_true.1 valid.int.digits c member) rfl
  have before : d.unsigned.takeWhile (· != '.') = d.int := by
    unfold DecimalText.unsigned
    rw [List.takeWhile_append_of_pos point]
    split <;> simp
  have after : (d.unsigned.dropWhile (· != '.')).drop 1 = d.frac := by
    unfold DecimalText.unsigned
    rw [List.dropWhile_append_of_pos point]
    split
    case isTrue none => rw [none]; rfl
    case isFalse => simp
  unfold decimalValue
  dsimp only
  simp only [sign]
  rw [rest, before, after]
  rfl

theorem cmp_numerators {power : ℚ} (positive : 0 < power) (a b : Nat) : cmp ((a : ℚ) / power) (b / power) = compare a b := by
  apply ordering_ext
  · rw [cmp_eq_lt_iff, div_lt_div_iff_of_pos_right positive, Nat.cast_lt, Nat.compare_eq_lt]
  · rw [cmp_eq_gt_iff, div_lt_div_iff_of_pos_right positive, Nat.cast_lt, Nat.compare_eq_gt]

theorem cmp_negated (x y : ℚ) : cmp (-1 * x) (-1 * y) = (cmp x y).swap := by
  rw [cmp_swap, neg_one_mul, neg_one_mul]
  apply ordering_ext
  · rw [cmp_eq_lt_iff, cmp_eq_lt_iff, neg_lt_neg_iff]
  · rw [cmp_eq_gt_iff, cmp_eq_gt_iff, neg_lt_neg_iff]

/-- Two valid texts are ordered like the numbers they denote. -/
theorem compareDecimal_chars (left : d.Valid) (right : e.Valid) :
    compareDecimal (String.ofList d.chars) (String.ofList e.chars) = cmp d.value e.value := by
  obtain ⟨n, leftShort, rightShort⟩ : ∃ n, d.frac.length ≤ n ∧ e.frac.length ≤ n :=
    ⟨max d.frac.length e.frac.length, Nat.le_max_left _ _, Nat.le_max_right _ _⟩
  have power : (0 : ℚ) < 10 ^ n := by positivity
  unfold compareDecimal
  rw [decimalParts_chars left, decimalParts_chars right]
  dsimp only
  rw [left.compare_scaled right leftShort rightShort, d.value_scaled leftShort, e.value_scaled rightShort]
  have sign : ∀ m : Nat, 0 < m → (0 : ℚ) < (m : ℚ) / 10 ^ n := fun m some => div_pos (Nat.cast_pos.2 some) power
  have unsigned : ∀ m : Nat, (0 : ℚ) ≤ (m : ℚ) / 10 ^ n := fun m => div_nonneg (Nat.cast_nonneg m) power.le
  cases leftSign : d.negative with
  | true =>
    have leftPositive := sign _ (left.positive leftSign n)
    cases rightSign : e.negative with
    | true =>
      rw [if_neg (fun differ => differ rfl), if_pos rfl, if_pos rfl, cmp_negated, cmp_numerators power]
    | false =>
      have rightUnsigned := unsigned (e.scaled n)
      rw [if_pos Bool.false_ne_true.symm, if_pos rfl, if_pos rfl, if_neg Bool.false_ne_true]
      refine (cmp_eq_lt_iff _ _ |>.2 ?_).symm
      linarith
  | false =>
    have leftUnsigned := unsigned (d.scaled n)
    cases rightSign : e.negative with
    | true =>
      have rightPositive := sign _ (right.positive rightSign n)
      rw [if_pos Bool.false_ne_true, if_neg Bool.false_ne_true, if_neg Bool.false_ne_true, if_pos rfl]
      refine (cmp_eq_gt_iff _ _ |>.2 ?_).symm
      linarith
    | false =>
      rw [if_neg (fun differ => differ rfl), if_neg Bool.false_ne_true, if_neg Bool.false_ne_true,
        one_mul, one_mul, cmp_numerators power]

theorem last_of_tail {c d : Char} {s : List Char} (last : (c :: s).getLast? ≠ some d) : s.getLast? ≠ some d := by
  cases s with
  | nil => exact fun none => by cases none
  | cons e s => rwa [List.getLast?_cons_cons] at last

/-- Fractions that do not end in zero compare equal only where they are equal. -/
theorem compareFraction_eq_eq {l r : List Char} (equal : compareFraction l r = .eq) (left : l.getLast? ≠ some '0')
    (right : r.getLast? ≠ some '0') : l = r := by
  induction l generalizing r with
  | nil =>
    induction r with
    | nil => rfl
    | cons d r ih =>
      rw [compareFraction, Ordering.then_eq_eq, compare_char_eq] at equal
      have rest := ih equal.2 (last_of_tail right)
      rw [← rest, ← equal.1] at right
      exact absurd rfl right
  | cons c l ih =>
    cases r with
    | nil =>
      rw [compareFraction, Ordering.then_eq_eq, compare_char_eq] at equal
      have rest := ih equal.2 (last_of_tail left) right
      rw [rest, equal.1] at left
      exact absurd rfl left
    | cons d r =>
      rw [compareFraction, Ordering.then_eq_eq, compare_char_eq] at equal
      rw [equal.1, ih equal.2 (last_of_tail left) (last_of_tail right)]

/-- A number has one valid text. -/
theorem value_injective (left : d.Valid) (right : e.Valid) (same : d.value = e.value) : d.chars = e.chars := by
  have equal := compareDecimal_chars left right
  rw [same, cmp_self_eq_eq] at equal
  unfold compareDecimal at equal
  rw [decimalParts_chars left, decimalParts_chars right] at equal
  dsimp only at equal
  split at equal
  · split at equal <;> cases equal
  next signs =>
    have parts : ((compare d.int.length e.int.length).then (compare (String.ofList d.int) (String.ofList e.int))).then
        (compareFraction d.frac e.frac) = .eq := by
      split at equal
      · rwa [Ordering.swap_eq_eq] at equal
      · exact equal
    rw [Ordering.then_eq_eq, compare_canonical left.int right.int, Nat.compare_eq_eq] at parts
    have int := canonical_injective left.int right.int parts.1
    have frac := compareFraction_eq_eq parts.2 left.last right.last
    rw [ne_eq, Decidable.not_not] at signs
    unfold DecimalText.chars
    rw [signs, int, frac]

/-- A decimal is accepted exactly where its trimmed text is one of the grammar, and as that
text; each number has one such text, and these are ordered like the numbers. -/
theorem decimals_canonical_and_ordered :
    (∀ input out, canonicalDecimal input = .ok out ↔ IsDecimal (trim input.toList) ∧ out = String.ofList (trim input.toList)) ∧
      (∀ first second a b, canonicalDecimal first = .ok a → canonicalDecimal second = .ok b →
        decimalValue a.toList = decimalValue b.toList → a = b) ∧
      ∀ first second a b, canonicalDecimal first = .ok a → canonicalDecimal second = .ok b →
        compareDecimal a b = cmp (decimalValue a.toList) (decimalValue b.toList) := by
  have accepted : ∀ input out, canonicalDecimal input = .ok out → ∃ d : DecimalText, d.Valid ∧ out = String.ofList d.chars := by
    intro input out ok
    obtain ⟨⟨d, valid, raw⟩, same⟩ := canonicalDecimal_ok ok
    exact ⟨d, valid, by rw [same, raw]⟩
  refine ⟨fun _ _ => canonicalDecimal_iff, ?_, ?_⟩
  · intro first second a b left right same
    obtain ⟨d, valid, rfl⟩ := accepted first a left
    obtain ⟨e, other, rfl⟩ := accepted second b right
    rw [String.toList_ofList, String.toList_ofList, decimalValue_chars valid, decimalValue_chars other] at same
    rw [value_injective valid other same]
  · intro first second a b left right
    obtain ⟨d, valid, rfl⟩ := accepted first a left
    obtain ⟨e, other, rfl⟩ := accepted second b right
    rw [String.toList_ofList, String.toList_ofList, decimalValue_chars valid, decimalValue_chars other]
    exact compareDecimal_chars valid other
