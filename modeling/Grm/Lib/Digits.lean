import Mathlib.Algebra.Order.Ring.Nat
import Mathlib.Order.Compare
import Grm.Lib.Text

/-!
# Digit runs and the order of texts

The order of texts decides at the first character in which they differ. Runs of digits
of one length are ordered like the numbers they denote, and so are runs without leading
zeros when the longer one is the larger.
-/

namespace Text
set_option autoImplicit false

/-! ## The order of texts -/

theorem ordering_ext {o p : Ordering} (less : o = .lt ↔ p = .lt) (greater : o = .gt ↔ p = .gt) : o = p := by
  cases o <;> cases p <;> simp_all

theorem compare_text_lt {a b : List Char} : compare (String.ofList a) (String.ofList b) = .lt ↔ a < b := by
  refine compareOfLessAndEq_eq_lt.trans ?_
  show (String.ofList a).toList < (String.ofList b).toList ↔ a < b
  rw [String.toList_ofList, String.toList_ofList]

theorem compare_text_gt {a b : List Char} : compare (String.ofList a) (String.ofList b) = .gt ↔ b < a := by
  rw [Std.OrientedOrd.eq_swap (a := String.ofList a), Ordering.swap_eq_gt]
  exact compare_text_lt

theorem compare_text_nil : compare (String.ofList []) (String.ofList []) = .eq := by decide

theorem compare_text_short (c : Char) (a : List Char) : compare (String.ofList []) (String.ofList (c :: a)) = .lt :=
  compare_text_lt.2 (List.nil_lt_cons c a)

theorem compare_text_long (c : Char) (a : List Char) : compare (String.ofList (c :: a)) (String.ofList []) = .gt :=
  compare_text_gt.2 (List.nil_lt_cons c a)

theorem compare_char_lt {c d : Char} : compare c d = .lt ↔ c < d := compareOfLessAndEq_eq_lt

theorem compare_char_gt {c d : Char} : compare c d = .gt ↔ d < c := by
  rw [Std.OrientedOrd.eq_swap (a := c), Ordering.swap_eq_gt]
  exact compare_char_lt

theorem compare_char_eq {c d : Char} : compare c d = .eq ↔ c = d := Std.LawfulEqOrd.compare_eq_iff_eq

/-- The first character decides, unless both begin with the same one. -/
theorem compare_text_cons (c d : Char) (a b : List Char) :
    compare (String.ofList (c :: a)) (String.ofList (d :: b)) = (compare c d).then (compare (String.ofList a) (String.ofList b)) := by
  apply ordering_ext
  · rw [compare_text_lt, List.cons_lt_cons_iff, Ordering.then_eq_lt, compare_char_lt, compare_char_eq, compare_text_lt]
  · rw [compare_text_gt, List.cons_lt_cons_iff, Ordering.then_eq_gt, compare_char_gt, compare_char_eq, compare_text_gt,
      eq_comm (a := d)]

theorem compare_text_self (a : List Char) : compare (String.ofList a) (String.ofList a) = .eq :=
  Std.LawfulEqOrd.compare_eq_iff_eq.2 rfl

/-- Texts that begin alike are ordered like the rest. -/
theorem compare_text_append (a b c : List Char) :
    compare (String.ofList (a ++ b)) (String.ofList (a ++ c)) = compare (String.ofList b) (String.ofList c) := by
  induction a with
  | nil => rfl
  | cons d a ih => rw [List.cons_append, List.cons_append, compare_text_cons, compare_char_eq.2 rfl, ih]; rfl

/-- Texts whose first parts are equally long are ordered like these, then like the rest. -/
theorem compare_text_append_append {a c : List Char} (same : a.length = c.length) (b d : List Char) :
    compare (String.ofList (a ++ b)) (String.ofList (c ++ d)) =
      (compare (String.ofList a) (String.ofList c)).then (compare (String.ofList b) (String.ofList d)) := by
  induction a generalizing c with
  | nil =>
    rw [List.length_nil, eq_comm, List.length_eq_zero_iff] at same
    rw [same, compare_text_nil]
    rfl
  | cons e a ih =>
    cases c with
    | nil => cases same
    | cons f c =>
      rw [List.cons_append, List.cons_append, compare_text_cons, compare_text_cons, ih (Nat.succ.inj same), Ordering.then_assoc]

/-! ## Digit runs -/

theorem isDigit_iff {c : Char} : c.isDigit = true ↔ 48 ≤ c.toNat ∧ c.toNat ≤ 57 := by
  simp [Char.isDigit, UInt32.le_iff_toNat_le]

/-- The value of a digit. -/
def digitValue (c : Char) : Nat := c.toNat - 48

theorem digitValue_lt {c : Char} (digit : c.isDigit = true) : digitValue c < 10 := by
  have := isDigit_iff.1 digit
  unfold digitValue
  omega

theorem compare_digits {c d : Char} (first : c.isDigit = true) (second : d.isDigit = true) :
    compare c d = compare (digitValue c) (digitValue d) := by
  have := isDigit_iff.1 first
  have := isDigit_iff.1 second
  apply ordering_ext
  · rw [compare_char_lt, Nat.compare_eq_lt, Char.lt_def, UInt32.lt_iff_toNat_lt]
    unfold digitValue
    show c.toNat < d.toNat ↔ _
    omega
  · rw [compare_char_gt, Nat.compare_eq_gt, Char.lt_def, UInt32.lt_iff_toNat_lt]
    unfold digitValue
    show d.toNat < c.toNat ↔ _
    omega

theorem digitsValue_eq_ofDigitChars (s : List Char) : digitsValue s = Nat.ofDigitChars 10 s 0 :=
  (@Nat.ofDigitChars_eq_foldl 10 s 0).symm

theorem digitsValue_cons (c : Char) (s : List Char) : digitsValue (c :: s) = digitValue c * 10 ^ s.length + digitsValue s := by
  rw [digitsValue_eq_ofDigitChars, digitsValue_eq_ofDigitChars, Nat.ofDigitChars_cons, Nat.ofDigitChars_eq_ofDigitChars_zero,
    Nat.mul_comm]
  simp [digitValue]

theorem digitsValue_append (a b : List Char) : digitsValue (a ++ b) = digitsValue a * 10 ^ b.length + digitsValue b := by
  rw [digitsValue_eq_ofDigitChars, digitsValue_eq_ofDigitChars, digitsValue_eq_ofDigitChars, Nat.ofDigitChars_append,
    Nat.ofDigitChars_eq_ofDigitChars_zero, Nat.mul_comm]

theorem digitsValue_replicate_zero (n : Nat) : digitsValue (List.replicate n '0') = 0 := by
  rw [digitsValue_eq_ofDigitChars, Nat.ofDigitChars_replicate_zero, Nat.mul_zero]

theorem digitsValue_lt {s : List Char} (digits : s.all Char.isDigit = true) : digitsValue s < 10 ^ s.length := by
  induction s with
  | nil => decide
  | cons c s ih =>
    rw [List.all_cons, Bool.and_eq_true] at digits
    have head := digitValue_lt digits.1
    have tail := ih digits.2
    rw [digitsValue_cons, List.length_cons, Nat.pow_succ]
    calc digitValue c * 10 ^ s.length + digitsValue s < digitValue c * 10 ^ s.length + 10 ^ s.length := by omega
      _ = (digitValue c + 1) * 10 ^ s.length := (Nat.succ_mul _ _).symm
      _ ≤ 10 * 10 ^ s.length := Nat.mul_le_mul_right _ head
      _ = 10 ^ s.length * 10 := Nat.mul_comm _ _

/-- Quotients decide, then remainders. -/
theorem compare_mul_add {base x y a b : Nat} (first : a < base) (second : b < base) :
    compare (x * base + a) (y * base + b) = (compare x y).then (compare a b) := by
  rcases Nat.lt_trichotomy x y with less | rfl | greater
  · rw [Nat.compare_eq_lt.2 less]
    refine Nat.compare_eq_lt.2 ?_
    have step := Nat.mul_le_mul_right base less
    rw [Nat.succ_mul] at step
    omega
  · rw [Nat.compare_eq_eq.2 rfl]
    apply ordering_ext
    · rw [Nat.compare_eq_lt, Ordering.eq_then, Nat.compare_eq_lt]
      omega
    · rw [Nat.compare_eq_gt, Ordering.eq_then, Nat.compare_eq_gt]
      omega
  · rw [Nat.compare_eq_gt.2 greater]
    refine Nat.compare_eq_gt.2 ?_
    have step := Nat.mul_le_mul_right base greater
    rw [Nat.succ_mul] at step
    omega

/-- Digit runs of one length are ordered like their values. -/
theorem compare_digit_texts {a b : List Char} (same : a.length = b.length) (first : a.all Char.isDigit = true)
    (second : b.all Char.isDigit = true) :
    compare (String.ofList a) (String.ofList b) = compare (digitsValue a) (digitsValue b) := by
  induction a generalizing b with
  | nil =>
    rw [List.length_nil, eq_comm, List.length_eq_zero_iff] at same
    rw [same]
    decide
  | cons c a ih =>
    cases b with
    | nil => cases same
    | cons d b =>
      rw [List.all_cons, Bool.and_eq_true] at first second
      have rest := Nat.succ.inj same
      rw [compare_text_cons, ih rest first.2 second.2, compare_digits first.1 second.1, digitsValue_cons, digitsValue_cons,
        ← rest, compare_mul_add (digitsValue_lt first.2)]
      rw [rest]
      exact digitsValue_lt second.2

/-- A digit run as numbers are written: no leading zero before another digit. -/
structure Canonical (s : List Char) : Prop where
  digits : s.all Char.isDigit = true
  nonempty : s ≠ []
  leading : 1 < s.length → s.head? ≠ some '0'

theorem digitsValue_ge {s : List Char} (canonical : Canonical s) (long : 1 < s.length) : 10 ^ (s.length - 1) ≤ digitsValue s := by
  cases s with
  | nil => cases long
  | cons c s =>
    have digit := canonical.digits
    rw [List.all_cons, Bool.and_eq_true] at digit
    have nonzero : digitValue c ≠ 0 := by
      intro zero
      have bounds := isDigit_iff.1 digit.1
      refine canonical.leading long (congrArg some (Char.toNat_inj.1 ?_))
      unfold digitValue at zero
      show c.toNat = 48
      omega
    rw [digitsValue_cons, List.length_cons, Nat.add_sub_cancel]
    have : 1 * 10 ^ s.length ≤ digitValue c * 10 ^ s.length := Nat.mul_le_mul_right _ (Nat.pos_of_ne_zero nonzero)
    omega

/-- Of two numbers as they are written, the longer is the larger. -/
theorem digitsValue_lt_of_length_lt {a b : List Char} (first : Canonical a) (second : Canonical b)
    (shorter : a.length < b.length) : digitsValue a < digitsValue b := by
  have positive := List.length_pos_of_ne_nil first.nonempty
  have upper := digitsValue_lt first.digits
  have lower := digitsValue_ge second (by omega)
  exact upper.trans_le ((Nat.pow_le_pow_right (by decide) (by omega)).trans lower)

/-- Numbers as they are written are ordered by length, then as texts. -/
theorem compare_canonical {a b : List Char} (first : Canonical a) (second : Canonical b) :
    (compare a.length b.length).then (compare (String.ofList a) (String.ofList b)) =
      compare (digitsValue a) (digitsValue b) := by
  rcases Nat.lt_trichotomy a.length b.length with less | same | greater
  · rw [Nat.compare_eq_lt.2 less, Nat.compare_eq_lt.2 (digitsValue_lt_of_length_lt first second less)]
    rfl
  · rw [Nat.compare_eq_eq.2 same]
    exact compare_digit_texts same first.digits second.digits
  · rw [Nat.compare_eq_gt.2 greater, Nat.compare_eq_gt.2 (digitsValue_lt_of_length_lt second first greater)]
    rfl

/-- A number is written in one way. -/
theorem canonical_injective {a b : List Char} (first : Canonical a) (second : Canonical b)
    (same : digitsValue a = digitsValue b) : a = b := by
  have equal := compare_canonical first second
  rw [Nat.compare_eq_eq.2 same, Ordering.then_eq_eq] at equal
  exact String.ofList_injective (Std.LawfulEqOrd.compare_eq_iff_eq.1 equal.2)

theorem canonical_toDigits (n : Nat) : Canonical (Nat.toDigits 10 n) := by
  refine ⟨List.all_eq_true.2 fun c member => Nat.isDigit_of_mem_toDigits (by decide) (by decide) member, Nat.toDigits_ne_nil, ?_⟩
  intro long zero
  -- without its leading zero the run would be shorter, and its number too small
  obtain ⟨rest, split⟩ := List.head?_eq_some_iff.1 zero
  have value : digitsValue (Nat.toDigits 10 n) = n := by
    rw [digitsValue_eq_ofDigitChars, Nat.ofDigitChars_ten_toDigits]
  have digits : rest.all Char.isDigit = true := by
    refine List.all_eq_true.2 fun c member => Nat.isDigit_of_mem_toDigits (b := 10) (n := n) (by decide) (by decide) ?_
    rw [split]
    exact List.mem_cons_of_mem _ member
  have small := digitsValue_lt digits
  rw [split, digitsValue_cons] at value
  rw [split, List.length_cons] at long
  have bound : n < 10 ^ rest.length := by
    have zeroDigit : digitValue '0' = 0 := rfl
    rw [zeroDigit] at value
    omega
  have short := (Nat.length_toDigits_le_iff (by decide) (by omega)).2 bound
  rw [split, List.length_cons] at short
  omega

theorem digitsValue_toDigits (n : Nat) : digitsValue (Nat.toDigits 10 n) = n := by
  rw [digitsValue_eq_ofDigitChars, Nat.ofDigitChars_ten_toDigits]

/-- A number written as it is read. -/
theorem toDigits_digitsValue {s : List Char} (canonical : Canonical s) : Nat.toDigits 10 (digitsValue s) = s :=
  canonical_injective (canonical_toDigits _) canonical (digitsValue_toDigits _)

end Text
