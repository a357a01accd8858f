import Grm.Lib.BTree

/-!
# JSON values

`serde_json::Value` as the store keeps it. A number is an integer of the `u64` or
`i64` range or a finite double; a double is its bit pattern, and equality and order
of doubles are those of the exact values the patterns stand for, so the two zeros
are equal and have different bits. An object is the ascending list of its fields.
-/

set_option autoImplicit false

/-- A finite IEEE 754 double. -/
structure F64 where
  bits : BitVec 64
  finite : bits.toNat / 2 ^ 52 % 2 ^ 11 ≠ 2047
  deriving DecidableEq

namespace F64

def exponent (x : F64) : Nat := x.bits.toNat / 2 ^ 52 % 2 ^ 11

def mantissa (x : F64) : Nat := x.bits.toNat % 2 ^ 52

def negative (x : F64) : Bool := x.bits.msb

/-- The magnitude in units of the least subnormal, `2 ^ -1074`. -/
def magnitude (x : F64) : Nat :=
  if x.exponent = 0 then x.mantissa else (2 ^ 52 + x.mantissa) * 2 ^ (x.exponent - 1)

/-- The exact value in units of the least subnormal. -/
def units (x : F64) : Int := if x.negative then -(x.magnitude : Int) else x.magnitude

/-- `f64 == f64` on finite doubles. -/
def eq (x y : F64) : Bool := x.units == y.units

/-- Either of the two zeros. -/
def isZero (x : F64) : Bool := x.magnitude == 0

theorem mantissa_lt (x : F64) : x.mantissa < 2 ^ 52 := Nat.mod_lt _ (by decide)

/-- A double is its sign, exponent and mantissa. -/
theorem ext_parts {x y : F64} (sign : x.negative = y.negative) (exponent : x.exponent = y.exponent)
    (mantissa : x.mantissa = y.mantissa) : x = y := by
  unfold negative at sign
  unfold F64.exponent at exponent
  unfold F64.mantissa at mantissa
  rw [BitVec.msb_eq_decide, BitVec.msb_eq_decide, decide_eq_decide] at sign
  have boundX := x.bits.isLt
  have boundY := y.bits.isLt
  have same : x.bits = y.bits := by
    apply BitVec.eq_of_toNat_eq
    omega
  cases x
  cases y
  cases same
  rfl

/-- The normal doubles of one exponent lie between two powers of two. -/
theorem magnitude_bounds {x : F64} (normal : x.exponent ≠ 0) :
    2 ^ (51 + x.exponent) ≤ x.magnitude ∧ x.magnitude < 2 ^ (52 + x.exponent) := by
  have small := x.mantissa_lt
  obtain ⟨e, positive⟩ : ∃ e, x.exponent = e + 1 := ⟨x.exponent - 1, by omega⟩
  rw [magnitude, if_neg normal, positive, Nat.add_sub_cancel]
  constructor
  · calc 2 ^ (51 + (e + 1)) = 2 ^ 52 * 2 ^ e := by rw [← Nat.pow_add]; congr 1; omega
      _ ≤ (2 ^ 52 + x.mantissa) * 2 ^ e := Nat.mul_le_mul_right _ (by omega)
  · calc (2 ^ 52 + x.mantissa) * 2 ^ e < 2 ^ 53 * 2 ^ e := Nat.mul_lt_mul_of_pos_right (by omega) (Nat.two_pow_pos e)
      _ = 2 ^ (52 + (e + 1)) := by rw [← Nat.pow_add]; congr 1; omega

theorem magnitude_subnormal {x : F64} (subnormal : x.exponent = 0) : x.magnitude = x.mantissa := by
  rw [magnitude, if_pos subnormal]

/-- The magnitude determines exponent and mantissa. -/
theorem magnitude_injective {x y : F64} (same : x.magnitude = y.magnitude) :
    x.exponent = y.exponent ∧ x.mantissa = y.mantissa := by
  have lower : ∀ {x y : F64}, x.magnitude = y.magnitude → ¬ x.exponent < y.exponent := by
    intro x y same less
    have above := (magnitude_bounds (x := y) (by omega)).1
    by_cases subnormal : x.exponent = 0
    · have small := x.mantissa_lt
      have normal : 2 ^ 52 ≤ 2 ^ (51 + y.exponent) := Nat.pow_le_pow_right (by decide) (by omega)
      rw [magnitude_subnormal subnormal] at same
      omega
    · have below := (magnitude_bounds subnormal).2
      have apart : 2 ^ (52 + x.exponent) ≤ 2 ^ (51 + y.exponent) := Nat.pow_le_pow_right (by decide) (by omega)
      omega
  have exponents : x.exponent = y.exponent := by
    have := lower same
    have := lower same.symm
    omega
  refine ⟨exponents, ?_⟩
  unfold magnitude at same
  rw [exponents] at same
  split at same
  · exact same
  · have := Nat.eq_of_mul_eq_mul_right (Nat.two_pow_pos _) same
    omega

/-- Two doubles are equal when they are the same one or the two zeros. -/
theorem eq_iff (x y : F64) : x.eq y = true ↔ x = y ∨ (x.isZero = true ∧ y.isZero = true) := by
  rw [eq, beq_iff_eq]
  unfold isZero
  rw [beq_iff_eq, beq_iff_eq]
  constructor
  · intro same
    by_cases zero : x.magnitude = 0
    · right
      refine ⟨zero, ?_⟩
      unfold units at same
      split at same <;> split at same <;> omega
    · left
      have both : x.negative = y.negative ∧ x.magnitude = y.magnitude := by
        unfold units at same
        revert same
        cases x.negative <;> cases y.negative <;> simp only [Bool.false_eq_true, if_false, if_true] <;> intro same
        · exact ⟨trivial, by omega⟩
        · omega
        · omega
        · exact ⟨trivial, by omega⟩
      obtain ⟨exponents, mantissas⟩ := magnitude_injective both.2
      exact ext_parts both.1 exponents mantissas
  · rintro (rfl | ⟨zeroX, zeroY⟩)
    · rfl
    · unfold units
      rw [zeroX, zeroY]
      split <;> split <;> rfl

/-- The nearest double to `num / den`, ties to even; none past the largest double. -/
def ofRatio (neg : Bool) (num den : Nat) : Option F64 :=
  let scaled := num * 2 ^ 1074
  let shift := (scaled / den).log2 - 52
  let unit := den * 2 ^ shift
  let floor := scaled / unit
  let rest := scaled % unit
  let rounded := if unit < 2 * rest ∨ (2 * rest = unit ∧ floor % 2 = 1) then floor + 1 else floor
  let bits := BitVec.ofNat 64 (shift * 2 ^ 52 + rounded + if neg then 2 ^ 63 else 0)
  if h : shift * 2 ^ 52 + rounded < 2047 * 2 ^ 52 ∧ bits.toNat / 2 ^ 52 % 2 ^ 11 ≠ 2047 then
    some ⟨bits, h.2⟩
  else none

end F64

/-- The double nearest to a natural number, as the natural number it stands for
(`as f64`, ties to even). -/
def roundToF64 (n : Nat) : Nat :=
  let shift := n.log2 - 52
  let unit := 2 ^ shift
  let floor := n / unit
  let rest := n % unit
  (if unit < 2 * rest ∨ (2 * rest = unit ∧ floor % 2 = 1) then floor + 1 else floor) * unit

/-- The double nearest to an integer, as an integer. -/
def roundIntToF64 (i : Int) : Int :=
  if i < 0 then -(roundToF64 i.natAbs : Int) else roundToF64 i.natAbs

/-- `PosInt(u64)` and `NegInt(i64)`: one integer of either range. -/
structure JsonInt where
  val : Int
  low : -2 ^ 63 ≤ val
  high : val < 2 ^ 64
  deriving DecidableEq

/-- `serde_json::Number`. -/
inductive Number where
  | int (i : JsonInt)
  | float (x : F64)
  deriving DecidableEq

namespace Number

def asI64 : Number → Option Int
  | int i => if i.val < 2 ^ 63 then some i.val else none
  | float _ => none

def isI64 (n : Number) : Bool := n.asI64.isSome

def isU64 : Number → Bool
  | int i => 0 ≤ i.val
  | float _ => false

def isF64 : Number → Bool
  | int _ => false
  | float _ => true

/-- `as_f64`, as the exact value in units of the least subnormal. -/
def asF64 : Number → Int
  | int i => roundIntToF64 i.val * 2 ^ 1074
  | float x => x.units

/-- `Number == Number`: integers by value, doubles by IEEE equality, never across. -/
def eq : Number → Number → Bool
  | int i, int j => i.val == j.val
  | float x, float y => x.eq y
  | _, _ => false

end Number

/-- `serde_json::Value`. -/
inductive Value where
  | null
  | bool (b : Bool)
  | number (n : Number)
  | string (s : String)
  | array (items : List Value)
  | object (fields : List (String × Value))

/-- A property map. -/
abbrev Props := BTreeMap String Value

namespace Value

mutual

/-- `Value == Value`. -/
def eq : Value → Value → Bool
  | null, null => true
  | bool a, bool b => a == b
  | number a, number b => a.eq b
  | string a, string b => a == b
  | array a, array b => eqItems a b
  | object a, object b => eqFields a b
  | _, _ => false

def eqItems : List Value → List Value → Bool
  | [], [] => true
  | a :: as, b :: bs => eq a b && eqItems as bs
  | _, _ => false

def eqFields : List (String × Value) → List (String × Value) → Bool
  | [], [] => true
  | (k, a) :: as, (l, b) :: bs => k == l && eq a b && eqFields as bs
  | _, _ => false

end

def asStr : Value → Option String
  | string s => some s
  | _ => none

def asBool : Value → Option Bool
  | bool b => some b
  | _ => none

def asNumber : Value → Option Number
  | number n => some n
  | _ => none

def asI64 (v : Value) : Option Int := v.asNumber.bind Number.asI64

def asF64 (v : Value) : Option Int := v.asNumber.map Number.asF64

def isObject : Value → Bool
  | object _ => true
  | _ => false

/-- `Value::from(i64)`; an integer outside the range has no JSON form. -/
def ofInt? (i : Int) : Option Value :=
  if h : -2 ^ 63 ≤ i ∧ i < 2 ^ 64 then some (number (.int ⟨i, h.1, h.2⟩)) else none

end Value
