import Mathlib.Algebra.BigOperators.Group.List.Basic
import Mathlib.Algebra.Order.Ring.Int
import Mathlib.Data.List.Infix
import Mathlib.Tactic.Common

/-!
# Text functions

The string functions of the standard library the modelled code calls, on lists of
characters: trimming of Unicode white space, decimal integers, and the decimal
notation of numbers.
-/

namespace Text
set_option autoImplicit false

/-- The Unicode `White_Space` property. -/
def isWhitespace (c : Char) : Bool :=
  let n := c.toNat
  (9 ≤ n && n ≤ 13) || n == 0x20 || n == 0x85 || n == 0xA0 || n == 0x1680 || (0x2000 ≤ n && n ≤ 0x200A) ||
    n == 0x2028 || n == 0x2029 || n == 0x202F || n == 0x205F || n == 0x3000

def trimStart (s : List Char) : List Char := s.dropWhile isWhitespace

def trimEnd (s : List Char) : List Char := (s.reverse.dropWhile isWhitespace).reverse

def trim (s : List Char) : List Char := trimEnd (trimStart s)

/-! Trimmed text neither starts nor ends with white space, and is left as it is. -/

theorem trim_eq_self {s : List Char} (first : ∀ c, s.head? = some c → isWhitespace c = false)
    (last : ∀ c, s.getLast? = some c → isWhitespace c = false) : trim s = s := by
  have front : trimStart s = s := by
    unfold trimStart
    cases s with
    | nil => rfl
    | cons c s => rw [List.dropWhile_cons, first c rfl, if_neg Bool.false_ne_true]
  unfold trim trimEnd
  rw [front]
  cases reversed : s.reverse with
  | nil => rw [List.reverse_eq_nil_iff.1 reversed]; rfl
  | cons c rest =>
    have outer : isWhitespace c = false := last c (by rw [List.getLast?_eq_head?_reverse, reversed]; rfl)
    rw [List.dropWhile_cons, outer, if_neg Bool.false_ne_true, ← reversed, List.reverse_reverse]

theorem trim_last {s : List Char} {c : Char} (found : (trim s).getLast? = some c) : isWhitespace c = false := by
  unfold trim trimEnd at found
  rw [List.getLast?_reverse] at found
  have kept := List.head?_dropWhile_not isWhitespace (trimStart s).reverse
  rw [found] at kept
  simpa using kept

theorem trimEnd_prefix (s : List Char) : trimEnd s <+: s := by
  unfold trimEnd
  rw [← List.reverse_suffix, List.reverse_reverse]
  exact List.dropWhile_suffix _

theorem trim_first {s : List Char} {c : Char} (found : (trim s).head? = some c) : isWhitespace c = false := by
  obtain ⟨rest, split⟩ := List.head?_eq_some_iff.1 found
  obtain ⟨more, whole⟩ := trimEnd_prefix (trimStart s)
  have head : (trimStart s).head? = some c := by
    rw [← whole]
    show (trim s ++ more).head? = some c
    rw [split]
    rfl
  have kept := List.head?_dropWhile_not isWhitespace s
  unfold trimStart at head
  rw [head] at kept
  simpa using kept

theorem trim_trim (s : List Char) : trim (trim s) = trim s := trim_eq_self (fun _ => trim_first) fun _ => trim_last

def toAsciiLower (s : List Char) : List Char := s.map Char.toLower

/-- The value of a run of decimal digits, most significant first. -/
def digitsValue (s : List Char) : Nat := s.foldl (fun n c => 10 * n + (c.toNat - 48)) 0

/-- A non-empty run of decimal digits. -/
def parseDigits (s : List Char) : Option Nat :=
  if s ≠ [] ∧ s.all Char.isDigit then some (digitsValue s) else none

/-- Integer parsing: an optional sign and decimal digits within `[low, high]`. -/
def parseInt (low high : Int) (s : List Char) : Option Int :=
  let value : Option Int := match s with
    | '-' :: rest => (parseDigits rest).map fun n => -(n : Int)
    | '+' :: rest => (parseDigits rest).map fun n => (n : Int)
    | rest => (parseDigits rest).map fun n => (n : Int)
  value.filter fun i => low ≤ i && i ≤ high

/-- Remove a literal from the front. -/
def stripPrefix? (lit s : List Char) : Option (List Char) :=
  if lit.isPrefixOf s then some (s.drop lit.length) else none

/-- Remove a literal from the end. -/
def stripSuffix? (lit s : List Char) : Option (List Char) :=
  if lit.isSuffixOf s then some (s.take (s.length - lit.length)) else none

/-- Remove every trailing `c`. -/
def trimEndMatches (c : Char) (s : List Char) : List Char := (s.reverse.dropWhile (· == c)).reverse

/-- `str::contains`. -/
def strContains (lhs rhs : String) : Bool := decide (rhs.toList <:+: lhs.toList)

/-- A number in decimal notation: sign, numerator and denominator. -/
structure Decimal where
  negative : Bool
  num : Nat
  den : Nat

/-- The outcome of reading a double: a number, or one of the words for infinity and NaN. -/
inductive FloatText where
  | number (d : Decimal)
  | notFinite

def exponentOf : List Char → Option Int
  | '-' :: rest => (parseDigits rest).map fun n => -(n : Int)
  | '+' :: rest => (parseDigits rest).map fun n => (n : Int)
  | rest => (parseDigits rest).map fun n => (n : Int)

/-- Digits with at most one point and at least one digit, then an optional exponent. -/
def parseUnsigned (negative : Bool) (s : List Char) : Option FloatText :=
  let mant := s.takeWhile fun c => c != 'e' && c != 'E'
  let exponent : Option Int := match s.drop mant.length with
    | [] => some 0
    | _ :: rest => exponentOf rest
  let whole := mant.takeWhile (· != '.')
  let frac := (mant.drop whole.length).drop 1
  match exponent, parseDigits (whole ++ frac) with
  | some e, some n =>
    let e := e - frac.length
    some (.number (if 0 ≤ e then ⟨negative, n * 10 ^ e.toNat, 1⟩ else ⟨negative, n, 10 ^ (-e).toNat⟩))
  | _, _ => none

/-- `str::parse::<f64>`, before rounding. -/
def parseFloat (s : List Char) : Option FloatText :=
  let (negative, body) : Bool × List Char := match s with
    | '-' :: rest => (true, rest)
    | '+' :: rest => (false, rest)
    | rest => (false, rest)
  if toAsciiLower body ∈ ["inf".toList, "infinity".toList, "nan".toList] then some .notFinite
  else parseUnsigned negative body

end Text
