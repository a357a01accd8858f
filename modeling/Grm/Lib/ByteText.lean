import Mathlib.Algebra.BigOperators.Group.List.Basic
import Mathlib.Algebra.Order.Ring.Int
import Mathlib.Tactic.Common

/-!
# Text by byte offsets

Characters take one to four bytes. A text can be cut at a byte offset only between two
characters; offsets that a scan of the text has come across are of that kind.
-/

namespace ByteText
set_option autoImplicit false

/-- `str::len`. -/
def byteLength (s : List Char) : Nat := (s.map Char.utf8Size).sum

/-- The text before and after a byte offset, if the offset is between two characters. -/
def cut : List Char → Nat → Option (List Char × List Char)
  | s, 0 => some ([], s)
  | [], _ + 1 => none
  | c :: s, n + 1 =>
    if c.utf8Size ≤ n + 1 then (cut s (n + 1 - c.utf8Size)).map fun parts => (c :: parts.1, parts.2) else none

/-- `&s[..n]`, which panics unless `n` is between two characters. -/
def upTo (s : List Char) (n : Nat) : Option (List Char) := (cut s n).map Prod.fst

/-- `&s[n..]`. -/
def startingAt (s : List Char) (n : Nat) : Option (List Char) := (cut s n).map Prod.snd

/-- `&s[low..high]`. -/
def slice (s : List Char) (low high : Nat) : Option (List Char) :=
  if low ≤ high then (cut s low).bind fun parts => upTo parts.2 (high - low) else none

/-- `str::find` of a character. -/
def find (c : Char) : List Char → Option Nat
  | [] => none
  | d :: s => if d = c then some 0 else (find c s).map (d.utf8Size + ·)

/-- `str::rfind` of a character. -/
def rfind (c : Char) : List Char → Option Nat
  | [] => none
  | d :: s =>
    match rfind c s with
    | some i => some (d.utf8Size + i)
    | none => if d = c then some 0 else none

/-- The offset is between two characters of the text, or at one of its ends. -/
def Boundary (s : List Char) (n : Nat) : Prop := ∃ before after, s = before ++ after ∧ n = byteLength before

@[simp] theorem byteLength_nil : byteLength [] = 0 := rfl

@[simp] theorem byteLength_cons (c : Char) (s : List Char) : byteLength (c :: s) = c.utf8Size + byteLength s :=
  List.sum_cons

@[simp] theorem byteLength_append (a b : List Char) : byteLength (a ++ b) = byteLength a + byteLength b := by
  simp [byteLength]

theorem cut_append (before after : List Char) : cut (before ++ after) (byteLength before) = some (before, after) := by
  induction before with
  | nil =>
    cases after with
    | nil => rfl
    | cons c after => rfl
  | cons c before ih =>
    have positive := c.utf8Size_pos
    obtain ⟨n, size⟩ : ∃ n, byteLength (c :: before) = n + 1 :=
      ⟨byteLength (c :: before) - 1, by rw [byteLength_cons]; omega⟩
    have fits : c.utf8Size ≤ n + 1 := by
      rw [← size, byteLength_cons]
      omega
    have left : n + 1 - c.utf8Size = byteLength before := by
      rw [← size, byteLength_cons]
      omega
    rw [size, List.cons_append, cut, if_pos fits, left, ih]
    rfl

theorem upTo_append (before after : List Char) : upTo (before ++ after) (byteLength before) = some before := by
  rw [upTo, cut_append]
  rfl

theorem startingAt_append (before after : List Char) : startingAt (before ++ after) (byteLength before) = some after := by
  rw [startingAt, cut_append]
  rfl

theorem slice_append (before middle after : List Char) :
    slice (before ++ (middle ++ after)) (byteLength before) (byteLength before + byteLength middle) = some middle := by
  rw [slice, if_pos (Nat.le_add_right _ _), cut_append, Option.bind_some, Nat.add_sub_cancel_left, upTo_append]

theorem Boundary.zero (s : List Char) : Boundary s 0 := ⟨[], s, rfl, rfl⟩

theorem Boundary.whole (s : List Char) : Boundary s (byteLength s) := ⟨s, [], (List.append_nil s).symm, rfl⟩

theorem Boundary.le {s : List Char} {n : Nat} (h : Boundary s n) : n ≤ byteLength s := by
  obtain ⟨before, after, rfl, rfl⟩ := h
  rw [byteLength_append]
  omega

/-- The first occurrence of a character. -/
theorem find_cases (c : Char) (s : List Char) :
    (find c s = none ∧ c ∉ s) ∨
      ∃ before after, s = before ++ c :: after ∧ c ∉ before ∧ find c s = some (byteLength before) := by
  induction s with
  | nil => exact .inl ⟨rfl, List.not_mem_nil⟩
  | cons d s ih =>
    rw [find]
    by_cases same : d = c
    · subst same
      exact .inr ⟨[], s, rfl, List.not_mem_nil, if_pos rfl⟩
    · rw [if_neg same]
      rcases ih with ⟨missing, absent⟩ | ⟨before, after, rfl, absent, found⟩
      · rw [missing]
        exact .inl ⟨rfl, List.not_mem_cons_of_ne_of_not_mem (Ne.symm same) absent⟩
      · rw [found]
        refine .inr ⟨d :: before, after, rfl, List.not_mem_cons_of_ne_of_not_mem (Ne.symm same) absent, ?_⟩
        rw [Option.map_some, byteLength_cons]

/-- The last occurrence of a character. -/
theorem rfind_cases (c : Char) (s : List Char) :
    (rfind c s = none ∧ c ∉ s) ∨
      ∃ before after, s = before ++ c :: after ∧ c ∉ after ∧ rfind c s = some (byteLength before) := by
  induction s with
  | nil => exact .inl ⟨rfl, List.not_mem_nil⟩
  | cons d s ih =>
    rw [rfind]
    rcases ih with ⟨missing, absent⟩ | ⟨before, after, rfl, absent, found⟩
    · rw [missing]
      by_cases same : d = c
      · subst same
        exact .inr ⟨[], s, rfl, absent, if_pos rfl⟩
      · exact .inl ⟨if_neg same, List.not_mem_cons_of_ne_of_not_mem (Ne.symm same) absent⟩
    · rw [found]
      exact .inr ⟨d :: before, after, rfl, absent, by rw [byteLength_cons]⟩

end ByteText
