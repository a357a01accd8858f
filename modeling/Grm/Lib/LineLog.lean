import Mathlib.Algebra.BigOperators.Group.List.Basic
import Mathlib.Algebra.Order.Ring.Int
import Mathlib.Data.List.Infix
import Mathlib.Tactic.Common

/-!
# Line logs

A log of terminated lines over any alphabet. What follows the last terminator is not
a line. Text appended after a terminator, or at the start, adds its own lines and
leaves the earlier ones.
-/

namespace LineLog
set_option autoImplicit false

variable {α : Type} [DecidableEq α] (term : α)

/-- The lines of a text: the runs before each terminator, in order. -/
def lines : List α → List (List α)
  | [] => []
  | a :: rest =>
    if a = term then [] :: lines rest
    else match lines rest with
      | [] => []
      | line :: more => (a :: line) :: more

/-- The text is empty or ends with the terminator. -/
def Terminated (text : List α) : Prop := text = [] ∨ text.getLast? = some term

instance (text : List α) : Decidable (Terminated term text) := inferInstanceAs (Decidable (_ ∨ _))

variable {term}

theorem lines_unterminated {text : List α} (absent : term ∉ text) : lines term text = [] := by
  induction text with
  | nil => rfl
  | cons a rest ih =>
    rw [List.mem_cons, not_or] at absent
    rw [lines, if_neg (Ne.symm absent.1), ih absent.2]

theorem lines_cons {line : List α} (absent : term ∉ line) (rest : List α) :
    lines term (line ++ term :: rest) = line :: lines term rest := by
  induction line with
  | nil => rw [List.nil_append, lines, if_pos rfl]
  | cons a line ih =>
    rw [List.mem_cons, not_or] at absent
    rw [List.cons_append, lines, if_neg (Ne.symm absent.1), ih absent.2]

omit [DecidableEq α] in
theorem terminated_concat (text : List α) : Terminated term (text ++ [term]) := .inr List.getLast?_concat

omit [DecidableEq α] in
theorem Terminated.append {text more : List α} (first : Terminated term text) (second : Terminated term more) :
    Terminated term (text ++ more) := by
  rcases second with rfl | last
  · rw [List.append_nil]
    exact first
  · refine .inr ?_
    rw [List.getLast?_append, last]
    rfl

/-- The lines up to a terminator do not depend on what comes after it. -/
theorem lines_concat (text more : List α) :
    ∃ first, lines term (text ++ [term]) = first ∧ first ≠ [] ∧
      lines term (text ++ term :: more) = first ++ lines term more := by
  induction text with
  | nil => exact ⟨[[]], by simp [lines], by simp, by simp [lines]⟩
  | cons a text ih =>
    obtain ⟨first, whole, some, split⟩ := ih
    simp only [List.cons_append, lines, whole, split]
    by_cases ends : a = term
    · exact ⟨[] :: first, if_pos ends, by simp, if_pos ends⟩
    · obtain ⟨line, rest, rfl⟩ := List.exists_cons_of_ne_nil some
      exact ⟨(a :: line) :: rest, if_neg ends, by simp, if_neg ends⟩

/-- Text appended after a terminator, or at the start, adds its own lines. -/
theorem lines_append {text : List α} (terminated : Terminated term text) (more : List α) :
    lines term (text ++ more) = lines term text ++ lines term more := by
  rcases terminated with rfl | last
  · rfl
  · obtain ⟨before, rfl⟩ : ∃ before, text = before ++ [term] := by
      exact (List.getLast?_eq_some_iff.1 last)
    obtain ⟨first, whole, -, split⟩ := @lines_concat _ _ term before more
    rw [whole, List.append_assoc, List.singleton_append]
    exact split

/-- Text without a terminator adds no line. -/
theorem lines_append_torn (text : List α) {torn : List α} (absent : term ∉ torn) :
    lines term (text ++ torn) = lines term text := by
  induction text with
  | nil => exact lines_unterminated absent
  | cons a text ih => simp only [List.cons_append, lines, ih]

end LineLog
