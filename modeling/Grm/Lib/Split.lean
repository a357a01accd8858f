import Mathlib.Algebra.BigOperators.Group.List.Basic
import Mathlib.Algebra.Order.Ring.Int
import Mathlib.Data.List.Infix
import Mathlib.Tactic.Common

/-!
# Splitting at a separator

`str::split_once` on lists: the parts before and after the first occurrence of a separator.
-/

namespace Split
set_option autoImplicit false

variable {α : Type} [DecidableEq α]

/-- `str::split_once`. -/
def splitOnce (separator : List α) : List α → Option (List α × List α)
  | [] => if separator = [] then some ([], []) else none
  | a :: s =>
    if separator.isPrefixOf (a :: s) then some ([], (a :: s).drop separator.length)
    else (splitOnce separator s).map fun parts => (a :: parts.1, parts.2)

theorem splitOnce_eq_none {separator s : List α} : splitOnce separator s = none ↔ ¬ separator <:+: s := by
  induction s with
  | nil =>
    unfold splitOnce
    split
    · simp_all
    · simp_all
  | cons a s ih =>
    rw [List.infix_cons_iff, not_or, ← ih, splitOnce]
    split
    next starts => simp [List.isPrefixOf_iff_prefix.1 starts]
    next apart =>
      rw [List.isPrefixOf_iff_prefix] at apart
      simp [apart]

/-- The parts and the separator between them make up the text. -/
theorem splitOnce_some {separator s before after : List α} (found : splitOnce separator s = some (before, after)) :
    s = before ++ (separator ++ after) := by
  induction s generalizing before with
  | nil =>
    rw [splitOnce] at found
    split at found
    next empty =>
      cases found
      rw [empty]
      rfl
    next => cases found
  | cons a s ih =>
    rw [splitOnce] at found
    split at found
    next starts =>
      cases found
      obtain ⟨rest, whole⟩ := List.isPrefixOf_iff_prefix.1 starts
      rw [← whole, List.drop_left]
      rfl
    next =>
      obtain ⟨⟨before', after'⟩, inner, parts⟩ := Option.map_eq_some_iff.1 found
      cases parts
      rw [ih inner]
      rfl

/-- A text that starts with the separator is split there. -/
theorem splitOnce_self (separator s : List α) : splitOnce separator (separator ++ s) = some ([], s) := by
  cases separator with
  | nil => cases s <;> simp [splitOnce]
  | cons a separator =>
    have starts : (a :: separator).isPrefixOf (a :: (separator ++ s)) = true :=
      List.isPrefixOf_iff_prefix.2 ⟨s, rfl⟩
    show splitOnce (a :: separator) (a :: (separator ++ s)) = _
    rw [splitOnce, if_pos starts]
    simp

/-- A leading part without the separator's first element is passed over. -/
theorem splitOnce_skip {a : α} {separator : List α} {field : List α} (absent : a ∉ field) (s : List α) :
    splitOnce (a :: separator) (field ++ s) =
      (splitOnce (a :: separator) s).map fun parts => (field ++ parts.1, parts.2) := by
  induction field with
  | nil => simp
  | cons b field ih =>
    rw [List.mem_cons, not_or] at absent
    have apart : (a :: separator).isPrefixOf (b :: (field ++ s)) = false := by
      simp [List.isPrefixOf, absent.1]
    show splitOnce (a :: separator) (b :: (field ++ s)) = _
    rw [splitOnce, apart, ih absent.2]
    simp [Function.comp_def]

theorem infix_skip {a : α} {separator : List α} {field : List α} (absent : a ∉ field) (s : List α) :
    (a :: separator) <:+: field ++ s ↔ (a :: separator) <:+: s := by
  rw [← not_iff_not, ← splitOnce_eq_none, ← splitOnce_eq_none, splitOnce_skip absent, Option.map_eq_none_iff]

end Split
