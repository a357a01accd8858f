import Mathlib.Algebra.BigOperators.Group.List.Basic
import Mathlib.Algebra.Order.Ring.Int
import Mathlib.Data.List.Infix
import Mathlib.Tactic.Common

/-!
# Keeping the first element of each key

A loop with a `seen` set: an element is kept when it has a key and the key was not
seen before. The kept keys are exactly the keys that occur, each once, and the
element kept for a key is the first one that has it.
-/

set_option autoImplicit false

variable {α κ : Type} [DecidableEq κ]

/-- The elements of a list that are the first of their key, those of `seen` left out. -/
def firstByKey (key : α → Option κ) : List κ → List α → List α
  | _, [] => []
  | seen, a :: l => match key a with
    | none => firstByKey key seen l
    | some k => if k ∈ seen then firstByKey key seen l else a :: firstByKey key (k :: seen) l

namespace FirstByKey
variable {key : α → Option κ}

theorem mem_of_mem {seen : List κ} {l : List α} {a : α} (kept : a ∈ firstByKey key seen l) : a ∈ l := by
  induction l generalizing seen with
  | nil => exact kept
  | cons b l ih =>
    rw [firstByKey] at kept
    split at kept
    · exact List.mem_cons_of_mem _ (ih kept)
    · split at kept
      · exact List.mem_cons_of_mem _ (ih kept)
      · rcases List.mem_cons.1 kept with rfl | later
        · exact List.mem_cons_self
        · exact List.mem_cons_of_mem _ (ih later)

/-- The element kept for a key is the first one that has it. -/
theorem find_kept {seen : List κ} {l : List α} {k : κ} (unseen : k ∉ seen) :
    (firstByKey key seen l).find? (fun a => key a == some k) = l.find? (fun a => key a == some k) := by
  induction l generalizing seen with
  | nil => rfl
  | cons b l ih =>
    rw [firstByKey]
    cases found : key b with
    | none => simp [found, ih unseen]
    | some j =>
      by_cases known : j ∈ seen
      · have other : j ≠ k := fun same => unseen (same ▸ known)
        simp [found, known, other, ih unseen]
      · by_cases same : j = k
        · subst same
          simp [found, known]
        · have fresh : k ∉ j :: seen := by simp [Ne.symm same, unseen]
          simp [found, known, same, ih fresh]

/-- A kept element has a key not seen before. -/
theorem key_of_mem {seen : List κ} {l : List α} {a : α} (kept : a ∈ firstByKey key seen l) :
    ∃ k, key a = some k ∧ k ∉ seen := by
  induction l generalizing seen with
  | nil => cases kept
  | cons b l ih =>
    rw [firstByKey] at kept
    split at kept
    · exact ih kept
    case h_2 k found =>
      split at kept
      · exact ih kept
      case isFalse unseen =>
        rcases List.mem_cons.1 kept with rfl | later
        · exact ⟨k, found, unseen⟩
        · obtain ⟨j, hj, free⟩ := ih later
          exact ⟨j, hj, fun member => free (List.mem_cons_of_mem _ member)⟩

variable (key) in
/-- Every key of the list that was not seen is the key of a kept element. -/
theorem mem_keys {seen : List κ} {l : List α} {k : κ} :
    (∃ a ∈ firstByKey key seen l, key a = some k) ↔ k ∉ seen ∧ ∃ a ∈ l, key a = some k := by
  constructor
  · rintro ⟨a, kept, has⟩
    obtain ⟨j, hj, unseen⟩ := key_of_mem kept
    rw [has, Option.some.injEq] at hj
    exact ⟨hj ▸ unseen, a, mem_of_mem kept, has⟩
  · rintro ⟨unseen, a, member, has⟩
    have present : (l.find? fun b => key b == some k).isSome :=
      List.find?_isSome.2 ⟨a, member, by simp [has]⟩
    rw [← find_kept unseen, List.find?_isSome] at present
    obtain ⟨b, kept, hb⟩ := present
    exact ⟨b, kept, by simpa using hb⟩

variable (key) in
/-- No two kept elements have the same key. -/
theorem pairwise_keys (seen : List κ) (l : List α) :
    (firstByKey key seen l).Pairwise fun a b => key a ≠ key b := by
  induction l generalizing seen with
  | nil => exact List.Pairwise.nil
  | cons b l ih =>
    rw [firstByKey]
    split
    · exact ih seen
    case h_2 k found =>
      split
      · exact ih seen
      · refine List.Pairwise.cons ?_ (ih (k :: seen))
        intro a kept same
        obtain ⟨j, hj, unseen⟩ := key_of_mem kept
        rw [found, hj, Option.some.injEq] at same
        exact unseen (same ▸ List.mem_cons_self)

/-- With total and distinct keys the loop is a filter. -/
theorem eq_filter {f : α → κ} (seen : List κ) {l : List α} (apart : l.Pairwise fun a b => f a ≠ f b) :
    firstByKey (fun a => some (f a)) seen l = l.filter fun a => !seen.contains (f a) := by
  induction l generalizing seen with
  | nil => rfl
  | cons b l ih =>
    obtain ⟨first, rest⟩ := List.pairwise_cons.1 apart
    rw [firstByKey]
    by_cases known : f b ∈ seen
    · simp [known, ih seen rest]
    · simp only [known, if_false, List.contains_eq_mem, decide_false, Bool.not_false, List.filter_cons_of_pos,
        ih (f b :: seen) rest, List.cons.injEq, true_and]
      apply List.filter_congr
      intro a member
      simp [Ne.symm (first a member)]

/-- Dropping repetitions keeps the members. -/
theorem mem_distinct {l : List κ} {k : κ} : k ∈ firstByKey some [] l ↔ k ∈ l := by
  have keys : (∃ a ∈ firstByKey some [] l, some a = some k) ↔ k ∉ [] ∧ ∃ a ∈ l, some a = some k := mem_keys some
  simpa using keys

theorem nodup_distinct (l : List κ) : (firstByKey some [] l).Nodup :=
  (pairwise_keys some [] l).imp fun apart same => apart (congrArg some same)

omit [DecidableEq κ] in
/-- A partial map that keeps each element's key keeps distinct keys distinct. -/
theorem nodup_map_filterMap {β : Type} {g : α → κ} {f : α → Option β} {k : β → κ} {l : List α}
    (apart : (l.map g).Nodup) (keeps : ∀ a ∈ l, ∀ b, f a = some b → k b = g a) :
    ((l.filterMap f).map k).Nodup := by
  refine List.Nodup.sublist ?_ apart
  clear apart
  induction l with
  | nil => exact List.Sublist.slnil
  | cons a l ih =>
    have rest := ih fun b member => keeps b (List.mem_cons_of_mem _ member)
    rw [List.filterMap_cons, List.map_cons]
    cases found : f a with
    | none => exact rest.cons _
    | some b =>
      rw [List.map_cons, keeps a List.mem_cons_self b found]
      exact rest.cons_cons _

end FirstByKey
