import Mathlib.Algebra.BigOperators.Group.List.Basic
import Mathlib.Algebra.Order.Ring.Int
import Mathlib.Data.List.Infix
import Mathlib.Data.List.Sort
import Mathlib.Tactic.Common

/-!
# First-in first-out retention

A queue that drops its oldest items until what is left fits. What it keeps is the
longest suffix that fits, so that retaining again under a stricter rule gives what the
stricter rule alone gives, and an item is kept exactly where a fitting suffix has it.

Several queues can be fed from one history and each miss some of it. Items of the history
are told apart by their position; a queue that has the items that are wanted keeps them
through a retention under which they fit together with all that came after them.
-/

namespace Retention
set_option autoImplicit false

variable {α : Type}

/-- The suffix left when the oldest items are dropped until the rest fits. -/
def retain (fits : List α → Bool) : List α → List α
  | [] => []
  | a :: rest => if fits (a :: rest) then a :: rest else retain fits rest

theorem retain_suffix (fits : List α → Bool) (l : List α) : retain fits l <:+ l := by
  induction l with
  | nil => exact List.suffix_rfl
  | cons a rest ih =>
    rw [retain]
    split
    · exact List.suffix_rfl
    · exact ih.trans (List.suffix_cons a rest)

theorem retain_sublist (fits : List α → Bool) (l : List α) : (retain fits l).Sublist l :=
  (retain_suffix fits l).sublist

theorem retain_eq_self {fits : List α → Bool} {l : List α} (kept : fits l = true) : retain fits l = l := by
  cases l with
  | nil => rfl
  | cons a rest => rw [retain, if_pos kept]

theorem retain_fits {fits : List α → Bool} (empty : fits [] = true) (l : List α) : fits (retain fits l) = true := by
  induction l with
  | nil => exact empty
  | cons a rest ih =>
    rw [retain]
    split
    case isTrue kept => exact kept
    case isFalse => exact ih

/-- A retention that keeps something keeps what fits. -/
theorem retain_fits_or_nil (fits : List α → Bool) (l : List α) : fits (retain fits l) = true ∨ retain fits l = [] := by
  induction l with
  | nil => exact .inr rfl
  | cons a rest ih =>
    rw [retain]
    split
    case isTrue kept => exact .inl kept
    case isFalse => exact ih

/-- Every suffix that fits is kept. -/
theorem suffix_retain {fits : List α → Bool} {l kept : List α} (suffix : kept <:+ l) (fit : fits kept = true) :
    kept <:+ retain fits l := by
  induction l with
  | nil => exact suffix
  | cons a rest ih =>
    rw [retain]
    split
    · exact suffix
    case isFalse exceeded =>
      rcases List.suffix_cons_iff.1 suffix with rfl | later
      · exact absurd fit exceeded
      · exact ih later

/-- Nothing was dropped exactly when the queue fits or is empty. -/
theorem retain_length_eq {fits : List α → Bool} (empty : fits [] = true) {l : List α} :
    (retain fits l).length = l.length ↔ fits l = true := by
  constructor
  · intro same
    rw [← (retain_suffix fits l).eq_of_length same]
    exact retain_fits empty l
  · intro fit
    rw [retain_eq_self fit]

/-- Retention under a rule that follows from a stricter one changes nothing before the
stricter one. -/
theorem retain_retain {fits strict : List α → Bool} (empty : strict [] = true)
    (weaker : ∀ kept, strict kept = true → fits kept = true) (l : List α) :
    retain strict (retain fits l) = retain strict l := by
  have inner : retain strict (retain fits l) <:+ l := (retain_suffix _ _).trans (retain_suffix _ _)
  have outer : retain strict l <:+ retain fits l :=
    suffix_retain (retain_suffix _ _) (weaker _ (retain_fits empty l))
  have smaller := suffix_retain inner (retain_fits empty (retain fits l))
  have larger := suffix_retain outer (retain_fits empty l)
  exact smaller.eq_of_length (le_antisymm smaller.length_le larger.length_le)

/-- An item is kept where it and what follows fit. -/
theorem mem_retain {fits : List α → Bool} {before after : List α} {a : α} (fit : fits (a :: after) = true) :
    a ∈ retain fits (before ++ a :: after) :=
  (suffix_retain (List.suffix_append before (a :: after)) fit).subset List.mem_cons_self

theorem retain_map {β : Type} (f : β → α) (fits : List α → Bool) (l : List β) :
    retain fits (l.map f) = (retain (fun kept => fits (kept.map f)) l).map f := by
  induction l with
  | nil => rfl
  | cons b rest ih =>
    rw [List.map_cons, retain, retain, ← List.map_cons, ih, apply_ite (List.map f)]

/-! ## Queues fed from one history -/

/-- The queue holds items of the history in order, among them every wanted one. -/
def Tracks (whole : List α) (wanted : α × Nat → Prop) (queue : List α) : Prop :=
  ∃ numbered : List (α × Nat), numbered.Sublist whole.zipIdx ∧ queue = numbered.map Prod.fst ∧
    ∀ item ∈ whole.zipIdx, wanted item → item ∈ numbered

theorem pairwise_zipIdx (whole : List α) : whole.zipIdx.Pairwise fun a b => a.2 < b.2 := by
  have positions : (whole.zipIdx.map Prod.snd).Pairwise (· < ·) := by
    rw [List.zipIdx_map_snd]
    exact List.pairwise_lt_range'
  exact List.pairwise_map.1 positions

variable {whole queue : List α} {wanted : α × Nat → Prop}

theorem Tracks.nil (wanted : α × Nat → Prop) : Tracks [] wanted [] :=
  ⟨[], List.Sublist.refl [], rfl, fun _ member => by cases member⟩

theorem Tracks.sublist (tracks : Tracks whole wanted queue) : queue.Sublist whole := by
  obtain ⟨numbered, sublist, rfl, -⟩ := tracks
  have mapped := sublist.map Prod.fst
  rwa [List.zipIdx_map_fst] at mapped

theorem Tracks.mono {fewer : α × Nat → Prop} (tracks : Tracks whole wanted queue)
    (weaker : ∀ item ∈ whole.zipIdx, fewer item → wanted item) : Tracks whole fewer queue := by
  obtain ⟨numbered, sublist, same, among⟩ := tracks
  exact ⟨numbered, sublist, same, fun item member want => among item member (weaker item member want)⟩

/-- An item of the history that is not wanted need not reach the queue. -/
theorem Tracks.miss (tracks : Tracks whole wanted queue) {a : α} (unwanted : ¬wanted (a, whole.length)) :
    Tracks (whole ++ [a]) wanted queue := by
  obtain ⟨numbered, sublist, same, among⟩ := tracks
  have grown : (whole ++ [a]).zipIdx = whole.zipIdx ++ [(a, whole.length)] := by simp [List.zipIdx_append]
  refine ⟨numbered, ?_, same, fun item member want => ?_⟩
  · rw [grown]
    exact sublist.trans (List.sublist_append_left _ _)
  · rw [grown, List.mem_append, List.mem_singleton] at member
    rcases member with earlier | rfl
    · exact among item earlier want
    · exact absurd want unwanted

/-- An item of the history that reaches the queue may be wanted. -/
theorem Tracks.push (tracks : Tracks whole wanted queue) (a : α) : Tracks (whole ++ [a]) wanted (queue ++ [a]) := by
  obtain ⟨numbered, sublist, same, among⟩ := tracks
  have grown : (whole ++ [a]).zipIdx = whole.zipIdx ++ [(a, whole.length)] := by simp [List.zipIdx_append]
  refine ⟨numbered ++ [(a, whole.length)], ?_, by rw [same, List.map_append]; rfl, fun item member want => ?_⟩
  · rw [grown]
    exact sublist.append (List.Sublist.refl _)
  · rw [grown, List.mem_append] at member
    exact List.mem_append.2 (member.imp (fun earlier => among item earlier want) id)

/-- What comes after an item in a queue comes after it in the history. -/
theorem after_item {numbered pre post : List (α × Nat)} {item : α × Nat} (sublist : numbered.Sublist whole.zipIdx)
    (found : numbered = pre ++ item :: post) : ((item :: post).map Prod.fst).Sublist (whole.drop item.2) := by
  have positions := (pairwise_zipIdx whole).sublist sublist
  rw [← List.take_append_drop item.2 whole, List.zipIdx_append] at sublist
  obtain ⟨early, late, rfl, first, second⟩ := List.sublist_append_iff.1 sublist
  have notEarly : ∀ other ∈ early, other.2 < item.2 := by
    intro other member
    have bound := List.snd_lt_of_mem_zipIdx (first.subset member)
    rw [List.length_take] at bound
    omega
  have whole' : (item :: post).Sublist late := by
    rcases List.append_eq_append_iff.1 found with ⟨between, rfl, rest⟩ | ⟨between, split, rest⟩
    · rw [rest]
      exact List.sublist_append_right _ _
    · cases between with
      | nil =>
        rw [← List.nil_append late, ← rest]
      | cons b more =>
        cases rest
        have member : item ∈ early := by
          rw [split]
          exact List.mem_append_right _ List.mem_cons_self
        exact absurd (notEarly item member) (Nat.lt_irrefl _)
  have mapped := (whole'.trans second).map Prod.fst
  rwa [List.zipIdx_map_fst] at mapped

/-- A retention keeps the wanted items, where each fits with all that came after it in
the history. -/
theorem Tracks.retain (tracks : Tracks whole wanted queue) {fits : List α → Bool}
    (room : ∀ item ∈ whole.zipIdx, wanted item →
      ∀ later, (item.1 :: later).Sublist (whole.drop item.2) → fits (item.1 :: later) = true) :
    Tracks whole wanted (retain fits queue) := by
  obtain ⟨numbered, sublist, rfl, among⟩ := tracks
  rw [retain_map]
  refine ⟨_, (retain_sublist _ _).trans sublist, rfl, fun item member want => ?_⟩
  obtain ⟨pre, post, rfl⟩ := List.append_of_mem (among item member want)
  exact mem_retain (room item member want (post.map Prod.fst) (after_item sublist rfl))

/-- Wanted items, in the order of the history, are in the queue in that order. -/
theorem Tracks.ordered (tracks : Tracks whole wanted queue) {items : List (α × Nat)}
    (sublist : items.Sublist whole.zipIdx) (want : ∀ item ∈ items, wanted item) : (items.map Prod.fst).Sublist queue := by
  obtain ⟨numbered, inOrder, rfl, among⟩ := tracks
  have earlier := pairwise_zipIdx whole
  have : Std.Antisymm fun a b : α × Nat => a.2 < b.2 := ⟨fun a b ab ba => absurd (ab.trans ba) (Nat.lt_irrefl _)⟩
  have distinct : items.Nodup := (earlier.sublist sublist).imp fun {a b} less same => by
    rw [same] at less
    exact Nat.lt_irrefl _ less
  have subset : items ⊆ numbered := fun item member => among item (sublist.subset member) (want item member)
  exact (List.sublist_of_subperm_of_pairwise (List.subperm_of_subset distinct subset) (earlier.sublist sublist)
    (earlier.sublist inOrder)).map Prod.fst

end Retention
