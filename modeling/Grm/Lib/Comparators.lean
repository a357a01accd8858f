import Mathlib.Algebra.BigOperators.Group.List.Basic
import Mathlib.Algebra.Order.Ring.Int
import Mathlib.Data.List.Infix
import Mathlib.Tactic.Common

/-!
# Comparisons of valid values

A comparison that is a total preorder on the values that are valid, though perhaps on no
others. Sorting valid values by it is then a stable permutation in ascending order.
The laws of comparisons are those of `Std.TransCmp`, on the subtype of valid values.
-/

open Std

set_option autoImplicit false

variable {α β : Type}

/-- On the valid values, `cmp` is reflexive, transitive, total and antisymmetric up to ties. -/
structure TotalPreorderOn (valid : α → Prop) (cmp : α → α → Ordering) : Prop where
  refl : ∀ a, valid a → cmp a a = .eq
  trans : ∀ a b c, valid a → valid b → valid c → cmp a b ≠ .gt → cmp b c ≠ .gt → cmp a c ≠ .gt
  total : ∀ a b, valid a → valid b → cmp a b ≠ .gt ∨ cmp b a ≠ .gt
  antisymm : ∀ a b, valid a → valid b → (cmp a b ≠ .gt ∧ cmp b a ≠ .gt ↔ cmp a b = .eq)

/-! ## Laws of comparisons -/

theorem transCmp_congr {cmp other : α → α → Ordering} (lawful : TransCmp other) (same : ∀ a b, cmp a b = other a b) :
    TransCmp cmp := by
  have equal : cmp = other := funext fun a => funext fun b => same a b
  rwa [equal]

/-- A comparison of keys. -/
theorem transCmp_of_key {other : β → β → Ordering} (lawful : TransCmp other) (key : α → β) :
    TransCmp fun a b => other (key a) (key b) where
  eq_swap := lawful.eq_swap
  isLE_trans := lawful.isLE_trans

/-- A comparison that tells nothing apart. -/
theorem transCmp_eq : TransCmp fun _ _ : α => .eq where
  eq_swap := rfl
  isLE_trans _ _ := rfl

/-- The first comparison that tells two values apart decides. -/
theorem transCmp_then {first second : α → α → Ordering} (left : TransCmp first) (right : TransCmp second) :
    TransCmp fun a b => (first a b).then (second a b) :=
  inferInstanceAs (TransCmp (compareLex first second))

theorem transCmp_swap {cmp : α → α → Ordering} (lawful : TransCmp cmp) : TransCmp fun a b => (cmp a b).swap :=
  transCmp_congr (inferInstanceAs (TransCmp fun a b => cmp b a)) fun _ _ => OrientedCmp.eq_swap.symm

/-- A comparison where what is missing comes last. -/
structure MissingLast (cmp : α → α → Ordering) (lifted : Option α → Option α → Ordering) : Prop where
  both : ∀ a b, lifted (some a) (some b) = cmp a b
  right : ∀ a, lifted (some a) none = .lt
  left : ∀ b, lifted none (some b) = .gt
  neither : lifted none none = .eq

theorem MissingLast.transCmp {cmp : α → α → Ordering} {lifted : Option α → Option α → Ordering}
    (h : MissingLast cmp lifted) (lawful : TransCmp cmp) : TransCmp lifted where
  eq_swap {a b} := by
    cases a with
    | none =>
      cases b with
      | none => rw [h.neither]; rfl
      | some b => rw [h.left, h.right]; rfl
    | some a =>
      cases b with
      | none => rw [h.left, h.right]; rfl
      | some b =>
        rw [h.both, h.both]
        exact OrientedCmp.eq_swap
  isLE_trans {a b c} first second := by
    cases c with
    | none =>
      cases a with
      | none => rw [h.neither]; rfl
      | some a => rw [h.right]; rfl
    | some c =>
      cases b with
      | none => rw [h.left] at second; cases second
      | some b =>
        cases a with
        | none => rw [h.left] at first; cases first
        | some a =>
          rw [h.both] at first second ⊢
          exact TransCmp.isLE_trans first second

theorem isLE_iff_ne_gt {ordering : Ordering} : ordering.isLE = true ↔ ordering ≠ .gt := by cases ordering <;> decide

theorem totalPreorderOn {valid : α → Prop} {cmp : α → α → Ordering}
    (lawful : TransCmp fun l r : {a // valid a} => cmp l r) : TotalPreorderOn valid cmp := by
  have swapped : ∀ a b, valid a → valid b → cmp b a = (cmp a b).swap := by
    intro a b left right
    exact lawful.eq_swap (a := ⟨b, right⟩) (b := ⟨a, left⟩)
  refine ⟨?_, ?_, ?_, ?_⟩
  · intro a ok
    have same := swapped a a ok ok
    cases compared : cmp a a <;> rw [compared] at same <;> first | rfl | cases same
  · intro a b c first second third le le'
    rw [← isLE_iff_ne_gt] at le le' ⊢
    exact lawful.isLE_trans (a := ⟨a, first⟩) (b := ⟨b, second⟩) (c := ⟨c, third⟩) le le'
  · intro a b left right
    rw [swapped a b left right]
    cases cmp a b <;> decide
  · intro a b left right
    rw [swapped a b left right]
    cases cmp a b <;> decide

/-! ## Sorting -/

/-- `sorted` is `records` in ascending order, ties in the order in which they were. -/
structure StablySorted (cmp : α → α → Ordering) (records sorted : List α) : Prop where
  perm : sorted.Perm records
  ascending : sorted.Pairwise fun a b => cmp a b ≠ .gt
  stable : ∀ a ∈ records, sorted.filter (fun b => cmp a b == .eq) = records.filter (fun b => cmp a b == .eq)

theorem pairwise_mergeSort_on {valid : α → Prop} {cmp : α → α → Ordering} (h : TotalPreorderOn valid cmp) {l : List α}
    (allValid : ∀ a ∈ l, valid a) :
    (l.mergeSort fun a b => cmp a b != .gt).Pairwise (fun a b => cmp a b ≠ .gt) ∧
      ∀ part : List α, part.Sublist l → part.Pairwise (fun a b => cmp a b ≠ .gt) →
        part.Sublist (l.mergeSort fun a b => cmp a b != .gt) := by
  have trans : ∀ a b c : {a // valid a}, (cmp a b != .gt) = true → (cmp b c != .gt) = true → (cmp a c != .gt) = true := by
    intro a b c first second
    rw [bne_iff_ne] at first second ⊢
    exact h.trans a b c a.2 b.2 c.2 first second
  have total : ∀ a b : {a // valid a}, ((cmp a b != .gt) || (cmp b a != .gt)) = true := by
    intro a b
    rw [Bool.or_eq_true, bne_iff_ne, bne_iff_ne]
    exact h.total a b a.2 b.2
  obtain ⟨l, rfl⟩ : ∃ typed : List {a // valid a}, typed.map Subtype.val = l :=
    ⟨l.attachWith valid allValid, List.attachWith_map_subtype_val ..⟩
  rw [← List.map_mergeSort (r := fun a b : {a // valid a} => cmp a b != .gt) fun _ _ _ _ => rfl]
  constructor
  · rw [List.pairwise_map]
    refine (List.pairwise_mergeSort trans total l).imp fun le => ?_
    rwa [bne_iff_ne] at le
  · intro part sublist ordered
    obtain ⟨typed, within, rfl⟩ := List.sublist_map_iff.1 sublist
    rw [List.pairwise_map] at ordered
    apply List.Sublist.map
    exact List.sublist_mergeSort trans total (ordered.imp fun le => bne_iff_ne.2 le) within

/-- Sorting valid records by a total preorder. -/
theorem stablySorted_mergeSort {valid : α → Prop} {cmp : α → α → Ordering} (h : TotalPreorderOn valid cmp) {l : List α}
    (allValid : ∀ a ∈ l, valid a) : StablySorted cmp l (l.mergeSort fun a b => cmp a b != .gt) := by
  obtain ⟨ascending, keeps⟩ := pairwise_mergeSort_on h allValid
  have perm := List.mergeSort_perm l fun a b => cmp a b != .gt
  refine ⟨perm, ascending, fun a member => ?_⟩
  have ties : (l.filter fun b => cmp a b == .eq).Pairwise fun b c => cmp b c ≠ .gt := by
    rw [List.pairwise_iff_forall_sublist]
    intro b c pair
    have left := List.mem_filter.1 (pair.subset (List.mem_cons_self ..))
    have right := List.mem_filter.1 (pair.subset (List.mem_cons_of_mem _ (List.mem_cons_self ..)))
    rw [beq_iff_eq] at left right
    have okA := allValid a member
    have okB := allValid b left.1
    have okC := allValid c right.1
    apply h.trans b a c okB okA okC ((h.antisymm a b okA okB).2 left.2).2
    rw [right.2]
    decide
  have sublist := (keeps _ List.filter_sublist ties).filter fun b => cmp a b == .eq
  rw [List.filter_filter] at sublist
  simp only [Bool.and_self] at sublist
  exact (sublist.eq_of_length (perm.filter _).length_eq.symm).symm

/-! ## Pages -/

/-- Pages of one size, one after the other, are the list. -/
theorem flatMap_pages (l : List α) (size : Nat) : ∀ {pages : Nat}, l.length ≤ pages * size →
    ((List.range pages).flatMap fun i => (l.drop (i * size)).take size) = l := by
  have first : ∀ pages, ((List.range pages).flatMap fun i => (l.drop (i * size)).take size) = l.take (pages * size) := by
    intro pages
    induction pages with
    | zero => rw [Nat.zero_mul]; rfl
    | succ pages ih =>
      rw [List.range_succ, List.flatMap_append, ih, List.flatMap_singleton, ← List.take_add, Nat.succ_mul]
  intro pages enough
  rw [first, List.take_of_length_le enough]
