import Mathlib.Tactic.Common

/-!
# Computations that may panic

A computation that panics, fails with an error or returns a value. `Ensures` says that it
does not panic, and what holds of the value it returns; its rules follow the structure of
the computation.
-/

set_option autoImplicit false

/-- A computation that panics (`none`), fails or returns. -/
abbrev Panics (ε α : Type) : Type := ExceptT ε Option α

namespace Panics
variable {ε α β : Type}

/-- The computation does not panic, and what it returns satisfies `post`. -/
def Ensures (x : Panics ε α) (post : α → Prop) : Prop := ∃ r, x.run = some r ∧ ∀ a, r = .ok a → post a

theorem Ensures.pure {post : α → Prop} {a : α} (holds : post a) : Ensures (pure a : Panics ε α) post := by
  refine ⟨.ok a, rfl, ?_⟩
  rintro b ⟨⟩
  exact holds

theorem Ensures.throw {post : α → Prop} (e : ε) : Ensures (throw e : Panics ε α) post := ⟨.error e, rfl, nofun⟩

theorem Ensures.bind {x : Panics ε α} {f : α → Panics ε β} {mid : α → Prop} {post : β → Prop} (first : Ensures x mid)
    (rest : ∀ a, mid a → Ensures (f a) post) : Ensures (x >>= f) post := by
  obtain ⟨r, run, holds⟩ := first
  cases r with
  | error e =>
    refine ⟨.error e, ?_, nofun⟩
    rw [ExceptT.run_bind, run]
    rfl
  | ok a =>
    obtain ⟨r, run', holds'⟩ := rest a (holds a rfl)
    refine ⟨r, ?_, holds'⟩
    rw [ExceptT.run_bind, run]
    exact run'

theorem Ensures.mono {x : Panics ε α} {weak strong : α → Prop} (h : Ensures x strong) (imp : ∀ a, strong a → weak a) :
    Ensures x weak := by
  obtain ⟨r, run, holds⟩ := h
  exact ⟨r, run, fun a same => imp a (holds a same)⟩

/-- A partial operation that is defined. -/
theorem Ensures.lift {o : Option α} {a : α} {post : α → Prop} (defined : o = some a) (holds : post a) :
    Ensures (liftM o : Panics ε α) post := by
  subst defined
  exact Ensures.pure holds

theorem Ensures.ite {c : Prop} [Decidable c] {x y : Panics ε α} {post : α → Prop} (yes : c → Ensures x post)
    (no : ¬c → Ensures y post) : Ensures (if c then x else y) post := by
  by_cases holds : c
  · rw [if_pos holds]
    exact yes holds
  · rw [if_neg holds]
    exact no holds

theorem Ensures.mapM {f : α → Panics ε β} {post : β → Prop} (xs : List α) (each : ∀ a ∈ xs, Ensures (f a) post) :
    Ensures (xs.mapM f) fun bs => ∀ b ∈ bs, post b := by
  induction xs with
  | nil => exact Ensures.pure nofun
  | cons a xs ih =>
    rw [List.mapM_cons]
    refine (each a List.mem_cons_self).bind fun b holds => ?_
    refine (ih fun a within => each a (List.mem_cons_of_mem _ within)).bind fun bs all => ?_
    exact Ensures.pure (List.forall_mem_cons.2 ⟨holds, all⟩)

/-- Computations that do not panic run in sequence as their results do. -/
theorem run_bind {x : Panics ε α} {f : α → Panics ε β} {r : Except ε α} {g : α → Except ε β} (first : x.run = some r)
    (rest : ∀ a, (f a).run = some (g a)) : (x >>= f).run = some (r >>= g) := by
  rw [ExceptT.run_bind, first]
  cases r with
  | error e => rfl
  | ok a => exact rest a

theorem run_ite {c : Prop} [Decidable c] {x y : Panics ε α} {r s : Except ε α} (yes : x.run = some r)
    (no : y.run = some s) : (if c then x else y).run = some (if c then r else s) := by
  split
  · exact yes
  · exact no

/-- The computation does not panic. -/
abbrev Safe (x : Panics ε α) : Prop := Ensures x fun _ => True

theorem Safe.lift {o : Option α} (defined : ∃ a, o = some a) : Safe (liftM o : Panics ε α) := by
  obtain ⟨a, same⟩ := defined
  exact Ensures.lift same trivial

theorem Safe.bind {x : Panics ε α} {f : α → Panics ε β} (first : Safe x) (rest : ∀ a, Safe (f a)) : Safe (x >>= f) :=
  Ensures.bind first fun a _ => rest a

theorem Safe.mapM {f : α → Panics ε β} (xs : List α) (each : ∀ a ∈ xs, Safe (f a)) : Safe (xs.mapM f) :=
  (Ensures.mapM xs each).mono fun _ _ => trivial

theorem Safe.of_run {x : Panics ε α} {r : Except ε α} (run : x.run = some r) : Safe x := ⟨r, run, fun _ _ => trivial⟩

/-- A result of the computation without panics. -/
theorem Safe.returns {x : Panics ε α} (h : Safe x) : ∃ r, x.run = some r := by
  obtain ⟨r, run, -⟩ := h
  exact ⟨r, run⟩

end Panics
