import Mathlib.Algebra.BigOperators.Group.List.Basic
import Mathlib.Algebra.Order.Ring.Int
import Mathlib.Data.List.Infix
import Mathlib.Tactic.Common

/-!
# Errors

`error.rs`. Each variant keeps the message the source gives it.
-/

set_option autoImplicit false

/-- `GrmError`. -/
inductive GrmError where
  | backend (message : String)
  | mapping (message : String)
  | notFound
  | constraint (message : String)
  | transactionClosed
  | notSupported (message : String)
  | saveAborted (message : String)
  | loadAborted (message : String)
  deriving DecidableEq, Repr

/-- The `Display` text of an error. -/
def GrmError.display : GrmError → String
  | backend m => "backend error: " ++ m
  | mapping m => "mapping error: " ++ m
  | notFound => "not found"
  | constraint m => "constraint violation: " ++ m
  | transactionClosed => "tx already committed/rolled back"
  | notSupported m => "operation not supported by backend: " ++ m
  | saveAborted m => "cannot save to file: " ++ m
  | loadAborted m => "cannot load from file: " ++ m

/-- `Result<T>`. -/
abbrev GrmResult (α : Type) := Except GrmError α

/-- A computation that succeeds has a first step that succeeds. -/
theorem GrmResult.bind_eq_ok {α β : Type} {x : GrmResult α} {f : α → GrmResult β} {b : β} :
    x >>= f = .ok b ↔ ∃ a, x = .ok a ∧ f a = .ok b := by
  cases x with
  | ok a => exact ⟨fun h => ⟨a, rfl, h⟩, by rintro ⟨a, ⟨⟩, h⟩; exact h⟩
  | error e => exact ⟨nofun, by rintro ⟨a, ⟨⟩, -⟩⟩

theorem GrmResult.map_eq_ok {α β : Type} {x : GrmResult α} {f : α → β} {b : β} :
    x.map f = .ok b ↔ ∃ a, x = .ok a ∧ f a = b := by
  cases x with
  | ok a => exact ⟨fun h => ⟨a, rfl, Except.ok.inj h⟩, by rintro ⟨a, ⟨⟩, rfl⟩; rfl⟩
  | error e => exact ⟨nofun, by rintro ⟨a, ⟨⟩, -⟩⟩

/-- An element of a converted list comes from one of the original. -/
theorem GrmResult.mapM_source {α β : Type} {f : α → GrmResult β} {l : List α} {l' : List β} (ok : l.mapM f = .ok l')
    {b : β} (member : b ∈ l') : ∃ a ∈ l, f a = .ok b := by
  induction l generalizing l' with
  | nil => cases ok; cases member
  | cons a l ih =>
    rw [List.mapM_cons] at ok
    obtain ⟨first, converted, ok⟩ := GrmResult.bind_eq_ok.1 ok
    obtain ⟨rest, done, ok⟩ := GrmResult.bind_eq_ok.1 ok
    cases ok
    rcases List.mem_cons.1 member with rfl | later
    · exact ⟨a, List.mem_cons_self, converted⟩
    · obtain ⟨source, found, ok⟩ := ih done later
      exact ⟨source, List.mem_cons_of_mem _ found, ok⟩

/-- A check of every element succeeds when each check does. -/
theorem GrmResult.forM_ok {α : Type} {check : α → GrmResult Unit} {l : List α} (each : ∀ a ∈ l, check a = .ok ()) :
    l.forM check = .ok () := by
  induction l with
  | nil => rfl
  | cons a l ih =>
    show (check a >>= fun _ => l.forM check) = _
    rw [each a List.mem_cons_self]
    exact ih fun b member => each b (List.mem_cons_of_mem _ member)
