import Mathlib.Logic.Function.Basic

/-!
# Calls that run beside each other

A call is a program of actions, each of which something outside the program answers. What a
program may do next is stated of a ghost state that follows what it has done so far, whatever
the answers are: `Meets`, with a rule for each way programs are put together. A pool runs calls beside each other on
one shared state, one action at a time and in any order; an action may have to wait. What
every program meets by itself then holds of each call in every run of the pool.
-/

set_option autoImplicit false

section Programs
variable {A : Type} {R : A → Type} {ε ε' α β : Type}

/-- An action that was performed, and its answer. -/
structure Performed (R : A → Type) where
  action : A
  answer : R action

/-- A program: it returns, fails, or performs an action and goes on with the answer. -/
inductive Proc (R : A → Type) (ε α : Type) where
  | ret (a : α)
  | fail (e : ε)
  | act (a : A) (next : R a → Proc R ε α)

namespace Proc

def bind : Proc R ε α → (α → Proc R ε β) → Proc R ε β
  | .ret a, f => f a
  | .fail e, _ => .fail e
  | .act a next, f => .act a fun r => (next r).bind f

instance : Monad (Proc R ε) where
  pure := .ret
  bind := bind

/-- One action. -/
def perform (a : A) : Proc R ε (R a) := .act a .ret

/-- The failure of a program goes on with another one, which fails in turn. -/
def mapErr : Proc R ε α → (ε → Proc R ε' ε') → Proc R ε' α
  | .ret a, _ => .ret a
  | .fail e, onError => (onError e).bind .fail
  | .act a next, onError => .act a fun r => (next r).mapErr onError

/-- The result of a program, whether it returns or fails. -/
def attempt : Proc R ε α → Proc R ε' (Except ε α)
  | .ret a => .ret (.ok a)
  | .fail e => .ret (.error e)
  | .act a next => .act a fun r => (next r).attempt

/-- A result that is there already. -/
def ofExcept : Except ε α → Proc R ε α
  | .ok a => .ret a
  | .error e => .fail e

/-! ## What a program may do -/

section Meets
variable {G : Type} (next : G → Performed R → G)

/-- What the program does is followed by a state of our own, the ghost: in each state it
performs only what is allowed there, and returns and fails only as it may. -/
def Meets (allowed : G → A → Prop) (ret : G → α → Prop) (fail : G → ε → Prop) : G → Proc R ε α → Prop
  | g, .ret a => ret g a
  | g, .fail e => fail g e
  | g, .act a rest => allowed g a ∧ ∀ r, Meets allowed ret fail (next g ⟨a, r⟩) (rest r)

variable {next} {allowed allowed' : G → A → Prop} {ret ret' : G → α → Prop} {fail fail' : G → ε → Prop} {g : G}

theorem Meets.pure {a : α} (h : ret g a) : Meets next allowed ret fail g (pure a : Proc R ε α) := h

theorem Meets.failed {e : ε} (h : fail g e) : Meets next allowed ret fail g (.fail e : Proc R ε α) := h

theorem Meets.perform {a : A} {ret : G → R a → Prop} (may : allowed g a) (goes : ∀ r, ret (next g ⟨a, r⟩) r) :
    Meets next allowed ret fail g (Proc.perform a : Proc R ε (R a)) := ⟨may, goes⟩

/-- An action, and what goes on with its answer. -/
theorem Meets.act {a : A} {f : R a → Proc R ε α} (may : allowed g a)
    (rest : ∀ r, Meets next allowed ret fail (next g ⟨a, r⟩) (f r)) :
    Meets next allowed ret fail g (Proc.perform a >>= f) := ⟨may, rest⟩

theorem Meets.ofExcept {x : Except ε α} (ok : ∀ a, x = .ok a → ret g a) (error : ∀ e, x = .error e → fail g e) :
    Meets next allowed ret fail g (Proc.ofExcept x : Proc R ε α) := by
  cases x with
  | ok a => exact ok a rfl
  | error e => exact error e rfl

/-- A program that may do less, with more to say of how it ends. -/
theorem Meets.mono {p : Proc R ε α} (h : Meets next allowed' ret' fail' g p) (may : ∀ g a, allowed' g a → allowed g a)
    (returns : ∀ g a, ret' g a → ret g a) (fails : ∀ g e, fail' g e → fail g e) :
    Meets next allowed ret fail g p := by
  induction p generalizing g with
  | ret a => exact returns g a h
  | fail e => exact fails g e h
  | act a rest ih => exact ⟨may g a h.1, fun r => ih r (h.2 r)⟩

theorem Meets.bind {p : Proc R ε α} {f : α → Proc R ε β} {after : G → β → Prop}
    (h : Meets next allowed ret fail g p) (rest : ∀ g a, ret g a → Meets next allowed after fail g (f a)) :
    Meets next allowed after fail g (p >>= f) := by
  induction p generalizing g with
  | ret a => exact rest g a h
  | fail e => exact h
  | act a _ ih => exact ⟨h.1, fun r => ih r (h.2 r)⟩

theorem Meets.mapErr {p : Proc R ε α} {onError : ε → Proc R ε' ε'} {after : G → ε' → Prop}
    (h : Meets next allowed ret fail g p) (rest : ∀ g e, fail g e → Meets next allowed after after g (onError e)) :
    Meets next allowed ret after g (p.mapErr onError) := by
  induction p generalizing g with
  | ret a => exact h
  | fail e => exact Meets.bind (rest g e h) fun _ _ failed => failed
  | act a _ ih => exact ⟨h.1, fun r => ih r (h.2 r)⟩

/-- A result that is there already, the failure of which goes on with another program. -/
theorem Meets.ofExcept_mapErr {x : Except ε α} {onError : ε → Proc R ε' ε'} {f : α → Proc R ε' β} {after : G → β → Prop}
    {fails : G → ε' → Prop} (ok : ∀ a, x = .ok a → Meets next allowed after fails g (f a))
    (error : ∀ e, x = .error e → Meets next allowed fails fails g (onError e)) :
    Meets next allowed after fails g ((Proc.ofExcept x).mapErr onError >>= f) := by
  cases x with
  | ok a => exact ok a rfl
  | error e => exact Meets.bind (Meets.bind (error e rfl) fun _ _ failed => failed) fun _ _ never => (never : False).elim

/-- What goes on with the result of a program, whether it returns or fails. -/
theorem Meets.attempt {p : Proc R ε α} {f : Except ε α → Proc R ε' β} {after : G → β → Prop} {fails : G → ε' → Prop}
    (h : Meets next allowed ret fail g p) (ok : ∀ g a, ret g a → Meets next allowed after fails g (f (.ok a)))
    (error : ∀ g e, fail g e → Meets next allowed after fails g (f (.error e))) :
    Meets next allowed after fails g (p.attempt >>= f) := by
  induction p generalizing g with
  | ret a => exact ok g a h
  | fail e => exact error g e h
  | act a _ ih => exact ⟨h.1, fun r => ih r (h.2 r)⟩

end Meets

end Proc

end Programs

/-! ## Runs of a pool of calls -/

/-- What answers the actions of the calls and may change the state by itself. `W` is what
lies outside at the moment; an action that has no answer has to wait. -/
structure Host {A : Type} (R : A → Type) (S W : Type) where
  answer : W → S → Nat → (a : A) → Option (S × R a)
  interfere : W → S → S

/-- The calls on a shared state, with what they were given and what they have performed. -/
structure Pool {A : Type} (In S : Type) (R : A → Type) (ε α : Type) where
  shared : S
  calls : Nat → Option (In × Proc R ε α)
  history : List (Nat × Performed R)

inductive PoolEvent (In W : Type) where
  | begin (i : Nat) (input : In)
  | step (i : Nat) (world : W)
  | interfere (world : W)

/-- The entries of one call, in their order. -/
def ownHistory {E : Type} (history : List (Nat × E)) (i : Nat) : List E :=
  history.filterMap fun e => if e.1 = i then some e.2 else none

section OwnHistory
variable {E : Type} {history : List (Nat × E)} {i j : Nat} {e : E}

theorem ownHistory_append_own : ownHistory (history ++ [(i, e)]) i = ownHistory history i ++ [e] := by
  simp [ownHistory, List.filterMap_append]

theorem ownHistory_append_other (ne : j ≠ i) : ownHistory (history ++ [(j, e)]) i = ownHistory history i := by
  simp [ownHistory, List.filterMap_append, ne]

end OwnHistory

namespace Pool
variable {A In S W : Type} {R : A → Type} {ε α : Type}

/-- No calls yet. -/
def new (s : S) : Pool In S R ε α := ⟨s, fun _ => none, []⟩

/-- One event; a call that has begun is not begun again. -/
def apply (host : Host R S W) (program : In → Proc R ε α) (p : Pool In S R ε α) : PoolEvent In W → Pool In S R ε α
  | .begin i input =>
    match p.calls i with
    | none => { p with calls := Function.update p.calls i (some (input, program input)) }
    | some _ => p
  | .step i world =>
    match p.calls i with
    | some (input, .act a next) =>
      match host.answer world p.shared i a with
      | some (shared, r) =>
        { shared, calls := Function.update p.calls i (some (input, next r)), history := p.history ++ [(i, ⟨a, r⟩)] }
      | none => p
    | _ => p
  | .interfere world => { p with shared := host.interfere world p.shared }

def run (host : Host R S W) (program : In → Proc R ε α) (p : Pool In S R ε α) (events : List (PoolEvent In W)) :
    Pool In S R ε α :=
  events.foldl (apply host program) p

variable {host : Host R S W} {program : In → Proc R ε α} {p : Pool In S R ε α}

theorem run_append (events later : List (PoolEvent In W)) :
    p.run host program (events ++ later) = (p.run host program events).run host program later := List.foldl_append

theorem run_snoc (events : List (PoolEvent In W)) (e : PoolEvent In W) :
    p.run host program (events ++ [e]) = (p.run host program events).apply host program e := by
  rw [run_append]
  rfl

/-- What an event does. -/
theorem apply_cases (host : Host R S W) (program : In → Proc R ε α) (p : Pool In S R ε α) (e : PoolEvent In W) :
    p.apply host program e = p ∨
    (∃ i input, e = .begin i input ∧ p.calls i = none ∧
      p.apply host program e = { p with calls := Function.update p.calls i (some (input, program input)) }) ∨
    (∃ i world input a next s r, e = .step i world ∧ p.calls i = some (input, .act a next) ∧
      host.answer world p.shared i a = some (s, r) ∧
      p.apply host program e =
        { shared := s, calls := Function.update p.calls i (some (input, next r)), history := p.history ++ [(i, ⟨a, r⟩)] }) ∨
    (∃ world, e = .interfere world ∧ p.apply host program e = { p with shared := host.interfere world p.shared }) := by
  cases e with
  | begin i input =>
    cases fresh : p.calls i with
    | none => exact .inr (.inl ⟨i, input, rfl, fresh, by simp only [apply, fresh]⟩)
    | some c => exact .inl (by simp only [apply, fresh])
  | step i world =>
    rcases call : p.calls i with _ | ⟨input, _ | _ | ⟨a, next⟩⟩
    · exact .inl (by simp only [apply, call])
    · exact .inl (by simp only [apply, call])
    · exact .inl (by simp only [apply, call])
    · rcases answered : host.answer world p.shared i a with _ | ⟨s, r⟩
      · exact .inl (by simp only [apply, call, answered])
      · refine .inr (.inr (.inl ⟨i, world, input, a, next, s, r, rfl, call, answered, ?_⟩))
        simp only [apply, call, answered]
  | interfere world => exact .inr (.inr (.inr ⟨world, rfl, rfl⟩))

/-- An invariant of the state and the history that every answer keeps. -/
theorem run_invariant (Inv : S → List (Nat × Performed R) → Prop) (start : Inv p.shared p.history)
    (answers : ∀ world s history i a s' r, Inv s history → host.answer world s i a = some (s', r) →
      Inv s' (history ++ [(i, ⟨a, r⟩)]))
    (interferes : ∀ world s history, Inv s history → Inv (host.interfere world s) history)
    (events : List (PoolEvent In W)) :
    Inv (p.run host program events).shared (p.run host program events).history := by
  induction events generalizing p with
  | nil => exact start
  | cons e events ih =>
    refine ih ?_
    rcases apply_cases host program p e with
      same | ⟨i, input, -, -, after⟩ | ⟨i, world, input, a, rest, s, r, -, -, answered, after⟩ | ⟨world, -, after⟩
    · rw [same]
      exact start
    · rw [after]
      exact start
    · rw [after]
      exact answers world p.shared p.history i a s r start answered
    · rw [after]
      exact interferes world p.shared p.history start

section Following
variable {G : Type} {next : G → Performed R → G} {first : G} {allowed : In → G → A → Prop} {ret : In → G → α → Prop}
  {fail : In → G → ε → Prop}

/-- The ghost of a call. -/
def ghost (next : G → Performed R → G) (first : G) (history : List (Nat × Performed R)) (i : Nat) : G :=
  (ownHistory history i).foldl next first

theorem ghost_append_own {history : List (Nat × Performed R)} {i : Nat} {e : Performed R} :
    ghost next first (history ++ [(i, e)]) i = next (ghost next first history i) e := by
  rw [ghost, ownHistory_append_own, List.foldl_append]
  rfl

theorem ghost_append_other {history : List (Nat × Performed R)} {i j : Nat} {e : Performed R} (ne : j ≠ i) :
    ghost next first (history ++ [(j, e)]) i = ghost next first history i := by
  rw [ghost, ownHistory_append_other ne]
  rfl

/-- Every call has the rest of its program before it, as its program may go on after what it
has done, and a call that has not begun has done nothing. -/
structure Follows (next : G → Performed R → G) (first : G) (allowed : In → G → A → Prop) (ret : In → G → α → Prop)
    (fail : In → G → ε → Prop) (p : Pool In S R ε α) : Prop where
  begun : ∀ i input proc, p.calls i = some (input, proc) →
    proc.Meets next (allowed input) (ret input) (fail input) (ghost next first p.history i)
  unbegun : ∀ i, p.calls i = none → ghost next first p.history i = first

theorem follows_new (s : S) : Follows next first allowed ret fail (new s : Pool In S R ε α) :=
  ⟨fun _ _ _ begun => (nomatch begun), fun _ _ => rfl⟩

theorem Follows.apply (h : Follows next first allowed ret fail p)
    (meets : ∀ input, (program input).Meets next (allowed input) (ret input) (fail input) first) (e : PoolEvent In W) :
    Follows next first allowed ret fail (p.apply host program e) := by
  rcases apply_cases host program p e with
    same | ⟨i, input, -, fresh, after⟩ | ⟨i, world, input, a, rest, s, r, -, call, -, after⟩ | ⟨world, -, after⟩
  · rw [same]
    exact h
  · rw [after]
    refine ⟨fun j input' proc begun => ?_, fun j unbegun => ?_⟩
    · dsimp only at begun ⊢
      by_cases same : j = i
      · subst same
        rw [Function.update_self] at begun
        obtain ⟨rfl, rfl⟩ := Prod.mk.inj (Option.some.inj begun)
        rw [h.unbegun j fresh]
        exact meets input
      · rw [Function.update_of_ne same] at begun
        exact h.begun j input' proc begun
    · dsimp only at unbegun ⊢
      by_cases same : j = i
      · exact h.unbegun j (same ▸ fresh)
      · rw [Function.update_of_ne same] at unbegun
        exact h.unbegun j unbegun
  · rw [after]
    refine ⟨fun j input' proc begun => ?_, fun j unbegun => ?_⟩
    · dsimp only at begun ⊢
      by_cases same : j = i
      · subst same
        rw [Function.update_self] at begun
        obtain ⟨rfl, rfl⟩ := Prod.mk.inj (Option.some.inj begun)
        rw [ghost_append_own]
        exact (h.begun j input _ call).2 r
      · rw [Function.update_of_ne same] at begun
        rw [ghost_append_other (Ne.symm same)]
        exact h.begun j input' proc begun
    · dsimp only at unbegun ⊢
      by_cases same : j = i
      · subst same
        rw [Function.update_self] at unbegun
        cases unbegun
      · rw [Function.update_of_ne same] at unbegun
        rw [ghost_append_other (Ne.symm same)]
        exact h.unbegun j unbegun
  · rw [after]
    exact ⟨h.begun, h.unbegun⟩

/-- In every run, what each call does next is allowed after what it has done. -/
theorem Follows.run (h : Follows next first allowed ret fail p)
    (meets : ∀ input, (program input).Meets next (allowed input) (ret input) (fail input) first)
    (events : List (PoolEvent In W)) : Follows next first allowed ret fail (p.run host program events) := by
  induction events generalizing p with
  | nil => exact h
  | cons e events ih => exact ih (h.apply meets e)

end Following

end Pool
