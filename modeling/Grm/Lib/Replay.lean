/-!
# Replaying the log of several writers

A log of entries, each with the writer that made it. `replay` acts with the entries of the
writers that count, in the order of the log. Entries that do not act may be counted or not,
and a writer whose entries come after everything that matters to them can be replayed last.
-/

set_option autoImplicit false

namespace Replay
variable {ι C σ : Type} (act : σ → C → σ)

/-- The entries of the writers that count, replayed in the order of the log. -/
def replay (counts : ι → Bool) (log : List (ι × C)) (s : σ) : σ :=
  log.foldl (fun s e => if counts e.1 then act s e.2 else s) s

variable {act} {counts counts' : ι → Bool}

theorem replay_append (log later : List (ι × C)) (s : σ) :
    replay act counts (log ++ later) s = replay act counts later (replay act counts log s) := List.foldl_append

/-- What one writer adds to the log. -/
theorem replay_own (i : ι) (cs : List C) (s : σ) :
    replay act counts (cs.map (i, ·)) s = if counts i then cs.foldl act s else s := by
  induction cs generalizing s with
  | nil => simp [replay]
  | cons c cs ih =>
    rw [List.map_cons, replay, List.foldl_cons]
    refine (ih _).trans ?_
    cases counts i <;> rfl

/-- Writers may be counted or not where their entries do nothing. -/
theorem replay_congr {log : List (ι × C)} (same : ∀ e ∈ log, counts e.1 = counts' e.1 ∨ ∀ s, act s e.2 = s) (s : σ) :
    replay act counts log s = replay act counts' log s := by
  induction log generalizing s with
  | nil => rfl
  | cons e log ih =>
    have rest := ih fun e' member => same e' (List.mem_cons_of_mem _ member)
    have one : (if counts e.1 then act s e.2 else s) = if counts' e.1 then act s e.2 else s := by
      rcases same e List.mem_cons_self with counted | idle
      · rw [counted]
      · rw [idle, ite_self, ite_self]
    rw [replay, List.foldl_cons, one]
    exact rest _

/-- Nothing happens when every entry that counts does nothing. -/
theorem replay_idle {log : List (ι × C)} (idle : ∀ e ∈ log, counts e.1 = true → ∀ s, act s e.2 = s) (s : σ) :
    replay act counts log s = s := by
  induction log generalizing s with
  | nil => rfl
  | cons e log ih =>
    have rest := ih fun e' member => idle e' (List.mem_cons_of_mem _ member)
    have one : (if counts e.1 then act s e.2 else s) = s := by
      split
      case isTrue counted => exact idle e List.mem_cons_self counted s
      case isFalse => rfl
    rw [replay, List.foldl_cons, one]
    exact rest s

end Replay
