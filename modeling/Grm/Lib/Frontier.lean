/-!
# Searches step by step

A search that goes through a list of steps and takes each of them from everything it has
found so far. What it ends with is what can be reached along the steps.
-/

set_option autoImplicit false

variable {B H : Type} (next : H → B → List B)

/-- What is found after the steps. -/
def stepFrontier (found : List B) (steps : List H) : List B :=
  steps.foldl (fun current step => current.flatMap (next step)) found

/-- From one element to another along the steps. -/
inductive Reaches : List H → B → B → Prop where
  | here (b : B) : Reaches [] b b
  | step {step : H} {steps : List H} {b mid b' : B} (now : mid ∈ next step b) (later : Reaches steps mid b') :
    Reaches (step :: steps) b b'

theorem mem_stepFrontier {steps : List H} {found : List B} {b' : B} :
    b' ∈ stepFrontier next found steps ↔ ∃ b ∈ found, Reaches next steps b b' := by
  induction steps generalizing found with
  | nil =>
    constructor
    · exact fun member => ⟨b', member, .here b'⟩
    · rintro ⟨b, member, reaches⟩
      cases reaches
      exact member
  | cons step steps ih =>
    refine ih.trans ?_
    simp only [List.mem_flatMap]
    constructor
    · rintro ⟨mid, ⟨b, member, now⟩, later⟩
      exact ⟨b, member, .step now later⟩
    · rintro ⟨b, member, reaches⟩
      cases reaches with
      | step now later => exact ⟨_, ⟨b, member, now⟩, later⟩
