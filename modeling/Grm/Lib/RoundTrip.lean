import Grm.Error

/-!
# Round trips

A value survives an encoder and a decoder, either of which may fail, when the encoder
takes it to a form that the decoder takes back to it. Round trips compose, and lift to
lists and options element by element.
-/

set_option autoImplicit false

section RoundTrip
variable {ε α β γ : Type}

/-- The encoder takes the value to a form that the decoder takes back to it. -/
def Survives (encode : α → Except ε β) (decode : β → Except ε α) (a : α) : Prop :=
  ∃ b, encode a = .ok b ∧ decode b = .ok a

theorem Except.ok_bind (a : α) (f : α → Except ε β) : (Except.ok a >>= f) = f a := rfl

/-- Through a middle form, there and back. -/
theorem Survives.comp {encode : α → Except ε β} {decode : β → Except ε α} {encode' : β → Except ε γ}
    {decode' : γ → Except ε β} {a : α} (outer : Survives encode decode a)
    (inner : ∀ b, encode a = .ok b → Survives encode' decode' b) :
    Survives (fun a => encode a >>= encode') (fun c => decode' c >>= decode) a := by
  obtain ⟨b, encoded, decoded⟩ := outer
  obtain ⟨c, encoded', decoded'⟩ := inner b encoded
  refine ⟨c, ?_, ?_⟩
  · show encode a >>= encode' = .ok c
    rw [encoded, Except.ok_bind, encoded']
  · show decode' c >>= decode = .ok a
    rw [decoded', Except.ok_bind, decoded]

/-- A value in a case of a sum survives as it does by itself. -/
theorem Survives.wrap {δ : Type} {encode : α → Except ε β} {decode : β → Except ε α} {encode' : γ → Except ε δ}
    {decode' : δ → Except ε γ} {a : α} (survives : Survives encode decode a) (inner : α → γ) (outer : β → δ)
    (encodes : ∀ a, encode' (inner a) = (encode a).map outer) (decodes : ∀ b, decode' (outer b) = (decode b).map inner) :
    Survives encode' decode' (inner a) := by
  obtain ⟨b, encoded, decoded⟩ := survives
  refine ⟨outer b, ?_, ?_⟩
  · rw [encodes, encoded]
    rfl
  · rw [decodes, decoded]
    rfl

/-- A case is chosen, and the whole is built around it. -/
theorem Except.map_bind_pure (x : Except ε α) (f : α → β) (g : β → γ) :
    (x.map f >>= fun b => pure (g b)) = x.map fun a => g (f a) := by
  cases x <;> rfl

/-- A list survives when its elements do. -/
theorem Survives.list {encode : α → Except ε β} {decode : β → Except ε α} {l : List α}
    (each : ∀ a ∈ l, Survives encode decode a) : Survives (List.mapM encode) (List.mapM decode) l := by
  induction l with
  | nil => exact ⟨[], rfl, rfl⟩
  | cons a l ih =>
    obtain ⟨b, encoded, decoded⟩ := each a List.mem_cons_self
    obtain ⟨l', encodedAll, decodedAll⟩ := ih fun a member => each a (List.mem_cons_of_mem _ member)
    refine ⟨b :: l', ?_, ?_⟩
    · rw [List.mapM_cons, encoded, Except.ok_bind, encodedAll]
      rfl
    · rw [List.mapM_cons, decoded, Except.ok_bind, decodedAll]
      rfl

/-- Two steps that never fail on the elements of a list, and one that does both at once. -/
theorem mapM_through {step : α → Except ε β} {next : β → Except ε γ} {both : α → Except ε γ} {l : List α}
    (each : ∀ a ∈ l, ∃ b c, step a = .ok b ∧ next b = .ok c ∧ both a = .ok c) :
    ∃ bs cs, l.mapM step = .ok bs ∧ bs.mapM next = .ok cs ∧ l.mapM both = .ok cs := by
  induction l with
  | nil => exact ⟨[], [], rfl, rfl, rfl⟩
  | cons a l ih =>
    obtain ⟨b, c, stepped, nexted, did⟩ := each a List.mem_cons_self
    obtain ⟨bs, cs, steppedAll, nextedAll, didAll⟩ := ih fun a member => each a (List.mem_cons_of_mem _ member)
    refine ⟨b :: bs, c :: cs, ?_, ?_, ?_⟩
    · rw [List.mapM_cons, stepped, Except.ok_bind, steppedAll]
      rfl
    · rw [List.mapM_cons, nexted, Except.ok_bind, nextedAll]
      rfl
    · rw [List.mapM_cons, did, Except.ok_bind, didAll]
      rfl

/-- A list written by a function that cannot fail. -/
theorem mapM_map_eq_ok {encode : α → β} {decode : β → Except ε α} {l : List α}
    (each : ∀ a ∈ l, decode (encode a) = .ok a) : (l.map encode).mapM decode = .ok l := by
  induction l with
  | nil => rfl
  | cons a l ih =>
    rw [List.map_cons, List.mapM_cons, each a List.mem_cons_self, Except.ok_bind,
      ih fun a member => each a (List.mem_cons_of_mem _ member)]
    rfl

/-- A list that is written and read by functions that cannot fail. -/
theorem map_map_eq_self {encode : α → β} {decode : β → α} {l : List α} (each : ∀ a, decode (encode a) = a) :
    (l.map encode).map decode = l := by
  rw [List.map_map]
  exact List.map_id'' each l

/-- An option survives when its value does. -/
theorem Survives.option {encode : α → Except ε β} {decode : β → Except ε α} {o : Option α}
    (each : ∀ a, o = some a → Survives encode decode a) : Survives (Option.mapM encode) (Option.mapM decode) o := by
  cases o with
  | none => exact ⟨none, rfl, rfl⟩
  | some a =>
    obtain ⟨b, encoded, decoded⟩ := each a rfl
    refine ⟨some b, ?_, ?_⟩
    · show (encode a >>= fun b => pure (some b)) = _
      rw [encoded]
      rfl
    · show (decode b >>= fun a => pure (some a)) = _
      rw [decoded]
      rfl

end RoundTrip
