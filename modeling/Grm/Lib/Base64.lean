import Grm.Lib.Digits

/-!
# The order of base64 texts

The encoding of RFC 4648 keeps the order of bytes when its characters are compared by the
six bits that they stand for. Compared as characters, letters, digits and the last two
signs are each in that order among themselves, but come in another order as groups.
-/

namespace Base64
set_option autoImplicit false

/-- The characters for six bits, in order. -/
def alphabet : List Char := "ABCDEFGHIJKLMNOPQRSTUVWXYZabcdefghijklmnopqrstuvwxyz0123456789+/".toList

/-- The character for six bits. -/
def sextetChar (v : Nat) : Char := alphabet.getD v '='

/-- The padded encoding: four characters for three bytes. -/
def encode : List UInt8 → List Char
  | [] => []
  | [x] => [sextetChar (x.toNat / 4), sextetChar (x.toNat % 4 * 16), '=', '=']
  | [x, y] => [sextetChar (x.toNat / 4), sextetChar (x.toNat % 4 * 16 + y.toNat / 16), sextetChar (y.toNat % 16 * 4), '=']
  | x :: y :: z :: rest => sextetChar (x.toNat / 4) :: sextetChar (x.toNat % 4 * 16 + y.toNat / 16) ::
      sextetChar (y.toNat % 16 * 4 + z.toNat / 64) :: sextetChar (z.toNat % 64) :: encode rest

/-- The characters of encodings, the padding before all others. -/
def ordered : List Char := '=' :: alphabet

/-- The place of a character among all. -/
def rank (c : Char) : Nat := ordered.idxOf c

/-- Letters and the padding, digits, or the last two signs. -/
def charGroup (c : Char) : Nat :=
  if 61 ≤ c.toNat then 0 else if 48 ≤ c.toNat then 1 else 2

/-- Where the texts first differ, both characters are of one group. -/
def GroupsAgree : List Char → List Char → Prop
  | c :: s, d :: t => if c = d then GroupsAgree s t else charGroup c = charGroup d
  | _, _ => True

instance decidableGroupsAgree : (s t : List Char) → Decidable (GroupsAgree s t)
  | c :: s, d :: t =>
    have := decidableGroupsAgree s t
    inferInstanceAs (Decidable (if c = d then GroupsAgree s t else charGroup c = charGroup d))
  | [], [] => .isTrue trivial
  | [], _ :: _ => .isTrue trivial
  | _ :: _, [] => .isTrue trivial

/-! ## Characters -/

theorem sextetChar_spec {v : Nat} (small : v < 64) : rank (sextetChar v) = v + 1 ∧ sextetChar v ∈ ordered := by
  revert v
  decide +kernel

theorem mem_encode (bytes : List UInt8) : ∀ c ∈ encode bytes, c ∈ ordered := by
  have pad : '=' ∈ ordered := List.mem_cons_self
  induction bytes using encode.induct with
  | case1 => exact fun c member => absurd member List.not_mem_nil
  | case2 x =>
    have := x.toNat_lt
    simp only [encode, List.mem_cons, List.not_mem_nil, or_false, forall_eq_or_imp, forall_eq]
    exact ⟨(sextetChar_spec (by omega)).2, (sextetChar_spec (by omega)).2, pad, pad⟩
  | case3 x y =>
    have := x.toNat_lt
    have := y.toNat_lt
    simp only [encode, List.mem_cons, List.not_mem_nil, or_false, forall_eq_or_imp, forall_eq]
    exact ⟨(sextetChar_spec (by omega)).2, (sextetChar_spec (by omega)).2, (sextetChar_spec (by omega)).2, pad⟩
  | case4 x y z rest ih =>
    have := x.toNat_lt
    have := y.toNat_lt
    have := z.toNat_lt
    simp only [encode, List.mem_cons, forall_eq_or_imp]
    exact ⟨(sextetChar_spec (by omega)).2, (sextetChar_spec (by omega)).2, (sextetChar_spec (by omega)).2,
      (sextetChar_spec (by omega)).2, ih⟩

theorem rank_injective {c d : Char} (left : c ∈ ordered) (same : rank c = rank d) : c = d :=
  (List.idxOf_inj left).1 same

/-- The groups follow each other in the alphabet, and within a group so do the characters. -/
theorem ordered_groups : ordered.Pairwise fun c d => charGroup c ≤ charGroup d ∧ (charGroup c = charGroup d → c < d) := by
  decide +kernel

theorem lt_of_rank_lt {c d : Char} (left : c ∈ ordered) (right : d ∈ ordered) (less : rank c < rank d) :
    charGroup c ≤ charGroup d ∧ (charGroup c = charGroup d → c < d) := by
  have both := List.pairwise_iff_getElem.1 ordered_groups _ _ (List.idxOf_lt_length_of_mem left)
    (List.idxOf_lt_length_of_mem right) less
  rwa [List.getElem_idxOf, List.getElem_idxOf] at both

/-- As characters, a later group comes first. -/
theorem lt_of_group_lt {c d : Char} (less : charGroup c < charGroup d) : d < c := by
  rw [Char.lt_def, UInt32.lt_iff_toNat_lt]
  show d.toNat < c.toNat
  unfold charGroup at less
  split_ifs at less <;> omega

/-- Two characters are in the order of the bits they stand for exactly within one group. -/
theorem compare_char_iff {c d : Char} (left : c ∈ ordered) (right : d ∈ ordered) :
    compare c d = compare (rank c) (rank d) ↔ charGroup c = charGroup d := by
  rcases Nat.lt_trichotomy (rank c) (rank d) with less | equal | greater
  · obtain ⟨groups, within⟩ := lt_of_rank_lt left right less
    rw [Nat.compare_eq_lt.2 less, Text.compare_char_lt]
    refine ⟨fun lower => ?_, within⟩
    rcases Nat.lt_or_eq_of_le groups with apart | same
    · exact absurd lower (Char.lt_asymm (lt_of_group_lt apart))
    · exact same
  · cases rank_injective left equal
    rw [Text.compare_char_eq.2 rfl, Nat.compare_eq_eq.2 rfl]
    exact ⟨fun _ => rfl, fun _ => rfl⟩
  · obtain ⟨groups, within⟩ := lt_of_rank_lt right left greater
    rw [Nat.compare_eq_gt.2 greater, Text.compare_char_gt]
    refine ⟨fun upper => ?_, fun same => within same.symm⟩
    rcases Nat.lt_or_eq_of_le groups with apart | same
    · exact absurd upper (Char.lt_asymm (lt_of_group_lt apart))
    · exact same.symm

/-! ## Texts -/

/-- The order of texts whose characters are compared by the bits they stand for. -/
def compareRanks : List Char → List Char → Ordering := List.compareLex (compareOn rank)

theorem compareRanks_cons (c d : Char) (s t : List Char) :
    compareRanks (c :: s) (d :: t) = (compare (rank c) (rank d)).then (compareRanks s t) := List.compareLex_cons_cons

/-- Texts are in the order of their ranks exactly where they first differ within a group. -/
theorem compare_text_iff {s t : List Char} (left : ∀ c ∈ s, c ∈ ordered) (right : ∀ c ∈ t, c ∈ ordered) :
    compare (String.ofList s) (String.ofList t) = compareRanks s t ↔ GroupsAgree s t := by
  induction s generalizing t with
  | nil =>
    cases t with
    | nil => exact ⟨fun _ => trivial, fun _ => Text.compare_text_nil⟩
    | cons d t => exact ⟨fun _ => trivial, fun _ => Text.compare_text_short d t⟩
  | cons c s ih =>
    cases t with
    | nil => exact ⟨fun _ => trivial, fun _ => Text.compare_text_long c s⟩
    | cons d t =>
      rw [List.forall_mem_cons] at left right
      rw [Text.compare_text_cons, compareRanks_cons, GroupsAgree]
      by_cases same : c = d
      · rw [if_pos same, ← ih left.2 right.2, same, Text.compare_char_eq.2 rfl, Nat.compare_eq_eq.2 rfl]
        rfl
      · have ranks : rank c ≠ rank d := fun equal => same (rank_injective left.1 equal)
        have decided : ∀ {o rest : Ordering}, o ≠ .eq → o.then rest = o := by
          intro o rest nonzero
          cases o <;> first | rfl | exact absurd rfl nonzero
        rw [if_neg same, decided (mt Text.compare_char_eq.1 same), decided (mt Nat.compare_eq_eq.1 ranks)]
        exact compare_char_iff left.1 right.1

/-! ## Bytes -/

theorem compare_bytes (x y : UInt8) : compare x y = compare x.toNat y.toNat := by
  apply Text.ordering_ext
  · rw [Nat.compare_eq_lt, ← UInt8.lt_iff_toNat_lt]
    exact compareOfLessAndEq_eq_lt
  · rw [Nat.compare_eq_gt, ← UInt8.lt_iff_toNat_lt, Std.OrientedOrd.eq_swap (a := x), Ordering.swap_eq_gt]
    exact compareOfLessAndEq_eq_lt

theorem compare_rank {m n : Nat} (left : m < 64) (right : n < 64) :
    compare (rank (sextetChar m)) (rank (sextetChar n)) = compare m n := by
  rw [(sextetChar_spec left).1, (sextetChar_spec right).1]
  apply Text.ordering_ext
  · rw [Nat.compare_eq_lt, Nat.compare_eq_lt]
    omega
  · rw [Nat.compare_eq_gt, Nat.compare_eq_gt]
    omega

/-- A number is compared by its high part, then by its low part. -/
theorem compare_split (x y : Nat) {base : Nat} (positive : 0 < base) :
    compare x y = (compare (x / base) (y / base)).then (compare (x % base) (y % base)) := by
  rw [← Text.compare_mul_add (Nat.mod_lt x positive) (Nat.mod_lt y positive), Nat.div_add_mod', Nat.div_add_mod']

/-- The first two characters are a byte and the high bits of the next one. -/
theorem compareRanks_first {x y h k : Nat} (left : x < 256) (right : y < 256) (leftHigh : h < 16) (rightHigh : k < 16)
    (s t : List Char) :
    compareRanks (sextetChar (x / 4) :: sextetChar (x % 4 * 16 + h) :: s)
        (sextetChar (y / 4) :: sextetChar (y % 4 * 16 + k) :: t) =
      (compare x y).then ((compare h k).then (compareRanks s t)) := by
  rw [compareRanks_cons, compareRanks_cons, compare_rank (by omega) (by omega), compare_rank (by omega) (by omega),
    Text.compare_mul_add leftHigh rightHigh, compare_split x y (by decide : 0 < 4), Ordering.then_assoc, Ordering.then_assoc]

/-- The third character is the low bits of a byte and the high bits of the next one. -/
theorem compareRanks_third {x y h k : Nat} (left : x < 16) (right : y < 16) (leftHigh : h < 4) (rightHigh : k < 4)
    (s t : List Char) :
    compareRanks (sextetChar (x * 4 + h) :: s) (sextetChar (y * 4 + k) :: t) =
      (compare x y).then ((compare h k).then (compareRanks s t)) := by
  rw [compareRanks_cons, compare_rank (by omega) (by omega), Text.compare_mul_add leftHigh rightHigh, Ordering.then_assoc]

/-- The padding precedes any character. -/
theorem compareRanks_pad {n : Nat} (small : n < 64) (s t : List Char) :
    compareRanks ('=' :: s) (sextetChar n :: t) = .lt := by
  have zero : rank '=' = 0 := by decide
  rw [compareRanks_cons, (sextetChar_spec small).1, zero, Nat.compare_eq_lt.2 (Nat.succ_pos n)]
  rfl

theorem zero_then_lt (n : Nat) : (compare 0 n).then .lt = .lt := by
  rcases Nat.eq_zero_or_pos n with rfl | positive
  · rfl
  · rw [Nat.compare_eq_lt.2 positive]
    rfl

theorem compare_cons (x y : UInt8) (a b : List UInt8) :
    compare (x :: a) (y :: b) = (compare x.toNat y.toNat).then (compare a b) := by
  rw [← compare_bytes]
  exact List.compareLex_cons_cons

/-- One byte, against more. -/
theorem compareRanks_one (x y z : UInt8) (b : List UInt8) :
    compareRanks (encode [x]) (encode (y :: z :: b)) = compare [x] (y :: z :: b) := by
  have := x.toNat_lt
  have := y.toNat_lt
  have := z.toNat_lt
  have listed : compare [x] (y :: z :: b) = (compare x.toNat y.toNat).then .lt := compare_cons x y [] (z :: b)
  have text : ∃ n t, n < 64 ∧ encode (y :: z :: b) = sextetChar (y.toNat / 4) ::
      sextetChar (y.toNat % 4 * 16 + z.toNat / 16) :: sextetChar n :: t := by
    cases b with
    | nil => exact ⟨z.toNat % 16 * 4, _, by omega, rfl⟩
    | cons w b =>
      have := w.toNat_lt
      exact ⟨z.toNat % 16 * 4 + w.toNat / 64, _, by omega, rfl⟩
  obtain ⟨n, t, small, text⟩ := text
  have first : encode [x] = sextetChar (x.toNat / 4) :: sextetChar (x.toNat % 4 * 16 + 0) :: ['=', '='] := rfl
  rw [text, first, listed, compareRanks_first (by omega) (by omega) (by omega) (by omega), compareRanks_pad small, zero_then_lt]

/-- Two bytes, against more. -/
theorem compareRanks_two (x u y v w : UInt8) (b : List UInt8) :
    compareRanks (encode [x, u]) (encode (y :: v :: w :: b)) = compare [x, u] (y :: v :: w :: b) := by
  have := x.toNat_lt
  have := u.toNat_lt
  have := y.toNat_lt
  have := v.toNat_lt
  have := w.toNat_lt
  have listed : compare [x, u] (y :: v :: w :: b) = (compare x.toNat y.toNat).then ((compare u.toNat v.toNat).then .lt) := by
    rw [compare_cons, compare_cons]
    rfl
  have first : encode [x, u] = sextetChar (x.toNat / 4) :: sextetChar (x.toNat % 4 * 16 + u.toNat / 16) ::
      sextetChar (u.toNat % 16 * 4 + 0) :: ['='] := rfl
  rw [first, encode, listed, compareRanks_first (by omega) (by omega) (by omega) (by omega),
    compareRanks_third (by omega) (by omega) (by omega) (by omega), compareRanks_pad (by omega), zero_then_lt,
    compare_split u.toNat v.toNat (by decide : 0 < 16), Ordering.then_assoc]

/-- Encodings are in the order of their bytes, when characters are compared by their bits. -/
theorem compareRanks_encode (a b : List UInt8) : compareRanks (encode a) (encode b) = compare a b := by
  have swapped : ∀ {a b : List UInt8}, compareRanks (encode b) (encode a) = compare b a →
      compareRanks (encode a) (encode b) = compare a b := by
    intro a b same
    have lawful : Std.OrientedCmp compareRanks := inferInstanceAs (Std.OrientedCmp (List.compareLex (compareOn rank)))
    rw [lawful.eq_swap, same]
    exact Std.OrientedOrd.eq_swap.symm
  induction a using encode.induct generalizing b with
  | case1 =>
    match b with
    | [] => rfl
    | [y] => rfl
    | [y, v] => rfl
    | y :: v :: w :: b => rfl
  | case2 x =>
    match b with
    | [] => rfl
    | [y] =>
      have := x.toNat_lt
      have := y.toNat_lt
      have first : ∀ x : UInt8, encode [x] =
          sextetChar (x.toNat / 4) :: sextetChar (x.toNat % 4 * 16 + 0) :: ['=', '='] := fun _ => rfl
      rw [first, first, compareRanks_first (by omega) (by omega) (by omega) (by omega), compare_cons]
      rfl
    | y :: v :: b => exact compareRanks_one x y v b
  | case3 x u =>
    match b with
    | [] => rfl
    | [y] => exact swapped (compareRanks_one y x u [])
    | [y, v] =>
      have := x.toNat_lt
      have := u.toNat_lt
      have := y.toNat_lt
      have := v.toNat_lt
      have first : ∀ x u : UInt8, encode [x, u] = sextetChar (x.toNat / 4) :: sextetChar (x.toNat % 4 * 16 + u.toNat / 16) ::
          sextetChar (u.toNat % 16 * 4 + 0) :: ['='] := fun _ _ => rfl
      rw [first, first, compareRanks_first (by omega) (by omega) (by omega) (by omega),
        compareRanks_third (by omega) (by omega) (by omega) (by omega), compare_cons, compare_cons,
        compare_split u.toNat v.toNat (by decide : 0 < 16), Ordering.then_assoc]
      rfl
    | y :: v :: w :: b => exact compareRanks_two x u y v w b
  | case4 x u i a ih =>
    match b with
    | [] => rfl
    | [y] => exact swapped (compareRanks_one y x u (i :: a))
    | [y, v] => exact swapped (compareRanks_two y v x u i a)
    | y :: v :: w :: b =>
      have := x.toNat_lt
      have := u.toNat_lt
      have := i.toNat_lt
      have := y.toNat_lt
      have := v.toNat_lt
      have := w.toNat_lt
      rw [encode, encode, compareRanks_first (by omega) (by omega) (by omega) (by omega),
        compareRanks_third (by omega) (by omega) (by omega) (by omega), compareRanks_cons, compare_rank (by omega) (by omega),
        ih, compare_cons, compare_cons, compare_cons, compare_split u.toNat v.toNat (by decide : 0 < 16),
        compare_split i.toNat w.toNat (by decide : 0 < 64), Ordering.then_assoc, Ordering.then_assoc]

/-- Texts of bytes are in the order of the bytes exactly where they first differ within a group. -/
theorem compare_encode_iff (a b : List UInt8) :
    compare (String.ofList (encode a)) (String.ofList (encode b)) = compare a b ↔ GroupsAgree (encode a) (encode b) := by
  rw [← compareRanks_encode]
  exact compare_text_iff (mem_encode a) (mem_encode b)

end Base64
