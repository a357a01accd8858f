import Grm.Lib.BTree

/-!
# Secondary indexes

An index keeps, for each key, the set of ids filed under it, and drops a key whose
set becomes empty. `Represents` says which relation an index stands for; adding and
removing entries change that relation by exactly those entries. An index is
determined by its relation (`Represents.unique`), so keeping it up to date entry by
entry and recomputing it from scratch give the same map.
-/

open Std

namespace Index
set_option autoImplicit false

variable {K I : Type} [Ord K] [TransOrd K] [LawfulEqOrd K] [Ord I] [TransOrd I] [LawfulEqOrd I]

/-- The ids filed under `k`. -/
def bucket (m : BTreeMap K (BTreeSet I)) (k : K) : BTreeSet I := (m[k]?).getD ∅

/-- File `i` under `k`. -/
def add (m : BTreeMap K (BTreeSet I)) (k : K) (i : I) : BTreeMap K (BTreeSet I) :=
  m.insert k ((bucket m k).insert i)

/-- Take `i` from under `k`; an emptied key disappears. -/
def remove (m : BTreeMap K (BTreeSet I)) (k : K) (i : I) : BTreeMap K (BTreeSet I) :=
  match m[k]? with
  | none => m
  | some ids => if (ids.erase i).isEmpty then m.erase k else m.insert k (ids.erase i)

/-- The ids under `k`, ascending. -/
def ids (m : BTreeMap K (BTreeSet I)) (k : K) : List I := ((m[k]?).map ExtTreeSet.toList).getD []

/-- The index stands for the relation `R`, with no empty key. -/
structure Represents (m : BTreeMap K (BTreeSet I)) (R : K → I → Prop) : Prop where
  mem : ∀ k i, i ∈ bucket m k ↔ R k i
  nonempty : ∀ (k : K) (b : BTreeSet I), m[k]? = some b → b ≠ ∅

omit [LawfulEqOrd K] [LawfulEqOrd I] in
theorem represents_empty : Represents (∅ : BTreeMap K (BTreeSet I)) fun _ _ => False :=
  ⟨by simp [bucket], by simp⟩

omit [LawfulEqOrd K] [LawfulEqOrd I] in
theorem Represents.congr {m : BTreeMap K (BTreeSet I)} {R S : K → I → Prop} (h : Represents m R)
    (same : ∀ k i, R k i ↔ S k i) : Represents m S :=
  ⟨fun k i => (h.mem k i).trans (same k i), h.nonempty⟩

theorem Represents.add {m : BTreeMap K (BTreeSet I)} {R : K → I → Prop} (h : Represents m R) (k : K) (i : I) :
    Represents (add m k i) fun k' i' => (k' = k ∧ i' = i) ∨ R k' i' := by
  constructor
  · intro k' i'
    by_cases here : k = k'
    · subst here
      simp [Index.add, bucket, ← h.mem, eq_comm (a := i') (b := i)]
    · simp [Index.add, bucket, ExtTreeMap.getElem?_insert, here, Ne.symm here, ← h.mem]
  · intro k' b found
    by_cases here : k = k'
    · subst here
      simp only [Index.add, ExtTreeMap.getElem?_insert_self, Option.some.injEq] at found
      subst found
      exact ExtTreeSet.ne_empty_of_mem (ExtTreeSet.mem_insert_self (k := i))
    · rw [Index.add, BTreeMap.get_insert_ne m _ here] at found
      exact h.nonempty k' b found

theorem Represents.remove {m : BTreeMap K (BTreeSet I)} {R : K → I → Prop} (h : Represents m R) (k : K) (i : I) :
    Represents (remove m k i) fun k' i' => R k' i' ∧ ¬ (k' = k ∧ i' = i) := by
  unfold Index.remove
  split
  case h_1 missing =>
    refine h.congr fun k' i' => ⟨fun r => ⟨r, ?_⟩, And.left⟩
    rintro ⟨rfl, rfl⟩
    have := (h.mem k' i').2 r
    simp [bucket, missing] at this
  case h_2 filed found =>
    split
    case isTrue emptied =>
      constructor
      · intro k' i'
        by_cases here : k = k'
        · subst here
          have only : ∀ j, j ∈ filed → j = i := by
            intro j member
            by_contra other
            have stays : j ∈ filed.erase i := ExtTreeSet.mem_erase.2 ⟨by simpa using Ne.symm other, member⟩
            rw [ExtTreeSet.isEmpty_iff.1 emptied] at stays
            simp at stays
          have := h.mem k i'
          simp only [bucket, found, Option.getD_some] at this
          simp only [bucket, BTreeMap.get_erase_self, Option.getD_none, ExtTreeSet.not_mem_empty, true_and, false_iff,
            not_and, not_not, ← this]
          exact only i'
        · simp [bucket, ExtTreeMap.getElem?_erase, here, Ne.symm here, ← h.mem]
      · intro k' b present
        by_cases here : k = k'
        · subst here
          rw [BTreeMap.get_erase_self] at present
          cases present
        · rw [BTreeMap.get_erase_ne m here] at present
          exact h.nonempty k' b present
    case isFalse some_left =>
      constructor
      · intro k' i'
        by_cases here : k = k'
        · subst here
          have := h.mem k i'
          simp only [bucket, found, Option.getD_some] at this
          simp [bucket, ← this, and_comm, eq_comm (a := i') (b := i)]
        · simp [bucket, ExtTreeMap.getElem?_insert, here, Ne.symm here, ← h.mem]
      · intro k' b present
        by_cases here : k = k'
        · subst here
          simp only [ExtTreeMap.getElem?_insert_self, Option.some.injEq] at present
          subst present
          intro gone
          simp [gone] at some_left
        · rw [BTreeMap.get_insert_ne m _ here] at present
          exact h.nonempty k' b present

/-- An index is determined by the relation it stands for. -/
theorem Represents.unique {m n : BTreeMap K (BTreeSet I)} {R : K → I → Prop} (hm : Represents m R)
    (hn : Represents n R) : m = n := by
  apply BTreeMap.ext_get
  intro k
  have same : bucket m k = bucket n k :=
    ExtTreeSet.ext_mem fun i => (hm.mem k i).trans (hn.mem k i).symm
  cases left : m[k]? with
  | none =>
    cases right : n[k]? with
    | none => rfl
    | some b => exact absurd (by simpa [bucket, left, right] using same.symm) (hn.nonempty k b right)
  | some a =>
    cases right : n[k]? with
    | none => exact absurd (by simpa [bucket, left, right] using same) (hm.nonempty k a left)
    | some b => simpa [bucket, left, right] using same

omit [LawfulEqOrd K] in
theorem Represents.mem_ids {m : BTreeMap K (BTreeSet I)} {R : K → I → Prop} (h : Represents m R) {k : K} {i : I} :
    i ∈ ids m k ↔ R k i := by
  rw [← h.mem, ids, bucket]
  cases m[k]? <;> simp

omit [LawfulEqOrd K] [LawfulEqOrd I] in
theorem ordered_ids (m : BTreeMap K (BTreeSet I)) (k : K) :
    (ids m k).Pairwise fun a b => compare a b = .lt := by
  rw [ids]
  cases m[k]? with
  | none => exact List.Pairwise.nil
  | some b => exact ExtTreeSet.ordered_toList

omit [LawfulEqOrd K] in
theorem nodup_ids (m : BTreeMap K (BTreeSet I)) (k : K) : (ids m k).Nodup := by
  rw [ids]
  cases m[k]? with
  | none => exact List.nodup_nil
  | some b => exact BTreeSet.nodup_toList b

omit [LawfulEqOrd K] [LawfulEqOrd I] in
theorem ids_eq_toList (m : BTreeMap K (BTreeSet I)) (k : K) : ids m k = (bucket m k).toList := by
  rw [ids, bucket]
  cases m[k]? with
  | none => exact BTreeSet.toList_empty.symm
  | some b => rfl

omit [LawfulEqOrd K] in
/-- Two indexes list the same under a key under which their relations agree. -/
theorem Represents.ids_congr {m n : BTreeMap K (BTreeSet I)} {R S : K → I → Prop} (hm : Represents m R)
    (hn : Represents n S) {k : K} (same : ∀ i, R k i ↔ S k i) : ids m k = ids n k := by
  rw [ids_eq_toList, ids_eq_toList]
  congr 1
  exact ExtTreeSet.ext_mem fun i => (hm.mem k i).trans ((same i).trans (hn.mem k i).symm)

/-! ## An index over a map of records -/

section Records

variable {R : Type}

/-- File `i` under every key of `keys`. -/
def addAll (m : BTreeMap K (BTreeSet I)) (keys : List K) (i : I) : BTreeMap K (BTreeSet I) :=
  keys.foldl (fun m k => add m k i) m

/-- Take `i` from under every key of `keys`. -/
def removeAll (m : BTreeMap K (BTreeSet I)) (keys : List K) (i : I) : BTreeMap K (BTreeSet I) :=
  keys.foldl (fun m k => remove m k i) m

/-- The index files each record of `recs` under its `keys`. -/
def Files (m : BTreeMap K (BTreeSet I)) (recs : BTreeMap I R) (keys : R → List K) : Prop :=
  Represents m fun k i => ∃ r, recs[i]? = some r ∧ k ∈ keys r

theorem Represents.addAll {m : BTreeMap K (BTreeSet I)} {T : K → I → Prop} (h : Represents m T)
    (keys : List K) (i : I) : Represents (addAll m keys i) fun k j => (k ∈ keys ∧ j = i) ∨ T k j := by
  induction keys generalizing m T with
  | nil => exact h.congr (by simp)
  | cons k keys ih =>
    refine (ih (h.add k i)).congr fun k' j => ?_
    simp only [List.mem_cons]
    tauto

theorem Represents.removeAll {m : BTreeMap K (BTreeSet I)} {T : K → I → Prop} (h : Represents m T)
    (keys : List K) (i : I) : Represents (removeAll m keys i) fun k j => T k j ∧ ¬ (k ∈ keys ∧ j = i) := by
  induction keys generalizing m T with
  | nil => exact h.congr (by simp)
  | cons k keys ih =>
    refine (ih (h.remove k i)).congr fun k' j => ?_
    simp only [List.mem_cons]
    tauto

/-- Writing a record: its previous keys out, its new keys in. -/
theorem Files.insert {m : BTreeMap K (BTreeSet I)} {recs : BTreeMap I R} {keys : R → List K}
    (h : Files m recs keys) (i : I) (r : R) :
    Files (Index.addAll (match recs[i]? with | some p => Index.removeAll m (keys p) i | none => m) (keys r) i)
      (recs.insert i r) keys := by
  have cleared : Represents (match recs[i]? with | some p => Index.removeAll m (keys p) i | none => m)
      fun k j => j ≠ i ∧ ∃ r, recs[j]? = some r ∧ k ∈ keys r := by
    split
    case h_1 p found =>
      refine (h.removeAll (keys p) i).congr fun k j => ?_
      constructor
      · rintro ⟨⟨q, hq, hk⟩, out⟩
        refine ⟨?_, q, hq, hk⟩
        rintro rfl
        rw [found, Option.some.injEq] at hq
        exact out ⟨hq ▸ hk, rfl⟩
      · rintro ⟨ne, here⟩
        exact ⟨here, fun same => ne same.2⟩
    case h_2 missing =>
      refine h.congr fun k j => ⟨?_, And.right⟩
      rintro ⟨q, hq, hk⟩
      refine ⟨?_, q, hq, hk⟩
      rintro rfl
      rw [missing] at hq
      cases hq
  refine (cleared.addAll (keys r) i).congr fun k j => ?_
  by_cases here : i = j
  · subst here
    simp
  · simp [ExtTreeMap.getElem?_insert, here, Ne.symm here]

/-- Removing a record: its keys out. -/
theorem Files.erase {m : BTreeMap K (BTreeSet I)} {recs : BTreeMap I R} {keys : R → List K}
    (h : Files m recs keys) {i : I} {r : R} (found : recs[i]? = some r) :
    Files (Index.removeAll m (keys r) i) (recs.erase i) keys := by
  refine (h.removeAll (keys r) i).congr fun k j => ?_
  by_cases here : i = j
  · subst here
    simp [found]
  · simp [ExtTreeMap.getElem?_erase, here, Ne.symm here]

/-- Filing a list of records, each under the id it carries. -/
theorem represents_foldl (keys : R → List K) (ident : R → I) (l : List R) {m : BTreeMap K (BTreeSet I)}
    {T : K → I → Prop} (h : Represents m T) :
    Represents (l.foldl (fun m r => Index.addAll m (keys r) (ident r)) m)
      fun k i => (∃ r ∈ l, k ∈ keys r ∧ i = ident r) ∨ T k i := by
  induction l generalizing m T with
  | nil => exact h.congr (by simp)
  | cons r l ih =>
    refine (ih (h.addAll (keys r) (ident r))).congr fun k i => ?_
    simp only [List.mem_cons, exists_eq_or_imp]
    rw [or_left_comm, or_assoc]

/-- Recomputing an index from the records gives the index that files them. -/
theorem files_rebuild (recs : BTreeMap I R) (keys : R → List K) (ident : R → I)
    (own : ∀ (i : I) (r : R), recs[i]? = some r → ident r = i) :
    Files (recs.vals.foldl (fun m r => Index.addAll m (keys r) (ident r)) ∅) recs keys := by
  refine (represents_foldl keys ident recs.vals represents_empty).congr fun k i => ?_
  simp only [or_false, BTreeMap.mem_vals]
  constructor
  · rintro ⟨r, ⟨j, found⟩, hk, rfl⟩
    exact ⟨r, own j r found ▸ found, hk⟩
  · rintro ⟨r, found, hk⟩
    exact ⟨r, ⟨i, found⟩, hk, (own i r found).symm⟩

omit [LawfulEqOrd K] [LawfulEqOrd I] in
theorem files_empty (keys : R → List K) : Files (∅ : BTreeMap K (BTreeSet I)) (∅ : BTreeMap I R) keys :=
  represents_empty.congr (by simp)

omit [LawfulEqOrd K] in
theorem Files.mem_ids {m : BTreeMap K (BTreeSet I)} {recs : BTreeMap I R} {keys : R → List K}
    (h : Files m recs keys) {k : K} {i : I} : i ∈ ids m k ↔ ∃ r, recs[i]? = some r ∧ k ∈ keys r :=
  Represents.mem_ids h

omit [LawfulEqOrd K] in
/-- Two indexes list the same under a key when the records that have the key are the same. -/
theorem Files.ids_congr {m n : BTreeMap K (BTreeSet I)} {recs others : BTreeMap I R} {keys : R → List K}
    (hm : Files m recs keys) (hn : Files n others keys) {k : K}
    (same : ∀ (i : I) (r : R), k ∈ keys r → (recs[i]? = some r ↔ others[i]? = some r)) : ids m k = ids n k :=
  Represents.ids_congr hm hn fun i => exists_congr fun r => and_congr_left (same i r)

end Records

end Index
