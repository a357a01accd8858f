import Mathlib.Algebra.BigOperators.Group.List.Basic
import Mathlib.Algebra.Order.Ring.Int
import Mathlib.Data.List.Infix
import Mathlib.Tactic.Common

/-!
# Ordered maps and sets

The ordered collections of the standard library, fixed to the `compare` of their
key type. They are extensional: two maps with the same lookups are equal, so a
state built from them is compared by its contents. The lemmas restate lookup after
an update with the equality of keys in place of the comparison, and read the
ascending list of values through lookups.
-/

open Std

/-- An ordered map; iteration is in ascending key order. -/
abbrev BTreeMap (K V : Type) [Ord K] := ExtTreeMap K V compare

/-- An ordered set; iteration is in ascending order. -/
abbrev BTreeSet (K : Type) [Ord K] := ExtTreeSet K compare

/-- Pairs are ordered lexicographically, as derived orders are. -/
instance instOrdProdLex {α β : Type} [Ord α] [Ord β] : Ord (α × β) := lexOrd

namespace BTreeMap
set_option autoImplicit false

variable {K V W : Type} [Ord K] [TransOrd K] [LawfulEqOrd K] [DecidableEq K]

omit [TransOrd K] [DecidableEq K] in
theorem compare_eq_iff {a b : K} : compare a b = .eq ↔ a = b :=
  LawfulEqCmp.compare_eq_iff_eq

theorem get_insert (m : BTreeMap K V) (k a : K) (v : V) :
    (m.insert k v)[a]? = if k = a then some v else m[a]? := by
  simp [ExtTreeMap.getElem?_insert]

theorem get_erase (m : BTreeMap K V) (k a : K) : (m.erase k)[a]? = if k = a then none else m[a]? := by
  simp [ExtTreeMap.getElem?_erase]

omit [DecidableEq K] in
theorem get_insert_self (m : BTreeMap K V) (k : K) (v : V) : (m.insert k v)[k]? = some v := by
  simp

omit [DecidableEq K] in
theorem get_erase_self (m : BTreeMap K V) (k : K) : (m.erase k)[k]? = none := by
  simp

omit [DecidableEq K] in
theorem get_insert_ne (m : BTreeMap K V) {k a : K} (v : V) (ne : k ≠ a) : (m.insert k v)[a]? = m[a]? := by
  simp [ExtTreeMap.getElem?_insert, ne]

omit [DecidableEq K] in
theorem get_erase_ne (m : BTreeMap K V) {k a : K} (ne : k ≠ a) : (m.erase k)[a]? = m[a]? := by
  simp [ExtTreeMap.getElem?_erase, ne]

omit [LawfulEqOrd K] [DecidableEq K] in
theorem mem_iff_get {m : BTreeMap K V} {k : K} : k ∈ m ↔ ∃ v, m[k]? = some v := by
  rw [ExtTreeMap.mem_iff_isSome_getElem?, Option.isSome_iff_exists]

omit [LawfulEqOrd K] [DecidableEq K] in
theorem not_mem_iff_get {m : BTreeMap K V} {k : K} : k ∉ m ↔ m[k]? = none := by
  rw [ExtTreeMap.mem_iff_isSome_getElem?]; simp

omit [DecidableEq K] in
theorem ext_get {m n : BTreeMap K V} (h : ∀ k : K, m[k]? = n[k]?) : m = n :=
  ExtTreeMap.ext_getElem? h

omit [DecidableEq K] in
theorem mem_insert {m : BTreeMap K V} {k a : K} {v : V} : a ∈ m.insert k v ↔ k = a ∨ a ∈ m := by
  simp

omit [DecidableEq K] in
theorem mem_erase {m : BTreeMap K V} {k a : K} : a ∈ m.erase k ↔ k ≠ a ∧ a ∈ m := by
  simp

omit [LawfulEqOrd K] [DecidableEq K] in
theorem contains_eq_false {m : BTreeMap K V} {k : K} : m.contains k = false ↔ k ∉ m := by
  rw [← ExtTreeMap.contains_iff_mem, Bool.not_eq_true]

omit [LawfulEqOrd K] [DecidableEq K] in
@[simp] theorem toList_empty : (∅ : BTreeMap K V).toList = [] := ExtTreeMap.toList_eq_nil_iff.2 rfl

/-- The values in ascending key order. -/
def vals (m : BTreeMap K V) : List V := m.toList.map Prod.snd

omit [DecidableEq K] in
theorem mem_vals {m : BTreeMap K V} {v : V} : v ∈ m.vals ↔ ∃ k : K, m[k]? = some v := by
  simp only [vals, List.mem_map, Prod.exists]
  constructor
  · rintro ⟨k, w, member, rfl⟩
    exact ⟨k, ExtTreeMap.mem_toList_iff_getElem?_eq_some.1 member⟩
  · rintro ⟨k, found⟩
    exact ⟨k, v, ExtTreeMap.mem_toList_iff_getElem?_eq_some.2 found, rfl⟩

omit [LawfulEqOrd K] [DecidableEq K] in
theorem ordered_toList (m : BTreeMap K V) :
    m.toList.Pairwise fun a b => compare a.1 b.1 = .lt :=
  ExtTreeMap.ordered_keys_toList

omit [DecidableEq K] in
/-- Records that carry their own keys are distinct. -/
theorem nodup_vals {m : BTreeMap K V} {ident : V → K} (own : ∀ (k : K) v, m[k]? = some v → ident v = k) :
    (m.vals.map ident).Nodup := by
  rw [List.nodup_iff_pairwise_ne, List.pairwise_map, vals, List.pairwise_map]
  refine (ordered_toList m).imp_of_mem fun {a b} memberA memberB less same => ?_
  rw [own _ _ (ExtTreeMap.mem_toList_iff_getElem?_eq_some.1 memberA),
    own _ _ (ExtTreeMap.mem_toList_iff_getElem?_eq_some.1 memberB)] at same
  have self : compare b.1 b.1 = .eq := ReflCmp.compare_self
  rw [same, self] at less
  cases less

/-- Write every entry of `l` in turn; a later entry wins. -/
def insertAll (m : BTreeMap K V) (l : List (K × V)) : BTreeMap K V :=
  l.foldl (fun m e => m.insert e.1 e.2) m

/-- Remove every key of `l` in turn. -/
def eraseAll (m : BTreeMap K V) (l : List K) : BTreeMap K V :=
  l.foldl (fun m k => m.erase k) m

omit [LawfulEqOrd K] [DecidableEq K] in
theorem insertAll_cons (m : BTreeMap K V) (e : K × V) (l : List (K × V)) :
    insertAll m (e :: l) = insertAll (m.insert e.1 e.2) l := rfl

omit [LawfulEqOrd K] [DecidableEq K] in
theorem eraseAll_cons (m : BTreeMap K V) (k : K) (l : List K) :
    eraseAll m (k :: l) = eraseAll (m.erase k) l := rfl

omit [DecidableEq K] in
/-- A key no entry writes keeps its value. -/
theorem get_insertAll_of_not_mem {m : BTreeMap K V} {l : List (K × V)} {a : K}
    (absent : ∀ e ∈ l, e.1 ≠ a) : (insertAll m l)[a]? = m[a]? := by
  induction l generalizing m with
  | nil => rfl
  | cons e l ih =>
    rw [insertAll_cons, ih fun e' member => absent e' (List.mem_cons_of_mem _ member)]
    exact get_insert_ne m e.2 (absent e List.mem_cons_self)

omit [DecidableEq K] in
/-- Where the written keys are distinct, every written entry is read back. -/
theorem get_insertAll_of_mem {m : BTreeMap K V} {l : List (K × V)} {e : K × V}
    (distinct : l.Pairwise fun x y => x.1 ≠ y.1) (member : e ∈ l) : (insertAll m l)[e.1]? = some e.2 := by
  induction l generalizing m with
  | nil => cases member
  | cons head l ih =>
    obtain ⟨first, rest⟩ := List.pairwise_cons.1 distinct
    rw [insertAll_cons]
    rcases List.mem_cons.1 member with rfl | later
    · rw [get_insertAll_of_not_mem fun e' h => (first e' h).symm]
      exact get_insert_self m e.1 e.2
    · exact ih rest later

/-- A value of the result was written or there before. -/
theorem insertAll_source {m : BTreeMap K V} {l : List (K × V)} {a : K} {v : V} (found : (insertAll m l)[a]? = some v) :
    (a, v) ∈ l ∨ m[a]? = some v := by
  induction l generalizing m with
  | nil => exact .inr found
  | cons e l ih =>
    rcases ih found with later | earlier
    · exact .inl (List.mem_cons_of_mem e later)
    · rw [get_insert] at earlier
      split at earlier
      next same =>
        obtain rfl := Option.some.inj earlier
        subst same
        exact .inl List.mem_cons_self
      next => exact .inr earlier

omit [LawfulEqOrd K] [DecidableEq K] in
theorem distinct_toList (m : BTreeMap K V) : m.toList.Pairwise fun x y => x.1 ≠ y.1 := by
  refine (ordered_toList m).imp fun {x y} less same => ?_
  have self : compare y.1 y.1 = .eq := ReflCmp.compare_self
  rw [same, self] at less
  cases less

omit [DecidableEq K] in
/-- Writing a whole map over another: the written map wins where it has the key. -/
theorem get_insertAll_toList (m p : BTreeMap K V) (a : K) :
    (insertAll m p.toList)[a]? = (p[a]?).or m[a]? := by
  cases found : p[a]? with
  | none =>
    rw [Option.none_or, get_insertAll_of_not_mem]
    rintro ⟨k, v⟩ member rfl
    rw [ExtTreeMap.mem_toList_iff_getElem?_eq_some, found] at member
    cases member
  | some v =>
    exact get_insertAll_of_mem (e := (a, v)) (distinct_toList p) (ExtTreeMap.mem_toList_iff_getElem?_eq_some.2 found)

omit [DecidableEq K] in
/-- A map is rebuilt from its entries. -/
theorem insertAll_toList (m : BTreeMap K V) : insertAll ∅ m.toList = m := by
  apply ext_get
  intro a
  rw [get_insertAll_toList]
  simp

/-- A map written from ascending entries lists them. -/
theorem toList_insertAll {l : List (K × V)} (ascending : l.Pairwise fun a b => compare a.1 b.1 = .lt) :
    (insertAll ∅ l).toList = l := by
  have apart : ∀ {a b : K × V}, compare a.1 b.1 = .lt → a.1 ≠ b.1 := by
    intro a b less same
    have self : compare b.1 b.1 = .eq := ReflCmp.compare_self
    rw [same, self] at less
    cases less
  have distinct : l.Pairwise fun a b => a.1 ≠ b.1 := ascending.imp fun {a b} less => apart less
  refine List.Perm.eq_of_pairwise (fun a b _ _ less greater => ?_) (ordered_toList _) ascending ?_
  · exact absurd rfl (apart (TransCmp.lt_trans less greater))
  · refine (List.perm_ext_iff_of_nodup ((distinct_toList _).imp ?_) (distinct.imp ?_)).2 fun e => ?_
    · rintro a b different rfl
      exact different rfl
    · rintro a b different rfl
      exact different rfl
    · rw [ExtTreeMap.mem_toList_iff_getElem?_eq_some]
      constructor
      · intro found
        rcases insertAll_source found with member | before
        · exact member
        · simp at before
      · exact get_insertAll_of_mem distinct

omit [DecidableEq K] in
theorem get_eraseAll_of_not_mem {m : BTreeMap K V} {l : List K} {a : K} (absent : a ∉ l) :
    (eraseAll m l)[a]? = m[a]? := by
  induction l generalizing m with
  | nil => rfl
  | cons k l ih =>
    rw [List.mem_cons, not_or] at absent
    rw [eraseAll_cons, ih absent.2, get_erase_ne m (Ne.symm absent.1)]

omit [DecidableEq K] in
theorem get_eraseAll_of_mem {m : BTreeMap K V} {l : List K} {a : K} (member : a ∈ l) :
    (eraseAll m l)[a]? = none := by
  induction l generalizing m with
  | nil => cases member
  | cons k l ih =>
    rw [eraseAll_cons]
    by_cases later : a ∈ l
    · exact ih later
    · rw [get_eraseAll_of_not_mem later, (List.mem_cons.1 member).resolve_right later]
      exact get_erase_self m k

/-! ### Maps whose values may fail to convert -/

section TryMap
variable {E : Type}

/-- Every value converted, in ascending key order; the first failure is the result. -/
def tryMap (f : V → Except E W) (m : BTreeMap K V) : Except E (BTreeMap K W) :=
  (m.toList.mapM fun e => (f e.2).map fun w => (e.1, w)).map fun l => insertAll ∅ l

omit [LawfulEqOrd K] [DecidableEq K] [Ord K] [TransOrd K] in
theorem mapM_entries {f : V → Except E W} {l : List (K × V)} {l' : List (K × W)}
    (ok : (l.mapM fun e => (f e.2).map fun w => (e.1, w)) = .ok l') :
    l'.map Prod.fst = l.map Prod.fst ∧ ∀ e ∈ l, ∃ w, f e.2 = .ok w ∧ (e.1, w) ∈ l' := by
  induction l generalizing l' with
  | nil => cases ok; exact ⟨rfl, nofun⟩
  | cons e l ih =>
    rw [List.mapM_cons] at ok
    cases converted : f e.2 with
    | error err => rw [converted] at ok; cases ok
    | ok w =>
      rw [converted] at ok
      cases rest : l.mapM fun e => (f e.2).map fun w => (e.1, w) with
      | error err => rw [rest] at ok; cases ok
      | ok l'' =>
        rw [rest] at ok
        cases ok
        obtain ⟨keys, values⟩ := ih rest
        refine ⟨congrArg (e.1 :: ·) keys, fun e' member => ?_⟩
        rcases List.mem_cons.1 member with rfl | later
        · exact ⟨w, converted, List.mem_cons_self⟩
        · obtain ⟨w', converted', listed⟩ := values e' later
          exact ⟨w', converted', List.mem_cons_of_mem _ listed⟩

omit [LawfulEqOrd K] [DecidableEq K] [Ord K] [TransOrd K] in
theorem mapM_entries_succeeds {f : V → Except E W} {l : List (K × V)} (converts : ∀ e ∈ l, ∃ w, f e.2 = .ok w) :
    ∃ l', (l.mapM fun e => (f e.2).map fun w => (e.1, w)) = .ok l' := by
  induction l with
  | nil => exact ⟨[], rfl⟩
  | cons e l ih =>
    obtain ⟨w, converted⟩ := converts e List.mem_cons_self
    obtain ⟨l', rest⟩ := ih fun e' member => converts e' (List.mem_cons_of_mem _ member)
    refine ⟨(e.1, w) :: l', ?_⟩
    rw [List.mapM_cons, converted, rest]
    rfl

omit [DecidableEq K] in
theorem tryMap_succeeds {f : V → Except E W} {m : BTreeMap K V}
    (converts : ∀ (k : K) v, m[k]? = some v → ∃ w, f v = .ok w) : ∃ n, tryMap f m = .ok n := by
  obtain ⟨l, ok⟩ := mapM_entries_succeeds (f := f) (l := m.toList) fun e member =>
    converts e.1 e.2 (ExtTreeMap.mem_toList_iff_getElem?_eq_some.1 member)
  exact ⟨insertAll ∅ l, by rw [tryMap, ok]; rfl⟩

omit [DecidableEq K] in
/-- A converted map has the keys of the original, each with its converted value. -/
theorem get_tryMap {f : V → Except E W} {m : BTreeMap K V} {n : BTreeMap K W} (ok : tryMap f m = .ok n) (k : K) :
    (∀ v, m[k]? = some v → ∃ w, f v = .ok w ∧ n[k]? = some w) ∧ (m[k]? = none → n[k]? = none) := by
  rw [tryMap] at ok
  cases entries : m.toList.mapM fun e => (f e.2).map fun w => (e.1, w) with
  | error e => rw [entries] at ok; cases ok
  | ok l =>
    rw [entries] at ok
    cases ok
    obtain ⟨keys, values⟩ := mapM_entries entries
    have distinct : l.Pairwise fun x y => x.1 ≠ y.1 := by
      rw [← List.pairwise_map (f := Prod.fst) (R := (· ≠ ·)), keys, List.pairwise_map]
      refine (ordered_toList m).imp fun {x y} lt equal => ?_
      have self : compare y.1 y.1 = .eq := ReflCmp.compare_self
      rw [equal, self] at lt
      cases lt
    constructor
    · intro v found
      obtain ⟨w, converted, member⟩ := values (k, v) (ExtTreeMap.mem_toList_iff_getElem?_eq_some.2 found)
      exact ⟨w, converted, get_insertAll_of_mem distinct member⟩
    · intro absent
      rw [get_insertAll_of_not_mem]
      · simp
      · rintro e' member rfl
        have key : e'.1 ∈ m.toList.map Prod.fst := keys ▸ List.mem_map_of_mem member
        obtain ⟨⟨a, v⟩, listed, same⟩ := List.mem_map.1 key
        have found := ExtTreeMap.mem_toList_iff_getElem?_eq_some.1 listed
        rw [show a = e'.1 from same, absent] at found
        cases found

omit [DecidableEq K] in
/-- A converted value comes from one of the original. -/
theorem tryMap_source {f : V → Except E W} {m : BTreeMap K V} {n : BTreeMap K W} (ok : tryMap f m = .ok n) {k : K}
    {w : W} (found : n[k]? = some w) : ∃ v, m[k]? = some v ∧ f v = .ok w := by
  obtain ⟨present, absent⟩ := get_tryMap ok k
  cases stored : m[k]? with
  | none => rw [absent stored] at found; cases found
  | some v =>
    obtain ⟨w', converted, same⟩ := present v stored
    rw [found] at same
    cases same
    exact ⟨v, rfl, converted⟩

omit [DecidableEq K] in
/-- A conversion with an inverse is undone by it. -/
theorem tryMap_inverse {f : V → Except E W} {g : W → Except E V} {m : BTreeMap K V} {n : BTreeMap K W}
    (inverse : ∀ v w, f v = .ok w → g w = .ok v) (ok : tryMap f m = .ok n) : tryMap g n = .ok m := by
  have back : ∀ (k : K) w, n[k]? = some w → ∃ v, m[k]? = some v ∧ g w = .ok v := by
    intro k w found
    obtain ⟨v, stored, converted⟩ := tryMap_source ok found
    exact ⟨v, stored, inverse v w converted⟩
  obtain ⟨m', ok'⟩ := tryMap_succeeds (f := g) (m := n) fun k w found => (back k w found).imp fun _ h => h.2
  rw [ok']
  congr 1
  apply ext_get
  intro k
  obtain ⟨present, absent⟩ := get_tryMap ok' k
  cases found : n[k]? with
  | none =>
    rw [absent found]
    cases stored : m[k]? with
    | none => rfl
    | some v =>
      obtain ⟨w, -, same⟩ := (get_tryMap ok k).1 v stored
      rw [found] at same
      cases same
  | some w =>
    obtain ⟨v, converted, same⟩ := present w found
    obtain ⟨v', stored, converted'⟩ := back k w found
    rw [converted] at converted'
    cases converted'
    rw [same, stored]

end TryMap

end BTreeMap

namespace BTreeSet
set_option autoImplicit false

variable {K : Type} [Ord K] [TransOrd K] [LawfulEqOrd K]

theorem mem_insert {s : BTreeSet K} {k a : K} : a ∈ s.insert k ↔ k = a ∨ a ∈ s := by
  simp

theorem mem_erase {s : BTreeSet K} {k a : K} : a ∈ s.erase k ↔ k ≠ a ∧ a ∈ s := by
  simp

omit [LawfulEqOrd K] in
@[simp] theorem toList_empty : (∅ : BTreeSet K).toList = [] := ExtTreeSet.toList_eq_nil_iff.2 rfl

theorem nodup_toList (s : BTreeSet K) : s.toList.Nodup :=
  ExtTreeSet.distinct_toList.imp fun apart same => apart (LawfulEqCmp.compare_eq_iff_eq.2 same)

omit [LawfulEqOrd K] in
theorem contains_eq_false {s : BTreeSet K} {k : K} : s.contains k = false ↔ k ∉ s := by
  rw [← Bool.not_eq_true, ExtTreeSet.contains_iff_mem]

end BTreeSet
