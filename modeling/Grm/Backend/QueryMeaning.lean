import Grm.Backend.Search
import Grm.Lib.Frontier

/-!
# The meaning of a kernel query

A kernel query asks for the variable assignments that satisfy its clauses over the graph a
transaction sees. The executor reads the root's clause and the hops: its rows are the
assignments that satisfy these, one for each returned id. The clause of a hop's end is
never read, so the filters in it select nothing.
-/

open Std

set_option autoImplicit false

/-- A graph as it is seen. -/
structure GraphView where
  node : Int → Option StoredNode
  rel : Int → Option StoredRel

/-- Ids for the variables of a query. -/
structure Assignment where
  node : VarId → Option Int
  rel : VarId → Option Int

/-- The relationship leads from `a` to `b` in the direction. -/
def StoredRel.Joins (r : StoredRel) : Direction → Int → Int → Prop
  | .out, a, b => r.fromId = a ∧ r.toId = b
  | .incoming, a, b => r.toId = a ∧ r.fromId = b
  | .both, a, b => (r.fromId = a ∧ r.toId = b) ∨ (r.toId = a ∧ r.fromId = b)

namespace NodeMatch

/-- The node is one the clause accepts. -/
def Accepts (nm : NodeMatch) (n : StoredNode) : Prop :=
  (∀ wanted, nm.idFilter = some wanted → n.id = wanted) ∧ labelsMatch n.labels nm.labels = true ∧
    propsMatchFilters n.props nm.propertyFilters = true

def Holds (nm : NodeMatch) (v : GraphView) (σ : Assignment) : Prop :=
  ∃ n, σ.node nm.var = some n.id ∧ v.node n.id = some n ∧ nm.Accepts n

end NodeMatch

namespace HopMatch

/-- From `a` over `r` to `n`, as the clause asks. -/
def Leads (h : HopMatch) (v : GraphView) (a : Int) (r : StoredRel) (n : StoredNode) : Prop :=
  v.rel r.id = some r ∧ v.node n.id = some n ∧ (∀ ty, h.relType = some ty → r.relType = ty) ∧ r.Joins h.dir a n.id ∧
    labelsMatch n.labels h.endLabels = true

def Holds (h : HopMatch) (v : GraphView) (σ : Assignment) : Prop :=
  ∃ a r n, σ.node h.start = some a ∧ σ.rel h.relVar = some r.id ∧ σ.node h.endVar = some n.id ∧ h.Leads v a r n

end HopMatch

def MatchClause.Holds (v : GraphView) (σ : Assignment) : MatchClause → Prop
  | .node nm => nm.Holds v σ
  | .hop h => h.Holds v σ

/-- The id an assignment has for the returned variable. -/
def Assignment.returned (σ : Assignment) : Return → Option Int
  | .node var => σ.node var
  | .rel var => σ.rel var

def Binding.assignment (b : Binding) : Assignment := ⟨fun var => b.nodes[var]?, fun var => b.rels[var]?⟩

/-- The variables are numbered along the hops: even ones for the nodes, odd ones between
them for the relationships. -/
def Numbered : Nat → List HopMatch → Prop
  | _, [] => True
  | current, h :: hops => h.start = current ∧ h.relVar = current + 1 ∧ h.endVar = current + 2 ∧ Numbered (current + 2) hops

namespace InMemoryTx
variable {tx : InMemoryTx}

def view (tx : InMemoryTx) : GraphView := ⟨tx.visibleNode, tx.visibleRel⟩

/-! ## Hops -/

theorem joins_some {r : StoredRel} {a : Int} {dir : Direction} : (∃ b, r.Joins dir a b) ↔ match dir with
    | .out => r.fromId = a
    | .incoming => r.toId = a
    | .both => r.fromId = a ∨ r.toId = a := by
  cases dir with
  | out => simp [StoredRel.Joins]
  | incoming => simp [StoredRel.Joins]
  | both => simp [StoredRel.Joins, exists_or]

theorem relMatchesNeighbor_iff {r : StoredRel} {a : Int} {relType : Option String} {dir : Direction} :
    relMatchesNeighbor r a relType dir = true ↔ (∀ ty, relType = some ty → r.relType = ty) ∧ ∃ b, r.Joins dir a b := by
  rw [joins_some]
  unfold relMatchesNeighbor
  cases relType with
  | none => cases dir <;> simp
  | some ty => by_cases same : r.relType = ty <;> cases dir <;> simp [same]

theorem neighborId_iff {r : StoredRel} {a b : Int} {dir : Direction} : neighborId r a dir = some b ↔ r.Joins dir a b := by
  unfold neighborId StoredRel.Joins
  cases dir with
  | out => simp
  | incoming => simp
  | both =>
    by_cases source : r.fromId = a
    · by_cases target : r.toId = a
      · simp [source, target]
      · simp [source, target]
    · simp [source]

/-- What one hop finds from a node that is seen. -/
theorem Valid.mem_traverseSingleHop (valid : tx.Valid) {b b' : Binding} {hop : HopMatch}
    (start : (tx.visibleNode b.cur).isSome) :
    b' ∈ tx.traverseSingleHop b hop ↔ ∃ r n, hop.Leads tx.view b.cur r n ∧ b' = createNextBinding b r n.id hop := by
  have pairs : ∀ r n, (r, n) ∈ tx.visibleNeighborPairs b.cur hop.relType hop.dir ↔
      tx.visibleRel r.id = some r ∧ tx.visibleNode n.id = some n ∧ (∀ ty, hop.relType = some ty → r.relType = ty) ∧
        r.Joins hop.dir b.cur n.id := by
    intro r n
    rw [valid.mem_visibleNeighborPairs start, relMatchesNeighbor_iff]
    simp only [Option.bind_eq_some_iff, neighborId_iff]
    constructor
    · rintro ⟨seen, ⟨typed, -⟩, k, joins, found⟩
      obtain rfl := valid.visibleNode_id found
      exact ⟨seen, found, typed, joins⟩
    · rintro ⟨seen, found, typed, joins⟩
      exact ⟨seen, ⟨typed, _, joins⟩, _, joins, found⟩
  have same : tx.traverseSingleHop b hop = ((tx.visibleNeighborPairs b.cur hop.relType hop.dir).filter fun pair =>
      labelsMatch pair.2.labels hop.endLabels).map fun pair => createNextBinding b pair.1 pair.2.id hop := by
    unfold traverseSingleHop
    cases hop.dir <;> rfl
  rw [same]
  simp only [List.mem_map, List.mem_filter, Prod.exists, pairs]
  constructor
  · rintro ⟨r, n, ⟨⟨seen, found, typed, joins⟩, labelled⟩, rfl⟩
    exact ⟨r, n, ⟨seen, found, typed, joins, labelled⟩, rfl⟩
  · rintro ⟨r, n, ⟨seen, found, typed, joins, labelled⟩, rfl⟩
    exact ⟨r, n, ⟨⟨seen, found, typed, joins⟩, labelled⟩, rfl⟩

/-- A binding up to the variable `current`, which is the node it is at. -/
structure Bound (tx : InMemoryTx) (current : Nat) (b : Binding) : Prop where
  even : current % 2 = 0
  here : b.nodes[current]? = some b.cur
  nodes : ∀ (var : Nat) (id : Int), b.nodes[var]? = some id → var % 2 = 0 ∧ var ≤ current ∧ (tx.visibleNode id).isSome
  rels : ∀ (var : Nat) (id : Int), b.rels[var]? = some id → var % 2 = 1 ∧ var ≤ current ∧ (tx.visibleRel id).isSome

/-- Two bindings agree on the variables up to `current`. -/
def SameUpTo (current : Nat) (b b' : Binding) : Prop :=
  ∀ var ≤ current, b'.nodes[var]? = b.nodes[var]? ∧ b'.rels[var]? = b.rels[var]?

section Hop
variable {current : Nat} {b : Binding} {hop : HopMatch} {r : StoredRel} {n : StoredNode}

theorem Bound.seen (h : tx.Bound current b) : (tx.visibleNode b.cur).isSome := (h.nodes current b.cur h.here).2.2

theorem Bound.next (h : tx.Bound current b) (relVar : hop.relVar = current + 1) (endVar : hop.endVar = current + 2)
    (leads : hop.Leads tx.view b.cur r n) : tx.Bound (current + 2) (createNextBinding b r n.id hop) := by
  have even := h.even
  refine ⟨by omega, ?_, ?_, ?_⟩
  · rw [createNextBinding, endVar]
    exact BTreeMap.get_insert_self _ _ _
  · intro var id found
    simp only [createNextBinding, endVar, BTreeMap.get_insert] at found
    split at found
    case isTrue same =>
      cases found
      refine ⟨by omega, by omega, ?_⟩
      have seen : tx.visibleNode n.id = some n := leads.2.1
      rw [seen]
      rfl
    case isFalse =>
      obtain ⟨parity, below, seen⟩ := h.nodes var id found
      exact ⟨parity, by omega, seen⟩
  · intro var id found
    simp only [createNextBinding, relVar, BTreeMap.get_insert] at found
    split at found
    case isTrue same =>
      cases found
      refine ⟨by omega, by omega, ?_⟩
      have seen : tx.visibleRel r.id = some r := leads.1
      rw [seen]
      rfl
    case isFalse =>
      obtain ⟨parity, below, seen⟩ := h.rels var id found
      exact ⟨parity, by omega, seen⟩

theorem sameUpTo_hop (relVar : hop.relVar = current + 1) (endVar : hop.endVar = current + 2) :
    SameUpTo current b (createNextBinding b r n.id hop) := by
  intro var below
  simp only [createNextBinding, relVar, endVar]
  exact ⟨BTreeMap.get_insert_ne _ _ (by omega), BTreeMap.get_insert_ne _ _ (by omega)⟩

end Hop

/-! ## Walks along the hops -/

variable {current : Nat} {b b' : Binding} {hops : List HopMatch}

/-- One hop of the search. -/
abbrev hopFrom (tx : InMemoryTx) (hop : HopMatch) (b : Binding) : List Binding := tx.traverseSingleHop b hop

/-- What a search reaches satisfies the hops and extends the binding it started from. -/
theorem Bound.reaches (h : tx.Bound current b) (valid : tx.Valid) (numbered : Numbered current hops)
    (reaches : Reaches tx.hopFrom hops b b') :
    tx.Bound (current + 2 * hops.length) b' ∧ SameUpTo current b b' ∧ ∀ hop ∈ hops, hop.Holds tx.view b'.assignment := by
  induction reaches generalizing current with
  | here b => exact ⟨h, fun _ _ => ⟨rfl, rfl⟩, by simp⟩
  | @step hop hops b mid b' now later ih =>
    obtain ⟨start, relVar, endVar, rest⟩ := numbered
    obtain ⟨r, n, leads, rfl⟩ := (valid.mem_traverseSingleHop h.seen).1 now
    have next := h.next relVar endVar leads
    obtain ⟨bound, same, holds⟩ := ih next rest
    have first := sameUpTo_hop (b := b) (r := r) (n := n) relVar endVar
    refine ⟨?_, ?_, ?_⟩
    · rw [List.length_cons, show current + 2 * (hops.length + 1) = current + 2 + 2 * hops.length by omega]
      exact bound
    · intro var below
      obtain ⟨nodes, rels⟩ := same var (by omega)
      obtain ⟨nodes', rels'⟩ := first var below
      exact ⟨nodes.trans nodes', rels.trans rels'⟩
    · intro other member
      rcases List.mem_cons.1 member with rfl | member
      · refine ⟨b.cur, r, n, ?_, ?_, ?_, leads⟩
        · show b'.nodes[other.start]? = _
          rw [start, (same current (by omega)).1, (first current (by omega)).1]
          exact h.here
        · show b'.rels[other.relVar]? = _
          rw [relVar, (same (current + 1) (by omega)).2]
          simp [createNextBinding, relVar]
        · show b'.nodes[other.endVar]? = _
          rw [endVar, (same (current + 2) (by omega)).1]
          simp [createNextBinding, endVar]
      · exact holds other member

/-- The assignment gives the variables after `current` the ids of the binding. -/
def SameFrom (current last : Nat) (σ : Assignment) (b : Binding) : Prop :=
  ∀ var, current ≤ var → var ≤ last → (var % 2 = 0 → b.nodes[var]? = σ.node var) ∧
    (var % 2 = 1 → current < var → b.rels[var]? = σ.rel var)

/-- An assignment that satisfies the hops is reached. -/
theorem Bound.complete (h : tx.Bound current b) (valid : tx.Valid) (numbered : Numbered current hops) {σ : Assignment}
    (starts : σ.node current = some b.cur) (holds : ∀ hop ∈ hops, hop.Holds tx.view σ) :
    ∃ b', Reaches tx.hopFrom hops b b' ∧ SameFrom current (current + 2 * hops.length) σ b' := by
  induction hops generalizing current b with
  | nil =>
    refine ⟨b, .here b, fun var from_ upTo => ?_⟩
    obtain rfl : var = current := by simp at upTo; omega
    exact ⟨fun _ => h.here.trans starts.symm, fun _ never => absurd never (by omega)⟩
  | cons hop hops ih =>
    obtain ⟨start, relVar, endVar, rest⟩ := numbered
    obtain ⟨a, r, n, from_, via, ends, leads⟩ := holds hop List.mem_cons_self
    rw [start, starts, Option.some.injEq] at from_
    subst from_
    have next := h.next relVar endVar leads
    rw [endVar] at ends
    obtain ⟨b', later, same⟩ := ih next rest ends fun hop member => holds hop (List.mem_cons_of_mem _ member)
    have now : createNextBinding b r n.id hop ∈ tx.hopFrom hop b :=
      (valid.mem_traverseSingleHop h.seen).2 ⟨r, n, leads, rfl⟩
    refine ⟨b', .step now later, fun var from_ upTo => ?_⟩
    obtain ⟨-, frame, -⟩ := next.reaches valid rest later
    have first := sameUpTo_hop (b := b) (r := r) (n := n) relVar endVar
    rw [List.length_cons] at upTo
    have even := h.even
    by_cases own : var = current
    · subst own
      refine ⟨fun _ => ?_, fun _ never => absurd never (by omega)⟩
      rw [(frame var (by omega)).1, (first var (by omega)).1, h.here, starts]
    · by_cases mid : var = current + 1
      · subst mid
        refine ⟨fun parity => absurd parity (by omega), fun _ _ => ?_⟩
        rw [(frame (current + 1) (by omega)).2, ← relVar, via]
        simp [createNextBinding]
      · obtain ⟨nodes, rels⟩ := same var (by omega) (by omega)
        exact ⟨nodes, fun odd _ => rels odd (by omega)⟩

end InMemoryTx
