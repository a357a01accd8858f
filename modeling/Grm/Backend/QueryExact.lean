import Grm.Backend.QueryMeaning

/-!
# The kernel query is exact

`execute_graph_query` on a compiled query: its rows are one for each id that is returned by
an assignment which satisfies the root's clause and every hop. An index lookup overlooks a
root that has the other zero of the value it looks up, and nothing else; the filters of a
hop's end are not read.
-/

open Std

set_option autoImplicit false

namespace GraphQuery

/-- The clauses the executor reads hold: the root's and the hops'. -/
def Read (q : GraphQuery) (v : GraphView) (σ : Assignment) : Prop :=
  (∀ nm, q.clauses.findSome? MatchClause.node? = some nm → nm.Holds v σ) ∧ ∀ h, .hop h ∈ q.clauses → h.Holds v σ

/-- All clauses hold. -/
def Satisfied (q : GraphQuery) (v : GraphView) (σ : Assignment) : Prop := ∀ c ∈ q.clauses, c.Holds v σ

theorem Satisfied.read {q : GraphQuery} {v : GraphView} {σ : Assignment} (h : q.Satisfied v σ) : q.Read v σ := by
  refine ⟨fun nm found => ?_, fun hop member => h (.hop hop) member⟩
  obtain ⟨c, member, is⟩ := List.exists_of_findSome?_eq_some found
  cases c with
  | node nm' =>
    cases is
    exact h (.node nm) member
  | hop h => cases is

end GraphQuery

/-- The returned variable is one of those bound along the hops. -/
def Return.Within (last : Nat) : Return → Prop
  | .node var => var % 2 = 0 ∧ var ≤ last
  | .rel var => var % 2 = 1 ∧ var ≤ last

/-- An assignment that satisfies numbered hops has an id for each variable. -/
theorem Numbered.assigned {v : GraphView} {σ : Assignment} {current : Nat} {hops : List HopMatch}
    (numbered : Numbered current hops) (even : current % 2 = 0) (holds : ∀ hop ∈ hops, hop.Holds v σ) :
    ∀ var : Nat, current < var → var ≤ current + 2 * hops.length →
      (var % 2 = 0 → ∃ id, σ.node var = some id) ∧ (var % 2 = 1 → ∃ id, σ.rel var = some id) := by
  induction hops generalizing current with
  | nil =>
    intro var above below
    exact absurd below (by simp; omega)
  | cons hop hops ih =>
    intro var above below
    obtain ⟨-, relVar, endVar, rest⟩ := numbered
    obtain ⟨a, r, n, -, via, ends, -⟩ := holds hop List.mem_cons_self
    rw [List.length_cons] at below
    by_cases first : var = current + 1
    · subst first
      refine ⟨fun parity => absurd parity (by omega), fun _ => ⟨r.id, ?_⟩⟩
      rw [← relVar]
      exact via
    · by_cases second : var = current + 2
      · subst second
        refine ⟨fun _ => ⟨n.id, ?_⟩, fun parity => absurd parity (by omega)⟩
        rw [← endVar]
        exact ends
      · exact ih rest (by omega) (fun hop member => holds hop (List.mem_cons_of_mem _ member)) var (by omega) (by omega)

/-- The returned variable has an id. -/
theorem Return.Within.assigned {v : GraphView} {b : Binding} {hops : List HopMatch} {ret : Return} {root : Int}
    (within : ret.Within (2 * hops.length)) (numbered : Numbered 0 hops) (own : b.assignment.node 0 = some root)
    (holds : ∀ hop ∈ hops, hop.Holds v b.assignment) : ∃ id, InMemoryTx.returnedId ret b = some id := by
  have assigned := numbered.assigned rfl holds
  rw [Nat.zero_add] at assigned
  cases ret with
  | node var =>
    by_cases zero : var = 0
    · subst zero
      exact ⟨root, own⟩
    · exact (assigned var (Nat.pos_of_ne_zero zero) within.2).1 within.1
  | rel var =>
    have apart : var ≠ 0 := by
      rintro rfl
      exact absurd within.1 (by decide)
    exact (assigned var (Nat.pos_of_ne_zero apart) within.2).2 within.1

/-- A binding that agrees with an assignment returns the same. -/
theorem Return.Within.same {σ : Assignment} {b : Binding} {ret : Return} {last : Nat} (within : ret.Within last)
    (same : InMemoryTx.SameFrom 0 (0 + last) σ b) : InMemoryTx.returnedId ret b = σ.returned ret := by
  rw [Nat.zero_add] at same
  cases ret with
  | node var => exact (same var (Nat.zero_le _) within.2).1 within.1
  | rel var =>
    have apart : var ≠ 0 := by
      rintro rfl
      exact absurd within.1 (by decide)
    exact (same var (Nat.zero_le _) within.2).2 within.1 (Nat.pos_of_ne_zero apart)

/-- The id of the returned record in a row. -/
def QueryRow.returnedId (row : QueryRow) : Return → Option Int
  | .node var => (row.values[var]?).bind fun | .node n => some n.id | .rel _ => none
  | .rel var => (row.values[var]?).bind fun | .node _ => none | .rel r => some r.id

/-- What an assignment says of a variable. -/
def Assignment.value (σ : Assignment) (v : GraphView) (var : VarId) : Option KernelValue :=
  (((σ.node var).bind v.node).map KernelValue.node).or (((σ.rel var).bind v.rel).map KernelValue.rel)

/-- Only even variables are those of nodes. -/
def Assignment.Parted (σ : Assignment) : Prop := ∀ (var : Nat) (id : Int), σ.node var = some id → var % 2 = 0

/-- The row has the records of the assignment. -/
def Assignment.Shown (σ : Assignment) (v : GraphView) (row : QueryRow) : Prop :=
  ∀ var, row.values[var]? = σ.value v var

namespace InMemoryTx
variable {tx tx' : InMemoryTx}

/-! ## Roots -/

/-- A root the index lookup does not find: it is stored with the other zero of the anchor's value. -/
def overlooks (tx : InMemoryTx) (nm : NodeMatch) (n : StoredNode) : Bool :=
  nm.idFilter.isNone && tx.workingCopy.isNone && !tx.delta.nodes.contains n.id &&
    (tx.store.anchorFilter nm.labels nm.propertyFilters).any (GraphStore.hasOppositeZero n)

theorem ReadOf.view (read : tx.ReadOf tx') : tx'.view = tx.view := by
  rcases read with rfl | rfl
  · rfl
  · unfold InMemoryTx.view InMemoryTx.visibleNode InMemoryTx.visibleRel
    simp only [tx.store.freshProps_nodes, tx.store.freshProps_rels]

theorem overlooks_eq_false (plain : tx.workingCopy = none) {nm : NodeMatch} (unasked : nm.idFilter = none) {n : StoredNode}
    (unwritten : n.id ∉ tx.delta.nodes) : tx.overlooks nm n = false ↔
      ∀ f, tx.store.anchorFilter nm.labels nm.propertyFilters = some f → GraphStore.hasOppositeZero n f = false := by
  unfold overlooks
  rw [plain, unasked, BTreeMap.contains_eq_false.2 unwritten]
  cases tx.store.anchorFilter nm.labels nm.propertyFilters <;> simp

/-- A search lists what is seen and accepted, but for what its index overlooks. -/
theorem Coherent.mem_visibleNodesMatching (h : tx.Coherent) (nm : NodeMatch) (n : StoredNode) (unasked : nm.idFilter = none) :
    n ∈ (tx.visibleNodesMatching nm.labels nm.propertyFilters).2 ↔ tx.visibleNode n.id = some n ∧
      (labelsMatch n.labels nm.labels && propsMatchFilters n.props nm.propertyFilters) = true ∧ tx.overlooks nm n = false := by
  unfold visibleNodesMatching baseNodesMatching
  cases copy : tx.workingCopy with
  | some w =>
    have free : tx.overlooks nm n = false := by simp [overlooks, copy]
    rw [free]
    simpa using (h.copy_exact copy fun node => labelsMatch node.labels nm.labels &&
      propsMatchFilters node.props nm.propertyFilters).2 n
  | none =>
    have nodes : (tx.store.baseNodeCandidateIds nm.labels nm.propertyFilters).1.nodes = tx.store.nodes := by
      unfold GraphStore.baseNodeCandidateIds
      dsimp only
      split
      · rfl
      · exact tx.store.freshProps_nodes
    -- with what is overlooked left out, the candidates cover what is accepted
    let accepts (node : StoredNode) : Bool := (labelsMatch node.labels nm.labels &&
      propsMatchFilters node.props nm.propertyFilters) && !tx.overlooks nm node
    have exact_ := (h.overlay_exact_iff copy (h.store.nodup_candidates nm.labels nm.propertyFilters) accepts).2 (by
      intro k node stored kept unwritten accepted
      obtain rfl := h.store.nodeId k node stored
      simp only [accepts, Bool.and_eq_true, Bool.not_eq_true'] at accepted
      exact (h.store.mem_candidates stored accepted.1.1 accepted.1.2).2
        ((overlooks_eq_false copy unasked unwritten).1 accepted.2))
    have base : ((tx.store.baseNodeCandidateIds nm.labels nm.propertyFilters).2.filterMap fun id => tx.store.nodes[id]?).filter
        (fun node => !tx.delta.deletedNodes.contains node.id && !tx.delta.nodes.contains node.id && accepts node) =
        ((tx.store.baseNodeCandidateIds nm.labels nm.propertyFilters).2.filterMap fun id => tx.store.nodes[id]?).filter
        (fun node => !tx.delta.deletedNodes.contains node.id && !tx.delta.nodes.contains node.id &&
          (labelsMatch node.labels nm.labels && propsMatchFilters node.props nm.propertyFilters)) := by
      refine List.filter_congr fun node member => ?_
      obtain ⟨k, candidate, stored⟩ := List.mem_filterMap.1 member
      obtain rfl := h.store.nodeId k node stored
      by_cases written : node.id ∈ tx.delta.nodes
      · have there : tx.delta.nodes.contains node.id = true := ExtTreeMap.contains_iff_mem.2 written
        simp only [there, Bool.not_true, Bool.and_false, Bool.false_and]
      · cases accepted : labelsMatch node.labels nm.labels && propsMatchFilters node.props nm.propertyFilters with
        | true =>
          have labelled := (Bool.and_eq_true _ _).mp accepted
          have found : tx.overlooks nm node = false := (overlooks_eq_false copy unasked written).2
            ((h.store.mem_candidates stored labelled.1 labelled.2).1 candidate)
          simp only [accepts, accepted, found, Bool.not_false, Bool.and_true]
        | false => simp only [accepts, accepted, Bool.false_and]
    have written : tx.delta.nodes.vals.filter accepts = tx.delta.nodes.vals.filter fun node =>
        labelsMatch node.labels nm.labels && propsMatchFilters node.props nm.propertyFilters := by
      refine List.filter_congr fun node member => ?_
      obtain ⟨k, found⟩ := BTreeMap.mem_vals.1 member
      obtain rfl := h.written k node found
      have there : tx.delta.nodes.contains node.id = true :=
        ExtTreeMap.contains_iff_mem.2 (BTreeMap.mem_iff_get.2 ⟨node, found⟩)
      simp [accepts, overlooks, there]
    rw [base, written] at exact_
    dsimp only
    simp only [nodes, Bool.and_assoc _ (labelsMatch _ nm.labels)]
    refine (exact_.2 n).trans ?_
    simp only [accepts, Bool.and_eq_true, Bool.not_eq_true']

theorem Valid.mem_seedRoots (valid : tx.Valid) {nm : NodeMatch} {b : Binding} :
    b ∈ (tx.seedRoots nm).2 ↔ ∃ n, tx.visibleNode n.id = some n ∧ nm.Accepts n ∧ tx.overlooks nm n = false ∧
      b = Binding.newRoot nm.var n.id := by
  unfold seedRoots
  cases asked : nm.idFilter with
  | some id =>
    have free : ∀ n, tx.overlooks nm n = false := fun n => by simp [overlooks, asked]
    simp only [NodeMatch.Accepts, asked, Option.some.injEq, free, true_and]
    cases found : tx.visibleNode id with
    | none =>
      simp only [List.not_mem_nil, false_iff]
      rintro ⟨n, seen, ⟨own, -⟩, -⟩
      rw [own id rfl, found] at seen
      cases seen
    | some node =>
      obtain rfl := valid.visibleNode_id found
      dsimp only
      split
      case isTrue accepted =>
        rw [Bool.and_eq_true] at accepted
        rw [List.mem_singleton]
        constructor
        · rintro rfl
          exact ⟨node, found, ⟨fun _ same => same, accepted⟩, rfl⟩
        · rintro ⟨n, seen, ⟨own, -⟩, rfl⟩
          rw [own node.id rfl]
      case isFalse rejected =>
        simp only [List.not_mem_nil, false_iff]
        rintro ⟨n, seen, ⟨own, accepted⟩, -⟩
        rw [own node.id rfl, found] at seen
        cases seen
        exact rejected ((Bool.and_eq_true _ _).mpr accepted)
  | none =>
    simp only [List.mem_map, valid.coherent.mem_visibleNodesMatching nm _ asked, NodeMatch.Accepts, asked]
    constructor
    · rintro ⟨n, ⟨seen, accepted, found⟩, rfl⟩
      exact ⟨n, seen, ⟨nofun, by simpa using accepted⟩, found, rfl⟩
    · rintro ⟨n, seen, ⟨-, accepted⟩, found, rfl⟩
      exact ⟨n, ⟨seen, by simpa using accepted, found⟩, rfl⟩

/-! ## Rows -/

/-- A row has the records of its binding. -/
theorem Bound.emitRow {last : Nat} {b : Binding} (h : tx.Bound last b) : b.assignment.Shown tx.view (tx.emitRow b) := by
  have nodes : ∀ (var : Nat) (id : Int), (var, id) ∈ b.nodes.toList ↔ b.nodes[var]? = some id :=
    fun var id => ExtTreeMap.mem_toList_iff_getElem?_eq_some
  have rels : ∀ (var : Nat) (id : Int), (var, id) ∈ b.rels.toList ↔ b.rels[var]? = some id :=
    fun var id => ExtTreeMap.mem_toList_iff_getElem?_eq_some
  have keyed {α : Type} (m : BTreeMap Nat Int) (f : Int → Option α) (g : α → KernelValue) :
      (m.toList.filterMap fun e => (f e.2).map fun a => (e.1, g a)).Pairwise fun x y => x.1 ≠ y.1 := by
    refine List.Pairwise.filterMap _ ?_ (BTreeMap.distinct_toList m)
    rintro a a' apart x found x' found'
    obtain ⟨-, -, rfl⟩ := Option.map_eq_some_iff.1 found
    obtain ⟨-, -, rfl⟩ := Option.map_eq_some_iff.1 found'
    exact apart
  have distinct := List.pairwise_append.2 ⟨keyed b.nodes tx.visibleNode .node, keyed b.rels tx.visibleRel .rel, by
    intro x inNodes y inRels same
    obtain ⟨⟨var, id⟩, member, found⟩ := List.mem_filterMap.1 inNodes
    obtain ⟨⟨var', id'⟩, member', found'⟩ := List.mem_filterMap.1 inRels
    obtain ⟨n, -, first⟩ := Option.map_eq_some_iff.1 found
    obtain ⟨r, -, second⟩ := Option.map_eq_some_iff.1 found'
    obtain rfl : var = var' := (congrArg Prod.fst first).trans (same.trans (congrArg Prod.fst second).symm)
    have even := (h.nodes var id ((nodes var id).1 member)).1
    have odd := (h.rels var id' ((rels var id').1 member')).1
    omega⟩
  intro var
  unfold InMemoryTx.emitRow Assignment.value
  show _ = ((((b.nodes[var]?).bind tx.visibleNode).map _).or (((b.rels[var]?).bind tx.visibleRel).map _) : Option KernelValue)
  dsimp only
  cases node : (b.nodes[var]?).bind tx.visibleNode with
  | some n =>
    obtain ⟨id, bound, seen⟩ := Option.bind_eq_some_iff.1 node
    refine BTreeMap.get_insertAll_of_mem (e := (var, KernelValue.node n)) distinct (List.mem_append_left _ ?_)
    exact List.mem_filterMap.2 ⟨(var, id), (nodes var id).2 bound, by rw [seen]; rfl⟩
  | none =>
    cases rel : (b.rels[var]?).bind tx.visibleRel with
    | some r =>
      obtain ⟨id, bound, seen⟩ := Option.bind_eq_some_iff.1 rel
      refine BTreeMap.get_insertAll_of_mem (e := (var, KernelValue.rel r)) distinct (List.mem_append_right _ ?_)
      exact List.mem_filterMap.2 ⟨(var, id), (rels var id).2 bound, by rw [seen]; rfl⟩
    | none =>
      refine (BTreeMap.get_insertAll_of_not_mem ?_).trans (by simp)
      rintro e member rfl
      rcases List.mem_append.1 member with inNodes | inRels
      · obtain ⟨⟨var, id⟩, bound, found⟩ := List.mem_filterMap.1 inNodes
        obtain ⟨n, seen, rfl⟩ := Option.map_eq_some_iff.1 found
        rw [(nodes var id).1 bound, Option.bind_some, seen] at node
        cases node
      · obtain ⟨⟨var, id⟩, bound, found⟩ := List.mem_filterMap.1 inRels
        obtain ⟨r, seen, rfl⟩ := Option.map_eq_some_iff.1 found
        rw [(rels var id).1 bound, Option.bind_some, seen] at rel
        cases rel

/-- The record a row returns is the one its binding has for the variable. -/
theorem Bound.returnedId {last : Nat} {b : Binding} (h : tx.Bound last b) (valid : tx.Valid) (ret : Return) :
    (tx.emitRow b).returnedId ret = InMemoryTx.returnedId ret b := by
  have shown := h.emitRow
  cases ret with
  | node var =>
    unfold QueryRow.returnedId InMemoryTx.returnedId
    dsimp only
    rw [shown var, Assignment.value]
    show (((((b.nodes[var]?).bind tx.visibleNode).map _).or (((b.rels[var]?).bind tx.visibleRel).map _) :
      Option KernelValue).bind _) = b.nodes[var]?
    cases bound : b.nodes[var]? with
    | some id =>
      obtain ⟨n, seen⟩ := Option.isSome_iff_exists.1 (h.nodes var id bound).2.2
      rw [Option.bind_some, seen]
      exact congrArg some (valid.visibleNode_id seen)
    | none =>
      rw [Option.bind_none, Option.map_none, Option.none_or]
      cases (b.rels[var]?).bind tx.visibleRel <;> rfl
  | rel var =>
    unfold QueryRow.returnedId InMemoryTx.returnedId
    dsimp only
    rw [shown var, Assignment.value]
    show (((((b.nodes[var]?).bind tx.visibleNode).map _).or (((b.rels[var]?).bind tx.visibleRel).map _) :
      Option KernelValue).bind _) = b.rels[var]?
    cases bound : b.rels[var]? with
    | some id =>
      obtain ⟨odd, -, there⟩ := h.rels var id bound
      obtain ⟨r, seen⟩ := Option.isSome_iff_exists.1 there
      have unbound : b.nodes[var]? = none := by
        cases bound' : b.nodes[var]? with
        | none => rfl
        | some id' =>
          have even := (h.nodes var id' bound').1
          omega
      rw [unbound, Option.bind_some, seen]
      exact congrArg some (valid.visibleRel_id seen)
    | none =>
      rw [Option.bind_none, Option.map_none, Option.or_none]
      cases (b.nodes[var]?).bind tx.visibleNode <;> rfl

/-! ## The rows of a query -/

/-- The executor reads the assignment, and finds its root. -/
def Answers (tx : InMemoryTx) (q : GraphQuery) (σ : Assignment) : Prop :=
  q.Read tx.view σ ∧ ∀ nm, q.clauses.findSome? MatchClause.node? = some nm →
    ∀ n, tx.visibleNode n.id = some n → σ.node nm.var = some n.id → tx.overlooks nm n = false

/-- The rows of a query are its answers, one for each returned id. -/
structure RowsOf (tx : InMemoryTx) (q : GraphQuery) (rows : List QueryRow) : Prop where
  distinct : (rows.map (QueryRow.returnedId · q.ret)).Nodup
  sound : ∀ row ∈ rows, ∃ σ id, tx.Answers q σ ∧ σ.Parted ∧ σ.Shown tx.view row ∧
    σ.returned q.ret = some id ∧ row.returnedId q.ret = some id
  complete : ∀ σ, tx.Answers q σ → ∃ row ∈ rows, row.returnedId q.ret = σ.returned q.ret

/-- What the clauses of a query with numbered hops say. -/
structure Shaped (q : GraphQuery) (nm : NodeMatch) (hops : List HopMatch) : Prop where
  root : q.clauses.findSome? MatchClause.node? = some nm
  rootVar : nm.var = 0
  hopClauses : q.clauses.filterMap MatchClause.hop? = hops
  numbered : Numbered 0 hops
  returned : q.ret.Within (2 * hops.length)

theorem Shaped.mem_clauses {q : GraphQuery} {nm : NodeMatch} {hops : List HopMatch} (h : Shaped q nm hops) {hop : HopMatch}
    (listed : hop ∈ hops) : .hop hop ∈ q.clauses := by
  rw [← h.hopClauses] at listed
  obtain ⟨c, member, is⟩ := List.mem_filterMap.1 listed
  cases c with
  | node nm' => cases is
  | hop hop' =>
    cases is
    exact member

theorem page_map {α β : Type} (f : α → β) (offset limit : Option Nat) (l : List α) :
    (page offset limit l).map f = page offset limit (l.map f) := by
  unfold page
  cases limit with
  | none => exact List.map_drop
  | some lim => exact List.map_take.trans (congrArg _ List.map_drop)

/-- The rows before paging. -/
theorem Valid.rowsOf (valid : tx.Valid) {q : GraphQuery} {nm : NodeMatch} {hops : List HopMatch} (shaped : Shaped q nm hops) :
    ∃ tx' rows, tx.ReadOf tx' ∧ tx.executeGraphQuery q = .ok (tx', page q.offset q.limit rows) ∧ tx.RowsOf q rows := by
  have read := tx.seedRoots_read nm
  have valid' := read.valid valid
  have view := read.view
  let found := (tx.seedRoots nm).1.traverseHops (tx.seedRoots nm).2 hops
  have executed : tx.executeGraphQuery q = .ok ((tx.seedRoots nm).1,
      page q.offset q.limit ((firstByKey (InMemoryTx.returnedId q.ret) [] found).map (tx.seedRoots nm).1.emitRow)) := by
    unfold executeGraphQuery selectedBindings ExecCtx.build
    rw [shaped.root]
    dsimp only
    rw [shaped.hopClauses]
    show Except.ok ((tx.seedRoots nm).1, (selectBindingsForReturn q found).map _) = _
    rw [selectBindingsForReturn, page_map]
  have visible : (tx.seedRoots nm).1.visibleNode = tx.visibleNode := congrArg GraphView.node view
  have start : ∀ n, tx.visibleNode n.id = some n →
      (tx.seedRoots nm).1.Bound 0 (Binding.newRoot nm.var n.id) := by
    intro n seen
    refine ⟨rfl, ?_, ?_, ?_⟩
    · rw [shaped.rootVar]
      exact BTreeMap.get_insert_self _ _ _
    · intro var id bound
      rw [Binding.newRoot, shaped.rootVar, BTreeMap.get_insert] at bound
      split at bound
      case isTrue same =>
        cases bound
        rw [visible, seen]
        exact ⟨by omega, by omega, rfl⟩
      case isFalse => simp at bound
    · intro var id bound
      simp [Binding.newRoot] at bound
  have members : ∀ b', b' ∈ found ↔ ∃ n, tx.visibleNode n.id = some n ∧ nm.Accepts n ∧ tx.overlooks nm n = false ∧
      Reaches (tx.seedRoots nm).1.hopFrom hops (Binding.newRoot nm.var n.id) b' := by
    intro b'
    refine (mem_stepFrontier _).trans ?_
    constructor
    · rintro ⟨b, member, reaches⟩
      obtain ⟨n, seen, accepts, finds, rfl⟩ := valid.mem_seedRoots.1 member
      exact ⟨n, seen, accepts, finds, reaches⟩
    · rintro ⟨n, seen, accepts, finds, reaches⟩
      exact ⟨_, valid.mem_seedRoots.2 ⟨n, seen, accepts, finds, rfl⟩, reaches⟩
  have bounds : ∀ b' ∈ found, (tx.seedRoots nm).1.Bound (2 * hops.length) b' ∧ tx.Answers q b'.assignment := by
    intro b' member
    obtain ⟨n, seen, accepts, finds, reaches⟩ := (members b').1 member
    obtain ⟨bound, same, holds⟩ := (start n seen).reaches valid' shaped.numbered reaches
    rw [Nat.zero_add] at bound
    have root : b'.nodes[nm.var]? = some n.id := by
      rw [shaped.rootVar, (same 0 (by omega)).1, Binding.newRoot, shaped.rootVar]
      exact BTreeMap.get_insert_self _ _ _
    refine ⟨bound, ⟨fun nm' found' => ?_, fun hop clause => ?_⟩, fun nm' found' n' seen' own => ?_⟩
    · rw [shaped.root] at found'
      cases found'
      exact ⟨n, root, seen, accepts⟩
    · have listed : hop ∈ hops := by
        rw [← shaped.hopClauses]
        exact List.mem_filterMap.2 ⟨_, clause, rfl⟩
      rw [← view]
      exact holds hop listed
    · rw [shaped.root] at found'
      cases found'
      rw [show n'.id = n.id from Option.some.inj (own.symm.trans root), seen] at seen'
      cases seen'
      exact finds
  have total : ∀ b' ∈ found, ∃ id, InMemoryTx.returnedId q.ret b' = some id := fun b' member => by
    obtain ⟨n, own, -, -⟩ := (bounds b' member).2.1.1 nm shaped.root
    rw [shaped.rootVar] at own
    exact shaped.returned.assigned shaped.numbered own fun hop listed => (bounds b' member).2.1.2 hop (shaped.mem_clauses listed)
  have ids : ((firstByKey (InMemoryTx.returnedId q.ret) [] found).map (tx.seedRoots nm).1.emitRow).map
      (QueryRow.returnedId · q.ret) = (firstByKey (InMemoryTx.returnedId q.ret) [] found).map (InMemoryTx.returnedId q.ret) := by
    rw [List.map_map]
    exact List.map_congr_left fun b' kept => (bounds b' (FirstByKey.mem_of_mem kept)).1.returnedId valid' q.ret
  refine ⟨(tx.seedRoots nm).1, _, read, executed, ?_, ?_, ?_⟩
  · rw [ids]
    exact List.pairwise_map.2 (FirstByKey.pairwise_keys (InMemoryTx.returnedId q.ret) [] found)
  · intro row member
    obtain ⟨b', kept, rfl⟩ := List.mem_map.1 member
    obtain ⟨bound, answers⟩ := bounds b' (FirstByKey.mem_of_mem kept)
    obtain ⟨id, returned⟩ := total b' (FirstByKey.mem_of_mem kept)
    have shown := bound.emitRow
    rw [view] at shown
    refine ⟨b'.assignment, id, answers, fun var id own => (bound.nodes var id own).1, shown, ?_, (bound.returnedId valid' q.ret).trans returned⟩
    rw [← returned]
    cases q.ret <;> rfl
  · intro σ answers
    obtain ⟨n, own, seen, accepts⟩ := answers.1.1 nm shaped.root
    have finds := answers.2 nm shaped.root n seen own
    have own' := own
    rw [shaped.rootVar] at own'
    obtain ⟨b', reaches, same⟩ := (start n seen).complete valid' shaped.numbered own' fun hop listed => by
      rw [view]
      exact answers.1.2 hop (shaped.mem_clauses listed)
    have member : b' ∈ found := (members b').2 ⟨n, seen, accepts, finds, reaches⟩
    have returned : InMemoryTx.returnedId q.ret b' = σ.returned q.ret := shaped.returned.same same
    obtain ⟨id, some_⟩ := total b' member
    obtain ⟨b'', kept, key⟩ := (FirstByKey.mem_keys (InMemoryTx.returnedId q.ret)).2 ⟨List.not_mem_nil, b', member, some_⟩
    refine ⟨_, List.mem_map_of_mem kept, ?_⟩
    rw [(bounds b'' (FirstByKey.mem_of_mem kept)).1.returnedId valid' q.ret, key, ← returned, some_]

end InMemoryTx

/-! ## Compiled queries -/

namespace Query

/-- The hops of the steps. -/
def stepHops (current : Nat) : List TraversalStep → List HopMatch
  | [] => []
  | step :: rest => stepHop current step :: stepHops (current + 2) rest

theorem stepClauses_hops (current : Nat) (steps : List TraversalStep) :
    (stepClauses current steps).filterMap MatchClause.hop? = stepHops current steps := by
  induction steps generalizing current with
  | nil => rfl
  | cons step rest ih => exact congrArg (stepHop current step :: ·) (ih (current + 2))

theorem stepHops_numbered (current : Nat) (steps : List TraversalStep) : Numbered current (stepHops current steps) := by
  induction steps generalizing current with
  | nil => trivial
  | cons step rest ih => exact ⟨rfl, rfl, rfl, ih (current + 2)⟩

theorem stepHops_length (current : Nat) (steps : List TraversalStep) : (stepHops current steps).length = steps.length := by
  induction steps generalizing current with
  | nil => rfl
  | cons step rest ih => exact congrArg (· + 1) (ih (current + 2))

/-- The last node clause of the steps. -/
theorem endVar_stepClauses (current last : Nat) (at_ : last = current) (steps : List TraversalStep) :
    endVarFromMatches (stepClauses current steps) last = current + 2 * steps.length := by
  induction steps generalizing current last with
  | nil => exact at_
  | cons step rest ih =>
    have sum : ∀ n : Nat, current + 2 + 2 * n = current + 2 * (n + 1) := fun n => by omega
    exact (ih (current + 2) (current + 2) rfl).trans (sum rest.length)

/-- The last relationship variable of the steps. -/
theorem foldl_compileStep_rel (st : Compiling) (numbered : st.vg.next = st.current + 1) (steps : List TraversalStep)
    {var : Nat} (last : (steps.foldl compileStep st).lastRelVar = some var) :
    (steps = [] ∧ st.lastRelVar = some var) ∨ (steps ≠ [] ∧ var + 1 = st.current + 2 * steps.length) := by
  induction steps generalizing st with
  | nil => exact .inl ⟨rfl, last⟩
  | cons step rest ih =>
    obtain ⟨⟨next⟩, clauses, current, lastRelVar⟩ := st
    obtain rfl : next = current + 1 := numbered
    refine .inr ⟨List.cons_ne_nil step rest, ?_⟩
    rw [List.length_cons]
    rcases ih (compileStep ⟨⟨current + 1⟩, clauses, current, lastRelVar⟩ step) rfl last with ⟨rfl, own⟩ | ⟨-, own⟩
    · obtain rfl : current + 1 = var := Option.some.inj own
      rfl
    · have sum : ∀ k n : Nat, k + 2 + 2 * n = k + 2 * (n + 1) := fun k n => by omega
      exact own.trans (sum current rest.length)

theorem shaped {q : Query} {g : GraphQuery} (compiled : q.compileToGraph = some g) :
    InMemoryTx.Shaped g q.rootMatch (stepHops 0 q.pattern.traversals) := by
  obtain ⟨clauses, -, -, -⟩ := compileToGraph_eq compiled
  obtain ⟨ret, chosen, rfl⟩ := Option.map_eq_some_iff.1 compiled
  dsimp only at clauses
  refine ⟨?_, rfl, ?_, stepHops_numbered 0 _, ?_⟩
  · rw [clauses]
    rfl
  · rw [clauses]
    exact stepClauses_hops 0 q.pattern.traversals
  · rw [stepHops_length]
    cases mode : q.returnMode with
    | root =>
      rw [mode] at chosen
      cases chosen
      exact ⟨rfl, Nat.zero_le _⟩
    | endNode =>
      rw [mode, clauses] at chosen
      cases chosen
      have last := endVar_stepClauses 0 0 rfl q.pattern.traversals
      rw [Nat.zero_add] at last
      have even : ∀ n : Nat, 2 * n % 2 = 0 ∧ 2 * n ≤ 2 * n := fun n => by omega
      show _ % 2 = 0 ∧ _ ≤ _
      rw [show endVarFromMatches (.node q.rootMatch :: stepClauses 0 q.pattern.traversals) _ = _ from last]
      exact even q.pattern.traversals.length
    | rel =>
      rw [mode] at chosen
      obtain ⟨var, last, rfl⟩ := Option.map_eq_some_iff.1 chosen
      rcases foldl_compileStep_rel ⟨⟨1⟩, [.node q.rootMatch], 0, none⟩ rfl q.pattern.traversals last with
        ⟨-, none_⟩ | ⟨-, own⟩
      · cases none_
      · have odd : ∀ var n : Nat, var + 1 = 0 + 2 * n → var % 2 = 1 ∧ var ≤ 2 * n := fun var n _ => by omega
        exact odd var q.pattern.traversals.length own

/-- A query without filters on the ends of its hops is read whole. -/
theorem satisfied_of_read {q : Query} {g : GraphQuery} (compiled : q.compileToGraph = some g)
    (bare : ∀ step ∈ q.pattern.traversals, step.endFilters = []) {v : GraphView} {σ : Assignment} (read : g.Read v σ) :
    g.Satisfied v σ := by
  obtain ⟨clauses, -, -, -⟩ := compileToGraph_eq compiled
  have ends : ∀ (current : Nat) (steps : List TraversalStep), (∀ step ∈ steps, step.endFilters = []) →
      (∀ h, .hop h ∈ stepClauses current steps → h.Holds v σ) → ∀ c ∈ stepClauses current steps, c.Holds v σ := by
    intro current steps
    induction steps generalizing current with
    | nil => exact fun _ _ _ never => absurd never List.not_mem_nil
    | cons step rest ih =>
      intro bare hops c member
      rcases List.mem_cons.1 member with rfl | member
      · exact hops _ List.mem_cons_self
      · rcases List.mem_cons.1 member with rfl | member
        · obtain ⟨a, r, n, -, -, own, -, seen, -, -, labelled⟩ := hops _ List.mem_cons_self
          refine ⟨n, own, seen, nofun, labelled, ?_⟩
          simp [stepEnd, bare step List.mem_cons_self, propsMatchFilters]
        · exact ih (current + 2) (fun step listed => bare step (List.mem_cons_of_mem _ listed))
            (fun h listed => hops h (List.mem_cons_of_mem _ (List.mem_cons_of_mem _ listed))) c member
  intro c member
  rw [clauses] at member
  rcases List.mem_cons.1 member with rfl | member
  · exact read.1 q.rootMatch (shaped compiled).root
  · refine ends 0 q.pattern.traversals bare (fun h listed => read.2 h ?_) c member
    rw [clauses]
    exact List.mem_cons_of_mem _ listed

end Query

/-- On every state of a transaction, a compiled query returns the page of its rows that are
its answers, one for each returned id: the answers are the assignments that satisfy the
root's clause and every hop, but for roots the index overlooks. What satisfies all clauses
is among them, and without filters on the hops' ends they satisfy all clauses. -/
theorem InMemoryTx.Valid.compiled_query_exact {tx : InMemoryTx} (valid : tx.Valid) {q : Query} {g : GraphQuery}
    (compiled : q.compileToGraph = some g) :
    (∃ tx' rows, tx.executeGraphQuery g = .ok (tx', page q.offset q.limit rows) ∧ tx.RowsOf g rows) ∧
    (∀ σ, g.Satisfied tx.view σ → g.Read tx.view σ) ∧
    ((∀ step ∈ q.pattern.traversals, step.endFilters = []) → ∀ σ, g.Read tx.view σ → g.Satisfied tx.view σ) := by
  obtain ⟨-, -, limit, offset⟩ := Query.compileToGraph_eq compiled
  obtain ⟨tx', rows, -, executed, rowsOf⟩ := valid.rowsOf (Query.shaped compiled)
  rw [offset, limit] at executed
  exact ⟨⟨tx', rows, executed, rowsOf⟩, fun σ satisfied => satisfied.read,
    fun bare σ read => Query.satisfied_of_read compiled bare read⟩

/-- A transaction in which one user knows another. -/
def knowsTx : InMemoryTx :=
  (InMemoryTx.new .empty).run
    [.createNode ["User"] ∅, .createNode ["User"] ∅, .createRelationship 1 2 "Knows" ∅]

/-- The users whom a user knows. -/
def knownUsers : Query where
  pattern := ⟨["User"], none, [], [⟨.out, some "Knows", ["User"], []⟩]⟩
  limit := none
  offset := none
  returnMode := .endNode

theorem compiled_query_known :
    ∃ g rows, knownUsers.compileToGraph = some g ∧ knowsTx.RowsOf g rows ∧ rows.length = 1 ∧
      ∀ row ∈ rows, ∃ σ, g.Satisfied knowsTx.view σ ∧ σ.Shown knowsTx.view row := by
  have compiled : ∃ g, knownUsers.compileToGraph = some g := ⟨_, rfl⟩
  obtain ⟨g, compiled⟩ := compiled
  have valid : knowsTx.Valid := (InMemoryTx.valid_new GraphStore.sound_empty).run _
  obtain ⟨⟨tx', rows, executed, rowsOf⟩, -, whole⟩ := valid.compiled_query_exact compiled
  have once : (knownUsers.compileToGraph.bind fun g => (knowsTx.executeGraphQuery g).toOption.map fun found => found.2.length) =
      some 1 := by decide
  refine ⟨g, rows, compiled, rowsOf, ?_, fun row member => ?_⟩
  · rw [compiled, Option.bind_some, executed] at once
    exact Option.some.inj once
  · obtain ⟨σ, id, answers, -, shown, -⟩ := rowsOf.sound row member
    exact ⟨σ, whole (by decide) σ answers.1, shown⟩
