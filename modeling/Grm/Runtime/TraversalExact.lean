import Grm.Runtime.TermFinds
import Grm.Runtime.TraversalPlan

/-!
# Traversal finds

A traversal find asks for the records that paths along its steps return. What it returns is
always on such a path; it keeps one path for each returned record, though, and checks its
predicates on that path only. So it misses no record when its predicates are about the
returned record itself, or when all paths to the record agree on them.
-/

open Std

set_option autoImplicit false

/-! ## Paths -/

abbrev GraphPath := List (StoredRel × StoredNode)

/-- A step leads from `n` over `r` to `m`. -/
structure PlannedStep.Leads (p : PlannedStep) (v : GraphView) (n : StoredNode) (r : StoredRel) (m : StoredNode) : Prop where
  rel : v.rel r.id = some r
  node : v.node m.id = some m
  typed : r.relType = p.relModel.relType
  joins : r.Joins p.dir n.id m.id
  labelled : p.endModel.label ∈ m.labels

/-- A path from `n` along the steps. -/
def IsPath (v : GraphView) : StoredNode → List PlannedStep → GraphPath → Prop
  | _, [], [] => True
  | n, p :: ps, (r, m) :: rest => p.Leads v n r m ∧ IsPath v m ps rest
  | _, _, _ => False

/-- The node a path ends at. -/
def GraphPath.endFrom : StoredNode → GraphPath → StoredNode
  | n, [] => n
  | _, (_, m) :: rest => GraphPath.endFrom m rest

/-- The last relationship of a path. -/
def GraphPath.lastRel : GraphPath → Option StoredRel
  | [] => none
  | (r, _) :: rest => (GraphPath.lastRel rest).or (some r)

/-- The record a path returns. -/
def SessionTraversalReturn.of (mode : SessionTraversalReturn) (n : StoredNode) (path : GraphPath) : Option KernelValue :=
  match mode with
  | .root => some (.node n)
  | .endNode => some (.node (path.endFrom n))
  | .edge => path.lastRel.map .rel

theorem PlannedStep.leads_iff {p : PlannedStep} {current : Nat} {v : GraphView} {n m : StoredNode} {r : StoredRel} :
    (p.hop current).Leads v n.id r m ↔ p.Leads v n r m := by
  constructor
  · rintro ⟨rel, node, typed, joins, labelled⟩
    exact ⟨rel, node, typed _ rfl, joins, GraphStore.labelsMatch_iff.1 labelled _ List.mem_cons_self⟩
  · rintro ⟨rel, node, typed, joins, labelled⟩
    refine ⟨rel, node, ?_, joins, GraphStore.labelsMatch_iff.2 ?_⟩
    · intro ty asked
      exact typed.trans (Option.some.inj asked)
    · intro label listed
      rw [List.mem_singleton.1 listed]
      exact labelled

theorem GraphPath.lastRel_eq_none {path : GraphPath} (none_ : path.lastRel = none) : path = [] := by
  cases path with
  | nil => rfl
  | cons first rest =>
    rw [lastRel] at none_
    cases later : GraphPath.lastRel rest <;> simp [later] at none_

section Paths
variable {v : GraphView} {n : StoredNode} {ps : List PlannedStep} {path : GraphPath} {current : Nat} {σ : Assignment}

theorem IsPath.length (h : IsPath v n ps path) : path.length = ps.length := by
  induction ps generalizing n path with
  | nil =>
    cases path with
    | nil => rfl
    | cons first rest => cases h
  | cons p ps ih =>
    cases path with
    | nil => cases h
    | cons first rest => exact congrArg (· + 1) (ih h.2)

/-- The ids of a path are those an assignment has for the variables along it. -/
structure Follows (σ : Assignment) (v : GraphView) (current : Nat) (n : StoredNode) (hops : Nat) (path : GraphPath) : Prop where
  start : σ.node current = some n.id
  ends : σ.node (current + 2 * hops) = some (path.endFrom n).id
  seen : v.node (path.endFrom n).id = some (path.endFrom n)
  rel : ∀ r, path.lastRel = some r → σ.rel (current + 2 * hops - 1) = some r.id ∧ v.rel r.id = some r

/-- The path of an assignment that satisfies the hops. -/
theorem exists_path (start : σ.node current = some n.id) (seen : v.node n.id = some n)
    (holds : ∀ hop ∈ plannedHops current ps, hop.Holds v σ) :
    ∃ path, IsPath v n ps path ∧ Follows σ v current n ps.length path := by
  induction ps generalizing current n with
  | nil => exact ⟨[], trivial, start, start, seen, nofun⟩
  | cons p ps ih =>
    obtain ⟨a, r, m, from_, via, ends, leads⟩ := holds (p.hop current) List.mem_cons_self
    obtain rfl := Option.some.inj (from_.symm.trans start)
    have step := PlannedStep.leads_iff.1 leads
    have ends : σ.node (current + 2) = some m.id := ends
    obtain ⟨path, isPath, follows⟩ := ih ends step.node fun hop listed => holds hop (List.mem_cons_of_mem _ listed)
    have sum : current + 2 + 2 * ps.length = current + 2 * (ps.length + 1) := by omega
    refine ⟨(r, m) :: path, ⟨step, isPath⟩, start, ?_, follows.seen, fun r' isLast => ?_⟩
    · rw [List.length_cons, ← sum]
      exact follows.ends
    · rw [List.length_cons, ← sum]
      cases later : path.lastRel with
      | some r'' =>
        rw [GraphPath.lastRel, later] at isLast
        obtain rfl := Option.some.inj isLast
        exact follows.rel r'' later
      | none =>
        rw [GraphPath.lastRel, later] at isLast
        obtain rfl := Option.some.inj isLast
        have none_ := isPath.length
        rw [GraphPath.lastRel_eq_none later] at none_
        rw [← none_]
        exact ⟨via, step.rel⟩

/-- The assignment of a path. -/
def GraphPath.assign (current : Nat) (n : StoredNode) : GraphPath → Assignment
  | [] => ⟨fun var => if var = current then some n.id else none, fun _ => none⟩
  | (r, m) :: rest =>
    let later := GraphPath.assign (current + 2) m rest
    ⟨fun var => if var = current then some n.id else later.node var,
      fun var => if var = current + 1 then some r.id else later.rel var⟩

theorem GraphPath.assign_start (current : Nat) (n : StoredNode) (path : GraphPath) :
    (path.assign current n).node current = some n.id := by
  cases path <;> simp [assign]

theorem plannedHops_above {hop : HopMatch} (listed : hop ∈ plannedHops current ps) :
    current ≤ hop.start ∧ current < hop.relVar ∧ current < hop.endVar := by
  induction ps generalizing current with
  | nil => cases listed
  | cons p ps ih =>
    rcases List.mem_cons.1 listed with rfl | later
    · exact ⟨Nat.le_refl _, Nat.lt_succ_self _, Nat.lt_add_of_pos_right (by decide)⟩
    · obtain ⟨start, rel, ends⟩ := ih later
      exact ⟨Nat.le_trans (by omega) start, Nat.lt_trans (by omega) rel, Nat.lt_trans (by omega) ends⟩

/-- The assignment of a path satisfies the hops. -/
theorem IsPath.assign (h : IsPath v n ps path) : ∀ hop ∈ plannedHops current ps, hop.Holds v (path.assign current n) := by
  induction ps generalizing current n path with
  | nil => exact fun _ never => absurd never List.not_mem_nil
  | cons p ps ih =>
    cases path with
    | nil => cases h
    | cons first rest =>
      obtain ⟨r, m⟩ := first
      obtain ⟨step, isPath⟩ := h
      intro hop listed
      rcases List.mem_cons.1 listed with rfl | later
      · refine ⟨n.id, r, m, ?_, ?_, ?_, PlannedStep.leads_iff.2 step⟩
        · exact GraphPath.assign_start current n ((r, m) :: rest)
        · simp [PlannedStep.hop, GraphPath.assign]
        · simp [PlannedStep.hop, GraphPath.assign, GraphPath.assign_start]
      · obtain ⟨a, r', m', from_, via, ends, leads⟩ := ih isPath hop later
        obtain ⟨start, rel, end_⟩ := plannedHops_above later
        refine ⟨a, r', m', ?_, ?_, ?_, leads⟩
        · refine Eq.trans (if_neg ?_) from_
          exact Nat.ne_of_gt (Nat.lt_of_lt_of_le (by omega) start)
        · refine Eq.trans (if_neg ?_) via
          exact Nat.ne_of_gt (Nat.lt_trans (by omega) rel)
        · refine Eq.trans (if_neg ?_) ends
          exact Nat.ne_of_gt (Nat.lt_trans (by omega) end_)

theorem IsPath.follows (h : IsPath v n ps path) (seen : v.node n.id = some n) :
    Follows (path.assign current n) v current n ps.length path := by
  induction ps generalizing current n path with
  | nil =>
    cases path with
    | nil => exact ⟨GraphPath.assign_start _ _ _, GraphPath.assign_start _ _ _, seen, nofun⟩
    | cons first rest => cases h
  | cons p ps ih =>
    cases path with
    | nil => cases h
    | cons first rest =>
      obtain ⟨r, m⟩ := first
      obtain ⟨step, isPath⟩ := h
      have follows : Follows (GraphPath.assign (current + 2) m rest) v (current + 2) m ps.length rest := ih isPath step.node
      obtain ⟨-, ends, there, rel⟩ := follows
      have sum : current + 2 + 2 * ps.length = current + 2 * (ps.length + 1) := by omega
      refine ⟨GraphPath.assign_start _ _ _, ?_, there, fun r' isLast => ?_⟩
      · rw [List.length_cons, ← sum]
        have apart : current + 2 + 2 * ps.length ≠ current := by omega
        exact Eq.trans (if_neg apart) ends
      · cases later : GraphPath.lastRel rest with
        | some r'' =>
          rw [GraphPath.lastRel, later] at isLast
          obtain rfl := Option.some.inj isLast
          obtain ⟨own, stored⟩ := rel r'' later
          have some_ : 0 < ps.length := by
            rw [← isPath.length]
            refine List.length_pos_of_ne_nil ?_
            rintro rfl
            cases later
          refine ⟨?_, stored⟩
          rw [List.length_cons, ← sum]
          have apart : current + 2 + 2 * ps.length - 1 ≠ current + 1 := by omega
          exact Eq.trans (if_neg apart) own
        | none =>
          rw [GraphPath.lastRel, later] at isLast
          obtain rfl := Option.some.inj isLast
          have none_ := isPath.length
          rw [GraphPath.lastRel_eq_none later] at none_
          refine ⟨?_, step.rel⟩
          rw [List.length_cons, ← none_]
          exact if_pos rfl

theorem IsPath.lastRel (h : IsPath v n ps path) (some_ : ps ≠ []) : ∃ r, path.lastRel = some r := by
  cases last : path.lastRel with
  | some r => exact ⟨r, rfl⟩
  | none =>
    have none_ := h.length
    rw [GraphPath.lastRel_eq_none last] at none_
    exact absurd (List.length_eq_zero_iff.1 none_.symm) some_

end Paths

/-! ## What a row shows -/

section Rows
variable {v : GraphView} {n : StoredNode} {ps : List PlannedStep} {path : GraphPath} {σ : Assignment} {row : QueryRow}

/-- A row that shows the assignment of a path has the path's records. -/
structure PathRow (row : QueryRow) (n : StoredNode) (hops : Nat) (path : GraphPath) : Prop where
  root : row.values[0]? = some (.node n)
  ends : row.values[2 * hops]? = some (.node (path.endFrom n))
  rel : ∀ r, path.lastRel = some r → row.values[2 * hops - 1]? = some (.rel r)

theorem Follows.shows (h : Follows σ v 0 n ps.length path) (seen : v.node n.id = some n) (some_ : ps ≠ [])
    (parted : σ.Parted) (shown : σ.Shown v row) : PathRow row n ps.length path := by
  have ends := h.ends
  rw [Nat.zero_add] at ends
  refine ⟨?_, ?_, fun r isLast => ?_⟩
  · rw [shown 0, Assignment.value, h.start, Option.bind_some, seen]
    rfl
  · rw [shown (2 * ps.length), Assignment.value, ends, Option.bind_some, h.seen]
    rfl
  · obtain ⟨own, stored⟩ := h.rel r isLast
    rw [Nat.zero_add] at own
    have unbound : σ.node (2 * ps.length - 1) = none := by
      cases bound : σ.node (2 * ps.length - 1) with
      | none => rfl
      | some id =>
        have even := parted _ _ bound
        have pos := List.length_pos_of_ne_nil some_
        omega
    rw [shown (2 * ps.length - 1), Assignment.value, own, unbound, Option.bind_some, stored]
    rfl

theorem PathRow.returned {q : GraphQuery} {mode : SessionTraversalReturn} (h : PathRow row n ps.length path)
    (isPath : IsPath v n ps path) (some_ : ps ≠ []) (ret : q.ret = mode.variable ps.length) :
    row.getReturned q = mode.of n path := by
  unfold QueryRow.getReturned GraphQuery.returnVar
  rw [ret]
  cases mode with
  | root => exact h.root
  | endNode => exact h.ends
  | edge =>
    obtain ⟨r, isLast⟩ := isPath.lastRel some_
    rw [SessionTraversalReturn.of, isLast]
    exact h.rel r isLast

/-- Two paths to one returned id return one record. -/
theorem Follows.same {n' : StoredNode} {path' : GraphPath} {σ' : Assignment} {mode : SessionTraversalReturn}
    (h : Follows σ v 0 n ps.length path) (h' : Follows σ' v 0 n' ps.length path') (seen : v.node n.id = some n)
    (seen' : v.node n'.id = some n') (isPath : IsPath v n ps path) (isPath' : IsPath v n' ps path') (some_ : ps ≠ [])
    (one : σ.returned (mode.variable ps.length) = σ'.returned (mode.variable ps.length)) : mode.of n path = mode.of n' path' := by
  have ends := h.ends
  have ends' := h'.ends
  rw [Nat.zero_add] at ends ends'
  cases mode with
  | root =>
    have one : some n.id = some n'.id := h.start.symm.trans (Eq.trans one h'.start)
    rw [← Option.some.inj one, seen] at seen'
    exact congrArg (fun m => some (KernelValue.node m)) (Option.some.inj seen')
  | endNode =>
    have one : some (path.endFrom n).id = some (path'.endFrom n').id := ends.symm.trans (Eq.trans one ends')
    have there := h'.seen
    rw [← Option.some.inj one, h.seen] at there
    exact congrArg (fun m => some (KernelValue.node m)) (Option.some.inj there)
  | edge =>
    obtain ⟨r, isLast⟩ := isPath.lastRel some_
    obtain ⟨r', isLast'⟩ := isPath'.lastRel some_
    obtain ⟨own, stored⟩ := h.rel r isLast
    obtain ⟨own', stored'⟩ := h'.rel r' isLast'
    rw [Nat.zero_add] at own own'
    have one : some r.id = some r'.id := own.symm.trans (Eq.trans one own')
    rw [← Option.some.inj one, stored] at stored'
    rw [SessionTraversalReturn.of, SessionTraversalReturn.of, isLast, isLast', Option.some.inj stored']

end Rows

/-! ## The rows of a find -/

def GraphStore.view (s : GraphStore) : GraphView := ⟨fun id => s.nodes[id]?, fun id => s.rels[id]?⟩

theorem InMemoryTx.new_view (s : GraphStore) : (InMemoryTx.new s).view = s.view := by
  have all : ∀ found : Option StoredRel, found.filter (fun _ => true) = found := fun found => by cases found <;> rfl
  unfold InMemoryTx.view GraphStore.view InMemoryTx.new InMemoryTx.visibleNode InMemoryTx.visibleRel
  simp [all]

namespace SessionState
variable [Externals] {s : SessionState} {modelName : String} {model : RuntimeNodeModel} {query : NodeFindQuery}
  {rootFilters endFilters edgeFilters : List PropertyFilter} {plan : RuntimeTraversalPlan} {ps : List PlannedStep}
  {last : PlannedStep} {rows : List QueryRow} {row : QueryRow}

/-- A path a find goes along, from a root that the kernel's comparisons accept and the index
does not overlook. -/
structure FindsPath (s : SessionState) (model : RuntimeNodeModel) (query : NodeFindQuery) (rootFilters : List PropertyFilter)
    (ps : List PlannedStep) (n : StoredNode) (path : GraphPath) : Prop where
  stored : s.store.nodes[n.id]? = some n
  labelled : model.label ∈ n.labels
  chosen : ∀ wanted, query.idFilter = some wanted → n.id = wanted
  compared : propsMatchFilters n.props rootFilters = true
  indexed : (InMemoryTx.new s.store).overlooks (findRoot model query.idFilter rootFilters) n = false
  path : IsPath s.store.view n ps path

/-- The path meets the predicates. -/
structure PathMeets (rootFilters endFilters edgeFilters : List PropertyFilter) (n : StoredNode) (path : GraphPath) : Prop where
  root : matchesPredicates n.props rootFilters = true
  ends : matchesPredicates (path.endFrom n).props endFilters = true
  edge : ∀ r, path.lastRel = some r → matchesPredicates r.props edgeFilters = true

omit [Externals] in
/-- The answers of a planned query are the paths. -/
theorem Plans.answered (h : s.Plans model query rootFilters plan ps last) {σ : Assignment}
    (answers : (InMemoryTx.new s.store).Answers plan.graphQuery σ) :
    ∃ n path, s.FindsPath model query rootFilters ps n path ∧ Follows σ s.store.view 0 n ps.length path := by
  obtain ⟨read, indexed⟩ := answers
  rw [InMemoryTx.new_view] at read
  obtain ⟨n, own, seen, chosen, labelled, compared⟩ := read.1 _ h.shaped.root
  have found : (InMemoryTx.new s.store).visibleNode n.id = some n := by
    rw [← seen]
    exact congrFun (congrArg GraphView.node (InMemoryTx.new_view s.store)) n.id
  obtain ⟨path, isPath, follows⟩ := exists_path own seen fun hop listed => read.2 hop (h.shaped.mem_clauses listed)
  exact ⟨n, path, ⟨seen, GraphStore.labelsMatch_iff.1 labelled _ List.mem_cons_self, chosen, compared,
    indexed _ h.shaped.root n found own, isPath⟩, follows⟩

omit [Externals] in
theorem Plans.answers (h : s.Plans model query rootFilters plan ps last) {n : StoredNode} {path : GraphPath}
    (finds : s.FindsPath model query rootFilters ps n path) :
    (InMemoryTx.new s.store).Answers plan.graphQuery (path.assign 0 n) := by
  refine ⟨⟨fun nm root => ?_, fun hop clause => ?_⟩, fun nm root m seen own => ?_⟩
  · rw [h.shaped.root] at root
    obtain rfl := Option.some.inj root
    rw [InMemoryTx.new_view]
    refine ⟨n, GraphPath.assign_start 0 n path, finds.stored, finds.chosen, GraphStore.labelsMatch_iff.2 ?_, finds.compared⟩
    intro label listed
    rw [List.mem_singleton.1 listed]
    exact finds.labelled
  · rw [InMemoryTx.new_view]
    refine finds.path.assign hop ?_
    rw [← h.shaped.hopClauses]
    exact List.mem_filterMap.2 ⟨_, clause, rfl⟩
  · rw [h.shaped.root] at root
    obtain rfl := Option.some.inj root
    have same : n.id = m.id := Option.some.inj ((GraphPath.assign_start 0 n path).symm.trans own)
    have stored : s.store.view.node m.id = some m := by
      rw [← InMemoryTx.new_view]
      exact seen
    rw [← same, show s.store.view.node n.id = some n from finds.stored] at stored
    rw [← Option.some.inj stored]
    exact finds.indexed

/-- The find's predicates are about what it returns. -/
def AboutReturned (query : NodeFindQuery) : Prop :=
  match query.returnMode with
  | .root => query.endPredicates = [] ∧ query.edgePredicates = []
  | .endNode => query.predicates = [] ∧ query.edgePredicates = []
  | .edge => query.predicates = [] ∧ query.endPredicates = []

/-- Two paths with one returned record agree on such predicates. -/
theorem AboutReturned.agree (about : AboutReturned query) {n n' : StoredNode} {path path' : GraphPath}
    (root : query.predicates = [] → rootFilters = []) (ends : query.endPredicates = [] → endFilters = [])
    (edge : query.edgePredicates = [] → edgeFilters = []) (one : query.returnMode.of n path = query.returnMode.of n' path')
    (meets : PathMeets rootFilters endFilters edgeFilters n path) : PathMeets rootFilters endFilters edgeFilters n' path' := by
  unfold AboutReturned at about
  have none_ : ∀ props, matchesPredicates props [] = true := fun _ => rfl
  cases mode : query.returnMode with
  | root =>
    rw [mode] at about one
    obtain rfl : n = n' := KernelValue.node.inj (Option.some.inj one)
    rw [ends about.1, edge about.2]
    exact ⟨meets.root, none_ _, fun _ _ => none_ _⟩
  | endNode =>
    rw [mode] at about one
    have same : path.endFrom n = path'.endFrom n' := KernelValue.node.inj (Option.some.inj one)
    rw [root about.1, edge about.2]
    exact ⟨none_ _, same ▸ meets.ends, fun _ _ => none_ _⟩
  | edge =>
    rw [mode] at about one
    rw [root about.1, ends about.2]
    refine ⟨none_ _, none_ _, fun r isLast => ?_⟩
    have one : path.lastRel.map KernelValue.rel = path'.lastRel.map .rel := one
    rw [isLast] at one
    obtain ⟨r', isLast', same⟩ := Option.map_eq_some_iff.1 one
    rw [← KernelValue.rel.inj same]
    exact meets.edge r' isLast'

end SessionState

/-! ### Who is known -/
