import Grm.Lib.RoundTrip
import Grm.Runtime.IdCounters
import Grm.Runtime.Requests

/-!
# The interchange round trip

A session that requests lead to is exported by name and imported again: every rule of the
import, on models, on records and on single values, is one that the session's own
invariant meets, so the import succeeds and brings back what was there.
-/

open Std

set_option autoImplicit false

/-! ## Positive ids -/

/-- The counters and the ids are positive. -/
structure PositiveIds (g : PersistedGraphStore) : Prop where
  nextNode : 0 < g.nextNodeId
  nextRel : 0 < g.nextRelId
  node : ∀ id ∈ g.nodes, 0 < id
  rel : ∀ id ∈ g.rels, 0 < id

theorem PositiveIds.putNode {g : PersistedGraphStore} (h : PositiveIds g) {node : StoredNode} (positive : 0 < node.id) :
    PositiveIds (g.putNode node) where
  nextNode := by
    have := h.nextNode
    show 0 < max _ _
    omega
  nextRel := h.nextRel
  node id member := by
    rcases BTreeMap.mem_insert.1 member with rfl | before
    · exact positive
    · exact h.node id before
  rel := h.rel

theorem PositiveIds.putRel {g : PersistedGraphStore} (h : PositiveIds g) {rel : StoredRel} (positive : 0 < rel.id) :
    PositiveIds (g.putRel rel) where
  nextNode := h.nextNode
  nextRel := by
    have := h.nextRel
    show 0 < max _ _
    omega
  node := h.node
  rel id member := by
    rcases BTreeMap.mem_insert.1 member with rfl | before
    · exact positive
    · exact h.rel id before

theorem PositiveIds.dropRel {g : PersistedGraphStore} (h : PositiveIds g) (id : Int) : PositiveIds (g.dropRel id) where
  nextNode := h.nextNode
  nextRel := h.nextRel
  node := h.node
  rel k member := h.rel k (BTreeMap.mem_erase.1 member).2

theorem PositiveIds.dropNode {g : PersistedGraphStore} (h : PositiveIds g) {id : Int} (stored : id ∈ g.nodes) :
    PositiveIds (g.dropNode id) where
  nextNode := by
    rw [PersistedGraphStore.dropNode_nextNodeId]
    exact h.nextNode
  nextRel := by
    rw [PersistedGraphStore.dropNode_nextRelId]
    exact h.nextRel
  node k member := by
    rw [PersistedGraphStore.dropNode_nodes] at member
    exact h.node k (BTreeMap.mem_erase.1 member).2
  rel k member := by
    obtain ⟨rel, found⟩ := BTreeMap.mem_iff_get.1 member
    rw [PersistedGraphStore.dropNode_rels, if_pos stored, Option.filter_eq_some_iff] at found
    exact h.rel k (BTreeMap.mem_iff_get.2 ⟨rel, found.1⟩)

section Steps
variable [Externals] {d d' : PersistedSession}

theorem Admissible.positiveIds {op : DurableOperation} (admissible : Admissible d op) (replays : d.replay op = .ok d')
    (h : PositiveIds d.graph) : PositiveIds d'.graph := by
  cases admissible with
  | @defineNode model checked fresh =>
    rw [PersistedSession.replay, SessionModelCatalog.ensureNodeModel_fresh fresh] at replays
    cases replays
    exact h
  | @defineEdge model checked source target fresh =>
    rw [PersistedSession.replay, SessionModelCatalog.ensureRelModel_fresh fresh] at replays
    cases replays
    exact h
  | @createNode name model node registered id =>
    cases replays
    exact h.putNode (id ▸ h.nextNode)
  | @updateNode name model old updates registered stored =>
    cases replays
    exact h.putNode (h.node old.id (BTreeMap.mem_iff_get.2 ⟨old, stored⟩))
  | deleteNode stored =>
    cases replays
    exact h.dropNode stored
  | @createRel name model rel registered id =>
    cases replays
    exact h.putRel (id ▸ h.nextRel)
  | @updateRel name model old updates registered stored =>
    cases replays
    exact h.putRel (h.rel old.id (BTreeMap.mem_iff_get.2 ⟨old, stored⟩))
  | deleteRel =>
    cases replays
    exact h.dropRel _

theorem Steps.positiveIds {ops : List DurableOperation} (steps : Steps d ops d') (h : PositiveIds d.graph) :
    PositiveIds d'.graph := by
  induction steps with
  | nil d => exact h
  | cons admissible replays _ ih => exact ih (admissible.positiveIds replays h)

theorem SessionState.positiveIds_run {s : SessionState} (reachable : s.Reachable)
    (h : PositiveIds s.persistedSession.graph) (requests : List RuntimeRequest) :
    PositiveIds (s.run requests).persistedSession.graph := by
  induction requests generalizing s with
  | nil => exact h
  | cons request requests ih =>
    obtain ⟨entries, executes⟩ := executeRuntime_executes reachable.sound request
    exact ih (reachable.executeRuntime request) (executes.steps.positiveIds h)

end Steps

theorem positiveIds_new : PositiveIds SessionState.new.persistedSession.graph := by
  constructor <;> simp [SessionState.new, SessionState.persistedSession, GraphStore.toPersisted, GraphStore.empty]

/-! ## Fields -/

theorem parseKeyword_keyword (kind : PrimitiveKind) : PrimitiveKind.parseKeyword kind.keyword = some kind := by
  cases kind <;> rfl

theorem interchangeRuntimeFields_fields (fields : List RuntimeField) :
    interchangeRuntimeFields (interchangeFields fields) = .ok fields := by
  apply mapM_map_eq_ok
  intro field _
  rw [parseKeyword_keyword]

/-- The fields that passed the loop are named apart, and apart from the names seen before it. -/
theorem checkFields_ok {seen : BTreeSet String} {fields : List RuntimeField} {u : Unit}
    (ok : checkFields seen fields = .ok u) :
    (∀ field ∈ fields, field.name ∉ seen) ∧ fields.Pairwise fun a b => a.name ≠ b.name := by
  induction fields generalizing seen with
  | nil => exact ⟨nofun, .nil⟩
  | cons field fields ih =>
    obtain ⟨_, -, ok⟩ := GrmResult.bind_eq_ok.1 ok
    have new : field.name ∉ seen := by
      intro member
      rw [ExtTreeSet.contains_iff_mem.2 member] at ok
      cases ok
    rw [BTreeSet.contains_eq_false.2 new] at ok
    obtain ⟨apart, distinct⟩ := ih ok
    constructor
    · intro f member
      rcases List.mem_cons.1 member with rfl | later
      · exact new
      · exact fun before => apart f later (BTreeSet.mem_insert.2 (.inr before))
    · refine List.pairwise_cons.2 ⟨fun f later same => ?_, distinct⟩
      exact apart f later (BTreeSet.mem_insert.2 (.inl same))

theorem RuntimeNodeModel.Checked.distinct {model : RuntimeNodeModel} (checked : model.Checked) :
    model.fields.Pairwise fun a b => a.name ≠ b.name := by
  obtain ⟨_, -, rest⟩ := GrmResult.bind_eq_ok.1 checked
  obtain ⟨_, -, rest⟩ := GrmResult.bind_eq_ok.1 rest
  obtain ⟨_, fields, -⟩ := GrmResult.bind_eq_ok.1 rest
  exact (checkFields_ok fields).2

theorem RuntimeRelModel.Checked.distinct {model : RuntimeRelModel} (checked : model.Checked) :
    model.fields.Pairwise fun a b => a.name ≠ b.name := by
  obtain ⟨_, -, rest⟩ := GrmResult.bind_eq_ok.1 checked
  obtain ⟨_, -, rest⟩ := GrmResult.bind_eq_ok.1 rest
  obtain ⟨_, -, rest⟩ := GrmResult.bind_eq_ok.1 rest
  obtain ⟨_, -, rest⟩ := GrmResult.bind_eq_ok.1 rest
  obtain ⟨_, fields, -⟩ := GrmResult.bind_eq_ok.1 rest
  exact (checkFields_ok fields).2

/-- Among fields named apart, a field is the one of its name. -/
theorem fieldNamed_self {fields : List RuntimeField} (distinct : fields.Pairwise fun a b => a.name ≠ b.name)
    {field : RuntimeField} (member : field ∈ fields) : fieldNamed fields field.name = some field := by
  induction fields with
  | nil => cases member
  | cons first fields ih =>
    obtain ⟨apart, rest⟩ := List.pairwise_cons.1 distinct
    rw [fieldNamed, List.find?_cons]
    rcases List.mem_cons.1 member with rfl | later
    · rw [beq_self_eq_true]
    · have other : (first.name == field.name) = false := beq_false_of_ne (apart field later)
      rw [other]
      exact ih rest later

section Import
variable [Externals]

/-- What conforms to the fields of a model passes the checks of the import. -/
theorem Conforms.imports {fields : List RuntimeField} {props : Props} (h : Conforms fields props)
    (distinct : fields.Pairwise fun a b => a.name ≠ b.name) (kind modelName : String) :
    validateInterchangeProps kind modelName fields props = .ok () := by
  have known : props.keys.find? (fun key => !fields.any fun field => field.name == key) = none := by
    rw [List.find?_eq_none]
    intro key member
    obtain ⟨value, found⟩ := BTreeMap.mem_iff_get.1 (ExtTreeMap.mem_keys.1 member)
    obtain ⟨field, named, -⟩ := h.declared key value found
    obtain ⟨listed, name⟩ := fieldNamed_some named
    simpa using ⟨field, listed, name⟩
  rw [validateInterchangeProps, known]
  apply GrmResult.forM_ok
  intro field member
  cases found : props[field.name]? with
  | some value =>
    obtain ⟨same, named, valid⟩ := h.declared field.name value found
    rw [fieldNamed_self distinct member] at named
    cases named
    exact if_pos valid
  | none =>
    refine if_neg fun required => ?_
    exact BTreeMap.not_mem_iff_get.2 found (h.required field member required)

end Import

/-! ## Models -/

/-- A model as the document has it. -/
def RuntimeNodeModel.toInterchange (model : RuntimeNodeModel) : InterchangeNodeModel :=
  { name := model.name, idField := model.idFieldName, idType := model.idType.keyword
    fields := interchangeFields model.fields }

/-- A relationship model as the document has it. -/
def RuntimeRelModel.toInterchange (model : RuntimeRelModel) : InterchangeEdgeModel :=
  { name := model.name, fromModel := model.fromModel, toModel := model.toModel, idField := model.idFieldName
    idType := model.idType.keyword, fields := interchangeFields model.fields }

/-- The catalog after node models are written into it. -/
def SessionModelCatalog.withNodeModels (c : SessionModelCatalog) (entries : List (String × RuntimeNodeModel)) :
    SessionModelCatalog := { c with nodeModels := BTreeMap.insertAll c.nodeModels entries }

/-- The catalog after relationship models are written into it. -/
def SessionModelCatalog.withRelModels (c : SessionModelCatalog) (entries : List (String × RuntimeRelModel)) :
    SessionModelCatalog := { c with relModels := BTreeMap.insertAll c.relModels entries }

theorem importNodeModel_fresh {c : SessionModelCatalog} {model : RuntimeNodeModel} (checked : model.Checked)
    (fresh : c.taken model.name = false) :
    importNodeModel c model.toInterchange = .ok (c.withNodeModels [(model.name, model)]) := by
  have int64 : model.idType = .int64 := congrArg RuntimeNodeModel.idType (RuntimeNodeModel.new_ok checked)
  have idType : parseInterchangeIdType model.idType.keyword = .ok .int64 := by
    rw [int64]
    rfl
  have made : RuntimeNodeModel.new model.name model.idFieldName .int64 model.fields = .ok model := checked
  simp only [importNodeModel, RuntimeNodeModel.toInterchange, idType, interchangeRuntimeFields_fields, made,
    Except.ok_bind, SessionModelCatalog.registerNodeModel, fresh]
  rfl

theorem importEdgeModel_fresh {c : SessionModelCatalog} {model : RuntimeRelModel} (checked : model.Checked)
    (source : model.fromModel ∈ c.nodeModels) (target : model.toModel ∈ c.nodeModels)
    (fresh : c.taken model.name = false) :
    importEdgeModel c model.toInterchange = .ok (c.withRelModels [(model.name, model)]) := by
  have int64 : model.idType = .int64 := congrArg RuntimeRelModel.idType (RuntimeRelModel.new_ok checked)
  have idType : parseInterchangeIdType model.idType.keyword = .ok .int64 := by
    rw [int64]
    rfl
  have made : RuntimeRelModel.new model.name model.fromModel model.toModel model.idFieldName .int64 model.fields =
    .ok model := checked
  have fromKnown : (c.getNodeModel model.fromModel).isNone = false := by
    exact Bool.eq_false_iff.2 (SessionModelCatalog.mem_nodeModels.1 source)
  have toKnown : (c.getNodeModel model.toModel).isNone = false := by
    exact Bool.eq_false_iff.2 (SessionModelCatalog.mem_nodeModels.1 target)
  simp only [importEdgeModel, RuntimeRelModel.toInterchange, idType, interchangeRuntimeFields_fields, made,
    Except.ok_bind, fromKnown, toKnown, refuseIf, SessionModelCatalog.registerRelModel, fresh]
  rfl

/-- Models under names that are not taken are all registered. -/
theorem importNodeModels_fresh {entries : List (String × RuntimeNodeModel)} {c : SessionModelCatalog}
    (models : ∀ e ∈ entries, e.2.Checked ∧ e.2.name = e.1 ∧ c.taken e.1 = false)
    (distinct : entries.Pairwise fun a b => a.1 ≠ b.1) :
    (entries.map fun e => e.2.toInterchange).foldlM importNodeModel c = .ok (c.withNodeModels entries) := by
  induction entries generalizing c with
  | nil => rfl
  | cons e entries ih =>
    obtain ⟨name, model⟩ := e
    obtain ⟨checked, named, fresh⟩ := models _ List.mem_cons_self
    obtain rfl : model.name = name := named
    obtain ⟨apart, rest⟩ := List.pairwise_cons.1 distinct
    rw [List.map_cons, List.foldlM_cons, importNodeModel_fresh checked fresh, Except.ok_bind]
    refine ih (fun e member => ?_) rest
    obtain ⟨checked, named, free⟩ := models e (List.mem_cons_of_mem _ member)
    refine ⟨checked, named, ?_⟩
    obtain ⟨noNode, noRel⟩ := SessionModelCatalog.taken_eq_false.1 free
    refine SessionModelCatalog.taken_eq_false.2 ⟨fun inserted => ?_, noRel⟩
    rcases BTreeMap.mem_insert.1 inserted with same | before
    · exact apart e member same
    · exact noNode before

theorem importEdgeModels_fresh {entries : List (String × RuntimeRelModel)} {c : SessionModelCatalog}
    (models : ∀ e ∈ entries, e.2.Checked ∧ e.2.name = e.1 ∧ c.taken e.1 = false ∧ e.2.fromModel ∈ c.nodeModels ∧
      e.2.toModel ∈ c.nodeModels)
    (distinct : entries.Pairwise fun a b => a.1 ≠ b.1) :
    (entries.map fun e => e.2.toInterchange).foldlM importEdgeModel c = .ok (c.withRelModels entries) := by
  induction entries generalizing c with
  | nil => rfl
  | cons e entries ih =>
    obtain ⟨name, model⟩ := e
    obtain ⟨checked, named, fresh, source, target⟩ := models _ List.mem_cons_self
    obtain rfl : model.name = name := named
    obtain ⟨apart, rest⟩ := List.pairwise_cons.1 distinct
    rw [List.map_cons, List.foldlM_cons, importEdgeModel_fresh checked source target fresh, Except.ok_bind]
    refine ih (fun e member => ?_) rest
    obtain ⟨checked, named, free, ends⟩ := models e (List.mem_cons_of_mem _ member)
    refine ⟨checked, named, ?_, ends⟩
    obtain ⟨noNode, noRel⟩ := SessionModelCatalog.taken_eq_false.1 free
    refine SessionModelCatalog.taken_eq_false.2 ⟨noNode, fun inserted => ?_⟩
    rcases BTreeMap.mem_insert.1 inserted with same | before
    · exact apart e member same
    · exact noRel before

/-- A catalog that requests lead to is imported again from its own models. -/
theorem importModels {c : SessionModelCatalog} (closed : c.Closed) (checked : c.Checked) :
    ∃ nodes, (c.listNodeModels.map RuntimeNodeModel.toInterchange).foldlM importNodeModel {} = .ok nodes ∧
      (c.listRelModels.map RuntimeRelModel.toInterchange).foldlM importEdgeModel nodes = .ok c := by
  have nodeModels : ({} : SessionModelCatalog).withNodeModels c.nodeModels.toList = { nodeModels := c.nodeModels } := by
    show SessionModelCatalog.mk (BTreeMap.insertAll ∅ c.nodeModels.toList) ∅ = _
    rw [BTreeMap.insertAll_toList]
  have all : ({ nodeModels := c.nodeModels } : SessionModelCatalog).withRelModels c.relModels.toList = c := by
    show SessionModelCatalog.mk c.nodeModels (BTreeMap.insertAll ∅ c.relModels.toList) = c
    rw [BTreeMap.insertAll_toList]
  refine ⟨{ nodeModels := c.nodeModels }, ?_, ?_⟩
  · rw [← nodeModels, SessionModelCatalog.listNodeModels, BTreeMap.vals, List.map_map]
    refine importNodeModels_fresh (fun e member => ?_) (BTreeMap.distinct_toList _)
    have registered := ExtTreeMap.mem_toList_iff_getElem?_eq_some.1 member
    refine ⟨checked.node e.1 e.2 registered, (closed.nodeNamed e.1 e.2 registered).1, ?_⟩
    exact SessionModelCatalog.taken_eq_false.2 ⟨ExtTreeMap.not_mem_empty, ExtTreeMap.not_mem_empty⟩
  · refine Eq.trans ?_ (congrArg Except.ok all)
    rw [SessionModelCatalog.listRelModels, BTreeMap.vals, List.map_map]
    refine importEdgeModels_fresh (fun e member => ?_) (BTreeMap.distinct_toList _)
    have registered := ExtTreeMap.mem_toList_iff_getElem?_eq_some.1 member
    refine ⟨checked.rel e.1 e.2 registered, (closed.relNamed e.1 e.2 registered).1, ?_, closed.endpoints e.1 e.2 registered⟩
    refine SessionModelCatalog.taken_eq_false.2 ⟨fun node => ?_, ExtTreeMap.not_mem_empty⟩
    exact closed.disjoint e.1 node (BTreeMap.mem_iff_get.2 ⟨e.2, registered⟩)

/-! ## Records -/

namespace SessionState

/-- A node as the document has it. -/
def toInterchangeNode (s : SessionState) (node : StoredNode) : InterchangeNode :=
  { id := node.id, model := s.interchangeNodeModelName node, props := node.props }

/-- A relationship as the document has it. -/
def toInterchangeEdge (s : SessionState) (rel : StoredRel) : InterchangeEdge :=
  { id := rel.id, model := s.interchangeEdgeModelName rel, fromId := rel.fromId, toId := rel.toId, props := rel.props }

/-- A node of one registered label is exported under it. -/
theorem interchangeNodeModelName_eq {s : SessionState} (closed : s.catalog.Closed) {node : StoredNode} {label : String}
    {model : RuntimeNodeModel} (labels : node.labels = [label]) (registered : s.catalog.getNodeModel label = some model) :
    s.interchangeNodeModelName node = label := by
  have listed : model ∈ s.catalog.listNodeModels := BTreeMap.mem_vals.2 ⟨label, registered⟩
  unfold interchangeNodeModelName
  cases found : s.catalog.listNodeModels.find? fun model => node.labels.any fun l => l == model.label with
  | none =>
    have missed := List.find?_eq_none.1 found model listed
    rw [labels, (closed.nodeNamed label model registered).2] at missed
    simp at missed
  | some other =>
    have fits := List.find?_some found
    obtain ⟨name, named⟩ := BTreeMap.mem_vals.1 (List.mem_of_find?_eq_some found)
    obtain ⟨own, same⟩ := closed.nodeNamed name other named
    rw [labels] at fits
    have first : label = other.label := by simpa using fits
    show other.name = label
    rw [own, ← same, ← first]

/-- A relationship of a registered type is exported under it. -/
theorem interchangeEdgeModelName_eq {s : SessionState} (closed : s.catalog.Closed) {rel : StoredRel}
    {model : RuntimeRelModel} (registered : s.catalog.getRelModel rel.relType = some model) :
    s.interchangeEdgeModelName rel = rel.relType := by
  have listed : model ∈ s.catalog.listRelModels := BTreeMap.mem_vals.2 ⟨rel.relType, registered⟩
  unfold interchangeEdgeModelName
  cases found : s.catalog.listRelModels.find? fun model => model.relType == rel.relType with
  | none => rfl
  | some other =>
    have fits := List.find?_some found
    obtain ⟨name, named⟩ := BTreeMap.mem_vals.1 (List.mem_of_find?_eq_some found)
    obtain ⟨own, same⟩ := closed.relNamed name other named
    have first : other.relType = rel.relType := by simpa using fits
    show other.name = rel.relType
    rw [own, ← same, first]

variable [Externals] {s : SessionState}

theorem importNode_fresh (reachable : s.Reachable) (checked : s.catalog.Checked) {node : StoredNode}
    (conforms : NodeConforms s.catalog node) (positive : 0 < node.id) {state : GraphStore × Int}
    (fresh : node.id ∉ state.1.nodes) :
    importNode s.catalog state (s.toInterchangeNode node) =
      .ok (state.1.insertNode node.id node, max state.2 node.id) := by
  obtain ⟨label, model, labels, registered, fits⟩ := conforms
  have closed : s.catalog.Closed := reachable.conformant.catalog
  have name := interchangeNodeModelName_eq closed labels registered
  have props := fits.imports (checked.node label model registered).distinct "node" model.name
  have notLow : decide (node.id ≤ 0) = false := by simpa using positive
  have unused : (state.1.nodes[node.id]?).isSome = false := by
    rw [BTreeMap.not_mem_iff_get.1 fresh]
    rfl
  simp only [importNode, toInterchangeNode, name, registered, orConstraint, refuseIf, props, notLow, unused,
    Except.ok_bind, Bool.false_eq_true, if_false, (closed.nodeNamed label model registered).2, ← labels]
  rfl

theorem importEdge_fresh (reachable : s.Reachable) (checked : s.catalog.Checked) {rel : StoredRel}
    (conforms : RelConforms s.persistedSession rel) (positive : 0 < rel.id) {state : GraphStore × Int}
    (nodes : state.1.nodes = s.store.nodes) (fresh : rel.id ∉ state.1.rels) :
    importEdge s.catalog state (s.toInterchangeEdge rel) =
      .ok (state.1.insertRelationship rel.id rel, max state.2 rel.id) := by
  obtain ⟨model, registered, ⟨source, sourceFound, sourceLabel⟩, ⟨target, targetFound, targetLabel⟩, fits⟩ := conforms
  have closed : s.catalog.Closed := reachable.conformant.catalog
  have name := interchangeEdgeModelName_eq closed registered
  have props := fits.imports (checked.rel rel.relType model registered).distinct "edge" model.name
  have notLow : decide (rel.id ≤ 0) = false := by simpa using positive
  have unused : (state.1.rels[rel.id]?).isSome = false := by
    rw [BTreeMap.not_mem_iff_get.1 fresh]
    rfl
  have fromFound : state.1.nodes[rel.fromId]? = some source := by
    rw [nodes]
    exact sourceFound
  have toFound : state.1.nodes[rel.toId]? = some target := by
    rw [nodes]
    exact targetFound
  have fromFits : (!source.labels.any fun label => label == model.fromModel) = false := by
    simpa using sourceLabel
  have toFits : (!target.labels.any fun label => label == model.toModel) = false := by
    simpa using targetLabel
  have catalog : s.catalog.getRelModel rel.relType = some model := registered
  simp only [importEdge, toInterchangeEdge, name, catalog, orConstraint, refuseIf, props, notLow, unused, fromFound,
    toFound, fromFits, toFits, Except.ok_bind, Bool.false_eq_true, if_false,
    (closed.relNamed rel.relType model registered).2]
  rfl

/-- Nodes of the session under ids that are not in the store yet are all imported. -/
theorem importNodes_fresh (reachable : s.Reachable) (checked : s.catalog.Checked) {entries : List (Int × StoredNode)}
    (nodes : ∀ e ∈ entries, e.2.id = e.1 ∧ 0 < e.1 ∧ NodeConforms s.catalog e.2)
    (distinct : entries.Pairwise fun a b => a.1 ≠ b.1) (state : GraphStore × Int)
    (fresh : ∀ e ∈ entries, e.1 ∉ state.1.nodes) :
    ∃ state', (entries.map fun e => s.toInterchangeNode e.2).foldlM (importNode s.catalog) state = .ok state' ∧
      state'.1.nodes = BTreeMap.insertAll state.1.nodes entries ∧ state'.1.rels = state.1.rels := by
  induction entries generalizing state with
  | nil => exact ⟨state, rfl, rfl, rfl⟩
  | cons e entries ih =>
    obtain ⟨id, node⟩ := e
    obtain ⟨own, positive, conforms⟩ := nodes _ List.mem_cons_self
    obtain rfl : node.id = id := own
    obtain ⟨apart, rest⟩ := List.pairwise_cons.1 distinct
    have first := importNode_fresh reachable checked conforms positive (fresh _ List.mem_cons_self)
    obtain ⟨state', imported, stored, rels⟩ := ih (fun e member => nodes e (List.mem_cons_of_mem _ member)) rest
      (state.1.insertNode node.id node, max state.2 node.id) (by
        intro e member inserted
        rw [GraphStore.insertNode_nodes] at inserted
        rcases BTreeMap.mem_insert.1 inserted with same | before
        · exact apart e member same
        · exact fresh e (List.mem_cons_of_mem _ member) before)
    refine ⟨state', ?_, ?_, ?_⟩
    · rw [List.map_cons, List.foldlM_cons, first, Except.ok_bind, imported]
    · rw [stored, GraphStore.insertNode_nodes]
      rfl
    · rw [rels, GraphStore.insertNode_rels]

/-- Relationships of the session under ids that are not in the store yet are all imported. -/
theorem importEdges_fresh (reachable : s.Reachable) (checked : s.catalog.Checked) {entries : List (Int × StoredRel)}
    (rels : ∀ e ∈ entries, e.2.id = e.1 ∧ 0 < e.1 ∧ RelConforms s.persistedSession e.2)
    (distinct : entries.Pairwise fun a b => a.1 ≠ b.1) (state : GraphStore × Int)
    (nodes : state.1.nodes = s.store.nodes) (fresh : ∀ e ∈ entries, e.1 ∉ state.1.rels) :
    ∃ state', (entries.map fun e => s.toInterchangeEdge e.2).foldlM (importEdge s.catalog) state = .ok state' ∧
      state'.1.nodes = state.1.nodes ∧ state'.1.rels = BTreeMap.insertAll state.1.rels entries := by
  induction entries generalizing state with
  | nil => exact ⟨state, rfl, rfl, rfl⟩
  | cons e entries ih =>
    obtain ⟨id, rel⟩ := e
    obtain ⟨own, positive, conforms⟩ := rels _ List.mem_cons_self
    obtain rfl : rel.id = id := own
    obtain ⟨apart, rest⟩ := List.pairwise_cons.1 distinct
    have first := importEdge_fresh reachable checked conforms positive nodes (fresh _ List.mem_cons_self)
    obtain ⟨state', imported, same, stored⟩ := ih (fun e member => rels e (List.mem_cons_of_mem _ member)) rest
      (state.1.insertRelationship rel.id rel, max state.2 rel.id)
      ((GraphStore.insertRelationship_nodes _ _ _).trans nodes) (by
        intro e member inserted
        rw [GraphStore.insertRelationship_rels] at inserted
        rcases BTreeMap.mem_insert.1 inserted with same | before
        · exact apart e member same
        · exact fresh e (List.mem_cons_of_mem _ member) before)
    refine ⟨state', ?_, ?_, ?_⟩
    · rw [List.map_cons, List.foldlM_cons, first, Except.ok_bind, imported]
    · rw [same, GraphStore.insertRelationship_nodes]
    · rw [stored, GraphStore.insertRelationship_rels]
      rfl

/-- The records of a session are imported into the empty store under the session's catalog. -/
theorem importRecords (reachable : s.Reachable) (checked : s.catalog.Checked)
    (positive : PositiveIds s.persistedSession.graph) :
    ∃ nodes edges,
      s.interchangeDocument.data.nodes.foldlM (importNode s.catalog) (GraphStore.empty, 0) = .ok nodes ∧
      s.interchangeDocument.data.edges.foldlM (importEdge s.catalog) (nodes.1, 0) = .ok edges ∧
      edges.1.nodes = s.store.nodes ∧ edges.1.rels = s.store.rels := by
  have conformant := reachable.conformant
  have nodeList : s.interchangeDocument.data.nodes =
      s.store.nodes.toList.map fun e => s.toInterchangeNode e.2 := by
    show s.store.nodes.vals.map s.toInterchangeNode = _
    rw [BTreeMap.vals, List.map_map]
    rfl
  have edgeList : s.interchangeDocument.data.edges =
      s.store.rels.toList.map fun e => s.toInterchangeEdge e.2 := by
    show s.store.rels.vals.map s.toInterchangeEdge = _
    rw [BTreeMap.vals, List.map_map]
    rfl
  have conformNodes : ∀ e ∈ s.store.nodes.toList, e.2.id = e.1 ∧ 0 < e.1 ∧ NodeConforms s.catalog e.2 := by
    intro e member
    have stored := ExtTreeMap.mem_toList_iff_getElem?_eq_some.1 member
    obtain ⟨own, -, conforms⟩ := conformant.node e.1 e.2 stored
    exact ⟨own, positive.node e.1 (BTreeMap.mem_iff_get.2 ⟨e.2, stored⟩), conforms⟩
  have conformRels : ∀ e ∈ s.store.rels.toList, e.2.id = e.1 ∧ 0 < e.1 ∧ RelConforms s.persistedSession e.2 := by
    intro e member
    have stored := ExtTreeMap.mem_toList_iff_getElem?_eq_some.1 member
    obtain ⟨own, -, conforms⟩ := conformant.rel e.1 e.2 stored
    exact ⟨own, positive.rel e.1 (BTreeMap.mem_iff_get.2 ⟨e.2, stored⟩), conforms⟩
  obtain ⟨nodes, nodesImported, nodesStored, noRels⟩ := importNodes_fresh reachable checked conformNodes
    (BTreeMap.distinct_toList _) (GraphStore.empty, 0) (fun e _ => ExtTreeMap.not_mem_empty)
  rw [show (GraphStore.empty, (0 : Int)).1.nodes = ∅ from rfl, BTreeMap.insertAll_toList] at nodesStored
  obtain ⟨edges, edgesImported, same, relsStored⟩ := importEdges_fresh reachable checked conformRels
    (BTreeMap.distinct_toList _) (nodes.1, 0) nodesStored (fun e _ => by
      rw [noRels]
      exact ExtTreeMap.not_mem_empty)
  rw [show ((nodes.1, (0 : Int)).1).rels = ∅ from noRels, BTreeMap.insertAll_toList] at relsStored
  exact ⟨nodes, edges, nodeList ▸ nodesImported, edgeList ▸ edgesImported, same.trans nodesStored, relsStored⟩

/-- A reachable session whose graph is below its counters imports its own document. -/
theorem importDocument (reachable : s.Reachable) (checked : s.catalog.Checked)
    (positive : PositiveIds s.persistedSession.graph) :
    ∃ store, buildImportedInterchange s.interchangeDocument = .ok (s.catalog, store) ∧
      store.nodes = s.store.nodes ∧ store.rels = s.store.rels := by
  have closed : s.catalog.Closed := reachable.conformant.catalog
  obtain ⟨models, nodeModels, edgeModels⟩ := importModels closed checked
  obtain ⟨nodes, edges, nodesImported, edgesImported, sameNodes, sameRels⟩ := importRecords reachable checked positive
  refine ⟨{ edges.1 with nextNodeId := i64Succ nodes.2, nextRelId := i64Succ edges.2 }, ?_, sameNodes, sameRels⟩
  have header : validateInterchangeHeader s.interchangeDocument = .ok () := rfl
  have schemaNodes : s.interchangeDocument.schema.nodes = s.catalog.listNodeModels.map RuntimeNodeModel.toInterchange :=
    rfl
  have schemaEdges : s.interchangeDocument.schema.edges = s.catalog.listRelModels.map RuntimeRelModel.toInterchange :=
    rfl
  rw [buildImportedInterchange, header, schemaNodes, schemaEdges, Except.ok_bind, nodeModels, Except.ok_bind,
    edgeModels, Except.ok_bind, nodesImported, Except.ok_bind]
  show (s.interchangeDocument.data.edges.foldlM (importEdge s.catalog) (nodes.1, 0) >>= _) = _
  rw [edgesImported, Except.ok_bind]
  rfl

/-- A reachable session has the ids of its document below its counters, so that the imported store
has its counters above them where those of the session are `i64`. -/
theorem importDocument_leavesRoom (reachable : s.Reachable) {catalog : SessionModelCatalog} {store : GraphStore}
    (imported : buildImportedInterchange s.interchangeDocument = .ok (catalog, store))
    (nextNode : s.store.nextNodeId ≤ i64Max) (nextRel : s.store.nextRelId ≤ i64Max) : store.LeavesRoom := by
  have nodesBelow : ∀ id ∈ s.interchangeDocument.data.nodes.map InterchangeNode.id, id < i64Max := by
    intro id member
    obtain ⟨_, listed, rfl⟩ := List.mem_map.1 member
    obtain ⟨node, stored, rfl⟩ := List.mem_map.1 listed
    obtain ⟨k, found⟩ := BTreeMap.mem_vals.1 stored
    obtain ⟨own, below, -⟩ := reachable.conformant.node k node found
    have below' : k < s.store.nextNodeId := below
    show node.id < i64Max
    omega
  have relsBelow : ∀ id ∈ s.interchangeDocument.data.edges.map InterchangeEdge.id, id < i64Max := by
    intro id member
    obtain ⟨_, listed, rfl⟩ := List.mem_map.1 member
    obtain ⟨rel, stored, rfl⟩ := List.mem_map.1 listed
    obtain ⟨k, found⟩ := BTreeMap.mem_vals.1 stored
    obtain ⟨own, below, -⟩ := reachable.conformant.rel k rel found
    have below' : k < s.store.nextRelId := below
    show rel.id < i64Max
    omega
  have room := imported_ids_leave_room (fun id member => Int.le_of_lt (nodesBelow id member))
    (fun id member => Int.le_of_lt (relsBelow id member)) imported
  exact (room.2 ⟨fun id member => Int.ne_of_lt (nodesBelow id member),
    fun id member => Int.ne_of_lt (relsBelow id member)⟩).2.2

end SessionState

/-- Whatever requests a fresh session executes, its interchange document is imported as a session of
the same models, nodes and relationships. The counters of the code are `i64`: as long as they have
not passed the greatest one, those of the imported session are above every id. -/
theorem interchange_round_trip [Externals] (requests : List RuntimeRequest) :
    ∃ catalog store,
      buildImportedInterchange (SessionState.new.run requests).interchangeDocument = .ok (catalog, store) ∧
      catalog = (SessionState.new.run requests).catalog ∧
      store.nodes = (SessionState.new.run requests).store.nodes ∧
      store.rels = (SessionState.new.run requests).store.rels ∧
      ((SessionState.new.run requests).store.nextNodeId ≤ i64Max →
        (SessionState.new.run requests).store.nextRelId ≤ i64Max → store.LeavesRoom) := by
  have reachable : (SessionState.new.run requests).Reachable := SessionState.reachable_new.run requests
  have checked := SessionState.checked_run SessionState.reachable_new SessionState.checked_new requests
  have positive := SessionState.positiveIds_run SessionState.reachable_new positiveIds_new requests
  obtain ⟨store, imported, nodes, rels⟩ := SessionState.importDocument reachable checked positive
  exact ⟨_, store, imported, rfl, nodes, rels, SessionState.importDocument_leavesRoom reachable imported⟩
