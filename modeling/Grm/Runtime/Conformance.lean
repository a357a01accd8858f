import Grm.Runtime.Persisted

/-!
# Schema conformance

The invariant of a session's durable part: every record fits a registered model, every
relationship has its endpoints, the catalog is closed and every id is below its
counter. `Admissible` lists what a session may log in a state, with everything its
checks established; each such entry keeps the invariant.
-/

open Std

set_option autoImplicit false

section Conforms
variable [Externals]

/-- Every property is a declared field and has a value of the field's kind. -/
def Declared (fields : List RuntimeField) (props : Props) : Prop :=
  ∀ (key : String) (value : Value), props[key]? = some value →
    ∃ field, fieldNamed fields key = some field ∧ validateValueForKind field.valueType value = true

/-- The properties of a record fit the fields of its model. -/
structure Conforms (fields : List RuntimeField) (props : Props) : Prop where
  declared : Declared fields props
  required : ∀ field ∈ fields, field.required = true → field.name ∈ props

theorem Declared.merge {fields : List RuntimeField} {props updates : Props} (h : Declared fields props)
    (valid : Declared fields updates) : Declared fields (mergeProps props updates) := by
  intro key value found
  rw [mergeProps, BTreeMap.get_insertAll_toList] at found
  cases updated : updates[key]? with
  | some new =>
    rw [updated, Option.some_or] at found
    exact valid key value (updated.trans found)
  | none =>
    rw [updated, Option.none_or] at found
    exact h key value found

/-- An update of declared fields keeps a record in shape: no property goes away. -/
theorem Conforms.merge {fields : List RuntimeField} {props updates : Props} (h : Conforms fields props)
    (valid : Declared fields updates) : Conforms fields (mergeProps props updates) where
  declared := h.declared.merge valid
  required field member required := by
    obtain ⟨value, found⟩ := BTreeMap.mem_iff_get.1 (h.required field member required)
    rw [BTreeMap.mem_iff_get, mergeProps, BTreeMap.get_insertAll_toList, found]
    cases updates[field.name]? with
    | some new => exact ⟨new, rfl⟩
    | none => exact ⟨value, rfl⟩

/-! ## What the validators establish -/

theorem collectField_ok {kind name : String} {values props after : Props} {field : RuntimeField}
    (ok : collectField kind name values props field = .ok after) :
    (∀ value, values[field.name]? = some value → validateValueForKind field.valueType value = true) ∧
      (values[field.name]? = none → field.required = false) ∧
      ∀ key, after[key]? = if key = field.name then (values[key]?).or props[key]? else props[key]? := by
  unfold collectField at ok
  cases given : values[field.name]? with
  | none =>
    rw [given] at ok
    dsimp only at ok
    split at ok
    · cases ok
    case isFalse optional =>
      cases ok
      refine ⟨nofun, fun _ => by simpa using optional, fun key => ?_⟩
      split
      case isTrue same => rw [same, given, Option.none_or]
      case isFalse => rfl
  | some value =>
    rw [given] at ok
    dsimp only at ok
    split at ok
    case isTrue valid =>
      cases ok
      refine ⟨by rintro _ ⟨⟩; exact valid, nofun, fun key => ?_⟩
      rw [BTreeMap.get_insert]
      split
      case isTrue same => rw [if_pos same.symm, ← same, given, Option.some_or]
      case isFalse other => rw [if_neg (Ne.symm other)]
    · cases ok

/-- The field loop takes over the given values of the fields it passes, each checked. -/
theorem collectFields_ok {kind name : String} {values : Props} (fields : List RuntimeField) {props after : Props}
    (ok : fields.foldlM (collectField kind name values) props = .ok after) :
    (∀ field ∈ fields,
      (∀ value, values[field.name]? = some value → validateValueForKind field.valueType value = true) ∧
        (values[field.name]? = none → field.required = false)) ∧
      ∀ key, after[key]? = if key ∈ fields.map RuntimeField.name then (values[key]?).or props[key]? else props[key]? := by
  induction fields generalizing props with
  | nil => cases ok; exact ⟨nofun, fun key => rfl⟩
  | cons field fields ih =>
    rw [List.foldlM_cons] at ok
    cases first : collectField kind name values props field with
    | error e => rw [first] at ok; cases ok
    | ok middle =>
      rw [first] at ok
      obtain ⟨rest, lookups⟩ := ih ok
      obtain ⟨valid, optional, lookup⟩ := collectField_ok first
      refine ⟨?_, fun key => ?_⟩
      · intro f member
        rcases List.mem_cons.1 member with rfl | later
        · exact ⟨valid, optional⟩
        · exact rest f later
      · rw [lookups, lookup, List.map_cons]
        by_cases here : key = field.name
        · simp only [here, List.mem_cons, true_or, if_true]
          split
          · cases values[field.name]? <;> rfl
          · rfl
        · simp only [here, List.mem_cons, false_or, if_false]

omit [Externals] in
theorem fieldNamed_some {fields : List RuntimeField} {key : String} {field : RuntimeField}
    (found : fieldNamed fields key = some field) : field ∈ fields ∧ field.name = key := by
  have named := List.find?_some found
  exact ⟨List.mem_of_find?_eq_some found, by simpa using named⟩

/-- A record that passes `validate_props_for_fields` is stored as given, and conforms. -/
theorem validatePropsForFields_ok {kind name : String} {fields : List RuntimeField} {values props : Props}
    (ok : validatePropsForFields kind name fields values = .ok props) : props = values ∧ Conforms fields props := by
  unfold validatePropsForFields at ok
  split at ok
  · cases ok
  case h_2 known =>
    obtain ⟨checked, lookups⟩ := collectFields_ok fields ok
    have declaredKey : ∀ key ∈ values, ∃ field ∈ fields, field.name = key := by
      intro key member
      have passes := List.find?_eq_none.1 known key (ExtTreeMap.mem_keys.2 member)
      simpa using passes
    have same : props = values := by
      apply BTreeMap.ext_get
      intro key
      rw [lookups key]
      split
      case isTrue => simp
      case isFalse unlisted =>
        have absent : key ∉ values := fun member => by
          obtain ⟨field, listed, named⟩ := declaredKey key member
          exact unlisted (List.mem_map.2 ⟨field, listed, named⟩)
        rw [BTreeMap.not_mem_iff_get.1 absent]
        simp
    subst same
    refine ⟨rfl, fun key value found => ?_, fun field listed required => ?_⟩
    · obtain ⟨listed, listedIn, named⟩ := declaredKey key (BTreeMap.mem_iff_get.2 ⟨value, found⟩)
      cases first : fieldNamed fields key with
      | none =>
        have other := List.find?_eq_none.1 first listed listedIn
        simp [named] at other
      | some field =>
        obtain ⟨member, name⟩ := fieldNamed_some first
        exact ⟨field, rfl, (checked field member).1 value (name ▸ found)⟩
    · apply Classical.byContradiction
      intro missing
      rw [(checked field listed).2 (BTreeMap.not_mem_iff_get.1 missing)] at required
      cases required

theorem collectUpdates_ok {kind name : String} {fields : List RuntimeField} (entries : List (String × Value))
    {props after : Props} (ok : entries.foldlM (collectUpdate kind name fields) props = .ok after) :
    after = BTreeMap.insertAll props entries ∧
      ∀ entry ∈ entries, ∃ field, fieldNamed fields entry.1 = some field ∧
        validateValueForKind field.valueType entry.2 = true := by
  induction entries generalizing props with
  | nil => cases ok; exact ⟨rfl, nofun⟩
  | cons entry entries ih =>
    rw [List.foldlM_cons] at ok
    unfold collectUpdate at ok
    cases named : fieldNamed fields entry.1 with
    | none => rw [named] at ok; cases ok
    | some field =>
      rw [named] at ok
      dsimp only at ok
      split at ok
      case isTrue valid =>
        obtain ⟨rest, checked⟩ := ih ok
        refine ⟨rest, fun e member => ?_⟩
        rcases List.mem_cons.1 member with rfl | later
        · exact ⟨field, named, valid⟩
        · exact checked e later
      · cases ok

/-- An update that passes `validate_update_props` is taken as given, and is declared. -/
theorem validateUpdateProps_ok {kind name : String} {fields : List RuntimeField} {values props : Props}
    (ok : validateUpdateProps kind name fields values = .ok props) : props = values ∧ Declared fields props := by
  obtain ⟨rfl, checked⟩ := collectUpdates_ok values.toList ok
  rw [BTreeMap.insertAll_toList]
  refine ⟨rfl, fun key value found => ?_⟩
  exact checked (key, value) (ExtTreeMap.mem_toList_iff_getElem?_eq_some.2 found)

end Conforms

/-! ## The invariant -/

section Invariant
variable [Externals]

/-- The node has one label, a registered model's name, and fits the model. -/
def NodeConforms (catalog : SessionModelCatalog) (node : StoredNode) : Prop :=
  ∃ label model, node.labels = [label] ∧ catalog.getNodeModel label = some model ∧ Conforms model.fields node.props

/-- The node exists and has the label. -/
def Labelled (graph : PersistedGraphStore) (id : Int) (label : String) : Prop :=
  ∃ node, graph.nodes[id]? = some node ∧ label ∈ node.labels

/-- The relationship's type is a registered model, its endpoints have the model's labels,
and its properties fit. -/
def RelConforms (d : PersistedSession) (rel : StoredRel) : Prop :=
  ∃ model, d.catalog.getRelModel rel.relType = some model ∧ Labelled d.graph rel.fromId model.fromModel ∧
    Labelled d.graph rel.toId model.toModel ∧ Conforms model.fields rel.props

namespace SessionModelCatalog

/-- The catalog is closed: every model is under its own name, which is its label or type,
no name is used twice, and endpoint models are registered. -/
structure Closed (c : SessionModelCatalog) : Prop where
  nodeNamed : ∀ name model, c.getNodeModel name = some model → model.name = name ∧ model.label = name
  relNamed : ∀ name model, c.getRelModel name = some model → model.name = name ∧ model.relType = name
  disjoint : ∀ name, name ∈ c.nodeModels → name ∉ c.relModels
  endpoints : ∀ name model, c.getRelModel name = some model →
    model.fromModel ∈ c.nodeModels ∧ model.toModel ∈ c.nodeModels

end SessionModelCatalog

/-- Schema conformance and referential integrity. -/
structure Conformant (d : PersistedSession) : Prop where
  node : ∀ (id : Int) (node : StoredNode), d.graph.nodes[id]? = some node →
    node.id = id ∧ id < d.graph.nextNodeId ∧ NodeConforms d.catalog node
  rel : ∀ (id : Int) (rel : StoredRel), d.graph.rels[id]? = some rel →
    rel.id = id ∧ id < d.graph.nextRelId ∧ RelConforms d rel
  catalog : d.catalog.Closed

theorem conformant_new : Conformant SessionState.new.persistedSession where
  node id node found := by
    simp [SessionState.new, SessionState.persistedSession, GraphStore.toPersisted, GraphStore.empty] at found
  rel id rel found := by
    simp [SessionState.new, SessionState.persistedSession, GraphStore.toPersisted, GraphStore.empty] at found
  catalog := by
    constructor <;>
      simp [SessionState.new, SessionState.persistedSession, SessionModelCatalog.getNodeModel,
        SessionModelCatalog.getRelModel]

/-- What a session logs, with what its checks established before. -/
inductive Admissible (d : PersistedSession) : DurableOperation → Prop where
  | defineNode {model : RuntimeNodeModel} (checked : model.Checked)
      (fresh : d.catalog.taken model.name = false) : Admissible d (.registerNodeModel model)
  | defineEdge {model : RuntimeRelModel} (checked : model.Checked)
      (source : model.fromModel ∈ d.catalog.nodeModels) (target : model.toModel ∈ d.catalog.nodeModels)
      (fresh : d.catalog.taken model.name = false) : Admissible d (.registerRelModel model)
  | createNode {name : String} {model : RuntimeNodeModel} {node : StoredNode}
      (registered : d.catalog.getNodeModel name = some model) (id : node.id = d.graph.nextNodeId)
      (labels : node.labels = [model.label]) (conforms : Conforms model.fields node.props) :
      Admissible d (.upsertNode node)
  | updateNode {name : String} {model : RuntimeNodeModel} {old : StoredNode} {updates : Props}
      (registered : d.catalog.getNodeModel name = some model) (stored : d.graph.nodes[old.id]? = some old)
      (labelled : model.label ∈ old.labels) (declared : Declared model.fields updates) :
      Admissible d (.upsertNode { old with props := mergeProps old.props updates })
  | deleteNode {id : Int} (stored : id ∈ d.graph.nodes) : Admissible d (.deleteNode id)
  | createRel {name : String} {model : RuntimeRelModel} {rel : StoredRel}
      (registered : d.catalog.getRelModel name = some model) (id : rel.id = d.graph.nextRelId)
      (type : rel.relType = model.relType) (source : Labelled d.graph rel.fromId model.fromModel)
      (target : Labelled d.graph rel.toId model.toModel) (conforms : Conforms model.fields rel.props) :
      Admissible d (.upsertRel rel)
  | updateRel {name : String} {model : RuntimeRelModel} {old : StoredRel} {updates : Props}
      (registered : d.catalog.getRelModel name = some model) (stored : d.graph.rels[old.id]? = some old)
      (type : old.relType = model.relType) (declared : Declared model.fields updates) :
      Admissible d (.upsertRel { old with props := mergeProps old.props updates })
  | deleteRel {id : Int} (stored : id ∈ d.graph.rels) : Admissible d (.deleteRel id)

end Invariant

namespace SessionModelCatalog

theorem taken_eq_false {c : SessionModelCatalog} {name : String} :
    c.taken name = false ↔ name ∉ c.nodeModels ∧ name ∉ c.relModels := by
  rw [taken, ← Bool.not_eq_true, Bool.or_eq_true, not_or, ExtTreeMap.contains_iff_mem, ExtTreeMap.contains_iff_mem]

theorem mem_nodeModels {c : SessionModelCatalog} {name : String} :
    name ∈ c.nodeModels ↔ ¬ (c.getNodeModel name).isNone := by
  rw [ExtTreeMap.mem_iff_isSome_getElem?, getNodeModel]
  cases c.nodeModels[name]? <;> simp

theorem mem_relModels {c : SessionModelCatalog} {name : String} :
    name ∈ c.relModels ↔ ¬ (c.getRelModel name).isNone := by
  rw [ExtTreeMap.mem_iff_isSome_getElem?, getRelModel]
  cases c.relModels[name]? <;> simp

theorem ensureNodeModel_fresh {c : SessionModelCatalog} {model : RuntimeNodeModel} (fresh : c.taken model.name = false) :
    c.ensureNodeModel model = .ok { c with nodeModels := c.nodeModels.insert model.name model } := by
  have unknown : c.nodeModels[model.name]? = none := BTreeMap.not_mem_iff_get.1 (taken_eq_false.1 fresh).1
  simp [ensureNodeModel, registerNodeModel, getNodeModel, fresh, unknown]

theorem ensureRelModel_fresh {c : SessionModelCatalog} {model : RuntimeRelModel} (fresh : c.taken model.name = false) :
    c.ensureRelModel model = .ok { c with relModels := c.relModels.insert model.name model } := by
  have unknown : c.relModels[model.name]? = none := BTreeMap.not_mem_iff_get.1 (taken_eq_false.1 fresh).2
  simp [ensureRelModel, registerRelModel, getRelModel, fresh, unknown]

theorem Closed.insertNode {c : SessionModelCatalog} (h : c.Closed) {model : RuntimeNodeModel}
    (named : model.label = model.name) (fresh : c.taken model.name = false) :
    Closed { c with nodeModels := c.nodeModels.insert model.name model } where
  nodeNamed name found ofName := by
    simp only [getNodeModel, BTreeMap.get_insert] at ofName
    split at ofName
    case isTrue same => cases ofName; exact ⟨same, named.trans same⟩
    case isFalse => exact h.nodeNamed name found ofName
  relNamed := h.relNamed
  disjoint name member := by
    rcases BTreeMap.mem_insert.1 member with rfl | old
    · exact (taken_eq_false.1 fresh).2
    · exact h.disjoint name old
  endpoints name found ofName :=
    ⟨BTreeMap.mem_insert.2 (.inr (h.endpoints name found ofName).1),
      BTreeMap.mem_insert.2 (.inr (h.endpoints name found ofName).2)⟩

theorem Closed.insertRel {c : SessionModelCatalog} (h : c.Closed) {model : RuntimeRelModel}
    (named : model.relType = model.name) (source : model.fromModel ∈ c.nodeModels)
    (target : model.toModel ∈ c.nodeModels) (fresh : c.taken model.name = false) :
    Closed { c with relModels := c.relModels.insert model.name model } where
  nodeNamed := h.nodeNamed
  relNamed name found ofName := by
    simp only [getRelModel, BTreeMap.get_insert] at ofName
    split at ofName
    case isTrue same => cases ofName; exact ⟨same, named.trans same⟩
    case isFalse => exact h.relNamed name found ofName
  disjoint name member := by
    rw [BTreeMap.mem_insert, not_or]
    refine ⟨fun same => ?_, h.disjoint name member⟩
    exact (taken_eq_false.1 fresh).1 (same ▸ member)
  endpoints name found ofName := by
    simp only [getRelModel, BTreeMap.get_insert] at ofName
    split at ofName
    case isTrue => cases ofName; exact ⟨source, target⟩
    case isFalse => exact h.endpoints name found ofName

end SessionModelCatalog

/-! ## Each admissible entry keeps the invariant -/

/-- A label stays when its node is written again with the labels it had. -/
theorem Labelled.putNode {graph : PersistedGraphStore} {id : Int} {label : String} (h : Labelled graph id label)
    {node : StoredNode} (kept : ∀ old, graph.nodes[node.id]? = some old → node.labels = old.labels) :
    Labelled (graph.putNode node) id label := by
  obtain ⟨old, found, labelled⟩ := h
  by_cases same : node.id = id
  · refine ⟨node, ?_, ?_⟩
    · rw [PersistedGraphStore.putNode, BTreeMap.get_insert, if_pos same]
    · rw [kept old (same ▸ found)]
      exact labelled
  · exact ⟨old, (BTreeMap.get_insert_ne _ _ same).trans found, labelled⟩

theorem Labelled.dropNode {graph : PersistedGraphStore} {id gone : Int} {label : String} (h : Labelled graph id label)
    (other : gone ≠ id) : Labelled (graph.dropNode gone) id label := by
  obtain ⟨node, found, labelled⟩ := h
  refine ⟨node, ?_, labelled⟩
  rw [PersistedGraphStore.dropNode_nodes, BTreeMap.get_erase_ne _ other]
  exact found

section Preservation
variable [Externals] {d : PersistedSession}

/-- Writing a conforming node that does not change the labels of an existing one. -/
theorem Conformant.putNode (h : Conformant d) {node : StoredNode} (conforms : NodeConforms d.catalog node)
    (kept : ∀ old, d.graph.nodes[node.id]? = some old → node.labels = old.labels) :
    Conformant { d with graph := d.graph.putNode node } where
  node id found ofId := by
    simp only [PersistedGraphStore.putNode, BTreeMap.get_insert] at ofId ⊢
    split at ofId
    case isTrue same =>
      cases ofId
      exact ⟨same, by omega, conforms⟩
    case isFalse =>
      obtain ⟨own, below, fits⟩ := h.node id found ofId
      exact ⟨own, by omega, fits⟩
  rel id found ofId := by
    obtain ⟨own, below, model, registered, source, target, fits⟩ := h.rel id found ofId
    exact ⟨own, below, model, registered, source.putNode kept, target.putNode kept, fits⟩
  catalog := h.catalog

/-- Writing a conforming relationship. -/
theorem Conformant.putRel (h : Conformant d) {rel : StoredRel} (conforms : RelConforms d rel) :
    Conformant { d with graph := d.graph.putRel rel } where
  node := h.node
  rel id found ofId := by
    simp only [PersistedGraphStore.putRel, BTreeMap.get_insert] at ofId ⊢
    split at ofId
    case isTrue same =>
      cases ofId
      exact ⟨same, by omega, conforms⟩
    case isFalse =>
      obtain ⟨own, below, fits⟩ := h.rel id found ofId
      exact ⟨own, by omega, fits⟩
  catalog := h.catalog

/-- A node goes with the relationships that touch it, so the others keep their ends. -/
theorem Conformant.dropNode (h : Conformant d) {id : Int} (stored : id ∈ d.graph.nodes) :
    Conformant { d with graph := d.graph.dropNode id } where
  node k found ofId := by
    simp only [PersistedGraphStore.dropNode_nodes, PersistedGraphStore.dropNode_nextNodeId, BTreeMap.get_erase] at ofId ⊢
    split at ofId
    · cases ofId
    · exact h.node k found ofId
  rel k found ofId := by
    simp only [PersistedGraphStore.dropNode_rels, PersistedGraphStore.dropNode_nextRelId, if_pos stored,
      Option.filter_eq_some_iff] at ofId ⊢
    obtain ⟨own, below, model, registered, source, target, fits⟩ := h.rel k found ofId.1
    have apart : ¬ found.fromId = id ∧ ¬ found.toId = id := by simpa [StoredRel.touches] using ofId.2
    exact ⟨own, below, model, registered, source.dropNode (Ne.symm apart.1), target.dropNode (Ne.symm apart.2), fits⟩
  catalog := h.catalog

theorem Conformant.dropRel (h : Conformant d) (id : Int) : Conformant { d with graph := d.graph.dropRel id } where
  node := h.node
  rel k found ofId := by
    simp only [PersistedGraphStore.dropRel, BTreeMap.get_erase] at ofId
    split at ofId
    · cases ofId
    · exact h.rel k found ofId
  catalog := h.catalog

/-- An admissible entry replays, and keeps conformance. -/
theorem Admissible.keeps {op : DurableOperation} (admissible : Admissible d op) (h : Conformant d) :
    ∃ d', d.replay op = .ok d' ∧ Conformant d' := by
  cases admissible with
  | @defineNode model checked fresh =>
    refine ⟨_, by rw [PersistedSession.replay, SessionModelCatalog.ensureNodeModel_fresh fresh]; rfl, ?_⟩
    have unknown := (SessionModelCatalog.taken_eq_false.1 fresh).1
    refine ⟨fun id node found => ?_, h.rel, h.catalog.insertNode checked.labelled fresh⟩
    obtain ⟨own, below, label, old, labels, registered, fits⟩ := h.node id node found
    refine ⟨own, below, label, old, labels, ?_, fits⟩
    rw [SessionModelCatalog.getNodeModel, BTreeMap.get_insert_ne]
    · exact registered
    · exact fun same => unknown (BTreeMap.mem_iff_get.2 ⟨old, same ▸ registered⟩)
  | @defineEdge model checked source target fresh =>
    refine ⟨_, by rw [PersistedSession.replay, SessionModelCatalog.ensureRelModel_fresh fresh]; rfl, ?_⟩
    have unknown := (SessionModelCatalog.taken_eq_false.1 fresh).2
    refine ⟨h.node, fun id rel found => ?_, h.catalog.insertRel checked.typed source target fresh⟩
    obtain ⟨own, below, old, registered, rest⟩ := h.rel id rel found
    refine ⟨own, below, old, ?_, rest⟩
    rw [SessionModelCatalog.getRelModel, BTreeMap.get_insert_ne]
    · exact registered
    · exact fun same => unknown (BTreeMap.mem_iff_get.2 ⟨old, same ▸ registered⟩)
  | @createNode name model node registered id labels conforms =>
    refine ⟨_, rfl, h.putNode ⟨name, model, ?_, registered, conforms⟩ fun old found => ?_⟩
    · rw [labels, (h.catalog.nodeNamed name model registered).2]
    · have below := (h.node node.id old found).2.1
      rw [id] at below
      omega
  | @updateNode name model old updates registered stored labelled declared =>
    refine ⟨_, rfl, h.putNode ?_ fun other found => ?_⟩
    · obtain ⟨-, -, label, oldModel, labels, oldRegistered, fits⟩ := h.node old.id old stored
      -- the one label of the node is the model the request named
      have same : model = oldModel := by
        rw [labels, List.mem_singleton] at labelled
        rw [(h.catalog.nodeNamed name model registered).2] at labelled
        rw [labelled, oldRegistered] at registered
        exact (Option.some.inj registered).symm
      exact ⟨label, oldModel, labels, oldRegistered, fits.merge (same ▸ declared)⟩
    · rw [stored] at found
      cases found
      rfl
  | @deleteNode id stored => exact ⟨_, rfl, h.dropNode stored⟩
  | @createRel name model rel registered id type source target conforms =>
    refine ⟨_, rfl, h.putRel ⟨model, ?_, source, target, conforms⟩⟩
    rw [type, (h.catalog.relNamed name model registered).2]
    exact registered
  | @updateRel name model old updates registered stored type declared =>
    refine ⟨_, rfl, h.putRel ?_⟩
    obtain ⟨-, -, oldModel, oldRegistered, source, target, fits⟩ := h.rel old.id old stored
    have same : model = oldModel := by
      rw [type, (h.catalog.relNamed name model registered).2, registered] at oldRegistered
      exact Option.some.inj oldRegistered
    exact ⟨oldModel, oldRegistered, source, target, fits.merge (same ▸ declared)⟩
  | @deleteRel id stored => exact ⟨_, rfl, h.dropRel id⟩

end Preservation
