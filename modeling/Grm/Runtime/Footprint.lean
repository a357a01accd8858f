import Grm.Runtime.Redo

/-!
# What a request may change

Rights are rights on models: to define one, to create, update and delete its records. The
models and records in which two states of a session differ are within rights when each of
them is one a right is about; a relationship may also go with one of its ends. A request
stays within the rights on the models it names, a batch within those of its operations.
-/

set_option autoImplicit false

/-- Rights on models, by their names. -/
structure Rights where
  defineNode : String → Prop
  defineEdge : String → Prop
  createNode : String → Prop
  updateNode : String → Prop
  deleteNode : String → Prop
  createEdge : String → Prop
  updateEdge : String → Prop
  deleteEdge : String → Prop

/-- More rights. -/
structure Rights.Le (rights more : Rights) : Prop where
  defineNode : ∀ name, rights.defineNode name → more.defineNode name
  defineEdge : ∀ name, rights.defineEdge name → more.defineEdge name
  createNode : ∀ name, rights.createNode name → more.createNode name
  updateNode : ∀ name, rights.updateNode name → more.updateNode name
  deleteNode : ∀ name, rights.deleteNode name → more.deleteNode name
  createEdge : ∀ name, rights.createEdge name → more.createEdge name
  updateEdge : ∀ name, rights.updateEdge name → more.updateEdge name
  deleteEdge : ∀ name, rights.deleteEdge name → more.deleteEdge name

/-- What may become of a model: it is never changed or taken back. -/
inductive ModelChange {M : Type} (mayDefine : Prop) : Option M → Option M → Prop where
  | same (found : Option M) : ModelChange mayDefine found found
  | defined (model : M) (may : mayDefine) : ModelChange mayDefine none (some model)

/-- What may become of a node; its label is its model's name. -/
inductive NodeChange (rights : Rights) : Option StoredNode → Option StoredNode → Prop where
  | same (found : Option StoredNode) : NodeChange rights found found
  | created {node : StoredNode} {name : String} (labels : node.labels = [name]) (may : rights.createNode name) :
    NodeChange rights none (some node)
  | updated {node : StoredNode} {name : String} (props : Props) (labels : node.labels = [name])
    (may : rights.updateNode name) : NodeChange rights (some node) (some { node with props })
  | deleted {node : StoredNode} {name : String} (labels : node.labels = [name]) (may : rights.deleteNode name) :
    NodeChange rights (some node) none

/-- What may become of a relationship; its type is its model's name. -/
inductive RelChange (rights : Rights) (cascades : StoredRel → Prop) : Option StoredRel → Option StoredRel → Prop where
  | same (found : Option StoredRel) : RelChange rights cascades found found
  | created {rel : StoredRel} (may : rights.createEdge rel.relType) : RelChange rights cascades none (some rel)
  | updated {rel : StoredRel} (props : Props) (may : rights.updateEdge rel.relType) :
    RelChange rights cascades (some rel) (some { rel with props })
  | deleted {rel : StoredRel} (may : rights.deleteEdge rel.relType ∨ cascades rel) : RelChange rights cascades (some rel) none

/-- One of the relationship's ends is deleted. -/
def EndDeleted (d d' : PersistedSession) (rel : StoredRel) : Prop :=
  ∃ id, rel.touches id = true ∧ id ∈ d.graph.nodes ∧ id ∉ d'.graph.nodes

/-- Every difference is within the rights. -/
structure WithinRights (rights : Rights) (d d' : PersistedSession) : Prop where
  nodeModel : ∀ name, ModelChange (rights.defineNode name) (d.catalog.getNodeModel name) (d'.catalog.getNodeModel name)
  relModel : ∀ name, ModelChange (rights.defineEdge name) (d.catalog.getRelModel name) (d'.catalog.getRelModel name)
  node : ∀ id : Int, NodeChange rights d.graph.nodes[id]? d'.graph.nodes[id]?
  rel : ∀ id : Int, RelChange rights (EndDeleted d d') d.graph.rels[id]? d'.graph.rels[id]?

/-! ## Changes one after the other -/

section Changes
variable {rights more : Rights}

theorem ModelChange.trans {M : Type} {may : Prop} {a b c : Option M} (first : ModelChange may a b)
    (second : ModelChange may b c) : ModelChange may a c := by
  cases first with
  | same => exact second
  | defined model allowed =>
    cases second with
    | same => exact .defined model allowed

theorem NodeChange.trans {a b c : Option StoredNode} (first : NodeChange rights a b) (second : NodeChange rights b c)
    (gone : a ≠ none → b = none → c = none) : NodeChange rights a c := by
  cases first with
  | same => exact second
  | created labels may =>
    cases second with
    | same => exact .created labels may
    | updated props => exact .created labels may
    | deleted => exact .same none
  | @updated node name props labels may =>
    cases second with
    | same => exact .updated props labels may
    | updated later => exact .updated later labels may
    | deleted labels' may' => exact NodeChange.deleted labels' may'
  | deleted labels may =>
    rw [gone (Option.some_ne_none _) rfl]
    exact .deleted labels may

theorem RelChange.trans {first_ second_ both : StoredRel → Prop} {a b c : Option StoredRel}
    (first : RelChange rights first_ a b) (second : RelChange rights second_ b c)
    (gone : a ≠ none → b = none → c = none) (early : ∀ rel, a = some rel → first_ rel → both rel)
    (late : ∀ rel props, a = some rel → second_ { rel with props } → both rel) : RelChange rights both a c := by
  cases first with
  | same =>
    cases second with
    | same => exact .same a
    | created may => exact .created may
    | updated props may => exact .updated props may
    | @deleted rel may => exact .deleted (may.imp_right fun cascades => late rel rel.props rfl cascades)
  | created may =>
    cases second with
    | same => exact .created may
    | updated props => exact .created may
    | deleted => exact .same none
  | @updated rel props may =>
    cases second with
    | same => exact .updated props may
    | updated later => exact .updated later may
    | deleted may' => exact .deleted (may'.imp_right fun cascades => late rel props rfl cascades)
  | @deleted rel may =>
    rw [gone (Option.some_ne_none _) rfl]
    exact .deleted (may.imp_right fun cascades => early rel rfl cascades)

theorem ModelChange.mono {M : Type} {may more : Prop} {a b : Option M} (change : ModelChange may a b) (le : may → more) :
    ModelChange more a b := by
  cases change with
  | same => exact .same a
  | defined model allowed => exact .defined model (le allowed)

theorem NodeChange.mono {a b : Option StoredNode} (change : NodeChange rights a b) (le : rights.Le more) :
    NodeChange more a b := by
  cases change with
  | same => exact .same a
  | created labels may => exact .created labels (le.createNode _ may)
  | updated props labels may => exact .updated props labels (le.updateNode _ may)
  | deleted labels may => exact .deleted labels (le.deleteNode _ may)

theorem RelChange.mono {cascades : StoredRel → Prop} {a b : Option StoredRel} (change : RelChange rights cascades a b)
    (le : rights.Le more) : RelChange more cascades a b := by
  cases change with
  | same => exact .same a
  | created may => exact .created (le.createEdge _ may)
  | updated props may => exact .updated props (le.updateEdge _ may)
  | deleted may => exact .deleted (may.imp_left (le.deleteEdge _))

end Changes

namespace WithinRights
variable {rights more : Rights} {d d' d'' : PersistedSession}

theorem refl (d : PersistedSession) : WithinRights rights d d :=
  ⟨fun _ => .same _, fun _ => .same _, fun _ => .same _, fun _ => .same _⟩

theorem mono (h : WithinRights rights d d') (le : rights.Le more) : WithinRights more d d' where
  nodeModel name := (h.nodeModel name).mono (le.defineNode name)
  relModel name := (h.relModel name).mono (le.defineEdge name)
  node id := (h.node id).mono le
  rel id := (h.rel id).mono le

/-- What is within the rights one after the other is within them taken together: an id that
is gone is not given again, and the ends of a relationship were there from the start. -/
theorem trans [Externals] (conformant : Conformant d) (first : WithinRights rights d d')
    (grows : Grows d d') (second : WithinRights rights d' d'') (grows' : Grows d' d'') : WithinRights rights d d'' := by
  have nodeGone : ∀ k : Int, d.graph.nodes[k]? ≠ none → d'.graph.nodes[k]? = none → d''.graph.nodes[k]? = none := by
    intro k stored gone
    obtain ⟨node, found⟩ := Option.ne_none_iff_exists'.1 stored
    have below : k < d'.graph.nextNodeId := Int.lt_of_lt_of_le (conformant.node k node found).2.1 grows.nextNode
    exact BTreeMap.not_mem_iff_get.1 (grows'.nodeGone k below (BTreeMap.not_mem_iff_get.2 gone))
  have relGone : ∀ k : Int, d.graph.rels[k]? ≠ none → d'.graph.rels[k]? = none → d''.graph.rels[k]? = none := by
    intro k stored gone
    obtain ⟨rel, found⟩ := Option.ne_none_iff_exists'.1 stored
    have below : k < d'.graph.nextRelId := Int.lt_of_lt_of_le (conformant.rel k rel found).2.1 grows.nextRel
    exact BTreeMap.not_mem_iff_get.1 (grows'.relGone k below (BTreeMap.not_mem_iff_get.2 gone))
  refine ⟨fun name => (first.nodeModel name).trans (second.nodeModel name),
    fun name => (first.relModel name).trans (second.relModel name),
    fun id => (first.node id).trans (second.node id) (nodeGone id),
    fun id => (first.rel id).trans (second.rel id) (relGone id) ?_ ?_⟩
  · rintro rel - ⟨e, touches, stored, gone⟩
    rw [BTreeMap.mem_iff_get, ← Option.ne_none_iff_exists'] at stored
    rw [BTreeMap.not_mem_iff_get] at gone
    exact ⟨e, touches, BTreeMap.mem_iff_get.2 (Option.ne_none_iff_exists'.1 stored),
      BTreeMap.not_mem_iff_get.2 (nodeGone e stored gone)⟩
  · rintro rel props found ⟨e, touches, -, gone⟩
    exact ⟨e, touches, conformant.ends found touches, gone⟩

end WithinRights

/-! ## One entry -/

section Entries
variable [Externals] {rights : Rights} {d d' : PersistedSession} {op : DurableOperation}

theorem Conformant.label (h : Conformant d) {id : Int} {node : StoredNode} (found : d.graph.nodes[id]? = some node) :
    ∃ name, node.labels = [name] := by
  obtain ⟨-, -, name, -, labels, -⟩ := h.node id node found
  exact ⟨name, labels⟩

end Entries

/-! ## Requests -/

namespace SessionState
variable [Externals] {rights : Rights} {s s' s'' : SessionState}

/-- From a reachable session to another one, within the rights. -/
structure StaysWithin (rights : Rights) (s s' : SessionState) : Prop where
  within : WithinRights rights s.persistedSession s'.persistedSession
  grows : Grows s.persistedSession s'.persistedSession
  reachable : s'.Reachable

theorem StaysWithin.refl (h : s.Reachable) : StaysWithin rights s s := ⟨.refl _, .refl _, h⟩

theorem StaysWithin.trans (h : s.Reachable) (first : StaysWithin rights s s') (second : StaysWithin rights s' s'') :
    StaysWithin rights s s'' :=
  ⟨first.within.trans h.conformant first.grows second.within second.grows, first.grows.trans second.grows,
    second.reachable⟩

theorem StaysWithin.mono {more : Rights} (h : StaysWithin rights s s') (le : rights.Le more) : StaysWithin more s s' :=
  ⟨h.within.mono le, h.grows, h.reachable⟩

end SessionState
