import Grm.Runtime.Batch

/-!
# Interchange documents

`interchange_document` and `build_imported_interchange` of `session.rs`: a session written
as models and records by name, and a document read back into a catalog and a store. The
counters of an imported store are computed in `i64`.
-/

open Std

set_option autoImplicit false

/-- `InterchangeField`. -/
structure InterchangeField where
  name : String
  valueType : String
  required : Bool

/-- `InterchangeNodeModel`. -/
structure InterchangeNodeModel where
  name : String
  idField : String
  idType : String
  fields : List InterchangeField

/-- `InterchangeEdgeModel`; `fromModel` and `toModel` are the source's `from` and `to`. -/
structure InterchangeEdgeModel where
  name : String
  fromModel : String
  toModel : String
  idField : String
  idType : String
  fields : List InterchangeField

/-- `InterchangeNode`. -/
structure InterchangeNode where
  id : Int
  model : String
  props : Props

/-- `InterchangeEdge`; `fromId` and `toId` are the source's `from` and `to`. -/
structure InterchangeEdge where
  id : Int
  model : String
  fromId : Int
  toId : Int
  props : Props

/-- `InterchangeIdentity`. -/
structure InterchangeIdentity where
  node : String
  edge : String

/-- `InterchangeSchema`. -/
structure InterchangeSchema where
  nodes : List InterchangeNodeModel
  edges : List InterchangeEdgeModel

/-- `InterchangeData`. -/
structure InterchangeData where
  nodes : List InterchangeNode
  edges : List InterchangeEdge

/-- `InterchangeDocument`. -/
structure InterchangeDocument where
  format : String
  version : Nat
  kind : String
  identity : InterchangeIdentity
  schema : InterchangeSchema
  data : InterchangeData

/-! ## Import -/

/-- `PrimitiveKind::parse_keyword` and `RuntimeValueType::parse_keyword`. -/
def PrimitiveKind.parseKeyword (input : String) : Option PrimitiveKind :=
  parseFieldValueType (String.ofList (Text.toAsciiLower (Text.trim input.toList)))

/-- `parse_interchange_id_type`. -/
def parseInterchangeIdType (input : String) : GrmResult BackendIdType :=
  if input = "int" then .ok .int64 else .error (.constraint ("unsupported import id type '" ++ input ++ "'"))

/-- An early return with a constraint error. -/
def refuseIf (refused : Bool) (message : String) : GrmResult Unit :=
  if refused then .error (.constraint message) else .ok ()

/-- `Option::ok_or_else` with a constraint error. -/
def orConstraint {α : Type} (found : Option α) (message : String) : GrmResult α :=
  match found with
  | some a => .ok a
  | none => .error (.constraint message)

theorem refuseIf_ok {refused : Bool} {message : String} {u : Unit} : refuseIf refused message = .ok u ↔ refused = false := by
  unfold refuseIf
  cases refused <;> simp

theorem orConstraint_ok {α : Type} {found : Option α} {message : String} {a : α} :
    orConstraint found message = .ok a ↔ found = some a := by
  unfold orConstraint
  cases found <;> simp

/-- `validate_interchange_header`. -/
def validateInterchangeHeader (document : InterchangeDocument) : GrmResult Unit := do
  refuseIf (document.format ≠ "grm.interchange") "import file is not a grm.interchange document"
  refuseIf (document.version ≠ 1) ("unsupported import version '" ++ toString document.version ++ "'")
  refuseIf (document.kind ≠ "graph") ("unsupported import kind '" ++ document.kind ++ "'")
  let _ ← parseInterchangeIdType document.identity.node
  let _ ← parseInterchangeIdType document.identity.edge
  return ()

/-- `interchange_runtime_fields`. -/
def interchangeRuntimeFields (fields : List InterchangeField) : GrmResult (List RuntimeField) :=
  fields.mapM fun field => match PrimitiveKind.parseKeyword field.valueType with
    | none => .error (.constraint ("unsupported import field type '" ++ field.valueType ++ "'"))
    | some valueType => .ok { name := field.name, valueType, required := field.required }

/-- One turn of the first loop of `build_imported_interchange`. -/
def importNodeModel (catalog : SessionModelCatalog) (model : InterchangeNodeModel) : GrmResult SessionModelCatalog := do
  let idType ← parseInterchangeIdType model.idType
  let fields ← interchangeRuntimeFields model.fields
  let model ← RuntimeNodeModel.new model.name model.idField idType fields
  catalog.registerNodeModel model

/-- One turn of the second loop. -/
def importEdgeModel (catalog : SessionModelCatalog) (model : InterchangeEdgeModel) : GrmResult SessionModelCatalog := do
  let idType ← parseInterchangeIdType model.idType
  let fields ← interchangeRuntimeFields model.fields
  let relModel ← RuntimeRelModel.new model.name model.fromModel model.toModel model.idField idType fields
  refuseIf (catalog.getNodeModel relModel.fromModel).isNone
    ("from model '" ++ relModel.fromModel ++ "' is not defined in import schema")
  refuseIf (catalog.getNodeModel relModel.toModel).isNone
    ("to model '" ++ relModel.toModel ++ "' is not defined in import schema")
  catalog.registerRelModel relModel

section Records
variable [Externals]

/-- `validate_interchange_value_type`. -/
def validateInterchangeValueType (kind modelName : String) (field : RuntimeField) (value : Value) : GrmResult Unit :=
  if validateValueForKind field.valueType value then .ok ()
  else .error (.constraint ("field '" ++ field.name ++ "' for imported " ++ kind ++ " model '" ++ modelName ++
    "' must be " ++ field.valueType.keyword))

/-- `validate_interchange_props`. -/
def validateInterchangeProps (kind modelName : String) (fields : List RuntimeField) (props : Props) : GrmResult Unit :=
  match props.keys.find? fun key => !fields.any fun field => field.name == key with
  | some key =>
    .error (.constraint ("unknown field '" ++ key ++ "' for imported " ++ kind ++ " model '" ++ modelName ++ "'"))
  | none => fields.forM fun field => match props[field.name]? with
    | some value => validateInterchangeValueType kind modelName field value
    | none =>
      if field.required then
        .error (.constraint ("missing required field '" ++ field.name ++ "' for imported " ++ kind ++ " model '" ++
          modelName ++ "'"))
      else .ok ()

/-- One turn of the loop over the nodes: the store, and the greatest id so far. -/
def importNode (catalog : SessionModelCatalog) (state : GraphStore × Int) (node : InterchangeNode) :
    GrmResult (GraphStore × Int) := do
  refuseIf (node.id ≤ 0) ("imported node id '" ++ toString node.id ++ "' must be positive")
  let model ← orConstraint (catalog.getNodeModel node.model)
    ("node model '" ++ node.model ++ "' is not defined in import schema")
  validateInterchangeProps "node" model.name model.fields node.props
  refuseIf (state.1.nodes[node.id]?).isSome ("import contains duplicate node id '" ++ toString node.id ++ "'")
  return (state.1.insertNode node.id { id := node.id, labels := [model.label], props := node.props }, max state.2 node.id)

/-- One turn of the loop over the edges. -/
def importEdge (catalog : SessionModelCatalog) (state : GraphStore × Int) (edge : InterchangeEdge) :
    GrmResult (GraphStore × Int) := do
  refuseIf (edge.id ≤ 0) ("imported edge id '" ++ toString edge.id ++ "' must be positive")
  let model ← orConstraint (catalog.getRelModel edge.model)
    ("edge model '" ++ edge.model ++ "' is not defined in import schema")
  validateInterchangeProps "edge" model.name model.fields edge.props
  let source ← orConstraint state.1.nodes[edge.fromId]?
    ("edge '" ++ toString edge.id ++ "' references missing from node '" ++ toString edge.fromId ++ "'")
  let target ← orConstraint state.1.nodes[edge.toId]?
    ("edge '" ++ toString edge.id ++ "' references missing to node '" ++ toString edge.toId ++ "'")
  refuseIf (!source.labels.any fun label => label == model.fromModel)
    ("edge '" ++ toString edge.id ++ "' from node '" ++ toString edge.fromId ++ "' does not match model '" ++
      model.fromModel ++ "'")
  refuseIf (!target.labels.any fun label => label == model.toModel)
    ("edge '" ++ toString edge.id ++ "' to node '" ++ toString edge.toId ++ "' does not match model '" ++
      model.toModel ++ "'")
  refuseIf (state.1.rels[edge.id]?).isSome ("import contains duplicate edge id '" ++ toString edge.id ++ "'")
  return (state.1.insertRelationship edge.id
    { id := edge.id, relType := model.relType, fromId := edge.fromId, toId := edge.toId, props := edge.props },
    max state.2 edge.id)

/-- `id + 1` in `i64`, which wraps where overflow is not checked. -/
def i64Succ (id : Int) : Int := if id = i64Max then i64Min else id + 1

/-- `build_imported_interchange`. -/
def buildImportedInterchange (document : InterchangeDocument) : GrmResult (SessionModelCatalog × GraphStore) := do
  validateInterchangeHeader document
  let catalog ← document.schema.nodes.foldlM importNodeModel {}
  let catalog ← document.schema.edges.foldlM importEdgeModel catalog
  let (store, maxNodeId) ← document.data.nodes.foldlM (importNode catalog) (GraphStore.empty, 0)
  let (store, maxRelId) ← document.data.edges.foldlM (importEdge catalog) (store, 0)
  return (catalog, { store with nextNodeId := i64Succ maxNodeId, nextRelId := i64Succ maxRelId })

end Records

/-! ## Export -/

/-- `BackendIdType::keyword`. -/
def BackendIdType.keyword : BackendIdType → String
  | .int64 => "int"
  | .uuid => "uuid"

/-- `interchange_fields`. -/
def interchangeFields (fields : List RuntimeField) : List InterchangeField :=
  fields.map fun field => { name := field.name, valueType := field.valueType.keyword, required := field.required }

namespace SessionState

/-- `interchange_node_model_name`. -/
def interchangeNodeModelName (s : SessionState) (node : StoredNode) : String :=
  let named := (s.catalog.listNodeModels.find? fun model => node.labels.any fun label => label == model.label).map
    RuntimeNodeModel.name
  (named.or node.labels.head?).getD "Unknown"

/-- `interchange_edge_model_name`. -/
def interchangeEdgeModelName (s : SessionState) (rel : StoredRel) : String :=
  ((s.catalog.listRelModels.find? fun model => model.relType == rel.relType).map RuntimeRelModel.name).getD rel.relType

/-- `interchange_document`; the ids of the in-memory client are `Int64`. -/
def interchangeDocument (s : SessionState) : InterchangeDocument where
  format := "grm.interchange"
  version := 1
  kind := "graph"
  identity := { node := BackendIdType.int64.keyword, edge := BackendIdType.int64.keyword }
  schema :=
    { nodes := s.catalog.listNodeModels.map fun model =>
        { name := model.name, idField := model.idFieldName, idType := model.idType.keyword
          fields := interchangeFields model.fields }
      edges := s.catalog.listRelModels.map fun model =>
        { name := model.name, fromModel := model.fromModel, toModel := model.toModel, idField := model.idFieldName
          idType := model.idType.keyword, fields := interchangeFields model.fields } }
  data :=
    { nodes := s.store.nodes.vals.map fun node =>
        { id := node.id, model := s.interchangeNodeModelName node, props := node.props }
      edges := s.store.rels.vals.map fun rel =>
        { id := rel.id, model := s.interchangeEdgeModelName rel, fromId := rel.fromId, toId := rel.toId
          props := rel.props } }

end SessionState
