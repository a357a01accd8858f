import Grm.Error
import Grm.Runtime.Value

/-!
# The model catalog

`runtime/catalog.rs`: node and relationship models with their typed fields, the
name checks a model passes before it is registered, and the validation of a record's
properties against the fields.
-/

open Std

set_option autoImplicit false

/-- `BackendIdType`. -/
inductive BackendIdType where
  | int64 | uuid
  deriving DecidableEq, Repr

/-- `RuntimeSchemaOrigin`. -/
inductive RuntimeSchemaOrigin where
  | declared | inferred
  deriving DecidableEq, Repr

/-- `RuntimeField`, and `FieldSpec`, which converts to it field by field. -/
structure RuntimeField where
  name : String
  valueType : PrimitiveKind
  required : Bool
  deriving DecidableEq, Repr

/-- `RuntimeNodeModel`. -/
structure RuntimeNodeModel where
  name : String
  label : String
  idFieldName : String
  idType : BackendIdType
  origin : RuntimeSchemaOrigin
  fields : List RuntimeField
  deriving DecidableEq, Repr

/-- `RuntimeRelModel`. -/
structure RuntimeRelModel where
  name : String
  relType : String
  fromModel : String
  toModel : String
  idFieldName : String
  idType : BackendIdType
  origin : RuntimeSchemaOrigin
  fields : List RuntimeField
  deriving DecidableEq, Repr

/-! ## Names -/

def isAsciiUppercase (c : Char) : Bool := 'A' ≤ c && c ≤ 'Z'

def isAsciiLowercase (c : Char) : Bool := 'a' ≤ c && c ≤ 'z'

def isAsciiAlphabetic (c : Char) : Bool := isAsciiUppercase c || isAsciiLowercase c

/-- A letter, a digit or an underscore. -/
def isNameChar (c : Char) : Bool := isAsciiAlphabetic c || ('0' ≤ c && c ≤ '9') || c == '_'

/-- `validate_model_name`. -/
def validateModelName (name : String) : GrmResult Unit :=
  match name.toList with
  | [] => .error (.constraint "model name cannot be empty")
  | first :: rest =>
    if !isAsciiUppercase first then
      .error (.constraint "model name must be PascalCase and start with an uppercase letter")
    else if !(first :: rest).all isNameChar then
      .error (.constraint "model name must contain only ASCII letters, digits, or underscores")
    else .ok ()

/-- `validate_field_name`. -/
def validateFieldName (name : String) : GrmResult Unit :=
  match name.toList with
  | [] => .error (.constraint "field name cannot be empty")
  | first :: rest =>
    if name = "id" then .error (.constraint "field name 'id' is reserved and cannot be used")
    else if !(isAsciiAlphabetic first || first == '_') then
      .error (.constraint "field name must start with a letter or underscore")
    else if !(first :: rest).all isNameChar then
      .error (.constraint "field name must contain only ASCII letters, digits, or underscores")
    else .ok ()

/-- The field loop of both `new` functions; `seen` starts with the id field's name. -/
def checkFields (seen : BTreeSet String) : List RuntimeField → GrmResult Unit
  | [] => .ok ()
  | field :: fields => do
    validateFieldName field.name
    if seen.contains field.name then
      throw (.constraint ("field '" ++ field.name ++ "' is defined more than once"))
    checkFields (seen.insert field.name) fields

/-- `RuntimeNodeModel::new`. -/
def RuntimeNodeModel.new (name idFieldName : String) (idType : BackendIdType) (fields : List RuntimeField) :
    GrmResult RuntimeNodeModel := do
  validateModelName name
  validateFieldName idFieldName
  checkFields ((∅ : BTreeSet String).insert idFieldName) fields
  return { name, label := name, idFieldName, idType, origin := .declared, fields }

/-- `RuntimeRelModel::new`. -/
def RuntimeRelModel.new (name fromModel toModel idFieldName : String) (idType : BackendIdType)
    (fields : List RuntimeField) : GrmResult RuntimeRelModel := do
  validateModelName name
  validateModelName fromModel
  validateModelName toModel
  validateFieldName idFieldName
  checkFields ((∅ : BTreeSet String).insert idFieldName) fields
  return { name, relType := name, fromModel, toModel, idFieldName, idType, origin := .declared, fields }

/-- The model is the one `new` makes of its own name and fields. -/
def RuntimeNodeModel.Checked (model : RuntimeNodeModel) : Prop :=
  RuntimeNodeModel.new model.name model.idFieldName .int64 model.fields = .ok model

/-- The model is the one `new` makes of its own names and fields. -/
def RuntimeRelModel.Checked (model : RuntimeRelModel) : Prop :=
  RuntimeRelModel.new model.name model.fromModel model.toModel model.idFieldName .int64 model.fields = .ok model

theorem RuntimeNodeModel.new_ok {name idFieldName : String} {idType : BackendIdType} {fields : List RuntimeField}
    {model : RuntimeNodeModel} (new : RuntimeNodeModel.new name idFieldName idType fields = .ok model) :
    model = { name, label := name, idFieldName, idType, origin := .declared, fields } := by
  simp only [RuntimeNodeModel.new, GrmResult.bind_eq_ok] at new
  obtain ⟨-, -, -, -, -, -, made⟩ := new
  exact (Except.ok.inj made).symm

theorem RuntimeRelModel.new_ok {name fromModel toModel idFieldName : String} {idType : BackendIdType}
    {fields : List RuntimeField} {model : RuntimeRelModel}
    (new : RuntimeRelModel.new name fromModel toModel idFieldName idType fields = .ok model) :
    model = { name, relType := name, fromModel, toModel, idFieldName, idType, origin := .declared, fields } := by
  simp only [RuntimeRelModel.new, GrmResult.bind_eq_ok] at new
  obtain ⟨-, -, -, -, -, -, -, -, -, -, made⟩ := new
  exact (Except.ok.inj made).symm

theorem RuntimeNodeModel.Checked.labelled {model : RuntimeNodeModel} (checked : model.Checked) :
    model.label = model.name := by
  rw [RuntimeNodeModel.new_ok checked]

theorem RuntimeRelModel.Checked.typed {model : RuntimeRelModel} (checked : model.Checked) :
    model.relType = model.name := by
  rw [RuntimeRelModel.new_ok checked]

/-- `RuntimeNodeModel::field` and `RuntimeRelModel::field`: the first field of a name. -/
def fieldNamed (fields : List RuntimeField) (name : String) : Option RuntimeField :=
  fields.find? fun field => field.name == name

/-! ## Properties -/

section Props
variable [Externals]

/-- A value of the wrong kind, or a missing required one. -/
def wrongKind (kind modelName : String) (field : RuntimeField) : GrmError :=
  .constraint ("field '" ++ field.name ++ "' for " ++ kind ++ " '" ++ modelName ++ "' must be " ++
    field.valueType.keyword)

def unknownField (kind modelName key : String) : GrmError :=
  .constraint ("unknown field '" ++ key ++ "' for " ++ kind ++ " '" ++ modelName ++ "'")

/-- One turn of the field loop of `validate_props_for_fields`. -/
def collectField (kind modelName : String) (values props : Props) (field : RuntimeField) : GrmResult Props :=
  match values[field.name]? with
  | some value =>
    if validateValueForKind field.valueType value then .ok (props.insert field.name value)
    else .error (wrongKind kind modelName field)
  | none =>
    if field.required then .error (.constraint ("missing required field '" ++ field.name ++ "'"))
    else .ok props

/-- `validate_props_for_fields`. -/
def validatePropsForFields (kind modelName : String) (fields : List RuntimeField) (values : Props) :
    GrmResult Props :=
  match values.keys.find? fun key => !fields.any fun field => field.name == key with
  | some key => .error (unknownField kind modelName key)
  | none => fields.foldlM (collectField kind modelName values) ∅

/-- One turn of the loop of `validate_update_props`. -/
def collectUpdate (kind modelName : String) (fields : List RuntimeField) (props : Props) (entry : String × Value) :
    GrmResult Props :=
  match fieldNamed fields entry.1 with
  | none => .error (unknownField kind modelName entry.1)
  | some field =>
    if validateValueForKind field.valueType entry.2 then .ok (props.insert entry.1 entry.2)
    else .error (wrongKind kind modelName field)

/-- `validate_update_props`: only the given keys are checked. -/
def validateUpdateProps (kind modelName : String) (fields : List RuntimeField) (values : Props) :
    GrmResult Props :=
  values.toList.foldlM (collectUpdate kind modelName fields) ∅

/-- `RuntimeNodeModel::validate_instance_props`. -/
def RuntimeNodeModel.validateInstanceProps (model : RuntimeNodeModel) (values : Props) : GrmResult Props :=
  validatePropsForFields "model" model.name model.fields values

/-- `RuntimeRelModel::validate_instance_props`. -/
def RuntimeRelModel.validateInstanceProps (model : RuntimeRelModel) (values : Props) : GrmResult Props :=
  validatePropsForFields "relationship model" model.name model.fields values

end Props

/-! ## The catalog -/

/-- `SessionModelCatalog`. -/
structure SessionModelCatalog where
  nodeModels : BTreeMap String RuntimeNodeModel := ∅
  relModels : BTreeMap String RuntimeRelModel := ∅

namespace SessionModelCatalog

/-- A name taken by a model of either sort. -/
def taken (c : SessionModelCatalog) (name : String) : Bool :=
  c.nodeModels.contains name || c.relModels.contains name

def alreadyExists (name : String) : GrmError :=
  .constraint ("model '" ++ name ++ "' already exists in this session")

/-- `register_node_model`. -/
def registerNodeModel (c : SessionModelCatalog) (model : RuntimeNodeModel) : GrmResult SessionModelCatalog :=
  if c.taken model.name then .error (alreadyExists model.name)
  else .ok { c with nodeModels := c.nodeModels.insert model.name model }

/-- `register_rel_model`. -/
def registerRelModel (c : SessionModelCatalog) (model : RuntimeRelModel) : GrmResult SessionModelCatalog :=
  if c.taken model.name then .error (alreadyExists model.name)
  else .ok { c with relModels := c.relModels.insert model.name model }

/-- `get_node_model` and `get`. -/
def getNodeModel (c : SessionModelCatalog) (name : String) : Option RuntimeNodeModel := c.nodeModels[name]?

/-- `get_rel_model`. -/
def getRelModel (c : SessionModelCatalog) (name : String) : Option RuntimeRelModel := c.relModels[name]?

/-- `list_node_models`. -/
def listNodeModels (c : SessionModelCatalog) : List RuntimeNodeModel := c.nodeModels.vals

/-- `list_rel_models`. -/
def listRelModels (c : SessionModelCatalog) : List RuntimeRelModel := c.relModels.vals

end SessionModelCatalog
