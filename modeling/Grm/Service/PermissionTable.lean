import Grm.Lib.BTree
import Grm.Lib.Text
import Grm.Service.AuditEvent

/-!
# The permission table

`PermissionTablePolicy`: the table of permissions by principal and scope, the conversion
of a configuration into it, and the decision it takes on a request. What the decision
means is stated over the configuration: an assignment covers an operation by its scope,
and one of its permissions names the operation's action and resource.
-/

set_option autoImplicit false

structure SecurityResource where
  workspace : String
  kind : SecurityResourceKind
  model : Option String
  deriving DecidableEq, Repr

structure SecurityOperation where
  action : SecurityAction
  resource : SecurityResource
  deriving DecidableEq, Repr

structure Principal where
  issuer : String
  subject : String
  authenticationMethod : String
  deriving DecidableEq, Repr

/-- `SecurityRequestContext`, the fields a policy reads. -/
structure SecurityRequestContext where
  authenticatedPrincipal : Option Principal
  operations : List SecurityOperation
  deriving DecidableEq, Repr

inductive AuthorizationReason where
  | anonymousLocalProfile | explicitPolicyAllow | noMatchingPermission
  deriving DecidableEq, Repr

inductive AuthorizationDecision where
  | allow (reason : AuthorizationReason)
  | deny (reason : AuthorizationReason)
  deriving DecidableEq, Repr

inductive PermissionScope where
  | service
  | workspace (workspace : String)
  | deploymentLocalAllWorkspaces
  deriving DecidableEq, Repr

inductive ResourceSelector where
  | service | workspace
  | nodeModel (model : String)
  | anyNodeModel
  | edgeModel (model : String)
  | anyEdgeModel | operationFamily | indexCatalog | workspaceArtifact | reservedAdmin
  deriving DecidableEq, Repr

structure Permission where
  action : SecurityAction
  resource : ResourceSelector
  deriving DecidableEq, Repr

structure PermissionAssignment where
  principal : Principal
  scope : PermissionScope
  permissions : List Permission
  deriving DecidableEq, Repr

structure PermissionTableConfig where
  version : String
  assignments : List PermissionAssignment
  deriving DecidableEq, Repr

structure PermissionRole where
  name : String
  permissions : List Permission
  deriving DecidableEq, Repr

structure RolePermissionAssignment where
  principal : Principal
  scope : PermissionScope
  permissions : List Permission
  roles : List String
  deriving DecidableEq, Repr

structure RolePermissionTableConfig where
  version : String
  roles : List PermissionRole
  assignments : List RolePermissionAssignment
  deriving DecidableEq, Repr

inductive PermissionTableConfigError where
  | missingPolicyVersion | duplicatePrincipalScope | emptyPermissionSet | emptyPrincipal | emptyScope
  | emptyResourceSelector | emptyRoleName | duplicateRole | unknownRole
  deriving DecidableEq, Repr

/-! ### Keys -/

structure PrincipalKey where
  issuer : String
  subject : String
  deriving DecidableEq, Repr

inductive PermissionScopeKey where
  | service
  | workspace (workspace : String)
  | deploymentLocalAllWorkspaces
  deriving DecidableEq, Repr

inductive ResourceSelectorKey where
  | service | workspace
  | nodeModel (model : String)
  | anyNodeModel
  | edgeModel (model : String)
  | anyEdgeModel | operationFamily | indexCatalog | workspaceArtifact | reservedAdmin
  deriving DecidableEq, Repr

structure PermissionKey where
  action : SecurityAction
  resource : ResourceSelectorKey
  deriving DecidableEq, Repr

namespace PrincipalKey

/-- The fields, as the derived order compares them. -/
def rank (key : PrincipalKey) : String × String := (key.issuer, key.subject)

theorem rank_injective {a b : PrincipalKey} (same : a.rank = b.rank) : a = b := by
  cases a; cases b
  simpa [rank] using same

instance : Ord PrincipalKey := ⟨compareOn rank⟩

instance : Std.TransOrd PrincipalKey := inferInstanceAs (Std.TransCmp (compareOn rank))

instance : Std.LawfulEqOrd PrincipalKey where
  eq_of_compare h := rank_injective (Std.compare_eq_iff_eq.1 h)

/-- `PrincipalKey::from`. -/
def ofPrincipal (principal : Principal) : PrincipalKey := ⟨principal.issuer, principal.subject⟩

end PrincipalKey

namespace PermissionScopeKey

/-- The variant and the workspace, as the derived order compares them. -/
def rank : PermissionScopeKey → Nat × String
  | service => (0, "")
  | workspace name => (1, name)
  | deploymentLocalAllWorkspaces => (2, "")

theorem rank_injective {a b : PermissionScopeKey} (same : a.rank = b.rank) : a = b := by
  cases a <;> cases b <;> simp_all [rank]

instance : Ord PermissionScopeKey := ⟨compareOn rank⟩

instance : Std.TransOrd PermissionScopeKey := inferInstanceAs (Std.TransCmp (compareOn rank))

instance : Std.LawfulEqOrd PermissionScopeKey where
  eq_of_compare h := rank_injective (Std.compare_eq_iff_eq.1 h)

/-- `PermissionScopeKey::try_from`. -/
def tryFrom : PermissionScope → Except PermissionTableConfigError PermissionScopeKey
  | .service => .ok service
  | .workspace name => if name.isEmpty then .error .emptyScope else .ok (workspace name)
  | .deploymentLocalAllWorkspaces => .ok deploymentLocalAllWorkspaces

end PermissionScopeKey

namespace ResourceSelectorKey

/-- The variant and the model, as the derived order compares them. -/
def rank : ResourceSelectorKey → Nat × String
  | service => (0, "")
  | workspace => (1, "")
  | nodeModel model => (2, model)
  | anyNodeModel => (3, "")
  | edgeModel model => (4, model)
  | anyEdgeModel => (5, "")
  | operationFamily => (6, "")
  | indexCatalog => (7, "")
  | workspaceArtifact => (8, "")
  | reservedAdmin => (9, "")

theorem rank_injective {a b : ResourceSelectorKey} (same : a.rank = b.rank) : a = b := by
  cases a <;> cases b <;> simp_all [rank]

/-- `ResourceSelectorKey::try_from`. -/
def tryFrom : ResourceSelector → Except PermissionTableConfigError ResourceSelectorKey
  | .service => .ok service
  | .workspace => .ok workspace
  | .nodeModel model => if model.isEmpty then .error .emptyResourceSelector else .ok (nodeModel model)
  | .anyNodeModel => .ok anyNodeModel
  | .edgeModel model => if model.isEmpty then .error .emptyResourceSelector else .ok (edgeModel model)
  | .anyEdgeModel => .ok anyEdgeModel
  | .operationFamily => .ok operationFamily
  | .indexCatalog => .ok indexCatalog
  | .workspaceArtifact => .ok workspaceArtifact
  | .reservedAdmin => .ok reservedAdmin

/-- `ResourceSelectorKey::matches`. -/
def «matches» (key required : ResourceSelectorKey) : Bool :=
  match key, required with
  | anyNodeModel, nodeModel _ => true
  | anyEdgeModel, edgeModel _ => true
  | _, _ => key = required

end ResourceSelectorKey

namespace PermissionKey

/-- The action and the selector, as the derived order compares them. -/
def rank (key : PermissionKey) : Nat × Nat × String := (key.action.ctorIdx, key.resource.rank)

theorem action_injective {a b : SecurityAction} (same : a.ctorIdx = b.ctorIdx) : a = b := by
  cases a <;> cases b <;> first | rfl | cases same

theorem rank_injective {a b : PermissionKey} (same : a.rank = b.rank) : a = b := by
  obtain ⟨actions, resources⟩ := Prod.mk.inj same
  cases a; cases b
  congr 1
  · exact action_injective actions
  · exact ResourceSelectorKey.rank_injective resources

instance : Ord PermissionKey := ⟨compareOn rank⟩

instance : Std.TransOrd PermissionKey := inferInstanceAs (Std.TransCmp (compareOn rank))

instance : Std.LawfulEqOrd PermissionKey where
  eq_of_compare h := rank_injective (Std.compare_eq_iff_eq.1 h)

/-- `PermissionKey::try_from`. -/
def tryFrom (permission : Permission) : Except PermissionTableConfigError PermissionKey :=
  (ResourceSelectorKey.tryFrom permission.resource).map fun resource => ⟨permission.action, resource⟩

/-- `PermissionKey::from_operation`. -/
def fromOperation (operation : SecurityOperation) : Option PermissionKey :=
  let resource := match operation.resource.kind with
    | .service => some ResourceSelectorKey.service
    | .workspace => some .workspace
    | .nodeModel => operation.resource.model.map .nodeModel
    | .edgeModel => operation.resource.model.map .edgeModel
    | .operationFamily => some .operationFamily
    | .indexCatalog => some .indexCatalog
    | .workspaceArtifact => some .workspaceArtifact
    | .reservedAdmin => some .reservedAdmin
  resource.map fun resource => ⟨operation.action, resource⟩

/-- `PermissionKey::matches`. -/
def «matches» (key required : PermissionKey) : Bool :=
  key.action = required.action && key.resource.matches required.resource

end PermissionKey

/-! ### The policy -/

/-- The permissions by principal and scope. -/
abbrev PermissionAssignments := BTreeMap (PrincipalKey × PermissionScopeKey) (BTreeSet PermissionKey)

/-- `PermissionTablePolicy`. -/
structure PermissionTablePolicy where
  version : String
  assignments : PermissionAssignments

namespace PermissionTablePolicy

/-- The permissions of one assignment, as the inner loop of `new` collects them. -/
def collectPermissions (permissions : List Permission) :
    Except PermissionTableConfigError (BTreeSet PermissionKey) :=
  permissions.foldlM (fun collected permission => (PermissionKey.tryFrom permission).map collected.insert) ∅

/-- One turn of the loop of `new`. -/
def addAssignment (assignments : PermissionAssignments) (assignment : PermissionAssignment) :
    Except PermissionTableConfigError PermissionAssignments :=
  if assignment.principal.issuer.isEmpty || assignment.principal.subject.isEmpty then .error .emptyPrincipal
  else if assignment.permissions.isEmpty then .error .emptyPermissionSet
  else do
    let scope ← PermissionScopeKey.tryFrom assignment.scope
    let key := (PrincipalKey.ofPrincipal assignment.principal, scope)
    let permissions ← collectPermissions assignment.permissions
    if assignments.contains key then .error .duplicatePrincipalScope else .ok (assignments.insert key permissions)

/-- `PermissionTablePolicy::new`. -/
def new (config : PermissionTableConfig) : Except PermissionTableConfigError PermissionTablePolicy :=
  if Text.trim config.version.toList = [] then .error .missingPolicyVersion
  else (config.assignments.foldlM addAssignment ∅).map fun assignments => ⟨config.version, assignments⟩

/-- One turn of the loop of `from_role_config` over the roles. -/
def addRole (roles : BTreeMap String (List Permission)) (role : PermissionRole) :
    Except PermissionTableConfigError (BTreeMap String (List Permission)) :=
  if role.name.isEmpty then .error .emptyRoleName
  else if role.permissions.isEmpty then .error .emptyPermissionSet
  else if roles.contains role.name then .error .duplicateRole
  else .ok (roles.insert role.name role.permissions)

/-- One turn of the loop of `from_role_config` over the assignments. -/
def expandAssignment (roles : BTreeMap String (List Permission)) (assignment : RolePermissionAssignment) :
    Except PermissionTableConfigError PermissionAssignment :=
  let extend (permissions : List Permission) (roleName : String) :
      Except PermissionTableConfigError (List Permission) :=
    match roles[roleName]? with
    | none => .error .unknownRole
    | some rolePermissions => .ok (permissions ++ rolePermissions)
  (assignment.roles.foldlM extend assignment.permissions).map fun permissions =>
    ⟨assignment.principal, assignment.scope, permissions⟩

/-- `PermissionTablePolicy::from_role_config`. -/
def fromRoleConfig (config : RolePermissionTableConfig) :
    Except PermissionTableConfigError PermissionTablePolicy := do
  let roles ← config.roles.foldlM addRole ∅
  let assignments ← config.assignments.mapM (expandAssignment roles)
  new ⟨config.version, assignments⟩

/-- `PermissionTablePolicy::has_permission`. -/
def hasPermission (policy : PermissionTablePolicy) (principal : PrincipalKey) (operation : SecurityOperation)
    (permission : PermissionKey) : Bool :=
  let keys :=
    if operation.resource.kind = .service then [(principal, PermissionScopeKey.service)]
    else [(principal, .workspace operation.resource.workspace), (principal, .deploymentLocalAllWorkspaces)]
  keys.any fun key => (policy.assignments[key]?).any fun permissions =>
    permissions.toList.any fun candidate => candidate.matches permission

/-- The loop of `evaluate` over the operations. -/
def evaluateOperations (policy : PermissionTablePolicy) (principal : PrincipalKey) :
    List SecurityOperation → AuthorizationDecision
  | [] => .allow .explicitPolicyAllow
  | operation :: operations =>
    match PermissionKey.fromOperation operation with
    | none => .deny .noMatchingPermission
    | some permission =>
      if policy.hasPermission principal operation permission then policy.evaluateOperations principal operations
      else .deny .noMatchingPermission

/-- `PermissionTablePolicy::evaluate`, which never fails. -/
def evaluate (policy : PermissionTablePolicy) (context : SecurityRequestContext) : AuthorizationDecision :=
  match context.authenticatedPrincipal with
  | none => .deny .noMatchingPermission
  | some principal => policy.evaluateOperations (PrincipalKey.ofPrincipal principal) context.operations

end PermissionTablePolicy

/-! ### What a configuration permits -/

/-- The scope covers the operation: service resources by the service scope alone, every other
resource by its own workspace or by all workspaces of the deployment. -/
def PermissionScope.Covers (scope : PermissionScope) (operation : SecurityOperation) : Prop :=
  match scope with
  | .service => operation.resource.kind = .service
  | .workspace name => operation.resource.kind ≠ .service ∧ operation.resource.workspace = name
  | .deploymentLocalAllWorkspaces => operation.resource.kind ≠ .service

/-- The selector matches the resource. A node or edge resource is the model it names. -/
def ResourceSelector.Selects (selector : ResourceSelector) (resource : SecurityResource) : Prop :=
  match selector with
  | .service => resource.kind = .service
  | .workspace => resource.kind = .workspace
  | .nodeModel model => resource.kind = .nodeModel ∧ resource.model = some model
  | .anyNodeModel => resource.kind = .nodeModel ∧ ∃ model, resource.model = some model
  | .edgeModel model => resource.kind = .edgeModel ∧ resource.model = some model
  | .anyEdgeModel => resource.kind = .edgeModel ∧ ∃ model, resource.model = some model
  | .operationFamily => resource.kind = .operationFamily
  | .indexCatalog => resource.kind = .indexCatalog
  | .workspaceArtifact => resource.kind = .workspaceArtifact
  | .reservedAdmin => resource.kind = .reservedAdmin

/-- The permission is for the operation's action on its resource. -/
def Permission.Allows (permission : Permission) (operation : SecurityOperation) : Prop :=
  permission.action = operation.action ∧ permission.resource.Selects operation.resource

/-- The assignment gives the principal the operation. -/
def PermissionAssignment.Grants (assignment : PermissionAssignment) (principal : Principal)
    (operation : SecurityOperation) : Prop :=
  assignment.principal.issuer = principal.issuer ∧ assignment.principal.subject = principal.subject ∧
    assignment.scope.Covers operation ∧ ∃ permission ∈ assignment.permissions, permission.Allows operation

/-- Every operation of the request is given to its principal by some assignment. -/
def PermissionTableConfig.Admits (config : PermissionTableConfig) (context : SecurityRequestContext) : Prop :=
  ∃ principal, context.authenticatedPrincipal = some principal ∧
    ∀ operation ∈ context.operations, ∃ assignment ∈ config.assignments, assignment.Grants principal operation

/-- Every assignment of one configuration is in the other, with at least its permissions. -/
def PermissionTableConfig.Within (smaller larger : PermissionTableConfig) : Prop :=
  ∀ assignment ∈ smaller.assignments, ∃ wider ∈ larger.assignments,
    wider.principal.issuer = assignment.principal.issuer ∧ wider.principal.subject = assignment.principal.subject ∧
      wider.scope = assignment.scope ∧ assignment.permissions ⊆ wider.permissions

theorem PermissionTableConfig.Admits.within {smaller larger : PermissionTableConfig} {context : SecurityRequestContext}
    (admits : smaller.Admits context) (within : smaller.Within larger) : larger.Admits context := by
  obtain ⟨principal, present, granted⟩ := admits
  refine ⟨principal, present, fun operation listed => ?_⟩
  obtain ⟨assignment, assigned, issuer, subject, covers, permission, held, allows⟩ := granted operation listed
  obtain ⟨wider, found, sameIssuer, sameSubject, sameScope, permissions⟩ := within assignment assigned
  refine ⟨wider, found, sameIssuer.trans issuer, sameSubject.trans subject, ?_, permission, permissions held, allows⟩
  rw [sameScope]
  exact covers

/-- The permissions of the role of a name. -/
def RolePermissionTableConfig.rolePermissions (config : RolePermissionTableConfig) (name : String) : List Permission :=
  ((config.roles.find? fun role => role.name = name).map PermissionRole.permissions).getD []

/-- The configuration with the permissions of every role written out where the role is named. -/
def RolePermissionTableConfig.expanded (config : RolePermissionTableConfig) : PermissionTableConfig where
  version := config.version
  assignments := config.assignments.map fun assignment =>
    { principal := assignment.principal
      scope := assignment.scope
      permissions := assignment.permissions ++ assignment.roles.flatMap config.rolePermissions }

/-! ### Keys and what they stand for -/

namespace PermissionScopeKey

/-- The scopes under which `has_permission` looks an operation up. -/
def Reaches (key : PermissionScopeKey) (operation : SecurityOperation) : Prop :=
  if operation.resource.kind = .service then key = service
  else key = workspace operation.resource.workspace ∨ key = deploymentLocalAllWorkspaces

theorem tryFrom_workspace {name : String} {key : PermissionScopeKey} (converted : tryFrom (.workspace name) = .ok key) :
    key = workspace name := by
  replace converted : (if name.isEmpty then Except.error PermissionTableConfigError.emptyScope
    else .ok (workspace name)) = .ok key := converted
  split at converted
  · cases converted
  · exact (Except.ok.inj converted).symm

theorem reaches_iff {scope : PermissionScope} {key : PermissionScopeKey} (converted : tryFrom scope = .ok key)
    (operation : SecurityOperation) : key.Reaches operation ↔ scope.Covers operation := by
  unfold Reaches PermissionScope.Covers
  cases scope with
  | service => cases converted; split <;> simp_all
  | workspace name =>
    rw [tryFrom_workspace converted]
    split <;> simp_all [eq_comm]
  | deploymentLocalAllWorkspaces => cases converted; split <;> simp_all

end PermissionScopeKey

namespace PermissionKey

/-- The key matches the one of the operation. -/
def Allows (key : PermissionKey) (operation : SecurityOperation) : Prop :=
  ∃ required, fromOperation operation = some required ∧ key.matches required = true

theorem tryFrom_model {model : String} {named key : ResourceSelectorKey}
    (converted : (if model.isEmpty then Except.error PermissionTableConfigError.emptyResourceSelector else .ok named) =
      .ok key) : key = named := by
  split at converted
  · cases converted
  · exact (Except.ok.inj converted).symm

/-- The names a selector can hold are kept, so a key matches exactly what its selector selects. -/
theorem matches_iff {selector : ResourceSelector} {key : ResourceSelectorKey}
    (converted : ResourceSelectorKey.tryFrom selector = .ok key) (action : SecurityAction)
    (operation : SecurityOperation) :
    Allows ⟨action, key⟩ operation ↔ action = operation.action ∧ selector.Selects operation.resource := by
  obtain ⟨operationAction, name, kind, model⟩ := operation
  cases selector
  case nodeModel selected | edgeModel selected =>
    rw [tryFrom_model converted]
    cases kind <;> cases model <;>
      simp [Allows, fromOperation, PermissionKey.matches, ResourceSelectorKey.matches, ResourceSelector.Selects,
        @eq_comm String selected]
  all_goals
    cases converted
    cases kind <;> cases model <;>
      simp [Allows, fromOperation, PermissionKey.matches, ResourceSelectorKey.matches, ResourceSelector.Selects]

theorem allows_iff {permission : Permission} {key : PermissionKey} (converted : tryFrom permission = .ok key)
    (operation : SecurityOperation) : key.Allows operation ↔ permission.Allows operation := by
  unfold tryFrom at converted
  cases selector : ResourceSelectorKey.tryFrom permission.resource with
  | error e => rw [selector] at converted; cases converted
  | ok resource =>
    rw [selector] at converted
    cases converted
    exact matches_iff selector permission.action operation

end PermissionKey

/-! ### The table a configuration is read into -/

namespace PermissionTablePolicy

/-- The table gives the principal the permission key under the scope key. -/
def Listed (assignments : PermissionAssignments) (principal : PrincipalKey) (scope : PermissionScopeKey)
    (key : PermissionKey) : Prop :=
  ∃ permissions, assignments[(principal, scope)]? = some permissions ∧ key ∈ permissions

/-- The assignment, once converted, gives the principal the permission key under the scope key. -/
def Assigns (assignment : PermissionAssignment) (principal : PrincipalKey) (scope : PermissionScopeKey)
    (key : PermissionKey) : Prop :=
  PrincipalKey.ofPrincipal assignment.principal = principal ∧ PermissionScopeKey.tryFrom assignment.scope = .ok scope ∧
    ∃ permission ∈ assignment.permissions, PermissionKey.tryFrom permission = .ok key

/-- The scope and every permission of the assignment convert. -/
def Converts (assignment : PermissionAssignment) : Prop :=
  (∃ scope, PermissionScopeKey.tryFrom assignment.scope = .ok scope) ∧
    ∀ permission ∈ assignment.permissions, ∃ key, PermissionKey.tryFrom permission = .ok key

theorem collectPermissions_from {permissions : List Permission} {collected result : BTreeSet PermissionKey}
    (ok : permissions.foldlM (fun collected permission => (PermissionKey.tryFrom permission).map collected.insert)
      collected = .ok result) :
    (∀ permission ∈ permissions, ∃ key, PermissionKey.tryFrom permission = .ok key) ∧
      ∀ key, key ∈ result ↔
        key ∈ collected ∨ ∃ permission ∈ permissions, PermissionKey.tryFrom permission = .ok key := by
  induction permissions generalizing collected with
  | nil => cases ok; simp
  | cons permission permissions ih =>
    rw [List.foldlM_cons] at ok
    cases converted : PermissionKey.tryFrom permission with
    | error e => rw [converted] at ok; cases ok
    | ok first =>
      rw [converted] at ok
      obtain ⟨convert, members⟩ := ih ok
      constructor
      · rw [List.forall_mem_cons]
        exact ⟨⟨first, converted⟩, convert⟩
      · intro key
        rw [members key, BTreeSet.mem_insert]
        simp only [List.mem_cons, exists_eq_or_imp, converted, Except.ok.injEq]
        tauto

theorem collectPermissions_ok {permissions : List Permission} {collected : BTreeSet PermissionKey}
    (ok : collectPermissions permissions = .ok collected) :
    (∀ permission ∈ permissions, ∃ key, PermissionKey.tryFrom permission = .ok key) ∧
      ∀ key, key ∈ collected ↔ ∃ permission ∈ permissions, PermissionKey.tryFrom permission = .ok key := by
  obtain ⟨convert, members⟩ := collectPermissions_from ok
  refine ⟨convert, fun key => ?_⟩
  simpa using members key

/-- An accepted assignment adds its own permissions to the table and nothing else. -/
theorem addAssignment_ok {assignments result : PermissionAssignments} {assignment : PermissionAssignment}
    (ok : addAssignment assignments assignment = .ok result) :
    Converts assignment ∧ ∀ principal scope key,
      Listed result principal scope key ↔
        Listed assignments principal scope key ∨ Assigns assignment principal scope key := by
  unfold addAssignment at ok
  split at ok
  · cases ok
  split at ok
  · cases ok
  cases within : PermissionScopeKey.tryFrom assignment.scope with
  | error e => rw [within] at ok; cases ok
  | ok own =>
    rw [within] at ok
    cases collected : collectPermissions assignment.permissions with
    | error e => rw [collected] at ok; cases ok
    | ok permissions =>
      rw [collected] at ok
      obtain ⟨convert, members⟩ := collectPermissions_ok collected
      refine ⟨⟨⟨own, within⟩, convert⟩, fun principal scope key => ?_⟩
      replace ok : (if assignments.contains (PrincipalKey.ofPrincipal assignment.principal, own) then
          Except.error PermissionTableConfigError.duplicatePrincipalScope
        else .ok (assignments.insert (PrincipalKey.ofPrincipal assignment.principal, own) permissions)) =
          .ok result := ok
      split at ok
      · cases ok
      next absent =>
      cases ok
      rw [Bool.not_eq_true, BTreeMap.contains_eq_false, BTreeMap.not_mem_iff_get] at absent
      unfold Listed Assigns
      rw [BTreeMap.get_insert, within]
      by_cases same : (PrincipalKey.ofPrincipal assignment.principal, own) = (principal, scope)
      · rw [if_pos same, ← same, absent]
        simp_all
      · rw [if_neg same]
        have apart : ¬ (PrincipalKey.ofPrincipal assignment.principal = principal ∧ own = scope) := by
          intro both
          exact same (Prod.ext both.1 both.2)
        rw [or_iff_left]
        rintro ⟨principals, scopes, -⟩
        exact apart ⟨principals, Except.ok.inj scopes⟩

/-- The table lists exactly what the assignments read so far assign. -/
theorem addAssignments_ok {list : List PermissionAssignment} {assignments result : PermissionAssignments}
    (ok : list.foldlM addAssignment assignments = .ok result) :
    (∀ assignment ∈ list, Converts assignment) ∧ ∀ principal scope key,
      Listed result principal scope key ↔
        Listed assignments principal scope key ∨ ∃ assignment ∈ list, Assigns assignment principal scope key := by
  induction list generalizing assignments with
  | nil => cases ok; simp
  | cons assignment list ih =>
    rw [List.foldlM_cons] at ok
    cases added : addAssignment assignments assignment with
    | error e => rw [added] at ok; cases ok
    | ok next =>
      rw [added] at ok
      obtain ⟨converts, first⟩ := addAssignment_ok added
      obtain ⟨convert, rest⟩ := ih ok
      constructor
      · rw [List.forall_mem_cons]
        exact ⟨converts, convert⟩
      · intro principal scope key
        rw [rest principal scope key, first principal scope key]
        simp only [List.mem_cons, exists_eq_or_imp]
        tauto

theorem new_ok {config : PermissionTableConfig} {policy : PermissionTablePolicy} (ok : new config = .ok policy) :
    (∀ assignment ∈ config.assignments, Converts assignment) ∧ ∀ principal scope key,
      Listed policy.assignments principal scope key ↔
        ∃ assignment ∈ config.assignments, Assigns assignment principal scope key := by
  unfold new at ok
  split at ok
  · cases ok
  cases added : config.assignments.foldlM addAssignment ∅ with
  | error e => rw [added] at ok; cases ok
  | ok assignments =>
    rw [added] at ok
    cases ok
    obtain ⟨convert, listed⟩ := addAssignments_ok added
    refine ⟨convert, fun principal scope key => ?_⟩
    rw [listed principal scope key]
    simp [Listed]

/-! ### The decision -/

theorem hasPermission_iff {policy : PermissionTablePolicy} {principal : PrincipalKey} {operation : SecurityOperation}
    {required : PermissionKey} :
    policy.hasPermission principal operation required = true ↔
      ∃ scope key, PermissionScopeKey.Reaches scope operation ∧ Listed policy.assignments principal scope key ∧
        key.matches required = true := by
  have found : ∀ scope, ((policy.assignments[(principal, scope)]?).any fun permissions =>
      permissions.toList.any fun candidate => candidate.matches required) = true ↔
      ∃ key, Listed policy.assignments principal scope key ∧ key.matches required = true := by
    intro scope
    unfold Listed
    cases policy.assignments[(principal, scope)]? with
    | none => simp
    | some permissions => simp
  unfold hasPermission PermissionScopeKey.Reaches
  split
  · simp only [List.any_cons, List.any_nil, Bool.or_false, found, exists_and_left, exists_eq_left]
  · simp only [List.any_cons, List.any_nil, Bool.or_false, Bool.or_eq_true, found, or_and_right, exists_or,
      exists_and_left, exists_eq_left]

theorem evaluateOperations_allow {policy : PermissionTablePolicy} {principal : PrincipalKey}
    {operations : List SecurityOperation} :
    (∃ reason, policy.evaluateOperations principal operations = .allow reason) ↔
      ∀ operation ∈ operations, ∃ scope key, PermissionScopeKey.Reaches scope operation ∧
        Listed policy.assignments principal scope key ∧ key.Allows operation := by
  induction operations with
  | nil => simp [evaluateOperations]
  | cons operation operations ih =>
    rw [List.forall_mem_cons, ← ih]
    rw [evaluateOperations]
    unfold PermissionKey.Allows
    cases PermissionKey.fromOperation operation with
    | none => simp
    | some required =>
      simp only [Option.some.injEq, exists_eq_left', ← hasPermission_iff]
      split
      case isTrue held => simp [held]
      case isFalse missing => simp [missing]

/-- The table allows exactly what its configuration admits. -/
theorem evaluate_allow {config : PermissionTableConfig} {policy : PermissionTablePolicy} (ok : new config = .ok policy)
    (context : SecurityRequestContext) :
    (∃ reason, policy.evaluate context = .allow reason) ↔ config.Admits context := by
  obtain ⟨convert, listed⟩ := new_ok ok
  unfold evaluate PermissionTableConfig.Admits
  cases context.authenticatedPrincipal with
  | none => simp
  | some principal =>
    simp only [Option.some.injEq, exists_eq_left', evaluateOperations_allow, listed]
    apply forall₂_congr
    intro operation _
    constructor
    · rintro ⟨scope, key, reaches, ⟨assignment, assigned, same, within, permission, held, converted⟩, allows⟩
      obtain ⟨issuer, subject⟩ := PrincipalKey.mk.inj same
      exact ⟨assignment, assigned, issuer, subject, (PermissionScopeKey.reaches_iff within operation).1 reaches,
        permission, held, (PermissionKey.allows_iff converted operation).1 allows⟩
    · rintro ⟨assignment, assigned, issuer, subject, covers, permission, held, allows⟩
      obtain ⟨⟨scope, within⟩, converts⟩ := convert assignment assigned
      obtain ⟨key, converted⟩ := converts permission held
      refine ⟨scope, key, (PermissionScopeKey.reaches_iff within operation).2 covers, ⟨assignment, assigned, ?_, within,
        permission, held, converted⟩, (PermissionKey.allows_iff converted operation).2 allows⟩
      unfold PrincipalKey.ofPrincipal
      rw [issuer, subject]

/-! ### Roles -/

/-- The roles read so far are found by their names; a name is read once. -/
theorem addRoles_ok {list : List PermissionRole} {roles result : BTreeMap String (List Permission)}
    (ok : list.foldlM addRole roles = .ok result) (name : String) :
    result[name]? = (roles[name]?).or ((list.find? fun role => role.name = name).map PermissionRole.permissions) := by
  induction list generalizing roles with
  | nil => cases ok; simp
  | cons role list ih =>
    rw [List.foldlM_cons] at ok
    unfold addRole at ok
    split at ok
    · cases ok
    split at ok
    · cases ok
    split at ok
    · cases ok
    next absent =>
    rw [Bool.not_eq_true, BTreeMap.contains_eq_false, BTreeMap.not_mem_iff_get] at absent
    rw [ih ok, BTreeMap.get_insert, List.find?_cons]
    by_cases same : role.name = name
    · simp [← same, absent]
    · simp [same]

theorem expandAssignment_ok {roles : BTreeMap String (List Permission)} {assignment : RolePermissionAssignment}
    {expanded : PermissionAssignment} (ok : expandAssignment roles assignment = .ok expanded) :
    expanded = ⟨assignment.principal, assignment.scope,
      assignment.permissions ++ assignment.roles.flatMap fun name => (roles[name]?).getD []⟩ := by
  obtain ⟨principal, scope, permissions, names⟩ := assignment
  unfold expandAssignment at ok
  dsimp only at ok ⊢
  induction names generalizing permissions with
  | nil => cases ok; simp
  | cons name names ih =>
    rw [List.foldlM_cons] at ok
    cases found : roles[name]? with
    | none => rw [found] at ok; cases ok
    | some rolePermissions =>
      rw [found] at ok
      rw [ih (permissions ++ rolePermissions) ok]
      simp [found]

theorem expandAssignments_ok {roles : BTreeMap String (List Permission)} {list : List RolePermissionAssignment}
    {expanded : List PermissionAssignment} (ok : list.mapM (expandAssignment roles) = .ok expanded) :
    (list.map fun assignment => PermissionAssignment.mk assignment.principal assignment.scope
      (assignment.permissions ++ assignment.roles.flatMap fun name => (roles[name]?).getD [])) = expanded := by
  induction list generalizing expanded with
  | nil => cases ok; rfl
  | cons assignment list ih =>
    rw [List.mapM_cons] at ok
    cases first : expandAssignment roles assignment with
    | error e => rw [first] at ok; cases ok
    | ok head =>
      rw [first] at ok
      cases rest : list.mapM (expandAssignment roles) with
      | error e => rw [rest] at ok; cases ok
      | ok tail =>
        rw [rest] at ok
        cases ok
        rw [List.map_cons, ih rest, expandAssignment_ok first]

/-- A role table is the table of its expanded configuration. -/
theorem fromRoleConfig_ok {config : RolePermissionTableConfig} {policy : PermissionTablePolicy}
    (ok : fromRoleConfig config = .ok policy) : new config.expanded = .ok policy := by
  unfold fromRoleConfig at ok
  cases read : config.roles.foldlM addRole ∅ with
  | error e => rw [read] at ok; cases ok
  | ok roles =>
    rw [read] at ok
    cases expanded : config.assignments.mapM (expandAssignment roles) with
    | error e =>
      replace ok : (config.assignments.mapM (expandAssignment roles) >>= fun assignments =>
        new ⟨config.version, assignments⟩) = .ok policy := ok
      rw [expanded] at ok
      cases ok
    | ok assignments =>
      replace ok : (config.assignments.mapM (expandAssignment roles) >>= fun assignments =>
        new ⟨config.version, assignments⟩) = .ok policy := ok
      rw [expanded] at ok
      have same : config.expanded = ⟨config.version, assignments⟩ := by
        unfold RolePermissionTableConfig.expanded
        congr 1
        have lookups : config.rolePermissions = fun name => (roles[name]?).getD [] := by
          funext name
          rw [addRoles_ok read name]
          simp [RolePermissionTableConfig.rolePermissions]
        rw [lookups]
        exact expandAssignments_ok expanded
      rw [same]
      exact ok

/-- Deciding a request: what the table allows is what its configuration admits, a role table
decides as its expanded configuration, and a wider configuration allows no less. -/
theorem permission_table_exact :
    (∀ config policy, new config = .ok policy → ∀ context,
      (∃ reason, policy.evaluate context = .allow reason) ↔ config.Admits context) ∧
    (∀ config policy, fromRoleConfig config = .ok policy →
      ∃ inPlace, new config.expanded = .ok inPlace ∧ ∀ context, policy.evaluate context = inPlace.evaluate context) ∧
    ∀ smaller larger narrow wide, new smaller = .ok narrow → new larger = .ok wide → smaller.Within larger →
      ∀ context, (∃ reason, narrow.evaluate context = .allow reason) → ∃ reason, wide.evaluate context = .allow reason := by
  refine ⟨fun config policy ok context => evaluate_allow ok context, fun config policy ok => ?_, ?_⟩
  · exact ⟨policy, fromRoleConfig_ok ok, fun context => rfl⟩
  · intro smaller larger narrow wide narrowed widened within context allowed
    rw [evaluate_allow widened]
    rw [evaluate_allow narrowed] at allowed
    exact allowed.within within

/-- A reader of any node model in one workspace, by a role. -/
def readerRoles : RolePermissionTableConfig where
  version := "1"
  roles := [⟨"reader", [⟨.nodeRead, .anyNodeModel⟩]⟩]
  assignments := [⟨⟨"issuer", "ada", "mtls-certificate"⟩, .workspace "main", [], ["reader"]⟩]

/-- The same reader, with the service inspected by another principal. -/
def widerTable : PermissionTableConfig where
  version := "2"
  assignments := readerRoles.expanded.assignments ++
    [⟨⟨"issuer", "eve", "mtls-certificate"⟩, .service, [⟨.auditInspect, .service⟩]⟩]

/-- A read of the model `Person`. -/
def readRequest : SecurityRequestContext where
  authenticatedPrincipal := some ⟨"issuer", "ada", "mtls-certificate"⟩
  operations := [⟨.nodeRead, ⟨"main", .nodeModel, some "Person"⟩⟩]

theorem readRequest_admitted : readerRoles.expanded.Admits readRequest := by
  refine ⟨_, rfl, fun operation listed => ?_⟩
  rw [List.mem_singleton.1 listed]
  refine ⟨_, List.mem_singleton.2 rfl, rfl, rfl, ⟨by decide, rfl⟩, ⟨.nodeRead, .anyNodeModel⟩, ?_, rfl, rfl, "Person", rfl⟩
  decide

theorem permission_table_exact_reader :
    ∃ policy wide, fromRoleConfig readerRoles = .ok policy ∧ new widerTable = .ok wide ∧
      (∃ reason, policy.evaluate readRequest = .allow reason) ∧ ∃ reason, wide.evaluate readRequest = .allow reason := by
  have built : (fromRoleConfig readerRoles).isOk = true := by decide +kernel
  have wider : (new widerTable).isOk = true := by decide +kernel
  obtain ⟨exact, roles, grows⟩ := permission_table_exact
  cases read : fromRoleConfig readerRoles with
  | error e => rw [read] at built; cases built
  | ok policy =>
    cases widened : new widerTable with
    | error e => rw [widened] at wider; cases wider
    | ok wide =>
      obtain ⟨inPlace, expanded, same⟩ := roles readerRoles policy read
      have allowed : ∃ reason, inPlace.evaluate readRequest = .allow reason :=
        (exact _ _ expanded readRequest).2 readRequest_admitted
      refine ⟨policy, wide, rfl, rfl, ?_, ?_⟩
      · rw [same readRequest]
        exact allowed
      · refine grows _ _ _ _ expanded widened (fun assignment assigned => ?_) readRequest allowed
        exact ⟨assignment, List.mem_append_left _ assigned, rfl, rfl, rfl, List.Subset.refl _⟩

end PermissionTablePolicy
