import Mathlib.Data.Finset.Union
import Scenara.Access.Model
import Scenara.Core.Raising

/-!
# Users, roles and memberships

Model of the part of `platform/access.py` that says who may work in a project, over
`MemoryAccessRepository`.

* `Directory`: organizations, projects, users with their credentials, roles, memberships and service
  accounts. What is listed is listed newest first.

What the audit log is told is left out; it comes after everything else.
-/

namespace Scenara.Access

open Scenara.Core
open Release (Scope)

/-! ## Records -/

/-- `PrincipalType`. -/
inductive PrincipalType where
  | user | serviceAccount
  deriving DecidableEq

/-- `(tenant_id, id)`. -/
structure TenantKey where
  tenantId : String
  id : String
  deriving DecidableEq

/-- `Organization`. -/
structure Organization where
  tenantId : String
  displayName : String
  createdAt : ℚ
  updatedAt : ℚ

/-- `Project`; the id of its key is its `project_id`. -/
structure Project where
  key : TenantKey
  displayName : String
  createdAt : ℚ
  updatedAt : ℚ

/-- `UserAccount`; the id of its key is its `user_id`. -/
structure UserAccount where
  key : TenantKey
  displayName : String
  email : Option String
  phone : Option String
  disabled : Bool
  createdAt : ℚ
  updatedAt : ℚ

/-- `UserCredential`. -/
structure UserCredential where
  key : TenantKey
  passwordHash : String
  createdAt : ℚ
  updatedAt : ℚ

/-- `Role`; the id of its key is its `role_id`. -/
structure Role where
  key : TenantKey
  displayName : String
  scopes : Scopes
  productIds : Finset String
  createdAt : ℚ
  updatedAt : ℚ

/-- `Membership`; the id of its key is its `principal_id`. -/
structure Membership where
  key : Key
  principalType : PrincipalType
  roleIds : Scopes
  createdAt : ℚ
  updatedAt : ℚ

/-- `CreateUserRequest`. -/
structure CreateUserRequest where
  userId : Option String
  displayName : String
  email : Option String
  phone : Option String
  password : Option String

/-- `CreateRoleRequest`. -/
structure CreateRoleRequest where
  roleId : Option String
  displayName : String
  scopes : Scopes
  productIds : Finset String

/-- `CreateMembershipRequest`. -/
structure CreateMembershipRequest where
  projectId : Option String
  principalId : String
  principalType : PrincipalType
  roleIds : Scopes

/-! ## `MemoryAccessRepository` -/

/-- The records of the repository. -/
structure Directory where
  organizations : Table String Organization Organization.tenantId
  projects : Table TenantKey Project Project.key
  users : Table TenantKey UserAccount UserAccount.key
  userCredentials : Table TenantKey UserCredential UserCredential.key
  roles : Table TenantKey Role Role.key
  memberships : Table Key Membership Membership.key
  serviceAccounts : Table Key ServiceAccount ServiceAccount.key

/-- `sorted(.., key=lambda item: (item.created_at, id), reverse=True)`. -/
def newest {V : Type} (createdAt : V → ℚ) (id : V → String) (items : List V) : List V :=
  items.insertionSort fun a b => createdAt b < createdAt a ∨ createdAt b = createdAt a ∧ id b ≤ id a

theorem mem_newest {V : Type} {createdAt : V → ℚ} {id : V → String} {items : List V} {item : V} :
    item ∈ newest createdAt id items ↔ item ∈ items :=
  (List.perm_insertionSort _ items).mem_iff

namespace Directory

/-- Nothing stored. -/
def empty : Directory := ⟨.empty, .empty, .empty, .empty, .empty, .empty, .empty⟩

/-- What a call makes of the directory, or what it raises and what it had reached by then. -/
abbrev Call := Except (AccessError × Directory) Directory

/-- `create_organization`. -/
def createOrganization (s : Directory) (record : Organization) : Call :=
  if (s.organizations.get? record.tenantId).isSome then
    .error (.stateConflict "organization already exists", s)
  else .ok { s with organizations := s.organizations.put record }

/-- `create_project`. -/
def createProject (s : Directory) (record : Project) : Call :=
  if (s.projects.get? record.key).isSome then .error (.stateConflict "project already exists", s)
  else .ok { s with projects := s.projects.put record }

/-- `create_user`. -/
def createUser (s : Directory) (record : UserAccount) : Call :=
  if (s.users.get? record.key).isSome then .error (.stateConflict "user already exists", s)
  else .ok { s with users := s.users.put record }

/-- `list_users`. -/
def listUsers (s : Directory) (tenantId : String) : List UserAccount :=
  newest UserAccount.createdAt (fun item => item.key.id)
    (s.users.values.filter fun item => item.key.tenantId = tenantId)

/-- `save_user`. -/
def saveUser (s : Directory) (record : UserAccount) : Call :=
  if (s.users.get? record.key).isNone then .error (.accessNotFound "user not found", s)
  else .ok { s with users := s.users.put record }

/-- `create_user_credential`. -/
def createUserCredential (s : Directory) (record : UserCredential) : Call :=
  if (s.userCredentials.get? record.key).isSome then
    .error (.stateConflict "user credential already exists", s)
  else .ok { s with userCredentials := s.userCredentials.put record }

/-- `create_role`. -/
def createRole (s : Directory) (record : Role) : Call :=
  if (s.roles.get? record.key).isSome then .error (.stateConflict "role already exists", s)
  else .ok { s with roles := s.roles.put record }

/-- `list_roles`. -/
def listRoles (s : Directory) (tenantId : String) : List Role :=
  newest Role.createdAt (fun item => item.key.id)
    (s.roles.values.filter fun item => item.key.tenantId = tenantId)

/-- `create_membership`. -/
def createMembership (s : Directory) (record : Membership) : Call :=
  if (s.memberships.get? record.key).isSome then
    .error (.stateConflict "membership already exists", s)
  else .ok { s with memberships := s.memberships.put record }

/-- `list_memberships`. -/
def listMemberships (s : Directory) (scope : Scope) : List Membership :=
  newest Membership.createdAt (fun item => item.key.id)
    (s.memberships.values.filter fun item => item.key.scope = scope)

/-- `create_service_account`. -/
def createServiceAccount (s : Directory) (record : ServiceAccount) : Call :=
  if (s.serviceAccounts.get? record.key).isSome then
    .error (.stateConflict "service account already exists", s)
  else .ok { s with serviceAccounts := s.serviceAccounts.put record }

/-- `save_service_account`. -/
def saveServiceAccount (s : Directory) (record : ServiceAccount) : Call :=
  if (s.serviceAccounts.get? record.key).isNone then
    .error (.accessNotFound "service account not found", s)
  else .ok { s with serviceAccounts := s.serviceAccounts.put record }

/-! ## `AccessService`: what it stores -/

/-- `id or new`. -/
def orNew (id : Option String) (new : String) : String :=
  match id with
  | some id => if id = "" then new else id
  | none => new

section Calls

variable (provider : Provider) (s : Directory) (context : PrincipalContext)

/-- `_authorize`. -/
def authorize (action : String) : Except (AccessError × Directory) Unit :=
  (requireAllowed provider context action "iam").mapError fun e => (e, s)

/-- `_require_organization`. -/
def requireOrganization (tenantId : String) : Except (AccessError × Directory) Unit :=
  if (s.organizations.get? tenantId).isSome then .ok ()
  else .error (.accessNotFound "organization not found", s)

/-- `_require_project`. -/
def requireProject (scope : Scope) : Except (AccessError × Directory) Unit :=
  if (s.projects.get? ⟨scope.tenantId, scope.projectId⟩).isSome then .ok ()
  else .error (.accessNotFound "project not found", s)

/-- `_context_project_id`, which is the context's. -/
def contextProjectId (requested : Option String) : Except (AccessError × Directory) Unit :=
  if requested.any (· ≠ context.scope.projectId) then
    .error (.policyDenied "resource project must match the credential project", s)
  else .ok ()

/-- `AccessService.create_organization`. -/
def callCreateOrganization (displayName : String) (now : ℚ) : Call := do
  s.authorize provider context "create"
  s.createOrganization ⟨context.scope.tenantId, displayName, now, now⟩

/-- `AccessService.create_project`. -/
def callCreateProject (projectId : Option String) (displayName : String) (now : ℚ) : Call := do
  s.authorize provider context "create"
  s.requireOrganization context.scope.tenantId
  s.createProject
    ⟨⟨context.scope.tenantId, orNew projectId context.scope.projectId⟩, displayName, now, now⟩

/-- `AccessService.create_user`; `passwordHash` is what `hash_password` makes of the password. -/
def callCreateUser (body : CreateUserRequest) (newId passwordHash : String) (now : ℚ) : Call := do
  s.authorize provider context "create"
  s.requireOrganization context.scope.tenantId
  let key : TenantKey := ⟨context.scope.tenantId, orNew body.userId newId⟩
  let s ← s.createUser
    { key := key
      displayName := body.displayName
      email := body.email
      phone := match body.phone with
        | some phone => if phone = "" then body.email else some phone
        | none => body.email
      disabled := false
      createdAt := now
      updatedAt := now }
  if body.password.any (· ≠ "") then s.createUserCredential ⟨key, passwordHash, now, now⟩
  else .ok s

/-- `AccessService.set_user_disabled`. -/
def callSetUserDisabled (userId : String) (disabled : Bool) (now : ℚ) : Call := do
  s.authorize provider context "write"
  match (s.listUsers context.scope.tenantId).find? (·.key.id = userId) with
  | none => .error (.accessNotFound "user not found", s)
  | some user => s.saveUser { user with disabled := disabled, updatedAt := now }

/-- `AccessService.create_role`. -/
def callCreateRole (body : CreateRoleRequest) (newId : String) (now : ℚ) : Call := do
  s.authorize provider context "create"
  s.requireOrganization context.scope.tenantId
  s.createRole
    { key := ⟨context.scope.tenantId, orNew body.roleId newId⟩
      displayName := body.displayName
      scopes := body.scopes
      productIds := body.productIds
      createdAt := now
      updatedAt := now }

/-- `principal_exists`. -/
def principalExists (body : CreateMembershipRequest) : Bool :=
  match body.principalType with
  | .user => (s.listUsers context.scope.tenantId).any (·.key.id = body.principalId)
  | .serviceAccount => (s.serviceAccounts.get? ⟨context.scope, body.principalId⟩).isSome

/-- `AccessService.create_membership`. -/
def callCreateMembership (body : CreateMembershipRequest) (now : ℚ) : Call := do
  s.authorize provider context "create"
  s.contextProjectId context body.projectId
  s.requireProject context.scope
  if ¬s.principalExists context body then
    .error (.accessNotFound "membership principal not found", s)
  else if ¬body.roleIds.set ⊆ ((s.listRoles context.scope.tenantId).map (·.key.id)).toFinset then
    .error (.accessNotFound "membership role not found", s)
  else
    s.createMembership
      { key := ⟨context.scope, body.principalId⟩
        principalType := body.principalType
        roleIds := body.roleIds
        createdAt := now
        updatedAt := now }

/-- `AccessService.create_service_account`. -/
def callCreateServiceAccount (body : CreateServiceAccountRequest) (newId : String) (now : ℚ) :
    Call := do
  s.authorize provider context "create"
  s.requireProject context.scope
  s.createServiceAccount
    { key := ⟨context.scope, orNew body.serviceAccountId newId⟩
      displayName := body.displayName
      scopes := body.scopes
      productIds := body.productIds
      disabled := false
      createdAt := now
      updatedAt := now }

/-- `AccessService.set_service_account_disabled`. -/
def callSetServiceAccountDisabled (serviceAccountId : String) (disabled : Bool) (now : ℚ) :
    Call := do
  s.authorize provider context "write"
  match s.serviceAccounts.get? ⟨context.scope, serviceAccountId⟩ with
  | none => .error (.accessNotFound "service account not found", s)
  | some account => s.saveServiceAccount { account with disabled := disabled, updatedAt := now }

end Calls

/-! ## `AccessService`: who may do what -/

/-- What a coroutine raises that a `StopIteration` leaves. -/
inductive Raised where
  | runtimeError (message : String)

/-- `next(item for item in items if p(item))`, in a coroutine. -/
def next {V : Type} (p : V → Bool) (items : List V) : Except Raised V :=
  match items.find? p with
  | some item => .ok item
  | none => .error (.runtimeError "coroutine raised StopIteration")

/-- `frozenset(x for role_id in role_ids for x in (roles[role_id].f if role_id in roles else
()))`. -/
def ofRoles (roles : Dict String Role) (f : Role → Finset String) (roleIds : Finset String) :
    Finset String :=
  roleIds.biUnion fun roleId => ((roles.get? roleId).map f).getD ∅

/-- `AccessService.resolve_user_context`. -/
def resolveUserContext (s : Directory) (tenantId projectId userId : String) :
    Except Raised (Option PrincipalContext) :=
  match (s.listUsers tenantId).find? (·.key.id = userId) with
  | none => .ok none
  | some user =>
    if user.disabled then .ok none
    else
      let memberships := s.listMemberships ⟨tenantId, projectId⟩
      if memberships.isEmpty then .ok none
      else
        (next (fun item => item.key.id = userId ∧ item.principalType = .user) memberships).map
          fun membership =>
            let roles := Dict.insertAll (fun item => item.key.id) (s.listRoles tenantId) .empty
            some
              { scope := ⟨tenantId, projectId⟩
                principalId := userId
                scopes := ofRoles roles (fun role => role.scopes.set) membership.roleIds.set
                productIds := ofRoles roles Role.productIds membership.roleIds.set }

/-- `AccessService.authenticate_user`. -/
def authenticateUser (verifyPassword : String → String → Bool) (s : Directory)
    (username password tenantId projectId : String) : Except Raised (Option PrincipalContext) :=
  match (s.listUsers tenantId).find? (·.key.id = username) with
  | none => .ok none
  | some user =>
    if user.disabled then .ok none
    else
      match s.userCredentials.get? ⟨tenantId, username⟩ with
      | none => .ok none
      | some credential =>
        if ¬verifyPassword password credential.passwordHash then .ok none
        else s.resolveUserContext tenantId projectId username

/-! ## Calls -/

/-- The calls. -/
inductive Act where
  | createOrganization (displayName : String)
  | createProject (projectId : Option String) (displayName : String)
  | createUser (body : CreateUserRequest) (newId passwordHash : String)
  | setUserDisabled (userId : String) (disabled : Bool)
  | createRole (body : CreateRoleRequest) (newId : String)
  | createMembership (body : CreateMembershipRequest)
  | createServiceAccount (body : CreateServiceAccountRequest) (newId : String)
  | setServiceAccountDisabled (serviceAccountId : String) (disabled : Bool)

/-- What a call of `context` at `now` makes of the directory. -/
def Act.run (provider : Provider) (s : Directory) (context : PrincipalContext) (now : ℚ) :
    Act → Call
  | .createOrganization displayName => s.callCreateOrganization provider context displayName now
  | .createProject projectId displayName =>
    s.callCreateProject provider context projectId displayName now
  | .createUser body newId passwordHash =>
    s.callCreateUser provider context body newId passwordHash now
  | .setUserDisabled userId disabled => s.callSetUserDisabled provider context userId disabled now
  | .createRole body newId => s.callCreateRole provider context body newId now
  | .createMembership body => s.callCreateMembership provider context body now
  | .createServiceAccount body newId => s.callCreateServiceAccount provider context body newId now
  | .setServiceAccountDisabled serviceAccountId disabled =>
    s.callSetServiceAccountDisabled provider context serviceAccountId disabled now

/-- One call. -/
def step (provider : Provider) (s : Directory) (call : PrincipalContext × ℚ × Act) :
    Option Directory :=
  some (reached (call.2.2.run provider s call.1 call.2.1))

end Directory

end Scenara.Access
