import Mathlib.Data.Finset.Image
import Scenara.Core.Dict
import Scenara.Core.Strings
import Scenara.Release.Model

/-!
# API keys

Model of the part of `platform/access.py` that makes, uses and revokes API keys, over
`MemoryAccessRepository`, and of `require_allowed` of `platform/policy.py`.

What the audit log is told is left out; it comes after everything else.
-/

namespace Scenara.Access

open Scenara.Core
open Release (Scope)

/-! ## Records -/

/-- `(tenant_id, project_id, id)`. -/
structure Key where
  scope : Scope
  id : String
  deriving DecidableEq

/-- `frozenset[str]` with `min_length=1`. -/
structure Scopes where
  set : Finset String
  nonempty : set.Nonempty

/-- `PrincipalContext`. -/
structure PrincipalContext where
  scope : Scope
  principalId : String
  scopes : Finset String
  productIds : Finset String

/-- `ServiceAccount`. -/
structure ServiceAccount where
  key : Key
  displayName : String
  scopes : Scopes
  productIds : Finset String
  disabled : Bool
  createdAt : ℚ
  updatedAt : ℚ

/-- `ApiKeyRecord`. -/
structure ApiKeyRecord where
  key : Key
  serviceAccountId : String
  name : String
  tokenPrefix : String
  scopes : Scopes
  productIds : Finset String
  expiresAt : Option ℚ
  revokedAt : Option ℚ
  lastUsedAt : Option ℚ
  createdAt : ℚ

/-- The account that the key is of. -/
def ApiKeyRecord.account (record : ApiKeyRecord) :
    Key := ⟨record.key.scope, record.serviceAccountId⟩

/-- `EntitlementStatus`. -/
inductive EntitlementStatus where
  | active | suspended
  deriving DecidableEq

/-- `ProductEntitlement.source`. -/
inductive EntitlementSource where
  | manual | system
  deriving DecidableEq

/-- `ProductEntitlement`; the id of its key is its `product_id`. -/
structure ProductEntitlement where
  key : Key
  status : EntitlementStatus
  source : EntitlementSource
  createdAt : ℚ
  updatedAt : ℚ

/-- `CreateServiceAccountRequest`. -/
structure CreateServiceAccountRequest where
  serviceAccountId : Option String
  displayName : String
  scopes : Scopes
  productIds : Finset String

/-- `CreateApiKeyRequest`. -/
structure CreateApiKeyRequest where
  name : String
  scopes : Option Scopes
  productIds : Option (Finset String)
  expiresAt : Option ℚ

/-- `CreateProductEntitlementRequest`. -/
structure CreateProductEntitlementRequest where
  projectId : Option String
  productId : String
  status : EntitlementStatus
  source : EntitlementSource

/-- `UpdateProductEntitlementRequest`. -/
structure UpdateProductEntitlementRequest where
  status : EntitlementStatus
  source : EntitlementSource

/-! ## Scopes -/

/-- `_scopes_within`. -/
def scopesWithin (requested granted : Finset String) : Bool :=
  "*" ∈ granted || decide (∀ scope ∈ requested, scope ∈ granted ∨
    (partition ':' scope).2.1 = true ∧ (partition ':' scope).1 ++ ":*" ∈ granted)

/-- `required & context.scopes`. -/
def scopeAllows (scopes : Finset String) (action resource : String) : Bool :=
  decide (({"*", resource ++ ":*", resource ++ ":" ++ action} ∩ scopes).Nonempty)

/-- `RESOURCE_PRODUCTS`. -/
def resourceProducts : List (String × String) :=
  [("audit_event", "console"), ("dataset", "data"), ("dataset_version", "data"),
   ("enterprise_compliance", "console"), ("enterprise_incident", "console"),
   ("enterprise_sla", "console"), ("enterprise_support", "console"), ("feedback", "data"),
   ("hard-sample-manifest", "data"), ("iam", "console"), ("media_asset", "parse"),
   ("media_source", "parse"), ("model_package", "model"), ("model-deployment-event", "model"),
   ("model-release", "model"), ("operations", "console"), ("pipeline", "parse"),
   ("portrait_camera", "parse"), ("portrait_feature", "parse"), ("portrait_identity", "parse"),
   ("portrait_trajectory", "parse"), ("search_index", "parse"), ("saved_search", "search"),
   ("surveillance_watchlist", "parse"), ("surveillance_task", "parse"),
   ("surveillance_alert", "parse"), ("run", "parse"), ("webhook_delivery", "api"),
   ("webhook_subscription", "api")]

/-- What a call raises. -/
inductive AccessError where
  | policyDenied (message : String)
  | accessNotFound (message : String)
  | stateConflict (message : String)
  deriving DecidableEq

/-- `PolicyProvider.authorize`: the reason, if it does not allow. -/
abbrev Provider := PrincipalContext → String → String → Option String

/-- `require_allowed`. -/
def requireAllowed (provider : Provider) (context : PrincipalContext) (action resource : String) :
    Except AccessError Unit :=
  if ¬scopeAllows context.scopes action resource then
    .error (.policyDenied ("scope denied: " ++ resource ++ ":" ++ action))
  else
    match (resourceProducts.lookup resource).filter fun productId =>
      "*" ∉ context.productIds ∧ productId ∉ context.productIds with
    | some productId => .error (.policyDenied ("product denied: " ++ productId))
    | none =>
      match provider context action resource with
      | some reason => .error (.policyDenied reason)
      | none => .ok ()

/-! ## `MemoryAccessRepository` -/

/-- The records of the repository; `hashes` are the keys of the tokens. -/
structure Repository where
  serviceAccounts : Table Key ServiceAccount ServiceAccount.key
  apiKeys : Table Key ApiKeyRecord ApiKeyRecord.key
  apiKeyHashes : Dict String Key
  productEntitlements : Table Key ProductEntitlement ProductEntitlement.key

namespace Repository

/-- Nothing stored. -/
def empty : Repository := ⟨.empty, .empty, .empty, .empty⟩

/-- `create_service_account`. -/
def createServiceAccount (s : Repository) (record : ServiceAccount) :
    Except AccessError Repository :=
  if (s.serviceAccounts.get? record.key).isSome then
    .error (.stateConflict "service account already exists")
  else .ok { s with serviceAccounts := s.serviceAccounts.put record }

/-- `save_service_account`. -/
def saveServiceAccount (s : Repository) (record : ServiceAccount) : Except AccessError Repository :=
  if (s.serviceAccounts.get? record.key).isNone then
    .error (.accessNotFound "service account not found")
  else .ok { s with serviceAccounts := s.serviceAccounts.put record }

/-- `create_api_key`. -/
def createApiKey (s : Repository) (record : ApiKeyRecord) (tokenSha256 : String) :
    Except AccessError Repository :=
  if (s.apiKeys.get? record.key).isSome ∨ (s.apiKeyHashes.get? tokenSha256).isSome then
    .error (.stateConflict "API key already exists")
  else
    .ok { s with
      apiKeys := s.apiKeys.put record
      apiKeyHashes := s.apiKeyHashes.insert tokenSha256 record.key }

/-- `get_api_key_by_sha256`. -/
def getApiKeyBySha256 (s : Repository) (tokenSha256 : String) : Option ApiKeyRecord :=
  (s.apiKeyHashes.get? tokenSha256).bind s.apiKeys.get?

/-- `record_api_key_used`. -/
def recordApiKeyUsed (s : Repository) (key : Key) (usedAt : ℚ) : Repository :=
  match s.apiKeys.get? key with
  | some record => { s with apiKeys := s.apiKeys.put { record with lastUsedAt := some usedAt } }
  | none => s

/-- `revoke_api_key`. -/
def revokeApiKey (s : Repository) (key : Key) (revokedAt : ℚ) : Except AccessError Repository :=
  match s.apiKeys.get? key with
  | some record =>
    .ok { s with apiKeys := s.apiKeys.put { record with revokedAt := some revokedAt } }
  | none => .error (.accessNotFound "API key not found")

/-- `create_product_entitlement`. -/
def createProductEntitlement (s : Repository) (record : ProductEntitlement) :
    Except AccessError Repository :=
  if (s.productEntitlements.get? record.key).isSome then
    .error (.stateConflict "product entitlement already exists")
  else .ok { s with productEntitlements := s.productEntitlements.put record }

/-- `save_product_entitlement`. -/
def saveProductEntitlement (s : Repository) (record : ProductEntitlement) :
    Except AccessError Repository :=
  if (s.productEntitlements.get? record.key).isNone then
    .error (.accessNotFound "product entitlement not found")
  else .ok { s with productEntitlements := s.productEntitlements.put record }

/-- `active_product_ids`. -/
def activeProductIds (s : Repository) (scope : Scope) : Finset String :=
  ((s.productEntitlements.values.filter fun record =>
    record.key.scope = scope ∧ record.status = .active).map fun record => record.key.id).toFinset

end Repository

/-! ## `AccessService` -/

/-- `_token_sha256`, the policy provider, and `_require_project`. -/
structure Service where
  tokenSha256 : String → String
  provider : Provider
  hasProject : Scope → Bool

namespace Service

variable (service : Service)

/-- `_authorize`. -/
def authorize (context : PrincipalContext) (action : String) : Except AccessError Unit :=
  requireAllowed service.provider context action "iam"

/-- `_require_project`. -/
def requireProject (scope : Scope) : Except AccessError Unit :=
  if service.hasProject scope then .ok () else .error (.accessNotFound "project not found")

/-- `create_service_account`. -/
def createServiceAccount (s : Repository) (context : PrincipalContext)
    (body : CreateServiceAccountRequest) (newId : String) (now : ℚ) :
    Except AccessError Repository := do
  service.authorize context "create"
  service.requireProject context.scope
  s.createServiceAccount
    { key := ⟨context.scope, match body.serviceAccountId with
        | some id => if id = "" then newId else id
        | none => newId⟩
      displayName := body.displayName
      scopes := body.scopes
      productIds := body.productIds
      disabled := false
      createdAt := now
      updatedAt := now }

/-- `set_service_account_disabled`. -/
def setServiceAccountDisabled (s : Repository) (context : PrincipalContext)
    (serviceAccountId : String) (disabled : Bool) (now : ℚ) : Except AccessError Repository := do
  service.authorize context "write"
  match s.serviceAccounts.get? ⟨context.scope, serviceAccountId⟩ with
  | none => .error (.accessNotFound "service account not found")
  | some account => s.saveServiceAccount { account with disabled := disabled, updatedAt := now }

/-- `create_api_key`; `keyId` and `secret` are drawn. -/
def createApiKey (s : Repository) (context : PrincipalContext) (serviceAccountId : String)
    (body : CreateApiKeyRequest) (keyId secret : String) (now : ℚ) :
    Except AccessError Repository := do
  service.authorize context "create"
  match s.serviceAccounts.get? ⟨context.scope, serviceAccountId⟩ with
  | none => .error (.accessNotFound "service account not found")
  | some account =>
    let token := "sk_scenara_" ++ keyId ++ "_" ++ secret
    let scopes := body.scopes.getD account.scopes
    let productIds := body.productIds.getD account.productIds
    if ¬scopesWithin scopes.set account.scopes.set then
      .error (.policyDenied "API key scopes must be a subset of service account scopes")
    else if ¬productIds ⊆ account.productIds then
      .error (.policyDenied "API key products must be a subset of service account products")
    else
      s.createApiKey
        { key := ⟨context.scope, keyId⟩
          serviceAccountId := serviceAccountId
          name := body.name
          tokenPrefix := String.ofList (token.toList.take 24)
          scopes := scopes
          productIds := productIds
          expiresAt := body.expiresAt
          revokedAt := none
          lastUsedAt := none
          createdAt := now }
        (service.tokenSha256 token)

/-- `revoke_api_key`. -/
def revokeApiKey (s : Repository) (context : PrincipalContext) (keyId : String) (now : ℚ) :
    Except AccessError Repository := do
  service.authorize context "delete"
  s.revokeApiKey ⟨context.scope, keyId⟩ now

/-- `create_product_entitlement`. -/
def createProductEntitlement (s : Repository) (context : PrincipalContext)
    (body : CreateProductEntitlementRequest) (now : ℚ) : Except AccessError Repository := do
  service.authorize context "create"
  if body.projectId.any (· ≠ context.scope.projectId) then
    .error (.policyDenied "resource project must match the credential project")
  else
    service.requireProject context.scope
    s.createProductEntitlement ⟨⟨context.scope, body.productId⟩, body.status, body.source, now, now⟩

/-- `update_product_entitlement`. -/
def updateProductEntitlement (s : Repository) (context : PrincipalContext) (productId : String)
    (body : UpdateProductEntitlementRequest) (now : ℚ) : Except AccessError Repository := do
  service.authorize context "update"
  match s.productEntitlements.get? ⟨context.scope, productId⟩ with
  | none => .error (.accessNotFound "product entitlement not found")
  | some current =>
    s.saveProductEntitlement
      { current with status := body.status, source := body.source, updatedAt := now }

/-- `authenticate_api_key`. -/
def authenticateApiKey (s : Repository) (token : String) (now : ℚ) :
    Repository × Option PrincipalContext :=
  match s.getApiKeyBySha256 (service.tokenSha256 token) with
  | none => (s, none)
  | some record =>
    if record.revokedAt.isSome then (s, none)
    else if record.expiresAt.any (· ≤ now) then (s, none)
    else
      match s.serviceAccounts.get? record.account with
      | none => (s, none)
      | some account =>
        if account.disabled then (s, none)
        else
          let s := s.recordApiKeyUsed record.key now
          let scopes := record.scopes.set.filter fun scope =>
              scopesWithin {scope} account.scopes.set
          let productIds := record.productIds ∩ account.productIds ∩ s.activeProductIds
              record.key.scope
          if scopes = ∅ then (s, none)
          else (s, some ⟨record.key.scope, record.serviceAccountId, scopes, productIds⟩)

end Service

/-! ## Calls -/

/-- The calls. -/
inductive Act where
  | createServiceAccount (context : PrincipalContext) (body : CreateServiceAccountRequest)
      (newId : String) (now : ℚ)
  | setServiceAccountDisabled (context : PrincipalContext) (serviceAccountId : String)
      (disabled : Bool) (now : ℚ)
  | createApiKey (context : PrincipalContext) (serviceAccountId : String)
      (body : CreateApiKeyRequest) (keyId secret : String) (now : ℚ)
  | revokeApiKey (context : PrincipalContext) (keyId : String) (now : ℚ)
  | createProductEntitlement (context : PrincipalContext) (body : CreateProductEntitlementRequest)
      (now : ℚ)
  | updateProductEntitlement (context : PrincipalContext) (productId : String)
      (body : UpdateProductEntitlementRequest) (now : ℚ)
  | authenticateApiKey (token : String) (now : ℚ)

/-- What a call makes of the repository. -/
def Act.run (service : Service) (s : Repository) : Act → Except AccessError Repository
  | .createServiceAccount context body newId now =>
    service.createServiceAccount s context body newId now
  | .setServiceAccountDisabled context serviceAccountId disabled now =>
    service.setServiceAccountDisabled s context serviceAccountId disabled now
  | .createApiKey context serviceAccountId body keyId secret now =>
    service.createApiKey s context serviceAccountId body keyId secret now
  | .revokeApiKey context keyId now => service.revokeApiKey s context keyId now
  | .createProductEntitlement context body now => service.createProductEntitlement s context
      body now
  | .updateProductEntitlement context productId body now =>
    service.updateProductEntitlement s context productId body now
  | .authenticateApiKey token now => .ok (service.authenticateApiKey s token now).1

/-- One call. -/
def step (service : Service) (s : Repository) (act : Act) : Option Repository :=
  match act.run service s with
  | .ok s' => some s'
  | .error _ => some s

end Scenara.Access
