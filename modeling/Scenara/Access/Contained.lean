import Scenara.Access.Model
import Scenara.Core.Raising
import Scenara.Core.Transition

/-!
# A key never exceeds its account

What granted scopes contain they allow, for a resource without a colon.
-/

namespace Scenara.Access

open Scenara.Core
open Release (Scope)

variable {s s' : Repository} {service : Service} {context : PrincipalContext} {act : Act}
  {requested granted : Finset String} {action resource scope token : String} {now : ℚ}
variable {account : ServiceAccount}

/-! ## Scopes -/

theorem scopesWithin_iff : scopesWithin requested granted = true ↔
    "*" ∈ granted ∨ ∀ scope ∈ requested, scope ∈ granted ∨
      (partition ':' scope).2.1 = true ∧ (partition ':' scope).1 ++ ":*" ∈ granted := by
  simp [scopesWithin]

theorem scopesWithin_singleton (h : scopesWithin requested granted = true)
    (hscope : scope ∈ requested) : scopesWithin {scope} granted = true := by
  rw [scopesWithin_iff] at h ⊢
  refine h.imp id fun h => ?_
  simpa using h scope hscope

theorem scopeAllows_iff : scopeAllows granted action resource = true ↔
    "*" ∈ granted ∨ resource ++ ":*" ∈ granted ∨ resource ++ ":" ++ action ∈ granted := by
  rw [scopeAllows, decide_eq_true_eq]
  constructor
  · rintro ⟨_, hscope⟩
    simp only [Finset.mem_inter, Finset.mem_insert, Finset.mem_singleton] at hscope
    obtain ⟨rfl | rfl | rfl, hin⟩ := hscope
    · exact .inl hin
    · exact .inr (.inl hin)
    · exact .inr (.inr hin)
  · rintro (hin | hin | hin)
    all_goals exact ⟨_, Finset.mem_inter.2 ⟨by simp, hin⟩⟩

theorem granted_of_within (hresource : ':' ∉ resource.toList) {rest : String}
    (h : scopesWithin {resource ++ ":" ++ rest} granted = true) :
    "*" ∈ granted ∨ resource ++ ":*" ∈ granted ∨ resource ++ ":" ++ rest ∈ granted := by
  have hpart : partition ':' (resource ++ ":" ++ rest) = (resource, true, rest) :=
    partition_append rfl hresource
  rcases scopesWithin_iff.1 h with hall | hwithin
  · exact .inl hall
  · rcases hwithin _ (Finset.mem_singleton_self _) with hin | ⟨-, hin⟩
    · exact .inr (.inr hin)
    · rw [hpart] at hin
      exact .inr (.inl hin)

theorem scopeAllows_of_within (hresource : ':' ∉ resource.toList)
    (h : ∀ scope ∈ requested, scopesWithin {scope} granted = true)
    (hallows : scopeAllows requested action resource = true) :
    scopeAllows granted action resource = true := by
  rw [scopeAllows_iff] at hallows ⊢
  rcases hallows with hall | hres | hact
  · -- Only everything grants everything: it has no colon.
    refine .inl ?_
    rcases scopesWithin_iff.1 (h _ hall) with hin | hwithin
    · exact hin
    · rcases hwithin _ (Finset.mem_singleton_self _) with hin | ⟨hcolon, -⟩
      · exact hin
      · exact absurd hcolon (by decide)
  · have hstar : resource ++ ":*" = resource ++ ":" ++ "*" := by rw [String.append_assoc]; rfl
    rw [hstar] at hres ⊢
    rcases granted_of_within hresource (h _ hres) with hin | hin | hin
    · exact .inl hin
    · exact .inr (.inl (hstar ▸ hin))
    · exact .inr (.inl hin)
  · exact granted_of_within hresource (h _ hact)

/-! ## What calls keep -/

/-- Stored keys are within their accounts. -/
def Inv (s : Repository) : Prop :=
  ∀ k record, s.apiKeys.get? k = some record → ∃ account,
    s.serviceAccounts.get? record.account = some account ∧
      scopesWithin record.scopes.set account.scopes.set = true

/-- What a later state keeps of an earlier one. -/
structure Grows (s s' : Repository) : Prop where
  accounts : ∀ k account, s.serviceAccounts.get? k = some account →
    ∃ account', s'.serviceAccounts.get? k = some account' ∧ account'.scopes = account.scopes
  keys : ∀ k record, s.apiKeys.get? k = some record → ∃ record', s'.apiKeys.get? k = some record' ∧
    (record.revokedAt.isSome = true → record'.revokedAt.isSome = true)
  hashes : ∀ h k, s.apiKeyHashes.get? h = some k → s'.apiKeyHashes.get? h = some k

theorem Grows.refl (s : Repository) : Grows s s :=
  ⟨fun _ account h => ⟨account, h, rfl⟩, fun _ record h => ⟨record, h, id⟩, fun _ _ => id⟩

theorem Grows.trans {a b c : Repository} (hab : Grows a b) (hbc : Grows b c) : Grows a c where
  accounts k account h := by
    obtain ⟨account', h', hscopes⟩ := hab.accounts k account h
    obtain ⟨account'', h'', hscopes'⟩ := hbc.accounts k account' h'
    exact ⟨account'', h'', hscopes'.trans hscopes⟩
  keys k record h := by
    obtain ⟨record', h', hrevoked⟩ := hab.keys k record h
    obtain ⟨record'', h'', hrevoked'⟩ := hbc.keys k record' h'
    exact ⟨record'', h'', hrevoked' ∘ hrevoked⟩
  hashes h k hk := hbc.hashes h k (hab.hashes h k hk)

/-- What a call keeps. -/
structure Kept (s s' : Repository) : Prop where
  inv : Inv s'
  grows : Grows s s'

theorem Kept.refl (hs : Inv s) : Kept s s := ⟨hs, .refl s⟩

theorem kept_account (hs : Inv s)
    (h : ∀ old, s.serviceAccounts.get? account.key = some old → account.scopes = old.scopes) :
    Kept s { s with serviceAccounts := s.serviceAccounts.put account } := by
  have hgrows : Grows s { s with serviceAccounts := s.serviceAccounts.put account } := by
    refine ⟨fun k old hk => ?_, fun _ record hk => ⟨record, hk, id⟩, fun _ _ => id⟩
    by_cases hkey : k = account.key
    · subst hkey
      exact ⟨account, Table.get?_put_self _ _, h old hk⟩
    · exact ⟨old, (Table.get?_put_of_ne _ _ hkey).trans hk, rfl⟩
  refine ⟨fun k record hk => ?_, hgrows⟩
  obtain ⟨old, hold, hwithin⟩ := hs k record hk
  obtain ⟨account', haccount', hscopes⟩ := hgrows.accounts _ old hold
  exact ⟨account', haccount', hscopes.symm ▸ hwithin⟩

variable {record : ApiKeyRecord}

theorem kept_key (hs : Inv s) {hashes : Dict String Key}
    (hold : ∀ old, s.apiKeys.get? record.key = some old → old.revokedAt.isSome = true →
      record.revokedAt.isSome = true)
    (hwithin : ∃ account, s.serviceAccounts.get? record.account = some account ∧
      scopesWithin record.scopes.set account.scopes.set = true)
    (hhashes : ∀ h k, s.apiKeyHashes.get? h = some k → hashes.get? h = some k) :
    Kept s { s with apiKeys := s.apiKeys.put record, apiKeyHashes := hashes } := by
  refine ⟨fun k record' hk => ?_, fun _ account h => ⟨account, h, rfl⟩, fun k old hk => ?_, hhashes⟩
  · rcases Table.get?_put_eq_some.1 hk with ⟨-, rfl⟩ | ⟨-, hk⟩
    · exact hwithin
    · exact hs k record' hk
  · by_cases hkey : k = record.key
    · subst hkey
      exact ⟨record, Table.get?_put_self _ _, hold old hk⟩
    · exact ⟨old, (Table.get?_put_of_ne _ _ hkey).trans hk, id⟩

theorem kept_entitlements (hs : Inv s)
    (entitlements : Table Key ProductEntitlement ProductEntitlement.key) :
    Kept s { s with productEntitlements := entitlements } :=
  ⟨hs, fun _ account h => ⟨account, h, rfl⟩, fun _ record h => ⟨record, h, id⟩, fun _ _ => id⟩

theorem kept_recordApiKeyUsed (hs : Inv s) (k : Key) (usedAt : ℚ) :
    Kept s (s.recordApiKeyUsed k usedAt) := by
  unfold Repository.recordApiKeyUsed
  cases hk : s.apiKeys.get? k with
  | none => exact .refl hs
  | some record =>
    refine kept_key hs (fun old hold hrevoked => ?_) (hs k record hk) fun _ _ => id
    rw [Table.key_of_get? hk, hk] at hold
    cases hold
    exact hrevoked

theorem kept_authenticate (hs : Inv s) : Kept s (service.authenticateApiKey s token now).1 := by
  unfold Service.authenticateApiKey
  cases s.getApiKeyBySha256 (service.tokenSha256 token) with
  | none => exact .refl hs
  | some record =>
    by_cases hrevoked : record.revokedAt.isSome = true
    · simp only [if_pos hrevoked]
      exact .refl hs
    by_cases hexpired : record.expiresAt.any (· ≤ now) = true
    · simp only [if_neg hrevoked, if_pos hexpired]
      exact .refl hs
    simp only [if_neg hrevoked, if_neg hexpired]
    cases s.serviceAccounts.get? record.account with
    | none => exact .refl hs
    | some account =>
      by_cases hdisabled : account.disabled = true
      · simp only [if_pos hdisabled]
        exact .refl hs
      simp only [if_neg hdisabled, apply_ite Prod.fst, ite_self]
      exact kept_recordApiKeyUsed hs record.key now

theorem act_kept (hs : Inv s) (h : act.run service s = .ok s') : Kept s s' := by
  cases act with
  | createServiceAccount =>
    obtain ⟨-, -, h⟩ := bind_eq_ok.1 h
    obtain ⟨-, -, h⟩ := bind_eq_ok.1 h
    obtain ⟨hnew, h⟩ := check_eq_ok.1 h
    cases h
    exact kept_account hs fun old hold => absurd (Option.isSome_of_eq_some hold) hnew
  | setServiceAccountDisabled context serviceAccountId =>
    obtain ⟨-, -, h⟩ := bind_eq_ok.1 h
    cases haccount : s.serviceAccounts.get? ⟨context.scope, serviceAccountId⟩ with
    | none => simp only [haccount] at h; cases h
    | some =>
      simp only [haccount] at h
      obtain ⟨-, h⟩ := check_eq_ok.1 h
      cases h
      refine kept_account hs fun old hold => ?_
      rw [Table.key_of_get? haccount, haccount] at hold
      cases hold
      rfl
  | createApiKey context serviceAccountId =>
    obtain ⟨-, -, h⟩ := bind_eq_ok.1 h
    cases haccount : s.serviceAccounts.get? ⟨context.scope, serviceAccountId⟩ with
    | none => simp only [haccount] at h; cases h
    | some account =>
      simp only [haccount] at h
      obtain ⟨hwithin, h⟩ := check_eq_ok.1 h
      obtain ⟨-, h⟩ := check_eq_ok.1 h
      obtain ⟨hnew, h⟩ := check_eq_ok.1 h
      cases h
      rw [not_or] at hnew
      refine kept_key hs (fun old hold => absurd (Option.isSome_of_eq_some hold) hnew.1)
        ⟨account, haccount, not_not.1 hwithin⟩ fun digest k hk => ?_
      rw [Dict.get?_insert_of_ne _ _ fun heq => ?_]
      · exact hk
      · rw [heq] at hk
        exact hnew.2 (Option.isSome_of_eq_some hk)
  | revokeApiKey context keyId =>
    obtain ⟨-, -, h⟩ := bind_eq_ok.1 h
    unfold Repository.revokeApiKey at h
    cases hrecord : s.apiKeys.get? ⟨context.scope, keyId⟩ with
    | none => simp only [hrecord] at h; cases h
    | some record =>
      simp only [hrecord] at h
      cases h
      exact kept_key hs (fun _ _ _ => rfl) (hs _ record hrecord) fun _ _ => id
  | createProductEntitlement =>
    obtain ⟨-, -, h⟩ := bind_eq_ok.1 h
    obtain ⟨-, h⟩ := check_eq_ok.1 h
    obtain ⟨-, -, h⟩ := bind_eq_ok.1 h
    obtain ⟨-, h⟩ := check_eq_ok.1 h
    cases h
    exact kept_entitlements hs _
  | updateProductEntitlement context productId =>
    obtain ⟨-, -, h⟩ := bind_eq_ok.1 h
    cases hcurrent : s.productEntitlements.get? ⟨context.scope, productId⟩ with
    | none => simp only [hcurrent] at h; cases h
    | some =>
      simp only [hcurrent] at h
      obtain ⟨-, h⟩ := check_eq_ok.1 h
      cases h
      exact kept_entitlements hs _
  | authenticateApiKey =>
    cases h
    exact kept_authenticate hs

/-! ## Authentication -/

/-- The token is that of a live key of an enabled account. -/
structure Good (service : Service) (s : Repository) (token : String) (now : ℚ)
    (record : ApiKeyRecord) (account : ServiceAccount) : Prop where
  found : s.getApiKeyBySha256 (service.tokenSha256 token) = some record
  unrevoked : record.revokedAt = none
  unexpired : ∀ expiresAt ∈ record.expiresAt, now < expiresAt
  owner : s.serviceAccounts.get? record.account = some account
  enabled : account.disabled = false

/-- The scopes of a key that its account grants. -/
def grantedScopes (record : ApiKeyRecord) (account : ServiceAccount) : Finset String :=
  record.scopes.set.filter fun scope => scopesWithin {scope} account.scopes.set

/-- The context of a key. -/
def contextOf (s : Repository) (record : ApiKeyRecord) (account : ServiceAccount) :
    PrincipalContext where
  scope := record.key.scope
  principalId := record.serviceAccountId
  scopes := grantedScopes record account
  productIds := record.productIds ∩ account.productIds ∩ s.activeProductIds record.key.scope

theorem activeProductIds_recordApiKeyUsed (s : Repository) (k : Key) (usedAt : ℚ) (scope : Scope) :
    (s.recordApiKeyUsed k usedAt).activeProductIds scope = s.activeProductIds scope := by
  unfold Repository.recordApiKeyUsed
  split <;> rfl

theorem unexpired_iff {expiresAt : Option ℚ} :
    ¬expiresAt.any (· ≤ now) = true ↔ ∀ t ∈ expiresAt, now < t := by
  cases expiresAt <;> simp

theorem authenticate_of_good (h : Good service s token now record account) :
    (service.authenticateApiKey s token now).2 =
      if grantedScopes record account = ∅ then none else some (contextOf s record account) := by
  have hlive : ¬record.revokedAt.isSome = true := by rw [h.unrevoked]; decide
  have hdisabled : ¬account.disabled = true := by rw [h.enabled]; decide
  unfold Service.authenticateApiKey
  simp only [h.found, h.owner, if_neg hlive, if_neg (unexpired_iff.2 h.unexpired), if_neg hdisabled,
    apply_ite Prod.snd, activeProductIds_recordApiKeyUsed]
  rfl

theorem authenticate_of_not_good (h : ∀ record account, ¬Good service s token now record account) :
    (service.authenticateApiKey s token now).2 = none := by
  unfold Service.authenticateApiKey
  cases hfound : s.getApiKeyBySha256 (service.tokenSha256 token) with
  | none => rfl
  | some record =>
    by_cases hrevoked : record.revokedAt.isSome = true
    · simp [if_pos hrevoked]
    by_cases hexpired : record.expiresAt.any (· ≤ now) = true
    · simp [if_pos hexpired]
    simp only [if_neg hrevoked, if_neg hexpired]
    cases howner : s.serviceAccounts.get? record.account with
    | none => rfl
    | some account =>
      by_cases hdisabled : account.disabled = true
      · simp [if_pos hdisabled]
      · exact absurd ⟨hfound, by simpa using hrevoked, unexpired_iff.1 hexpired, howner,
          by simpa using hdisabled⟩ (h record account)

theorem authenticate_iff : (service.authenticateApiKey s token now).2 = some context ↔
    ∃ record account, Good service s token now record account ∧ grantedScopes record account ≠ ∅ ∧
      context = contextOf s record account := by
  constructor
  · intro h
    by_contra hnone
    by_cases hgood : ∃ record account, Good service s token now record account
    · obtain ⟨record, account, hgood⟩ := hgood
      rw [authenticate_of_good hgood] at h
      obtain ⟨hscopes, h⟩ := Option.ite_none_left_eq_some.1 h
      exact hnone ⟨record, account, hgood, hscopes, (Option.some.inj h).symm⟩
    · simp only [not_exists] at hgood
      simp [authenticate_of_not_good hgood] at h
  · rintro ⟨_, _, hgood, hscopes, rfl⟩
    rw [authenticate_of_good hgood, if_neg hscopes]

theorem grantedScopes_eq (hs : Inv s) {k : Key}
    (hrecord : s.apiKeys.get? k = some record)
    (haccount : s.serviceAccounts.get? record.account = some account) :
    grantedScopes record account = record.scopes.set := by
  obtain ⟨_, haccount', hwithin⟩ := hs k record hrecord
  rw [haccount] at haccount'
  cases haccount'
  exact Finset.filter_true_of_mem fun scope hscope => scopesWithin_singleton hwithin hscope

/-! ## Runs -/

/-- What the context of a token may do. -/
structure Contained (service : Service) (s : Repository) (token : String) (now : ℚ)
    (context : PrincipalContext) (record : ApiKeyRecord) (account : ServiceAccount) : Prop where
  good : Good service s token now record account
  scopes : ∀ action resource, ':' ∉ resource.toList →
    scopeAllows context.scopes action resource = true →
      scopeAllows account.scopes.set action resource = true
  keyProducts : context.productIds ⊆ record.productIds
  accountProducts : context.productIds ⊆ account.productIds
  activeProducts : ∀ productId ∈ context.productIds, ∃ entitlement,
    s.productEntitlements.get? ⟨record.key.scope, productId⟩ = some entitlement ∧
      entitlement.status = .active

/-- The key of the token was revoked. -/
def Revoked (service : Service) (s : Repository) (token : String) : Prop :=
  ∃ record, s.getApiKeyBySha256 (service.tokenSha256 token) = some record ∧
    record.revokedAt.isSome = true

/-- The token is one of the key. -/
def TokenOf (service : Service) (s : Repository) (token : String) (k : Key) : Prop :=
  s.apiKeyHashes.get? (service.tokenSha256 token) = some k

/-- The token was issued: it leads to a new key of the account. -/
structure Issued (service : Service) (s : Repository) (token : String) (k : Key)
    (serviceAccountId : String) (body : CreateApiKeyRequest) (record : ApiKeyRecord) : Prop where
  tokenOf : TokenOf service s token k
  found : s.getApiKeyBySha256 (service.tokenSha256 token) = some record
  key : record.key = k
  account : record.serviceAccountId = serviceAccountId
  unrevoked : record.revokedAt = none
  expires : record.expiresAt = body.expiresAt

theorem issued_of_createApiKey {serviceAccountId keyId secret : String} {body : CreateApiKeyRequest}
    (h : service.createApiKey s context serviceAccountId body keyId secret now = .ok s') :
    ∃ record, Issued service s' ("sk_scenara_" ++ keyId ++ "_" ++ secret) ⟨context.scope, keyId⟩
      serviceAccountId body record := by
  obtain ⟨-, -, h⟩ := bind_eq_ok.1 h
  cases haccount : s.serviceAccounts.get? ⟨context.scope, serviceAccountId⟩ with
  | none => simp only [haccount] at h; cases h
  | some account =>
    simp only [haccount] at h
    obtain ⟨-, h⟩ := check_eq_ok.1 h
    obtain ⟨-, h⟩ := check_eq_ok.1 h
    obtain ⟨-, h⟩ := check_eq_ok.1 h
    cases h
    exact ⟨_, Dict.get?_insert_self _ _ _, Option.bind_eq_some_iff.2
      ⟨_, Dict.get?_insert_self _ _ _, Table.get?_put_self _ _⟩, rfl, rfl, rfl, rfl⟩

theorem revoked_of_revokeApiKey {keyId : String}
    (h : service.revokeApiKey s context keyId now = .ok s')
    (htoken : TokenOf service s token ⟨context.scope, keyId⟩) : Revoked service s' token := by
  obtain ⟨-, -, h⟩ := bind_eq_ok.1 h
  unfold Repository.revokeApiKey at h
  cases hrecord : s.apiKeys.get? ⟨context.scope, keyId⟩ with
  | none => simp only [hrecord] at h; cases h
  | some record =>
    simp only [hrecord] at h
    cases h
    refine ⟨{ record with revokedAt := some now }, Option.bind_eq_some_iff.2 ⟨_, htoken, ?_⟩, rfl⟩
    rw [← Table.key_of_get? hrecord]
    exact Table.get?_put_self _ _

theorem mem_activeProductIds {productId : String} {scope : Scope} :
    productId ∈ s.activeProductIds scope ↔ ∃ entitlement,
      s.productEntitlements.get? ⟨scope, productId⟩ = some entitlement ∧
        entitlement.status = .active := by
  simp only [Repository.activeProductIds, List.mem_toFinset, List.mem_map, List.mem_filter,
    decide_eq_true_eq, Table.mem_values]
  constructor
  · rintro ⟨entitlement, ⟨hfound, rfl, hactive⟩, rfl⟩
    exact ⟨entitlement, hfound, hactive⟩
  · rintro ⟨entitlement, hfound, hactive⟩
    have hkey := Table.key_of_get? hfound
    exact ⟨entitlement, ⟨hkey.symm ▸ hfound, by rw [hkey], hactive⟩, by rw [hkey]⟩

theorem contained_of_authenticate (h : (service.authenticateApiKey s token now).2 = some context) :
    ∃ record account, Contained service s token now context record account := by
  obtain ⟨record, account, hgood, -, rfl⟩ := authenticate_iff.1 h
  refine ⟨record, account, hgood, fun action resource hresource hallows => ?_,
    fun productId h => ?_,
    fun productId h => ?_, fun productId h => ?_⟩
  · exact scopeAllows_of_within hresource (fun scope hscope =>
      (Finset.mem_filter.1 hscope).2) hallows
  · exact (Finset.mem_inter.1 (Finset.mem_inter.1 h).1).1
  · exact (Finset.mem_inter.1 (Finset.mem_inter.1 h).1).2
  · exact mem_activeProductIds.1 (Finset.mem_inter.1 h).2

theorem authenticates_of_good (hs : Inv s)
    (h : Good service s token now record account) :
    ∃ context, (service.authenticateApiKey s token now).2 = some context := by
  obtain ⟨k, -, hrecord⟩ := Option.bind_eq_some_iff.1 h.found
  refine ⟨_, authenticate_iff.2 ⟨record, account, h, ?_, rfl⟩⟩
  rw [grantedScopes_eq hs hrecord h.owner]
  exact record.scopes.nonempty.ne_empty

theorem Revoked.grows (h : Revoked service s token) (hgrows : Grows s s') :
    Revoked service s' token := by
  obtain ⟨record, hfound, hrevoked⟩ := h
  obtain ⟨k, hk, hrecord⟩ := Option.bind_eq_some_iff.1 hfound
  obtain ⟨record', hrecord', hmono⟩ := hgrows.keys k record hrecord
  exact ⟨record', Option.bind_eq_some_iff.2 ⟨k, hgrows.hashes _ k hk, hrecord'⟩, hmono hrevoked⟩

theorem Revoked.not_authenticates (h : Revoked service s token) (now : ℚ) :
    (service.authenticateApiKey s token now).2 = none := by
  obtain ⟨_, hfound, hrevoked⟩ := h
  refine authenticate_of_not_good fun record' account hgood => ?_
  rw [hgood.found] at hfound
  cases hfound
  rw [hgood.unrevoked] at hrevoked
  cases hrevoked

theorem step_kept (hs : Inv s) (h : step service s act = some s') : Kept s s' := by
  unfold step at h
  cases hrun : act.run service s with
  | ok =>
    simp only [hrun] at h
    cases h
    exact act_kept hs hrun
  | error e =>
    simp only [hrun] at h
    cases h
    exact .refl hs

theorem grows_states (hs : Inv s) (acts : List Act) :
    (states (step service) s acts).Pairwise Grows :=
  pairwise_states (I := Inv) (R := Grows) (fun _ _ _ => Grows.trans)
    (fun _ _ _ hs _ h => ⟨(step_kept hs h).inv, (step_kept hs h).grows⟩) hs
    (along_of_forall (fun _ _ => trivial) _ acts)

theorem revoked_states (hs : Inv s) (h : Revoked service s token) (acts : List Act) :
    ∀ t ∈ states (step service) s acts, Revoked service t token :=
  fun _ ht => (invariant_states (I := fun t => Inv t ∧ Revoked service t token)
    (fun _ _ _ hs _ h => ⟨(step_kept hs.1 h).inv, hs.2.grows (step_kept hs.1 h).grows⟩) ⟨hs, h⟩
    (along_of_forall (fun _ _ => trivial) s acts) _ ht).2

/-- **A key never exceeds its account.** In every state of every run: a context that a token
authenticates as is contained in its live key and enabled account; every token of such a key
authenticates; the token that comes with a new key leads to it; and no token of a revoked key
authenticates again. -/
theorem contained (service : Service) (acts : List Act) :
    (∀ s ∈ states (step service) .empty acts, ∀ token now,
      (∀ context, (service.authenticateApiKey s token now).2 = some context →
        ∃ record account, Contained service s token now context record account) ∧
      ∀ record account, Good service s token now record account →
        ∃ context, (service.authenticateApiKey s token now).2 = some context) ∧
    (∀ s ∈ states (step service) .empty acts, ∀ context serviceAccountId body keyId secret now s',
      service.createApiKey s context serviceAccountId body keyId secret now = .ok s' →
        ∃ record, Issued service s' ("sk_scenara_" ++ keyId ++ "_" ++ secret) ⟨context.scope, keyId⟩
          serviceAccountId body record) ∧
    (∀ s ∈ states (step service) .empty acts, ∀ context keyId now s',
      service.revokeApiKey s context keyId now = .ok s' →
        ∀ token, TokenOf service s token ⟨context.scope, keyId⟩ →
          ∀ later, ∀ t ∈ states (step service) s' later, ∀ now,
            (service.authenticateApiKey t token now).2 = none) ∧
    (states (step service) .empty acts).Pairwise fun s t => ∀ token, Revoked service s token →
      ∀ now, (service.authenticateApiKey t token now).2 = none := by
  have hempty : Inv Repository.empty := fun _ _ h => nomatch h
  have hinv : ∀ s ∈ states (step service) .empty acts, Inv s :=
    invariant_states (fun _ _ _ hs _ h => (step_kept hs h).inv) hempty
      (along_of_forall (fun _ _ => trivial) _ acts)
  refine ⟨fun s hs token now => ⟨fun context => contained_of_authenticate, fun record account =>
    authenticates_of_good (hinv s hs)⟩, fun s _ context serviceAccountId body keyId secret now s' =>
    issued_of_createApiKey, fun s hs context keyId now s' hrevoke token htoken later t ht => ?_,
    (grows_states hempty acts).imp fun h token hrevoked => (hrevoked.grows h).not_authenticates⟩
  have hrun : (Act.revokeApiKey context keyId now).run service s = .ok s' := hrevoke
  have hs' : Inv s' := (act_kept (hinv s hs) hrun).inv
  exact (revoked_states hs' (revoked_of_revokeApiKey hrevoke htoken) later t ht).not_authenticates

end Scenara.Access
