import Scenara.Access.Directory
import Scenara.Core.Sorting
import Scenara.Core.Transition

/-!
# Who a user is in a project

* `find?_listUsers`, `find?_listMemberships`, `get?_listRoles`: what is searched for in a listing is
  what is stored under its key.
* `resolveUserContext_eq`: the code by what is stored. A project with members, none of them this
  user, makes it raise.
-/

namespace Scenara.Access.Directory

open Scenara.Core
open Release (Scope)

variable {provider : Provider} {s s' : Directory} {context : PrincipalContext} {now : ℚ}
  {tenantId projectId userId : String}
variable {e : AccessError × Directory} {membership : Membership}

/-! ## Listings -/

theorem mem_listUsers {user : UserAccount} : user ∈ s.listUsers tenantId ↔
    user.key.tenantId = tenantId ∧ s.users.get? user.key = some user := by
  rw [listUsers, mem_newest, List.mem_filter, Table.mem_values, decide_eq_true_eq, and_comm]

theorem mem_listRoles {role : Role} : role ∈ s.listRoles tenantId ↔
    role.key.tenantId = tenantId ∧ s.roles.get? role.key = some role := by
  rw [listRoles, mem_newest, List.mem_filter, Table.mem_values, decide_eq_true_eq, and_comm]

theorem mem_listMemberships {scope : Scope} : membership ∈ s.listMemberships scope ↔
      membership.key.scope = scope ∧ s.memberships.get? membership.key = some membership := by
  rw [listMemberships, mem_newest, List.mem_filter, Table.mem_values, decide_eq_true_eq, and_comm]

theorem find?_listUsers : (s.listUsers tenantId).find? (·.key.id = userId) =
    s.users.get? ⟨tenantId, userId⟩ := by
  cases hget : s.users.get? ⟨tenantId, userId⟩ with
  | none =>
    refine List.find?_eq_none.2 fun user hmem hid => ?_
    obtain ⟨htenant, hstored⟩ := mem_listUsers.1 hmem
    have hkey : user.key = ⟨tenantId, userId⟩ := by
      rw [← htenant, ← of_decide_eq_true hid]
    simp [hkey, hget] at hstored
  | some =>
    have hkey := Table.key_of_get? hget
    refine find?_of_alone (mem_listUsers.2 ⟨by rw [hkey], by rw [hkey]; exact hget⟩)
      (by simp [hkey]) fun other hmem hid => ?_
    obtain ⟨htenant, hstored⟩ := mem_listUsers.1 hmem
    have hother : other.key = ⟨tenantId, userId⟩ := by
      rw [← htenant, ← of_decide_eq_true hid]
    rw [hother, hget] at hstored
    exact (Option.some.inj hstored).symm

/-- The membership that a user works by in a project. -/
def membershipOf (s : Directory) (tenantId projectId userId : String) : Option Membership :=
  (s.memberships.get? ⟨⟨tenantId, projectId⟩, userId⟩).filter fun item =>
    item.principalType = .user

theorem find?_listMemberships : ((s.listMemberships ⟨tenantId, projectId⟩).find? fun item =>
    item.key.id = userId ∧ item.principalType = .user) =
      s.membershipOf tenantId projectId userId := by
  have hkeyed : ∀ item ∈ s.listMemberships ⟨tenantId, projectId⟩,
      (decide (item.key.id = userId ∧ item.principalType = .user)) = true →
        s.membershipOf tenantId projectId userId = some item := by
    intro item hmem hp
    obtain ⟨hscope, hstored⟩ := mem_listMemberships.1 hmem
    obtain ⟨hid, htype⟩ := of_decide_eq_true hp
    have hkey : item.key = ⟨⟨tenantId, projectId⟩, userId⟩ := by rw [← hscope, ← hid]
    rw [hkey] at hstored
    rw [membershipOf, hstored, Option.filter_some, if_pos (decide_eq_true htype)]
  cases hof : s.membershipOf tenantId projectId userId with
  | none =>
    refine List.find?_eq_none.2 fun item hmem hp => ?_
    simp [hkeyed item hmem hp] at hof
  | some =>
    obtain ⟨hget, htype⟩ := Option.filter_eq_some_iff.1 hof
    have hkey := Table.key_of_get? hget
    refine find?_of_alone (mem_listMemberships.2 ⟨by rw [hkey], by rw [hkey]; exact hget⟩)
      (by simpa [hkey] using htype) fun other hmem hp => ?_
    rw [hkeyed other hmem hp] at hof
    exact Option.some.inj hof

theorem listMemberships_isEmpty {scope : Scope} : (s.listMemberships scope).isEmpty = true ↔
    ∀ principalId, s.memberships.get? ⟨scope, principalId⟩ = none := by
  rw [List.isEmpty_iff, List.eq_nil_iff_forall_not_mem]
  constructor
  · intro h principalId
    cases hget : s.memberships.get? ⟨scope, principalId⟩ with
    | none => rfl
    | some membership =>
      have hkey := Table.key_of_get? hget
      exact absurd (mem_listMemberships.2 ⟨by rw [hkey], by rw [hkey]; exact hget⟩) (h membership)
  · intro h membership hmem
    obtain ⟨rfl, hstored⟩ := mem_listMemberships.1 hmem
    simp [h membership.key.id] at hstored

theorem get?_listRoles {roleId : String} :
    (Dict.insertAll (fun item => item.key.id) (s.listRoles tenantId) .empty).get? roleId =
      s.roles.get? ⟨tenantId, roleId⟩ := by
  rcases Dict.get?_insertAll (fun item => item.key.id) (s.listRoles tenantId) .empty roleId with
    ⟨hnot, hget⟩ | ⟨role, hmem, rfl, hget⟩
  · rw [hget, Dict.get?_empty]
    cases hstored : s.roles.get? ⟨tenantId, roleId⟩ with
    | none => rfl
    | some role =>
      have hkey := Table.key_of_get? hstored
      refine absurd (List.mem_map.2 ⟨role, mem_listRoles.2 ?_, by rw [hkey]⟩) hnot
      rw [hkey]
      exact ⟨rfl, hstored⟩
  · obtain ⟨rfl, hstored⟩ := mem_listRoles.1 hmem
    rw [hget, ← hstored]

/-! ## Roles of memberships -/

/-- The roles of every membership are stored. -/
def RolesStored (s : Directory) : Prop :=
  ∀ k membership, s.memberships.get? k = some membership → ∀ roleId ∈ membership.roleIds.set,
    (s.roles.get? ⟨k.scope.tenantId, roleId⟩).isSome

theorem rolesStored_of_eq (h : RolesStored s) (hroles : s'.roles = s.roles)
    (hmemberships : s'.memberships = s.memberships) : RolesStored s' := by
  unfold RolesStored
  rwa [hroles, hmemberships]

theorem reached_after {I : Directory → Prop} {x : Except (AccessError × Directory) Unit}
    {call : Call} (hs : I s) (hx : ∀ e, x = .error e → e.2 = s) (hcall : I (reached call)) :
    I (reached (x >>= fun _ => call)) := by
  cases x with
  | ok => exact hcall
  | error e =>
    have hs' := hx e rfl
    subst hs'
    exact hs

theorem authorize_error {action : String}
    (h : s.authorize provider context action = .error e) : e.2 = s := by
  unfold authorize at h
  cases hallowed : requireAllowed provider context action "iam" with
  | ok => rw [hallowed] at h; cases h
  | error => rw [hallowed] at h; cases h; rfl

theorem requireOrganization_error (h : s.requireOrganization tenantId = .error e) : e.2 = s := by
  unfold requireOrganization at h
  split at h <;> cases h
  rfl

theorem requireProject_error {scope : Scope} (h : s.requireProject scope = .error e) : e.2 = s := by
  unfold requireProject at h
  split at h <;> cases h
  rfl

theorem contextProjectId_error {requested : Option String}
    (h : s.contextProjectId context requested = .error e) : e.2 = s := by
  unfold contextProjectId at h
  split at h <;> cases h
  rfl

theorem reached_store {I : Directory → Prop} {c : Prop} [Decidable c] {error : AccessError}
    (hs : I s) (hstored : I s') :
    I (reached (if c then .error (error, s) else .ok s' : Call)) := by
  split
  · exact hs
  · exact hstored

theorem stored_createRole (h : RolesStored s) (role : Role) :
    RolesStored (reached (s.createRole role)) := by
  refine reached_store h fun k membership hk roleId hmem => ?_
  have hstored := h k membership hk roleId hmem
  rw [Table.get?_put]
  split
  · rfl
  · exact hstored

theorem stored_createMembership (h : RolesStored s) (hroles : ∀ roleId ∈ membership.roleIds.set,
      (s.roles.get? ⟨membership.key.scope.tenantId, roleId⟩).isSome) :
    RolesStored (reached (s.createMembership membership)) := by
  refine reached_store h fun k other hk => ?_
  rcases Table.get?_put_eq_some.1 hk with ⟨rfl, rfl⟩ | ⟨-, hk⟩
  · exact hroles
  · exact h k other hk

theorem act_stored (h : RolesStored s) (act : Act) :
    RolesStored (reached (act.run provider s context now)) := by
  cases act with
  | createOrganization =>
    refine reached_after h (fun _ => authorize_error) ?_
    exact reached_store h (rolesStored_of_eq h rfl rfl)
  | createProject =>
    refine reached_after h (fun _ => authorize_error) ?_
    refine reached_after h (fun _ => requireOrganization_error) ?_
    exact reached_store h (rolesStored_of_eq h rfl rfl)
  | createUser =>
    refine reached_after h (fun _ => authorize_error) ?_
    refine reached_after h (fun _ => requireOrganization_error) ?_
    refine reached_bind (R := fun a b => RolesStored a → RolesStored b)
      (fun _ _ _ hab hbc => hbc ∘ hab) (a := s) (fun h => ?_) (fun b _ hb => ?_) h
    · exact reached_store h (rolesStored_of_eq h rfl rfl)
    · split
      · exact reached_store hb (rolesStored_of_eq hb rfl rfl)
      · exact hb
  | setUserDisabled | setServiceAccountDisabled =>
    refine reached_after h (fun _ => authorize_error) ?_
    split
    · exact h
    · exact reached_store h (rolesStored_of_eq h rfl rfl)
  | createRole =>
    refine reached_after h (fun _ => authorize_error) ?_
    refine reached_after h (fun _ => requireOrganization_error) ?_
    exact stored_createRole h _
  | createMembership =>
    refine reached_after h (fun _ => authorize_error) ?_
    refine reached_after h (fun _ => contextProjectId_error) ?_
    refine reached_after h (fun _ => requireProject_error) ?_
    split
    · exact h
    · split
      · exact h
      · next hroles =>
        refine stored_createMembership h fun roleId hmem => ?_
        have hlisted := not_not.1 hroles hmem
        obtain ⟨_, hrole, rfl⟩ := List.mem_map.1 (List.mem_toFinset.1 hlisted)
        obtain ⟨htenant, hstored⟩ := mem_listRoles.1 hrole
        rw [← htenant, hstored]
        rfl
  | createServiceAccount =>
    refine reached_after h (fun _ => authorize_error) ?_
    refine reached_after h (fun _ => requireProject_error) ?_
    exact reached_store h (rolesStored_of_eq h rfl rfl)

theorem states_stored {calls : List (PrincipalContext × ℚ × Act)} {t : Directory}
    (ht : t ∈ states (step provider) .empty calls) : RolesStored t := by
  refine invariant_states (I := RolesStored) (P := fun _ _ => True) ?_ ?_
    (along_of_forall (fun _ _ => trivial) _ _) t ht
  · intro s call _ hs _ hstep
    cases hstep
    exact act_stored hs call.2.2
  · intro k _ hk
    exact absurd hk (by simp [empty])

/-! ## Who is resolved -/

/-- The user is there to be resolved. -/
def Enabled (s : Directory) (tenantId userId : String) : Prop :=
  ∃ user, s.users.get? ⟨tenantId, userId⟩ = some user ∧ user.disabled = false

/-- The user may work in the project, by that membership. -/
structure Member (s : Directory) (tenantId projectId userId : String) (membership : Membership) :
    Prop where
  user : s.Enabled tenantId userId
  stored : s.memberships.get? ⟨⟨tenantId, projectId⟩, userId⟩ = some membership
  ofUser : membership.principalType = .user

/-- The context of a membership: the unions over its roles, all of which are stored. -/
structure Granted (s : Directory) (tenantId projectId userId : String) (membership : Membership)
    (context : PrincipalContext) : Prop where
  scope : context.scope = ⟨tenantId, projectId⟩
  principalId : context.principalId = userId
  stored : ∀ roleId ∈ membership.roleIds.set, ∃ role, s.roles.get? ⟨tenantId, roleId⟩ = some role
  scopes : ∀ x, x ∈ context.scopes ↔ ∃ roleId ∈ membership.roleIds.set, ∃ role,
    s.roles.get? ⟨tenantId, roleId⟩ = some role ∧ x ∈ role.scopes.set
  productIds : ∀ x, x ∈ context.productIds ↔ ∃ roleId ∈ membership.roleIds.set, ∃ role,
    s.roles.get? ⟨tenantId, roleId⟩ = some role ∧ x ∈ role.productIds

/-- Users of the project are resolved to what they are granted, others to nothing. -/
def Resolves (s : Directory) (tenantId projectId userId : String) : Prop :=
  (∃ membership context, s.Member tenantId projectId userId membership ∧
      s.Granted tenantId projectId userId membership context ∧
      s.resolveUserContext tenantId projectId userId = .ok (some context)) ∨
    (∀ membership, ¬s.Member tenantId projectId userId membership) ∧
      s.resolveUserContext tenantId projectId userId = .ok none

theorem membershipOf_eq_some : s.membershipOf tenantId projectId userId = some membership ↔
      s.memberships.get? ⟨⟨tenantId, projectId⟩, userId⟩ = some membership ∧
        membership.principalType = .user := by
  rw [membershipOf, Option.filter_eq_some_iff, decide_eq_true_eq]

theorem mem_ofRoles {f : Role → Finset String} {roleIds : Finset String} {x : String} :
    x ∈ ofRoles (Dict.insertAll (fun item => item.key.id) (s.listRoles tenantId) .empty) f roleIds ↔
      ∃ roleId ∈ roleIds, ∃ role, s.roles.get? ⟨tenantId, roleId⟩ = some role ∧ x ∈ f role := by
  rw [ofRoles, Finset.mem_biUnion]
  refine exists_congr fun roleId => and_congr_right fun _ => ?_
  rw [get?_listRoles]
  cases s.roles.get? ⟨tenantId, roleId⟩ <;> simp

/-- The context that the code makes of a membership. -/
def contextOf (s : Directory) (tenantId projectId userId : String) (membership : Membership) :
    PrincipalContext :=
  let roles := Dict.insertAll (fun item => item.key.id) (s.listRoles tenantId) .empty
  { scope := ⟨tenantId, projectId⟩
    principalId := userId
    scopes := ofRoles roles (fun role => role.scopes.set) membership.roleIds.set
    productIds := ofRoles roles Role.productIds membership.roleIds.set }

theorem granted_contextOf (hs : RolesStored s)
    (hmember : s.Member tenantId projectId userId membership) :
    s.Granted tenantId projectId userId membership
      (s.contextOf tenantId projectId userId membership) where
  scope := rfl
  principalId := rfl
  stored roleId hmem := Option.isSome_iff_exists.1 (hs _ _ hmember.stored roleId hmem)
  scopes _ := mem_ofRoles
  productIds _ := mem_ofRoles

/-- The project has a membership, of whatever principal. -/
def HasMember (s : Directory) (tenantId projectId : String) : Prop :=
  ∃ principalId, (s.memberships.get? ⟨⟨tenantId, projectId⟩, principalId⟩).isSome

/-- The user is a member of the project. -/
def HasUser (s : Directory) (tenantId projectId userId : String) : Prop :=
  ∃ membership, s.memberships.get? ⟨⟨tenantId, projectId⟩, userId⟩ = some membership ∧
    membership.principalType = .user

theorem resolveUserContext_of_not_enabled (h : ¬s.Enabled tenantId userId) :
    s.resolveUserContext tenantId projectId userId = .ok none := by
  unfold resolveUserContext
  rw [find?_listUsers]
  cases hget : s.users.get? ⟨tenantId, userId⟩ with
  | none => rfl
  | some user =>
    have hdisabled : user.disabled = true := by
      rw [← Bool.not_eq_false]
      exact fun hfalse => h ⟨user, hget, hfalse⟩
    simp [hdisabled]

theorem resolveUserContext_of_enabled (h : s.Enabled tenantId userId) :
    s.resolveUserContext tenantId projectId userId =
      if (s.listMemberships ⟨tenantId, projectId⟩).isEmpty then .ok none
      else match s.membershipOf tenantId projectId userId with
        | some membership => .ok (some (s.contextOf tenantId projectId userId membership))
        | none => .error (.runtimeError "coroutine raised StopIteration") := by
  obtain ⟨_, hget, henabled⟩ := h
  unfold resolveUserContext
  rw [find?_listUsers, hget]
  simp only [henabled, Bool.false_eq_true, if_false, next]
  rw [find?_listMemberships]
  cases s.membershipOf tenantId projectId userId <;> rfl

theorem hasMember_iff : s.HasMember tenantId projectId ↔
    (s.listMemberships ⟨tenantId, projectId⟩).isEmpty = false := by
  rw [← Bool.not_eq_true, listMemberships_isEmpty, not_forall]
  exact exists_congr fun _ => Option.isSome_iff_ne_none

theorem resolveUserContext_raises :
    (∃ e, s.resolveUserContext tenantId projectId userId = .error e) ↔
    s.Enabled tenantId userId ∧ s.HasMember tenantId projectId ∧
      ¬s.HasUser tenantId projectId userId := by
  by_cases henabled : s.Enabled tenantId userId
  · rw [resolveUserContext_of_enabled henabled, hasMember_iff]
    cases (s.listMemberships ⟨tenantId, projectId⟩).isEmpty with
    | true => simp
    | false =>
      cases hof : s.membershipOf tenantId projectId userId with
      | some membership =>
        have huser : s.HasUser tenantId projectId userId := ⟨membership, membershipOf_eq_some.1 hof⟩
        simp [huser]
      | none =>
        have huser : ¬s.HasUser tenantId projectId userId := fun ⟨membership, h⟩ => by
          simp [membershipOf_eq_some.2 h] at hof
        simp [huser, henabled]
  · rw [resolveUserContext_of_not_enabled henabled]
    simp [henabled]

theorem resolves_iff (hs : RolesStored s) : Resolves s tenantId projectId userId ↔
    (s.Enabled tenantId userId → s.HasMember tenantId projectId →
      s.HasUser tenantId projectId userId) := by
  constructor
  · intro h henabled hmember
    by_contra huser
    obtain ⟨e, he⟩ := resolveUserContext_raises.2 ⟨henabled, hmember, huser⟩
    rcases h with ⟨_, _, -, -, hok⟩ | ⟨-, hok⟩ <;> rw [hok] at he <;> cases he
  · intro h
    by_cases henabled : s.Enabled tenantId userId
    · have hcode : s.resolveUserContext tenantId projectId userId = _ :=
        resolveUserContext_of_enabled henabled
      cases hof : s.membershipOf tenantId projectId userId with
      | some membership =>
        obtain ⟨hstored, hofUser⟩ := membershipOf_eq_some.1 hof
        have hmember : s.Member tenantId projectId userId membership := ⟨henabled, hstored, hofUser⟩
        have hlisted : (s.listMemberships ⟨tenantId, projectId⟩).isEmpty = false :=
          hasMember_iff.1 ⟨userId, by rw [hstored]; rfl⟩
        rw [hlisted, hof] at hcode
        exact .inl ⟨membership, _, hmember, granted_contextOf hs hmember, hcode⟩
      | none =>
        have hno : ¬s.HasUser tenantId projectId userId := fun ⟨membership, hm⟩ => by
          simp [membershipOf_eq_some.2 hm] at hof
        have hlisted : (s.listMemberships ⟨tenantId, projectId⟩).isEmpty = true := by
          rw [← Bool.not_eq_false, ← hasMember_iff]
          exact fun hmember => hno (h henabled hmember)
        rw [hlisted] at hcode
        exact .inr ⟨fun membership hm => hno ⟨membership, hm.stored, hm.ofUser⟩, hcode⟩
    · exact .inr ⟨fun _ hm => henabled hm.user, resolveUserContext_of_not_enabled henabled⟩

/-- **User resolution**, in every state of every run: a user of the project is resolved to what the
roles of the membership grant and everyone else to nothing, exactly when the project has no member
or the user is one of them, or unknown or disabled. -/
theorem resolved_iff (provider : Provider) (calls : List (PrincipalContext × ℚ × Act)) :
    ∀ t ∈ states (step provider) .empty calls, ∀ tenantId projectId userId : String,
      Resolves t tenantId projectId userId ↔ (t.Enabled tenantId userId →
        t.HasMember tenantId projectId → t.HasUser tenantId projectId userId) :=
  fun _ ht _ _ _ => resolves_iff (states_stored ht)

/-- Everything is allowed. -/
def allowAll : Provider := fun _ _ _ => none

/-- One who may do everything. -/
def root : PrincipalContext := ⟨⟨"acme", "console"⟩, "root", {"*"}, {"*"}⟩

/-- Two users, of whom one is made a member. -/
def oneMember : List (PrincipalContext × ℚ × Act) :=
  [(root, 0, .createOrganization "Acme"), (root, 1, .createProject none "Console"),
   (root, 2, .createUser ⟨some "ann", "Ann", none, none, none⟩ "" ""),
   (root, 3, .createUser ⟨some "bob", "Bob", none, none, none⟩ "" ""),
   (root, 4, .createRole ⟨some "viewer", "Viewer", ⟨{"run:read"}, by simp⟩, {"parse"}⟩ ""),
   (root, 5, .createMembership ⟨none, "ann", .user, ⟨{"viewer"}, by simp⟩⟩)]

theorem wrong_project_raises : ∃ t ∈ states (step allowAll) .empty oneMember,
    ∃ e, t.resolveUserContext "acme" "console" "bob" = .error e := by
  have hrun : (exec (step allowAll) .empty oneMember).any (fun t =>
      match t.resolveUserContext "acme" "console" "bob" with
      | .ok _ => false
      | .error _ => true) = true := by decide +kernel
  obtain ⟨t, ht, hraises⟩ := (Option.any_eq_true _ _).1 hrun
  refine ⟨t, mem_states_of_exec ht, ?_⟩
  split at hraises
  · cases hraises
  · exact ⟨_, ‹_›⟩

theorem not_resolved : ¬∀ (provider : Provider) (calls : List (PrincipalContext × ℚ × Act)),
    ∀ t ∈ states (step provider) .empty calls, ∀ tenantId projectId userId : String,
      Resolves t tenantId projectId userId := by
  intro h
  obtain ⟨t, ht, e, he⟩ := wrong_project_raises
  rcases h _ _ t ht "acme" "console" "bob" with ⟨_, _, -, -, hok⟩ | ⟨-, hok⟩ <;>
    rw [hok] at he <;> cases he

/-- The member is resolved, with what the role grants. -/
theorem resolved_iff_ann : ∃ t ∈ states (step allowAll) .empty oneMember, ∃ context,
    t.resolveUserContext "acme" "console" "ann" = .ok (some context) ∧
      context.scopes = {"run:read"} ∧ context.productIds = {"parse"} ∧
        Resolves t "acme" "console" "ann" := by
  have hrun : (exec (step allowAll) .empty oneMember).any (fun t =>
      (t.membershipOf "acme" "console" "ann").isSome &&
        (t.resolveUserContext "acme" "console" "ann").toOption.join.any fun context =>
          context.scopes = {"run:read"} ∧ context.productIds = {"parse"}) = true := by
    decide +kernel
  obtain ⟨t, ht, hresolved⟩ := (Option.any_eq_true _ _).1 hrun
  obtain ⟨hmember, hcontext⟩ := Bool.and_eq_true_iff.1 hresolved
  obtain ⟨membership, hof⟩ := Option.isSome_iff_exists.1 hmember
  obtain ⟨context, hjoin, hgrants⟩ := (Option.any_eq_true _ _).1 hcontext
  obtain ⟨hscopes, hproducts⟩ := of_decide_eq_true hgrants
  refine ⟨t, mem_states_of_exec ht, context, ?_, hscopes, hproducts,
    (resolved_iff allowAll oneMember t (mem_states_of_exec ht) "acme" "console" "ann").2
      fun _ _ => ⟨membership, membershipOf_eq_some.1 hof⟩⟩
  cases h : t.resolveUserContext "acme" "console" "ann" with
  | error =>
    rw [h] at hjoin
    cases hjoin
  | ok =>
    rw [h] at hjoin
    exact congrArg _ hjoin

/-! ## Login -/

/-- The password is that of the user. -/
def Verified (verifyPassword : String → String → Bool) (s : Directory)
    (tenantId userId password : String) : Prop :=
  ∃ credential, s.userCredentials.get? ⟨tenantId, userId⟩ = some credential ∧
    verifyPassword password credential.passwordHash = true

theorem authenticateUser_eq (verifyPassword : String → String → Bool) (s : Directory)
    (tenantId projectId userId password : String) :
    (s.Verified verifyPassword tenantId userId password ∧
        authenticateUser verifyPassword s userId password tenantId projectId =
          s.resolveUserContext tenantId projectId userId) ∨
      ¬s.Verified verifyPassword tenantId userId password ∧
        authenticateUser verifyPassword s userId password tenantId projectId = .ok none := by
  by_cases hverified : s.Verified verifyPassword tenantId userId password
  · refine .inl ⟨hverified, ?_⟩
    obtain ⟨_, hget, hverify⟩ := hverified
    unfold authenticateUser
    rw [hget, find?_listUsers]
    by_cases henabled : s.Enabled tenantId userId
    · obtain ⟨user, huser, hdisabled⟩ := henabled
      simp [huser, hdisabled, hverify]
    · rw [resolveUserContext_of_not_enabled henabled]
      cases huser : s.users.get? ⟨tenantId, userId⟩ with
      | none => rfl
      | some user =>
        have hdisabled : user.disabled = true := by
          rw [← Bool.not_eq_false]
          exact fun hfalse => henabled ⟨user, huser, hfalse⟩
        simp
  · refine .inr ⟨hverified, ?_⟩
    unfold authenticateUser
    split
    · rfl
    · split
      · rfl
      · split
        · rfl
        · next credential hget =>
          rw [if_pos fun hverify => hverified ⟨credential, hget, hverify⟩]

/-- A login raises exactly for a right password of someone who is not a member among members. -/
theorem authenticateUser_raises {verifyPassword : String → String → Bool} {password : String} :
    (∃ e, authenticateUser verifyPassword s userId password tenantId projectId = .error e) ↔
      s.Verified verifyPassword tenantId userId password ∧ s.Enabled tenantId userId ∧
        s.HasMember tenantId projectId ∧ ¬s.HasUser tenantId projectId userId := by
  rw [← resolveUserContext_raises]
  rcases authenticateUser_eq verifyPassword s tenantId projectId userId password with
    ⟨hverified, heq⟩ | ⟨hverified, heq⟩
  all_goals simp [heq, hverified]

end Scenara.Access.Directory
