import Scenara.Core.Raising
import Scenara.Core.Transition
import Scenara.Release.Model

/-!
# One live model for each capability

`transition_release` retires the first other ACTIVE release it meets in the scope and capability of
the one it activates. `create_release` looks at nothing but the key.
-/

namespace Scenara.Release

open Scenara.Core

variable {repo : Repository} {key k : Key} {r current : ModelRelease} {target : ModelReleaseStatus}
  {rollback : Bool} {now : ℚ} {out : Transitioned} {scope : Scope} {capability : String}

/-! ## Live releases -/

/-- The release is stored, and ACTIVE for the capability. -/
structure Live (repo : Repository) (scope : Scope) (capability : String) (r : ModelRelease) :
    Prop where
  stored : repo.releases.get? r.key = some r
  scope_eq : r.key.scope = scope
  capability_eq : r.capability = capability
  active : r.status = .active

/-- **At most one release is live** for a tenant, project and capability. -/
def OneLive (repo : Repository) : Prop :=
  ∀ {scope capability r r'}, Live repo scope capability r → Live repo scope capability r' → r = r'

/-- An ACTIVE release is not created beside another one of its scope and capability. -/
def Creatable (repo : Repository) : Act → Prop
  | .create release => repo.releases.get? release.key = none → release.status = .active →
      ∀ r, ¬Live repo release.key.scope release.capability r
  | .transition .. => True

/-- A call always ends. -/
def step (repo : Repository) (a : Act) : Option Repository := some (apply repo a)

theorem oneLive_empty : OneLive .empty := fun h => by cases h.stored

theorem get?_put (release : ModelRelease) :
    (repo.put release).releases.get? k = if k = release.key then some release
      else repo.releases.get? k :=
  Dict.get?_insert _ _ _ _

theorem live_put {release : ModelRelease} : Live (repo.put release) scope capability r ↔
    r = release ∧ release.key.scope = scope ∧ release.capability = capability ∧
      release.status = .active ∨ r.key ≠ release.key ∧ Live repo scope capability r := by
  constructor
  · rintro ⟨hstored, hscope, hcapability, hactive⟩
    rw [get?_put] at hstored
    split at hstored
    · obtain rfl := Option.some.inj hstored
      exact .inl ⟨rfl, hscope, hcapability, hactive⟩
    · rename_i hne
      exact .inr ⟨hne, hstored, hscope, hcapability, hactive⟩
  · rintro (⟨rfl, hscope, hcapability, hactive⟩ | ⟨hne, hstored, hscope, hcapability, hactive⟩)
    · exact ⟨by rw [get?_put, if_pos rfl], hscope, hcapability, hactive⟩
    · exact ⟨by rw [get?_put, if_neg hne, hstored], hscope, hcapability, hactive⟩

/-! ## Transitions -/

theorem superseded_eq_some (h : repo.superseded key capability = some r) :
    Live repo key.scope capability r ∧ r.key ≠ key := by
  obtain ⟨⟨k, _⟩, hfind, rfl⟩ := Option.map_eq_some_iff.1 h
  have hstored := (Dict.mem_entries _ _ _).1 (List.mem_of_find?_eq_some hfind)
  have hp := List.find?_some hfind
  simp only [Bool.and_eq_true, decide_eq_true_eq] at hp
  obtain ⟨⟨⟨hscope, hcapability⟩, hactive⟩, hne⟩ := hp
  have hk := repo.keyed hstored
  exact ⟨⟨hk ▸ hstored, hk ▸ hscope, hcapability, hactive⟩, hk ▸ hne⟩

theorem superseded_eq_none (h : repo.superseded key capability = none)
    (hr : Live repo key.scope capability r) : r.key = key := by
  unfold Repository.superseded at h
  rw [Option.map_eq_none_iff, List.find?_eq_none] at h
  have hno := h (r.key, r) ((Dict.mem_entries _ _ _).2 hr.stored)
  simpa [hr.scope_eq, hr.capability_eq, hr.active] using hno

theorem transitionRelease_eq_ok (h : repo.transitionRelease key target rollback now = .ok out) :
    ∃ current, repo.releases.get? key = some current ∧
      validateReleaseTransition current.status target rollback = .ok () ∧
      out.updated = current.moveTo target now ∧
      out.previous = (if target = .active then
        (repo.superseded key current.capability).map fun other => other.retire now else none) ∧
      out.repo = (out.previous.elim repo repo.put).put out.updated := by
  unfold Repository.transitionRelease at h
  split at h
  · cases h
  rename_i current hcurrent
  obtain ⟨u, hvalid, hout⟩ := bind_eq_ok.1 h
  refine ⟨current, hcurrent, hvalid, ?_⟩
  cases hout
  exact ⟨rfl, rfl, rfl⟩

/-- **What a transition does.** The release has the new status; a live release of its scope and
capability is retired and returned, if the new status is ACTIVE and there is one; every other
release stays. -/
structure Supersedes (repo : Repository) (key : Key) (target : ModelReleaseStatus) (now : ℚ)
    (out : Transitioned) : Prop where
  updated : out.repo.releases.get? key = some out.updated
  status : out.updated.status = target
  previous : ∀ p, out.previous = some p ↔ target = .active ∧
    ∃ r, Live repo key.scope out.updated.capability r ∧ r.key ≠ key ∧ p = r.retire now
  retired : ∀ p, out.previous = some p → out.repo.releases.get? p.key = some p
  others : ∀ k, k ≠ key → (∀ p, out.previous = some p → k ≠ p.key) →
    out.repo.releases.get? k = repo.releases.get? k
  foreign : ∀ k r, repo.releases.get? k = some r →
    k.scope ≠ key.scope ∨ r.capability ≠ out.updated.capability →
    out.repo.releases.get? k = some r

theorem previous_eq_some_iff (hone : OneLive repo)
    (h : repo.transitionRelease key target rollback now = .ok out) (p : ModelRelease) :
    out.previous = some p ↔ target = .active ∧
      ∃ r, Live repo key.scope out.updated.capability r ∧ r.key ≠ key ∧ p = r.retire now := by
  obtain ⟨current, -, -, hupdated, hprevious, -⟩ := transitionRelease_eq_ok h
  rw [hprevious, hupdated]
  by_cases htarget : target = .active
  · rw [if_pos htarget, Option.map_eq_some_iff]
    constructor
    · rintro ⟨r, hr, rfl⟩
      obtain ⟨hlive, hne⟩ := superseded_eq_some hr
      exact ⟨htarget, r, hlive, hne, rfl⟩
    · rintro ⟨-, r, hlive, hne, rfl⟩
      cases hsuperseded : repo.superseded key current.capability with
      | none => exact absurd (superseded_eq_none hsuperseded hlive) hne
      | some r' => exact ⟨r', rfl, by rw [hone hlive (superseded_eq_some hsuperseded).1]⟩
  · rw [if_neg htarget]
    simp [htarget]

section

variable (h : repo.transitionRelease key target rollback now = .ok out)
include h

theorem previous_key {p : ModelRelease} (hp : out.previous = some p) : ∃ r, Live repo key.scope
      out.updated.capability r ∧ r.key ≠ key ∧ p = r.retire now := by
  obtain ⟨_, -, -, hupdated, hprevious, -⟩ := transitionRelease_eq_ok h
  rw [hprevious] at hp
  split at hp
  · obtain ⟨r, hr, rfl⟩ := Option.map_eq_some_iff.1 hp
    obtain ⟨hlive, hne⟩ := superseded_eq_some hr
    rw [hupdated]
    exact ⟨r, hlive, hne, rfl⟩
  · cases hp

theorem updated_key : out.updated.key = key := by
  obtain ⟨current, hcurrent, -, hupdated, -⟩ := transitionRelease_eq_ok h
  rw [hupdated]
  exact (repo.keyed hcurrent : current.key = key)

theorem updated_status : out.updated.status = target := by
  obtain ⟨_, -, -, hupdated, -⟩ := transitionRelease_eq_ok h
  rw [hupdated]
  rfl

theorem get?_transition : out.repo.releases.get? k = if k = key then some out.updated
      else if ∃ p, out.previous = some p ∧ k = p.key then out.previous
      else repo.releases.get? k := by
  obtain ⟨_, -, -, -, -, hrepo⟩ := transitionRelease_eq_ok h
  rw [hrepo, get?_put, updated_key h]
  split
  · rfl
  · cases out.previous with
    | none => simp
    | some p =>
      rw [Option.elim_some, get?_put]
      simp

end

theorem supersedes_of_transition (hone : OneLive repo)
    (h : repo.transitionRelease key target rollback now = .ok out) :
    Supersedes repo key target now out where
  updated := by rw [get?_transition h, if_pos rfl]
  status := updated_status h
  previous := previous_eq_some_iff hone h
  retired p hp := by
    obtain ⟨r, -, hne, rfl⟩ := previous_key h hp
    have hkey : (r.retire now).key ≠ key := hne
    rw [get?_transition h, if_neg hkey, if_pos ⟨_, hp, rfl⟩, hp]
  others k hk hprevious := by
    have hno : ¬∃ p, out.previous = some p ∧ k = p.key := fun ⟨p, hp, heq⟩ => hprevious p hp heq
    rw [get?_transition h, if_neg hk, if_neg hno]
  foreign k r hr hforeign := by
    obtain ⟨_, hcurrent, -, hupdated, -⟩ := transitionRelease_eq_ok h
    have hk : k ≠ key := fun heq => by
      rw [heq, hcurrent] at hr
      obtain rfl := Option.some.inj hr
      rw [heq, hupdated] at hforeign
      exact hforeign.elim (fun hne => hne rfl) fun hne => hne rfl
    have hno : ¬∃ p, out.previous = some p ∧ k = p.key := fun ⟨p, hp, heq⟩ => by
      obtain ⟨other, hlive, -, rfl⟩ := previous_key h hp
      have hkey : k = other.key := heq
      rw [hkey, hlive.stored] at hr
      obtain rfl := Option.some.inj hr
      rw [hkey] at hforeign
      exact hforeign.elim (fun hne => hne hlive.scope_eq) fun hne => hne hlive.capability_eq
    rw [get?_transition h, if_neg hk, if_neg hno, hr]

/-! ## One step -/

theorem oneLive_transition (hone : OneLive repo)
    (h : repo.transitionRelease key target rollback now = .ok out) : OneLive out.repo := by
  have hspec := supersedes_of_transition hone h
  -- A live release is the one just activated, or was live before and is not the one retired.
  have hback : ∀ {scope capability r}, Live out.repo scope capability r →
      r = out.updated ∨ r.key ≠ key ∧ Live repo scope capability r ∧
        ∀ p, out.previous = some p → r.key ≠ p.key := fun {scope capability r} hr => by
    by_cases hk : r.key = key
    · have hstored := hr.stored
      rw [hk, hspec.updated] at hstored
      exact .inl (Option.some.inj hstored).symm
    · have hretired : ∀ p, out.previous = some p → r.key ≠ p.key := fun p hp heq => by
        have hstored := hr.stored
        rw [heq, hspec.retired p hp] at hstored
        obtain rfl := Option.some.inj hstored
        obtain ⟨-, _, -, -, rfl⟩ := (hspec.previous _).1 hp
        cases hr.active
      have hstored := hr.stored
      rw [hspec.others _ hk hretired] at hstored
      exact .inr ⟨hk, ⟨hstored, hr.scope_eq, hr.capability_eq, hr.active⟩, hretired⟩
  -- The one just activated has retired every other live release of its capability.
  have honly : ∀ {scope capability r}, Live out.repo scope capability out.updated →
      r.key ≠ key → Live repo scope capability r →
      ¬∀ p, out.previous = some p → r.key ≠ p.key :=
        fun {scope capability r} hu hk hr hretired => by
    have htarget : target = .active := hspec.status.symm.trans hu.active
    have hscope : key.scope = scope := by rw [← updated_key h, hu.scope_eq]
    rw [← hscope, ← hu.capability_eq] at hr
    exact hretired _ ((hspec.previous _).2 ⟨htarget, r, hr, hk, rfl⟩) rfl
  intro _ _ r _ hr hr'
  rcases hback hr with rfl | ⟨hk, hlive, hretired⟩ <;>
    rcases hback hr' with rfl | ⟨hk', hlive', hretired'⟩
  · rfl
  · exact absurd hretired' (honly hr hk' hlive')
  · exact absurd hretired (honly hr' hk hlive)
  · exact hone hlive hlive'

theorem oneLive_create_iff {release : ModelRelease} (hone : OneLive repo)
    (hnew : repo.releases.get? release.key = none) : OneLive (repo.put release) ↔
      (release.status = .active → ∀ r, ¬Live repo release.key.scope release.capability r) := by
  have hother : ∀ {scope capability r}, Live repo scope capability r → r.key ≠ release.key :=
    fun hr heq => by
      simp [← heq, hr.stored] at hnew
  constructor
  · intro h hactive r hr
    have heq := h (live_put.2 (.inl ⟨rfl, rfl, rfl, hactive⟩)) (live_put.2 (.inr ⟨hother hr, hr⟩))
    exact hother hr (congrArg ModelRelease.key heq).symm
  · intro h _ _ r _ hr hr'
    rcases live_put.1 hr with ⟨rfl, hscope, hcapability, hactive⟩ | ⟨-, hlive⟩ <;>
      rcases live_put.1 hr' with ⟨rfl, hscope', hcapability', hactive'⟩ | ⟨-, hlive'⟩
    · rfl
    · subst hscope hcapability
      exact absurd hlive' (h hactive _)
    · subst hscope' hcapability'
      exact absurd hlive (h hactive' _)
    · exact hone hlive hlive'

theorem oneLive_apply_iff (hone : OneLive repo) (a : Act) :
    OneLive (apply repo a) ↔ Creatable repo a := by
  cases a with
  | create release =>
    dsimp only [apply, Creatable, Repository.createRelease]
    cases hget : repo.releases.get? release.key with
    | none =>
      exact (oneLive_create_iff hone hget).trans ⟨fun h _ => h, fun h => h rfl⟩
    | some r =>
      exact iff_of_true hone nofun
  | transition key target rollback now =>
    refine iff_of_true ?_ trivial
    dsimp only [apply]
    cases h : repo.transitionRelease key target rollback now with
    | error e => exact hone
    | ok => exact oneLive_transition hone h

theorem oneLive_states_iff (acts : List Act) :
    (∀ repo ∈ states step .empty acts, OneLive repo) ↔ Along step Creatable .empty acts :=
  states_iff (I := OneLive) (P := Creatable) (fun _ _ h => by cases h)
    (fun repo a repo' hone h => by
      obtain rfl := Option.some.inj h
      exact oneLive_apply_iff hone a) oneLive_empty

/-- Releases that are created CANDIDATE, as `FeedbackService.create_release` does, are never created
beside another. -/
theorem along_of_candidates (acts : List Act)
    (h : acts.all fun | .create release => release.status ≠ .active | .transition .. => true)
    (repo : Repository) : Along step Creatable repo acts := by
  induction acts generalizing repo with
  | nil => trivial
  | cons a _ ih =>
    rw [List.all_cons, Bool.and_eq_true] at h
    refine ⟨?_, fun repo' _ => ih h.2 repo'⟩
    cases a with
    | create => exact fun _ hactive => absurd hactive (by simpa using h.1)
    | transition => trivial

/-! ## Runtime bindings -/

theorem mem_listReleases :
    r ∈ repo.listReleases scope ↔ repo.releases.get? r.key = some r ∧ r.key.scope = scope := by
  unfold Repository.listReleases
  rw [List.mem_insertionSort, List.mem_map]
  constructor
  · rintro ⟨⟨k, r⟩, hmem, rfl⟩
    obtain ⟨hentry, hscope⟩ := List.mem_filter.1 hmem
    have hstored := (Dict.mem_entries _ _ _).1 hentry
    have hk : r.key = k := repo.keyed hstored
    subst hk
    exact ⟨hstored, by simpa using hscope⟩
  · rintro ⟨hstored, hscope⟩
    exact ⟨(r.key, r), List.mem_filter.2
      ⟨(Dict.mem_entries _ _ _).2 hstored, by simpa using hscope⟩, rfl⟩

theorem nodup_listReleases : (repo.listReleases scope).Nodup := by
  refine (List.perm_insertionSort _ _).nodup_iff.2 ?_
  refine List.Nodup.of_map ModelRelease.key ?_
  rw [List.map_map]
  have hkeys : ((repo.releases.entries.filter fun e => e.1.scope = scope).map
      (ModelRelease.key ∘ Prod.snd)) =
      (repo.releases.entries.filter fun e => e.1.scope = scope).map Prod.fst :=
    List.map_congr_left fun e he =>
      repo.keyed ((Dict.mem_entries _ _ _).1 (List.mem_of_mem_filter he))
  rw [hkeys]
  exact repo.releases.nodup.sublist (List.filter_sublist.map _)

theorem bound_of_addBinding {packages : Dict (String × String × String) ModelPackage}
    {bindings bindings' : Dict String RuntimeModelBinding}
    (h : addBinding packages bindings r = .ok bindings') (hget : bindings'.get? capability ≠ none) :
    bindings.get? capability ≠ none ∨ r.capability = capability ∧ r.status = .active := by
  unfold addBinding at h
  split at h
  · cases h
    exact .inl hget
  rename_i hactive
  split at h
  · cases h
  split_ifs at h
  · cases h
    exact .inl hget
  · cases h
    rw [Dict.get?_insert] at hget
    split at hget
    · rename_i heq
      exact .inr ⟨heq.symm, not_not.1 hactive⟩
    · exact .inl hget

theorem active_of_multiple {packages : Dict (String × String × String) ModelPackage}
    {bindings : Dict String RuntimeModelBinding}
    (h : addBinding packages bindings r = .error multipleActive) :
    r.status = .active ∧ bindings.get? r.capability ≠ none := by
  unfold addBinding at h
  split at h
  · cases h
  rename_i hactive
  split at h
  · simp [multipleActive] at h
  split_ifs at h
  rename_i hbound
  exact ⟨not_not.1 hactive, by simpa [Option.isSome_iff_ne_none] using hbound⟩

theorem bindings_of_oneLive (hone : OneLive repo) (packages : List ModelPackage) (scope : Scope) :
    activeRuntimeBindings packages repo scope ≠ .error multipleActive := by
  intro h
  obtain ⟨pre, x, _, bindings, hlist, hpre, hx⟩ := error_foldlM h
  obtain ⟨hactive, hbound⟩ := active_of_multiple hx
  have hearlier : ∃ y ∈ pre, y.capability = x.capability ∧ y.status = .active :=
    ok_foldlM (I := fun done bindings => ∀ capability, Dict.get? bindings capability ≠ none →
        ∃ y ∈ done, ModelRelease.capability y = capability ∧ y.status = .active) pre
      (fun done y _ _ _ ih hy capability hget => by
        rcases bound_of_addBinding hy hget with hget | hy
        · obtain ⟨z, hz, hlive⟩ := ih capability hget
          exact ⟨z, List.mem_append_left _ hz, hlive⟩
        · exact ⟨y, by simp, hy⟩)
      (fun capability hget => absurd rfl hget) hpre x.capability hbound
  obtain ⟨y, hy, hcapability, hyactive⟩ := hearlier
  have hlive : ∀ r ∈ repo.listReleases scope, r.capability = x.capability → r.status = .active →
      Live repo scope x.capability r := fun r hr hc ha =>
    ⟨(mem_listReleases.1 hr).1, (mem_listReleases.1 hr).2, hc, ha⟩
  have hyx : y = x := hone
    (hlive y (by rw [hlist]; exact List.mem_append_left _ hy) hcapability hyactive)
    (hlive x (by rw [hlist]; simp) rfl hactive)
  have hnodup : (repo.listReleases scope).Nodup := nodup_listReleases
  rw [hlist] at hnodup
  exact List.disjoint_of_nodup_append hnodup (hyx ▸ hy) List.mem_cons_self

theorem get?_createRelease {release : ModelRelease} {repo' : Repository}
    (h : repo.createRelease release = .ok repo') :
    ∀ k, k ≠ release.key → repo'.releases.get? k = repo.releases.get? k := by
  unfold Repository.createRelease at h
  split at h
  · cases h
  · cases h
    intro k hk
    rw [get?_put, if_neg hk]

/-- **One live model for each capability**, in every state of a run that creates no ACTIVE release
beside another: at most one release is live, a transition returns the one it supersedes and leaves
the others alone, creating one leaves the others alone, and no capability has two bindings. -/
theorem one_live_states (acts : List Act) (h : Along step Creatable .empty acts) :
    ∀ repo ∈ states step .empty acts, OneLive repo ∧
      (∀ key target rollback now out,
        repo.transitionRelease key target rollback now = .ok out →
        Supersedes repo key target now out) ∧
      (∀ release repo', repo.createRelease release = .ok repo' →
        ∀ k, k ≠ release.key → repo'.releases.get? k = repo.releases.get? k) ∧
      ∀ packages scope, activeRuntimeBindings packages repo scope ≠ .error multipleActive := by
  intro repo hrepo
  have hone : OneLive repo := (oneLive_states_iff acts).2 h repo hrepo
  exact ⟨hone, fun _ _ _ _ _ => supersedes_of_transition hone, fun _ _ => get?_createRelease,
    bindings_of_oneLive hone⟩

/-! ## Releases created ACTIVE -/

/-- A release of the capability, with the digest of its version as its package's. -/
def detection (version : String) (status : ModelReleaseStatus) : ModelRelease where
  key := ⟨⟨"tenant", "project"⟩, "person", version⟩
  capability := "person_detection"
  runtimeModelId := "person/yolo"
  packageSha256 := version
  evidenceRefs := []
  status := status
  updatedAt := 0
  activatedAt := none
  retiredAt := none

/-- A package of a detector. -/
def detectionPackage (version : String) : ModelPackage where
  modelId := "person"
  version := version
  sha256 := version
  adapter := "onnx"
  runtimeModelId := "person/yolo"
  productionReady := true

/-- Two releases go through the whole life cycle, the second supersedes the first. -/
def twoReleased : List Act :=
  let key version := (detection version .candidate).key
  [.create (detection "1.0.0" .candidate), .create (detection "1.1.0" .candidate),
    .transition (key "1.0.0") .validated false 1, .transition (key "1.0.0") .approved false 2,
    .transition (key "1.0.0") .active false 3, .transition (key "1.1.0") .validated false 4,
    .transition (key "1.1.0") .approved false 5, .transition (key "1.1.0") .active false 6,
    .transition (key "1.0.0") .active true 7]

theorem one_live_twoReleased :
    OneLive (twoReleased.foldl apply .empty) ∧
      activeRuntimeBindings [detectionPackage "1.0.0", detectionPackage "1.1.0"]
        (twoReleased.foldl apply .empty) ⟨"tenant", "project"⟩ ≠ .error multipleActive := by
  obtain ⟨hone, -, -, hbindings⟩ := one_live_states twoReleased
    (along_of_candidates _ (by decide +kernel) _) _ (mem_states_of_exec rfl)
  exact ⟨hone, hbindings _ _⟩

/-- The repository after two releases of a capability are created ACTIVE. -/
def twoActive : Repository :=
  [Act.create (detection "1.0.0" .active), .create (detection "1.1.0" .active)].foldl apply .empty

/-- **Two live releases**: `create_release` takes both, and the bindings of the capability raise. -/
theorem two_created_active :
    (Live twoActive ⟨"tenant", "project"⟩ "person_detection" (detection "1.0.0" .active) ∧
      Live twoActive ⟨"tenant", "project"⟩ "person_detection" (detection "1.1.0" .active)) ∧
    ¬OneLive twoActive ∧
    activeRuntimeBindings [detectionPackage "1.0.0", detectionPackage "1.1.0"] twoActive
      ⟨"tenant", "project"⟩ = .error multipleActive := by
  have hfirst : Live twoActive ⟨"tenant", "project"⟩ "person_detection"
      (detection "1.0.0" .active) := ⟨by decide +kernel, rfl, rfl, rfl⟩
  have hsecond : Live twoActive ⟨"tenant", "project"⟩ "person_detection"
      (detection "1.1.0" .active) := ⟨by decide +kernel, rfl, rfl, rfl⟩
  refine ⟨⟨hfirst, hsecond⟩, fun hone => ?_, by rfl⟩
  have heq := congrArg (fun r => r.key.version) (hone hfirst hsecond)
  exact absurd heq (by decide)

end Scenara.Release
