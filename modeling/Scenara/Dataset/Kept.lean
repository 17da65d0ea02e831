import Scenara.Dataset.Model
import Scenara.Media.Referenced

/-!
# Published datasets and their life cycle

* `Inv`: what a call knows of the version it is about to save; `Stored`, `stepCall_stored`: what a
  store call does to the versions.
-/

namespace Scenara.Dataset

open Scenara.Core
open Creation (RunIds)
open Media (Library ObjectKey MediaAsset)

variable {ids : RunIds} {library library' : Library} {assetId versionId : String}
    {keys : List ObjectKey}
  {now : ℚ} {s s' : System} {act : Act} {r r' : Registry} {version : DatasetVersion}
  {target : DatasetVersionStatus} {call call' : Call}

/-! ## Assets -/

/-- The asset is there, and neither it nor its original is marked as deleted. -/
def holds (library : Library) (assetId : String) : Bool :=
  (library.assets.get? assetId).any fun asset => !asset.gone

theorem holds_mark (library : Library) (keys : List ObjectKey) (now : ℚ) (assetId : String) :
    holds (library.markObjectsDeleted keys now) assetId =
      (holds library assetId && !library.tracked keys (.original assetId)) := by
  have hget : (library.markObjectsDeleted keys now).assets.get? assetId =
      (library.assets.get? assetId).map (library.marked keys now) :=
    Table.get?_map (f := library.marked keys now) (fun _ => rfl) library.assets assetId
  unfold holds
  rw [hget]
  cases hasset : library.assets.get? assetId with
  | none => rfl
  | some asset =>
    have hid : asset.assetId = assetId := Table.key_of_get? hasset
    obtain ⟨id, preview, originalDeletedAt, deletedAt⟩ := asset
    obtain rfl : id = assetId := hid
    cases hraw : library.tracked keys (.original id) <;>
      cases hpreview : library.tracked keys (.preview id) <;>
      cases originalDeletedAt <;> cases deletedAt <;>
      simp [Library.marked, Library.markAsset, MediaAsset.gone, hraw, hpreview]

theorem holds_delete (library : Library) (other assetId : String) :
    holds (library.deleteAsset other) assetId = (holds library assetId && assetId ≠ other) := by
  show Option.any _ (Table.get? (Table.filter _ _) assetId) = (Option.any _ _ && _)
  rw [Table.get?_filter]
  cases hasset : library.assets.get? assetId with
  | none => rfl
  | some asset =>
    have hid : asset.assetId = assetId := Table.key_of_get? hasset
    by_cases hne : assetId = other <;> simp [hid, hne, Option.filter]

/-- The assets that a step of a call on the media deletes or marks. -/
def condemnsMedia (m : Media.System) : Media.Act → String → Bool
  | .advance i _ .go, assetId =>
    match m.calls[i]? with
    | some (.deletingObjects asset []) =>
      m.shared.tracked asset.objectKeys (.original assetId)
    | some (.deletingAsset asset) => assetId = asset.assetId
    | _ => false
  | _, _ => false

/-- The assets that a step deletes or marks. -/
def System.condemns (s : System) : Act → String → Bool
  | .media act, assetId => condemnsMedia s.media act assetId
  | .advanceSweep i _ _, assetId =>
    match s.sweeps[i]? with
    | some (.deleting [] deleted) => s.library.tracked deleted (.original assetId)
    | _ => false
  | _, _ => false

theorem holds_call {m m' : Media.Shared} {c c' : Media.Call}
    (h : Media.stepCall ids now m c = some (m', c'))
    (hmark : ∀ asset, c ≠ .deletingObjects asset []) (hdelete : ∀ asset, c ≠ .deletingAsset asset) :
    holds m'.toLibrary = holds m.toLibrary := by
  cases c with
  | reading =>
    simp only [Media.stepCall] at h
    repeat' split at h
    all_goals cases h; rfl
  | inserting | gettingAsset | checkingAsset | gettingSource | checkingSource =>
    simp only [Media.stepCall] at h
    split at h <;> cases h <;> rfl
  | deletingObjects asset keys =>
    cases keys with
    | nil => exact absurd rfl (hmark asset)
    | cons => cases h; rfl
  | deletingAsset asset => exact absurd rfl (hdelete asset)
  | auditingAsset | deletingIndex | auditingSource | deletingSource | deletingSecret => cases h; rfl
  | creating | deleted | raised => cases h

theorem holds_media {m m' : Media.System} {act : Media.Act} (h : Media.step ids m act = some m')
    (assetId : String) : holds m'.shared.toLibrary assetId =
      (holds m.shared.toLibrary assetId && !condemnsMedia m act assetId) := by
  cases act with
  | createRun | deleteAsset | deleteSource => cases h; simp [condemnsMedia]
  | save =>
    simp only [Media.step, bind, Option.bind_eq_some_iff, Option.ite_none_left_eq_some, pure,
      Option.some.injEq] at h
    obtain ⟨_, -, -, rfl⟩ := h
    simp [condemnsMedia]
  | advance i now choice =>
    simp only [Media.step, bind, Option.bind_eq_some_iff, pure, Option.some.injEq] at h
    obtain ⟨call, hcall, ⟨shared, _⟩, hadvance, rfl⟩ := h
    have hkept (hfalse : condemnsMedia m (.advance i now choice) assetId = false)
        (hsame : holds shared.toLibrary = holds m.shared.toLibrary) :
        holds shared.toLibrary assetId = (holds m.shared.toLibrary assetId &&
          !condemnsMedia m (.advance i now choice) assetId) := by
      rw [hfalse, hsame, Bool.not_false, Bool.and_true]
    unfold Media.advanceCall at hadvance
    split at hadvance
    · -- A `create_run`, after `create_run_idempotent`.
      obtain ⟨⟨_, _⟩, -, heq⟩ := Option.map_eq_some_iff.1 hadvance
      obtain ⟨rfl, -⟩ := Prod.mk.inj heq
      refine hkept ?_ rfl
      cases choice <;> simp [condemnsMedia, hcall]
    · cases hadvance
    · cases hadvance
    · by_cases hmark : ∃ asset, call = .deletingObjects asset []
      · obtain ⟨asset, rfl⟩ := hmark
        cases hadvance
        simp only [condemnsMedia, hcall]
        exact holds_mark m.shared.toLibrary asset.objectKeys now assetId
      · by_cases hdelete : ∃ asset, call = .deletingAsset asset
        · obtain ⟨asset, rfl⟩ := hdelete
          cases hadvance
          simp only [condemnsMedia, hcall]
          rw [← decide_not]
          exact holds_delete m.shared.toLibrary asset.assetId assetId
        · refine hkept ?_ (holds_call hadvance (fun asset heq => hmark ⟨asset, heq⟩)
            fun asset heq => hdelete ⟨asset, heq⟩)
          simp only [condemnsMedia, hcall]
          split
          · rename_i heq
            exact absurd ⟨_, Option.some.inj heq⟩ hmark
          · rename_i heq
            exact absurd ⟨_, Option.some.inj heq⟩ hdelete
          · rfl
    · cases hadvance
      exact hkept rfl rfl
    · cases hadvance

theorem holds_step (h : step ids s act = some s') (assetId : String) :
    holds s'.library assetId = (holds s.library assetId && !s.condemns act assetId) := by
  cases act with
  | media =>
    obtain ⟨_, hmedia, rfl⟩ := Option.map_eq_some_iff.1 h
    exact holds_media hmedia assetId
  | create | transition => cases h; simp [System.condemns, System.library]
  | advance i _ raises =>
    simp only [step, bind, Option.bind_eq_some_iff] at h
    obtain ⟨_, -, h⟩ := h
    cases raises with
    | some =>
      obtain ⟨-, rfl⟩ := by simpa using h
      simp [System.condemns, System.library]
    | none =>
      simp only [Option.bind_eq_some_iff, pure, Option.some.injEq] at h
      obtain ⟨⟨_, _⟩, -, rfl⟩ := h
      simp [System.condemns, System.library]
  | sweep =>
    simp only [step, Option.ite_none_right_eq_some, Option.some.injEq] at h
    obtain ⟨-, rfl⟩ := h
    simp [System.condemns, System.library]
  | advanceSweep i now =>
    simp only [step, bind, Option.bind_eq_some_iff, pure, Option.some.injEq] at h
    obtain ⟨sweep, hsweep, ⟨library, _⟩, hstep, rfl⟩ := h
    show holds library assetId = _
    simp only [System.condemns, hsweep]
    cases sweep with
    | done => cases hstep
    | deleting keys deleted =>
      cases keys with
      | cons =>
        cases hstep
        simp [holds, Library.deleteObject]
      | nil =>
        obtain ⟨rfl, rfl⟩ := hstep
        split
        · rename_i hnone
          simp [hnone, Library.tracked]
        · exact holds_mark s.library deleted now assetId

/-! ## The statuses of a version -/

/-- The statuses that a version was stored with, in order. -/
def Registry.statuses (r : Registry) (versionId : String) : List DatasetVersionStatus :=
  (r.history.filter (·.1 = versionId)).map Prod.snd

/-- A status stays, or moves to one that is allowed. -/
def Moves (a b : DatasetVersionStatus) : Prop := a = b ∨ b ∈ allowed a
  deriving Decidable

/-- **What is kept**: the assets of the published versions are there, the statuses of every version
move as they may, and none was published before it was validated. -/
structure Kept (s : System) : Prop where
  assets : ∀ versionId version, s.registry.versions.get? versionId = some version →
    version.status = .published → ∀ assetId ∈ version.assetIds, holds s.library assetId = true
  moves : ∀ versionId, (s.registry.statuses versionId).IsChain Moves
  validated : ∀ versionId before, before ++ [.published] <+: s.registry.statuses versionId →
    .validated ∈ before

theorem statuses_store (r : Registry) (version : DatasetVersion) (versionId : String) :
    (r.store version).statuses versionId =
      if versionId = version.versionId then r.statuses versionId ++ [version.status]
      else r.statuses versionId := by
  unfold Registry.statuses Registry.store
  by_cases hid : versionId = version.versionId
  · simp [hid]
  · simp [hid, Ne.symm hid]

/-- What a call knows of the version that it is about to save. -/
def Call.Knows (r : Registry) : Call → Prop
  | .saving version target =>
    target ∈ allowed version.status ∧ version.status ∈ r.statuses version.versionId
  | _ => True

/-- The status that a version was last stored with is its status. -/
def Registry.Latest (r : Registry) : Prop :=
  ∀ versionId, (r.statuses versionId).getLast? =
    (r.versions.get? versionId).map DatasetVersion.status

/-- No version was published before it was validated. -/
def Registry.Validated (r : Registry) : Prop :=
  ∀ versionId before, before ++ [.published] <+: r.statuses versionId → .validated ∈ before

/-- **The invariant.** -/
structure Inv (s : System) : Prop where
  latest : s.registry.Latest
  validated : s.registry.Validated
  calls : ∀ call ∈ s.calls, call.Knows s.registry

/-- What a store call of the service does to the registry. -/
inductive Stored (r : Registry) (call : Call) (r' : Registry) : Prop
  /-- Nothing to the versions. -/
  | quiet : r'.versions = r.versions → r'.history = r.history →
      (∀ version target, call = .saving version target →
        r.versions.get? version.versionId = none) → Stored r call r'
  | created (version : DatasetVersion) : r.versions.get? version.versionId = none →
      version.status = .draft → r' = r.store version →
      (∀ version target, call ≠ .saving version target) → Stored r call r'
  /-- A version is saved as it was read, under the status. -/
  | saved (version updated : DatasetVersion) (target : DatasetVersionStatus)
      (stored : DatasetVersion) : call = .saving version target →
      r.versions.get? version.versionId = some stored → updated.versionId = version.versionId →
      updated.assetIds = version.assetIds → updated.status = target → r' = r.store updated →
      Stored r call r'

theorem checkAssets_knows (request : Request) (left missing : List String) :
    (checkAssets request left missing).Knows r := by
  unfold checkAssets
  split <;> trivial

theorem checkTransition_knows (hmem : version.status ∈ r.statuses version.versionId) :
    (checkTransition version target).Knows r := by
  unfold checkTransition
  split
  · trivial
  rename_i hallowed
  split
  · trivial
  split
  · trivial
  · exact ⟨not_not.1 hallowed, hmem⟩

theorem stepCall_stored (hlatest : r.Latest)
    (h : stepCall now library r call = some (r', call')) : Stored r call r' ∧ call'.Knows r' := by
  have hquiet {call call' : Call} (hsaving : ∀ version target, call ≠ .saving version target)
      (hknows : call'.Knows r) : Stored r call r ∧ call'.Knows r :=
    ⟨.quiet rfl rfl fun version target heq => absurd heq (hsaving version target), hknows⟩
  cases call with
  | creating request =>
    simp only [stepCall] at h
    split at h
    · cases h; exact hquiet nofun trivial
    · split at h <;> cases h
      · exact hquiet nofun trivial
      · exact hquiet nofun (checkAssets_knows request _ _)
  | checking request =>
    simp only [stepCall] at h
    split at h <;> cases h <;>
      exact hquiet nofun (checkAssets_knows request _ _)
  | inserting request =>
    simp only [stepCall, Registry.createDatasetVersion] at h
    split_ifs at h with hversion hlabel
    · cases h; exact hquiet nofun trivial
    · cases h; exact hquiet nofun trivial
    · cases h
      have hnone : r.versions.get? (request.datasetVersion now).versionId = none := by
        simpa using hversion
      exact ⟨.created (request.datasetVersion now) hnone rfl rfl nofun, trivial⟩
  | transitioning versionId =>
    simp only [stepCall] at h
    split at h
    · cases h; exact hquiet nofun trivial
    · rename_i version hversion
      cases h
      refine hquiet nofun (checkTransition_knows ?_)
      have hkey : version.versionId = versionId := Table.key_of_get? hversion
      have hlast := hlatest versionId
      rw [hversion, Option.map_some, ← hkey] at hlast
      exact List.mem_of_getLast? hlast
  | saving version target =>
    simp only [stepCall, Registry.saveDatasetVersion] at h
    have hkey : (version.moveTo target now).versionId = version.versionId := rfl
    rw [hkey] at h
    cases hstored : r.versions.get? version.versionId with
    | none =>
      rw [hstored] at h
      cases h
      refine ⟨.quiet rfl rfl fun other target heq => ?_, trivial⟩
      obtain ⟨rfl, -⟩ := Call.saving.inj heq
      exact hstored
    | some stored =>
      rw [hstored] at h
      cases h
      refine ⟨.saved version (version.moveTo target now) target stored rfl hstored rfl rfl rfl rfl,
        ?_⟩
      split <;> trivial
  | activating =>
    simp only [stepCall] at h
    split at h <;> cases h <;> exact hquiet nofun trivial
  | savingDataset =>
    simp only [stepCall, Registry.saveDataset] at h
    split_ifs at h <;> cases h <;>
      exact ⟨.quiet rfl rfl nofun, trivial⟩
  | auditing => cases h; exact hquiet nofun trivial
  | returned | raised => cases h

/-! ## The invariant -/

theorem statuses_congr (h : r'.history = r.history) (versionId : String) :
    r'.statuses versionId = r.statuses versionId := by
  unfold Registry.statuses
  rw [h]

theorem mem_statuses_store {status : DatasetVersionStatus} (h : status ∈ r.statuses versionId) :
    status ∈ (r.store version).statuses versionId := by
  rw [statuses_store]
  split
  · exact List.mem_append_left _ h
  · exact h

theorem latest_store (h : r.Latest) (version : DatasetVersion) : (r.store version).Latest := by
  intro versionId
  show _ = ((r.versions.put version).get? versionId).map DatasetVersion.status
  rw [statuses_store, Table.get?_put]
  split
  · rename_i heq
    simp [heq]
  · exact h versionId

theorem validated_store (h : r.Validated)
    (hversion : version.status = .published → .validated ∈ r.statuses version.versionId) :
    (r.store version).Validated := by
  intro versionId before hprefix
  rw [statuses_store] at hprefix
  split at hprefix
  · rename_i heq
    rcases List.prefix_concat_iff.1 hprefix with hlast | hprefix
    · obtain ⟨rfl, hstatus⟩ := List.append_inj' hlast rfl
      rw [heq]
      exact hversion (List.cons.inj hstatus).1.symm
    · exact h versionId before hprefix
  · exact h versionId before hprefix

theorem Call.Knows.store (h : call.Knows r) (version : DatasetVersion) :
    call.Knows (r.store version) := by
  cases call with
  | saving => exact ⟨h.1, mem_statuses_store h.2⟩
  | _ => trivial

theorem Call.Knows.congr (h : call.Knows r) (hhistory : r'.history = r.history) :
    call.Knows r' := by
  cases call with
  | saving => exact ⟨h.1, (statuses_congr hhistory _).symm ▸ h.2⟩
  | _ => trivial

theorem validated_of_allowed {status : DatasetVersionStatus} (h : .published ∈ allowed status) :
    status = .validated := by
  cases status <;> simp_all [allowed]

theorem Stored.inv (h : Stored r call r') (hlatest : r.Latest) (hvalidated : r.Validated)
    (hcall : call.Knows r) : r'.Latest ∧ r'.Validated ∧ ∀ other : Call, other.Knows r →
    other.Knows r' := by
  cases h with
  | quiet hversions hhistory =>
    refine ⟨fun versionId => ?_, fun versionId before hprefix => ?_, fun other hother =>
      hother.congr hhistory⟩
    · rw [statuses_congr hhistory, hversions]
      exact hlatest versionId
    · rw [statuses_congr hhistory] at hprefix
      exact hvalidated versionId before hprefix
  | created version _ hdraft hr' =>
    subst hr'
    refine ⟨latest_store hlatest version, validated_store hvalidated fun hpublished => ?_,
      fun other hother => hother.store version⟩
    simp [hdraft] at hpublished
  | saved _ updated _ _ heq _ hid _ hstatus hr' =>
    subst heq hr'
    refine ⟨latest_store hlatest updated, validated_store hvalidated fun hpublished => ?_,
      fun other hother => hother.store updated⟩
    obtain ⟨hallowed, _⟩ := hcall
    rw [← hstatus, hpublished] at hallowed
    rwa [hid, ← validated_of_allowed hallowed]

theorem step_cases (h : step ids s act = some s') :
    (∃ i now call call', act = .advance i now none ∧ s.calls[i]? = some call ∧
      stepCall now s.library s.registry call = some (s'.registry, call') ∧
      s'.calls = s.calls.set i call') ∨
    (∀ i now, act ≠ .advance i now none) ∧ s'.registry = s.registry ∧
      ∀ call ∈ s'.calls, call ∈ s.calls ∨ call.Knows s.registry := by
  cases act with
  | media =>
    obtain ⟨_, -, rfl⟩ := Option.map_eq_some_iff.1 h
    exact .inr ⟨nofun, rfl, fun call hcall => .inl hcall⟩
  | create | transition =>
    cases h
    refine .inr ⟨nofun, rfl, fun call hcall => ?_⟩
    rcases List.mem_append.1 hcall with hcall | hcall
    · exact .inl hcall
    · exact .inr (List.mem_singleton.1 hcall ▸ trivial)
  | advance i now raises =>
    simp only [step, bind, Option.bind_eq_some_iff] at h
    obtain ⟨call, hi, h⟩ := h
    cases raises with
    | some =>
      obtain ⟨-, rfl⟩ := by simpa using h
      refine .inr ⟨nofun, rfl, fun other hother => ?_⟩
      rcases List.mem_or_eq_of_mem_set hother with hother | rfl
      · exact .inl hother
      · exact .inr trivial
    | none =>
      simp only [Option.bind_eq_some_iff, pure, Option.some.injEq] at h
      obtain ⟨⟨_, call'⟩, hcall, rfl⟩ := h
      exact .inl ⟨i, now, call, call', rfl, hi, hcall, rfl⟩
  | sweep =>
    simp only [step, Option.ite_none_right_eq_some, Option.some.injEq] at h
    obtain ⟨-, rfl⟩ := h
    exact .inr ⟨nofun, rfl, fun call hcall => .inl hcall⟩
  | advanceSweep i =>
    simp only [step, bind, Option.bind_eq_some_iff, pure, Option.some.injEq] at h
    obtain ⟨_, -, ⟨_, _⟩, -, rfl⟩ := h
    exact .inr ⟨nofun, rfl, fun call hcall => .inl hcall⟩

theorem inv_step (h : Inv s) (hstep : step ids s act = some s') : Inv s' := by
  rcases step_cases hstep with ⟨i, _, call, _, -, hi, hcall, hcalls⟩ | ⟨-, hregistry, hcalls⟩
  · obtain ⟨hstored, hknows⟩ := stepCall_stored h.latest hcall
    obtain ⟨hlatest, hvalidated, hothers⟩ :=
      hstored.inv h.latest h.validated (h.calls call (List.mem_of_getElem? hi))
    refine ⟨hlatest, hvalidated, fun other hother => ?_⟩
    rw [hcalls] at hother
    rcases List.mem_or_eq_of_mem_set hother with hother | rfl
    · exact hothers other (h.calls other hother)
    · exact hknows
  · refine ⟨hregistry ▸ h.latest, hregistry ▸ h.validated, fun other hother => ?_⟩
    rw [hregistry]
    rcases hcalls other hother with hother | hknows
    · exact h.calls other hother
    · exact hknows

theorem inv_start (library : Library) (datasets : Dict String DatasetStatus) :
    Inv (.start library datasets) where
  latest _ := rfl
  validated versionId before hprefix := by
    have hnil := List.prefix_nil.1 hprefix
    simp at hnil
  calls call hcall := by cases hcall

/-! ## The steps that keep the datasets -/

/-- A step that loses no asset of a published version, and saves a version only where it may move,
and as published only with its assets. -/
structure Lawful (s : System) (act : Act) : Prop where
  spared : ∀ versionId version, s.registry.versions.get? versionId = some version →
    version.status = .published → ∀ assetId ∈ version.assetIds, s.condemns act assetId = false
  saved : ∀ i now version target stored, act = .advance i now none →
    s.calls[i]? = some (.saving version target) →
    s.registry.versions.get? version.versionId = some stored →
      Moves stored.status target ∧
        (target = .published → ∀ assetId ∈ version.assetIds, holds s.library assetId = true)

theorem isChain_store (hlatest : r.Latest) {stored : DatasetVersion}
    (hstored : r.versions.get? version.versionId = some stored)
    (hchain : (r.statuses version.versionId).IsChain Moves) :
    ((r.store version).statuses version.versionId).IsChain Moves ↔
      Moves stored.status version.status := by
  have hlast : (r.statuses version.versionId).getLast? = some stored.status := by
    rw [hlatest, hstored, Option.map_some]
  rw [statuses_store, if_pos rfl, List.isChain_append, hlast]
  simp [hchain]

theorem kept_saved (h : Inv s) (hkept : Kept s) {stored : DatasetVersion}
    (hstored : s.registry.versions.get? version.versionId = some stored)
    (hregistry : s'.registry = s.registry.store version) (hlibrary : s'.library = s.library)
    (hvalidated : s'.registry.Validated) :
    Kept s' ↔ Moves stored.status version.status ∧
      (version.status = .published → ∀ assetId ∈ version.assetIds, holds s.library assetId =
        true) := by
  constructor
  · intro hkept'
    have hmoves := hkept'.moves version.versionId
    rw [hregistry, isChain_store h.latest hstored (hkept.moves version.versionId)] at hmoves
    refine ⟨hmoves, fun hpublished => ?_⟩
    rw [← hlibrary]
    refine hkept'.assets version.versionId version ?_ hpublished
    rw [hregistry]
    exact Table.get?_put_self s.registry.versions version
  · rintro ⟨_, hassets⟩
    refine ⟨fun versionId other hother hpublished => ?_, fun versionId => ?_, hvalidated⟩
    · rw [hregistry] at hother
      rw [hlibrary]
      rcases Table.get?_put_eq_some.1 hother with ⟨-, rfl⟩ | ⟨-, hother⟩
      · exact hassets hpublished
      · exact hkept.assets versionId other hother hpublished
    · rw [hregistry]
      by_cases heq : versionId = version.versionId
      · rwa [heq, isChain_store h.latest hstored (hkept.moves version.versionId)]
      · rw [statuses_store, if_neg heq]
        exact hkept.moves versionId

theorem kept_quiet (hkept : Kept s) (hstep : step ids s act = some s')
    (hversions : s'.registry.versions = s.registry.versions)
    (hhistory : s'.registry.history = s.registry.history) (hvalidated : s'.registry.Validated) :
    Kept s' ↔ ∀ versionId version, s.registry.versions.get? versionId = some version →
      version.status = .published → ∀ assetId ∈ version.assetIds, s.condemns act assetId =
        false := by
  constructor
  · intro hkept' versionId version hversion hpublished assetId hmem
    have hholds := hkept'.assets versionId version (hversions ▸ hversion) hpublished assetId hmem
    rw [holds_step hstep, Bool.and_eq_true, Bool.not_eq_true'] at hholds
    exact hholds.2
  · intro hspared
    refine ⟨fun versionId version hversion hpublished assetId hmem => ?_, fun versionId => ?_,
      hvalidated⟩
    · rw [hversions] at hversion
      rw [holds_step hstep, hkept.assets versionId version hversion hpublished assetId hmem,
        hspared versionId version hversion hpublished assetId hmem]
      rfl
    · rw [statuses_congr hhistory]
      exact hkept.moves versionId

theorem kept_step (h : Inv s) (hkept : Kept s) (hstep : step ids s act = some s') :
    Kept s' ↔ Lawful s act := by
  have hvalidated : s'.registry.Validated := (inv_step h hstep).validated
  rcases step_cases hstep with ⟨i, now, _, _, rfl, hi, hcall, hcalls⟩ | ⟨hact, hregistry, _⟩
  · have hspared (versionId : String) (version : DatasetVersion)
        (_ : s.registry.versions.get? versionId = some version) (_ : version.status = .published)
        (assetId : String) (_ : assetId ∈ version.assetIds) :
        s.condemns (.advance i now none) assetId = false := rfl
    have hlibrary : s'.library = s.library := by
      simp only [step, hi, bind, Option.bind_some, Option.bind_eq_some_iff, pure,
        Option.some.injEq] at hstep
      obtain ⟨_, -, rfl⟩ := hstep
      rfl
    rcases (stepCall_stored h.latest hcall).1 with ⟨hversions, hhistory, hnone⟩ |
      ⟨version, hnone, hdraft, hr', hsaving⟩ |
      ⟨version, updated, target, stored, rfl, hstored, hid, hassets, hstatus, hr'⟩
    · rw [kept_quiet hkept hstep hversions hhistory hvalidated]
      refine iff_of_true hspared ⟨hspared, fun j now' version target stored hact hj hstored => ?_⟩
      obtain ⟨rfl, -⟩ := Act.advance.inj hact
      rw [hi] at hj
      simp [hnone version target (Option.some.inj hj)] at hstored
    · refine iff_of_true ⟨fun versionId other hother hpublished => ?_, fun versionId => ?_,
        hvalidated⟩ ⟨hspared, fun j now' other target stored hact hj hstored => ?_⟩
      · rw [hr'] at hother
        rw [hlibrary]
        rcases Table.get?_put_eq_some.1 hother with ⟨-, rfl⟩ | ⟨-, hother⟩
        · simp [hdraft] at hpublished
        · exact hkept.assets versionId other hother hpublished
      · rw [hr', statuses_store]
        split
        · rename_i heq
          have hlast := h.latest versionId
          rw [heq, hnone, Option.map_none, List.getLast?_eq_none_iff] at hlast
          rw [heq, hlast]
          exact List.isChain_singleton _
        · exact hkept.moves versionId
      · obtain ⟨rfl, -⟩ := Act.advance.inj hact
        rw [hi] at hj
        exact absurd (Option.some.inj hj) (hsaving other target)
    · rw [kept_saved h hkept (hid ▸ hstored) hr' hlibrary hvalidated, hstatus, hassets]
      constructor
      · intro hsaved
        refine ⟨hspared, fun j now' other target' stored' hact hj hstored' => ?_⟩
        obtain ⟨rfl, -⟩ := Act.advance.inj hact
        rw [hi] at hj
        obtain ⟨rfl, rfl⟩ := Call.saving.inj (Option.some.inj hj)
        rw [hstored] at hstored'
        exact Option.some.inj hstored' ▸ hsaved
      · exact fun hlawful => hlawful.saved i now version target stored rfl hi hstored
  · rw [kept_quiet hkept hstep (by rw [hregistry]) (by rw [hregistry]) hvalidated]
    exact ⟨fun hspared => ⟨hspared, fun i now _ _ _ heq => absurd heq (hact i now)⟩, fun hlawful =>
      hlawful.spared⟩

theorem inv_states (ids : RunIds) (library : Library) (datasets : Dict String DatasetStatus)
    (acts : List Act) : ∀ s ∈ states (step ids) (.start library datasets) acts, Inv s :=
  invariant_all (fun _ _ _ => inv_step) acts (inv_start library datasets)

theorem condemns_stuck (hstuck : step ids s act = none) (assetId : String) :
    s.condemns act assetId = false := by
  unfold System.condemns
  split
  · rename_i act
    unfold condemnsMedia
    split
    · rename_i i now
      split
      · rename_i hi
        simp [step, Media.step, hi, Media.advanceCall, Media.stepCall] at hstuck
      · rename_i hi
        simp [step, Media.step, hi, Media.advanceCall, Media.stepCall] at hstuck
      · rfl
    · rfl
  · split
    · rename_i hi
      simp [step, hi, stepSweep] at hstuck
    · rfl
  · rfl

theorem lawful_stuck (hstuck : step ids s act = none) : Lawful s act where
  spared _ _ _ _ assetId _ := condemns_stuck hstuck assetId
  saved i now version target stored hact hi hstored := by
    subst hact
    have hkey : (version.moveTo target now).versionId = version.versionId := rfl
    simp [step, hi, stepCall, Registry.saveDatasetVersion, hkey, hstored] at hstuck

theorem kept_start (library : Library) (datasets : Dict String DatasetStatus) :
    Kept (.start library datasets) where
  assets _ _ hversion := by cases hversion
  moves _ := List.isChain_nil
  validated := (inv_start library datasets).validated

/-- **Dataset versions keep their data and their life cycle**, in every state of a run, exactly if
every step of the run is lawful. None is ever published that was not validated before. -/
theorem versions_kept_iff (ids : RunIds) (library : Library) (datasets : Dict String DatasetStatus)
    (acts : List Act) :
    ((∀ s ∈ states (step ids) (.start library datasets) acts, Kept s) ↔
      Along (step ids) Lawful (.start library datasets) acts) ∧
    ∀ s ∈ states (step ids) (.start library datasets) acts, s.registry.Validated := by
  have hinv := inv_states ids library datasets acts
  refine ⟨?_, fun s hs => (hinv s hs).validated⟩
  have hkept : (∀ s ∈ states (step ids) (.start library datasets) acts, Kept s) ↔
      ∀ s ∈ states (step ids) (.start library datasets) acts, Inv s ∧ Kept s :=
    forall₂_congr fun s hs => (and_iff_right (hinv s hs)).symm
  rw [hkept]
  refine states_iff (I := fun s => Inv s ∧ Kept s) (fun s act hstuck => lawful_stuck hstuck)
    (fun s act s' h hstep => ?_) ⟨inv_start library datasets, kept_start library datasets⟩
  rw [and_iff_right (inv_step h.1 hstep)]
  exact kept_step h.1 h.2 hstep

/-! ## Runs that do not keep them -/

/-- The steps of a call, one after another. -/
def advances (i n : Nat) : List Act := List.replicate n (.advance i 1 none)

/-- A draft. -/
def oneDataset : Dict String DatasetStatus := Dict.empty.insert "d" .draft

/-- A version of it, of one asset. -/
def oneVersion : Request := ⟨"v", "d", "1.0.0", ["a"], some 1⟩

/-- A version of a dataset with one asset, validated. -/
def validatedActs : List Act :=
  [.create oneVersion] ++ advances 0 4 ++ [.transition "v" .validated] ++ advances 1 3

/-- `transition_version` to RETIRED and to PUBLISHED read the validated version, and the second one
saves it last. -/
def retiredActs : List Act :=
  validatedActs ++ [.transition "v" .retired, .transition "v" .published] ++ advances 2 1 ++
    advances 3 1 ++ advances 2 2 ++ advances 3 4

/-- `delete_asset`, after the version was published. -/
def deletedActs : List Act :=
  validatedActs ++ [.transition "v" .published] ++ advances 2 5 ++ [.media (.deleteAsset "a")] ++
    List.replicate 8 (.media (.advance 0 2 .go))

/-- A retired version is published, and the asset of a published version is deleted. -/
theorem retired_published :
    ¬(∀ s ∈ states (step .counted) (.start Media.oneAsset oneDataset) retiredActs,
        (s.registry.statuses "v").IsChain Moves) ∧
      ¬∀ s ∈ states (step .counted) (.start Media.oneAsset oneDataset) deletedActs, Kept s := by
  refine ⟨fun h => ?_, fun h => ?_⟩
  · have hchain := h _ (mem_states_of_exec rfl)
    revert hchain
    decide
  · have hkept := h _ (mem_states_of_exec rfl)
    exact absurd (hkept.assets "v" _ rfl rfl "a" List.mem_cons_self) (by decide)

end Scenara.Dataset
