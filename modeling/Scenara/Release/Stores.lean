import Scenara.Release.Live
import Scenara.Release.Superseding

/-!
# Two stores of model releases

* `Agreed`: the same calls raised in both stores, both have the same documents, timestamps aside,
  the columns are those of the documents, and at most one release is ACTIVE for a tenant, project
  and capability.
-/

namespace Scenara.Release

open Scenara.Core

variable {repo : Repository} {rows : Rows} {scan : Scan} {key k : Key}
    {row current other : ReleaseRow}
  {r : ModelRelease} {target : ModelReleaseStatus} {rollback : Bool} {now now' : ℚ} {scope : Scope}
  {capability : String} {s s' : Stores} {a : Act × ℚ}
variable {out : Transitioned} {d : ModelRelease}

/-! ## Documents -/

/-- The document without its timestamps. -/
def ModelRelease.timeless (release : ModelRelease) : ModelRelease :=
  { release with updatedAt := 0, activatedAt := none, retiredAt := none }

theorem timeless_moveTo (h : r.timeless = d.timeless) (target : ModelReleaseStatus) (now now' : ℚ) :
    (r.moveTo target now).timeless = (d.moveTo target now').timeless :=
  congrArg (fun r : ModelRelease => { r with status := target }) h

theorem timeless_retire (h : r.timeless = d.timeless) (now now' : ℚ) :
    (r.retire now).timeless = (d.retire now').timeless :=
  congrArg (fun r : ModelRelease => { r with status := .retired }) h

/-- The two stores have the same documents, timestamps aside. -/
def Same (repo : Repository) (rows : Rows) : Prop :=
  ∀ k, (repo.releases.get? k).map ModelRelease.timeless =
    (rows.get? k).map fun row => row.document.timeless

/-! ## Both stores -/

/-- **Agreement.** -/
structure Agreed (s : Stores) : Prop where
  alike : ∀ raised ∈ s.raised, raised.1 = raised.2
  same : Same s.memory s.postgres
  columns : Columns s.postgres
  memoryLive : OneLive s.memory
  postgresLive : OneLiveRow s.postgres

/-- An ACTIVE release is not created beside another one of its scope and capability; a release that
supersedes another one is of the same model. -/
def Harmless (s : Stores) (a : Act × ℚ) : Prop :=
  match a.1 with
  | .create release => Creatable s.memory (.create release)
  | .transition key target rollback _ => ∀ current, s.memory.releases.get? key = some current →
      validateReleaseTransition current.status target rollback = .ok () → target = .active →
      ∀ r, Live s.memory key.scope current.capability r → r.key.modelId = key.modelId

theorem row_of_release (h : Same repo rows) (hr : repo.releases.get? k = some r) :
    ∃ row, rows.get? k = some row ∧ row.document.timeless = r.timeless := by
  have hk := h k
  rw [hr, Option.map_some] at hk
  exact Option.map_eq_some_iff.1 hk.symm

theorem release_of_row (h : Same repo rows) (hrow : rows.get? k = some row) :
    ∃ r, repo.releases.get? k = some r ∧ r.timeless = row.document.timeless := by
  have hk := h k
  rw [hrow, Option.map_some] at hk
  exact Option.map_eq_some_iff.1 hk

theorem fields_of_timeless (h : r.timeless = d.timeless) :
    r.key = d.key ∧ r.capability = d.capability ∧ r.status = d.status := by
  have hkey : r.timeless.key = d.timeless.key := congrArg ModelRelease.key h
  have hcapability : r.timeless.capability = d.timeless.capability :=
    congrArg ModelRelease.capability h
  have hstatus : r.timeless.status = d.timeless.status := congrArg ModelRelease.status h
  exact ⟨hkey, hcapability, hstatus⟩

theorem liveRow_of_live (hsame : Same repo rows) (hcolumns : Columns rows)
    (hr : Live repo scope capability r) :
    ∃ row, LiveRow rows scope capability r.key row ∧ row.document.timeless = r.timeless := by
  obtain ⟨row, hrow, htimeless⟩ := row_of_release hsame hr.stored
  obtain ⟨-, hcapability, hstatus⟩ := fields_of_timeless htimeless
  obtain ⟨-, hcolumn, hactive⟩ := hcolumns _ row hrow
  exact ⟨row, ⟨hrow, hr.scope_eq, by rw [hcolumn, hcapability, hr.capability_eq],
    by rw [hactive, hstatus, hr.active]⟩, htimeless⟩

theorem live_of_liveRow (hsame : Same repo rows) (hcolumns : Columns rows)
    (hrow : LiveRow rows scope capability k row) : ∃ r, Live repo scope capability r ∧
    r.key = k := by
  obtain ⟨r, hr, htimeless⟩ := release_of_row hsame hrow.stored
  obtain ⟨-, hcapability, hstatus⟩ := fields_of_timeless htimeless
  obtain ⟨-, hcolumn, hactive⟩ := hcolumns _ row hrow.stored
  have hk := repo.keyed hr
  exact ⟨r, ⟨hk ▸ hr, hk ▸ hrow.scope_eq, by rw [hcapability, ← hcolumn, hrow.capability_eq],
    by rw [hstatus, ← hactive, hrow.active]⟩, hk⟩

theorem oneLiveRow_of_same (hsame : Same repo rows) (hcolumns : Columns rows)
    (hone : OneLive repo) : OneLiveRow rows := by
  intro _ _ k _ _ _ hrow hrow'
  obtain ⟨r, hr, rfl⟩ := live_of_liveRow hsame hcolumns hrow
  obtain ⟨_, hr', rfl⟩ := live_of_liveRow hsame hcolumns hrow'
  rw [hone hr hr']

theorem agreed_raised (h : Agreed s) {memory : Repository} {postgres : Rows} {raised : Bool × Bool}
    (hraised : raised.1 = raised.2) (hsame : Same memory postgres) (hcolumns : Columns postgres)
    (hone : OneLive memory) : Agreed ⟨memory, postgres, s.raised ++ [raised]⟩ where
  alike p hp := by
    rcases List.mem_append.1 hp with hp | hp
    · exact h.alike p hp
    · rwa [List.mem_singleton.1 hp]
  same := hsame
  columns := hcolumns
  memoryLive := hone
  postgresLive := oneLiveRow_of_same hsame hcolumns hone

theorem not_agreed {memory : Repository} {postgres : Rows} {raised : Bool × Bool}
    (hraised : raised.1 ≠ raised.2) : ¬Agreed ⟨memory, postgres, s.raised ++ [raised]⟩ :=
  fun h => hraised (h.alike raised (List.mem_append_right _ (List.mem_singleton_self raised)))

/-! ## Creation -/

theorem same_set {release : ModelRelease} (h : Same repo rows)
    (htimeless : row.document.timeless = release.timeless) :
    Same (repo.put release) (rows.set release.key row) := by
  intro k
  rw [get?_put, get?_set]
  split
  · exact congrArg some htimeless.symm
  · exact h k

theorem columns_set (h : Columns rows) (hkey : row.document.key = key)
    (hcapability : row.capability = row.document.capability)
    (hstatus : row.status = row.document.status) : Columns (rows.set key row) := by
  intro k other hother
  rw [get?_set] at hother
  split at hother
  · rename_i hk
    obtain rfl := Option.some.inj hother
    exact ⟨hkey.trans hk.symm, hcapability, hstatus⟩
  · exact h k other hother

/-- The row of a new release. -/
def rowOf (release : ModelRelease) : ReleaseRow := ⟨release.capability, release.status, release⟩

theorem createRelease_eq (rows : Rows) (release : ModelRelease) :
    rows.createRelease release =
      if (rows.get? release.key).isSome || rows.violates release.key (rowOf release) then
        .error (.conflict "model release already exists")
      else .ok (rows.set release.key (rowOf release)) := by
  have hinsert : rows.insertRow release.key ⟨release.capability, release.status, release⟩ =
      if (rows.get? release.key).isSome || rows.violates release.key (rowOf release) then
        .error Rows.uniqueViolation
      else .ok (rows.set release.key (rowOf release)) := rfl
  unfold Rows.createRelease
  rw [hinsert]
  split_ifs <;> rfl

theorem agreed_create {release : ModelRelease} (h : Agreed s)
    (hstep : s.step scan (.create release, now) = some s') :
    Agreed s' ↔ Harmless s (.create release, now) := by
  obtain rfl := Option.some.inj hstep
  have hpostgres := createRelease_eq s.postgres release
  cases hget : s.memory.releases.get? release.key with
  | some r =>
    obtain ⟨_, hrow, -⟩ := row_of_release h.same hget
    refine iff_of_true ?_ fun hnone => by rw [hget] at hnone; cases hnone
    have hmemory : s.memory.createRelease release =
        .error (.conflict "model release already exists") := by
      unfold Repository.createRelease
      rw [hget]
      rfl
    rw [hrow, Option.isSome_some, Bool.true_or, if_pos rfl] at hpostgres
    simp only [Act.at, apply, raises, Rows.apply, hmemory, hpostgres]
    exact agreed_raised h rfl h.same h.columns h.memoryLive
  | none =>
    have hnone : s.postgres.get? release.key = none := by
      cases hrow : s.postgres.get? release.key with
      | none => rfl
      | some =>
        obtain ⟨r, hr, -⟩ := release_of_row h.same hrow
        simp [hget] at hr
    have hmemory : s.memory.createRelease release = .ok (s.memory.put release) := by
      unfold Repository.createRelease
      rw [hget]
      rfl
    have hharmless : Harmless s (.create release, now) ↔
        s.postgres.violates release.key (rowOf release) = false := by
      rw [Bool.eq_false_iff, ne_eq, violates_iff, not_and]
      constructor
      · rintro hcreatable hactive ⟨k, _, hlive, -⟩
        obtain ⟨r, hr, -⟩ := live_of_liveRow h.same h.columns hlive
        exact hcreatable hget hactive r hr
      · intro hviolates _ hactive r hr
        obtain ⟨row, hrow, -⟩ := liveRow_of_live h.same h.columns hr
        refine hviolates hactive ⟨r.key, row, hrow, fun heq => ?_⟩
        simp [← heq, hr.stored] at hget
    rw [hnone, Option.isSome_none, Bool.false_or] at hpostgres
    rw [hharmless]
    cases hviolates : s.postgres.violates release.key (rowOf release) with
    | true =>
      rw [hviolates, if_pos rfl] at hpostgres
      simp only [Act.at, apply, raises, Rows.apply, hmemory, hpostgres]
      exact iff_of_false (not_agreed fun heq => by cases heq) (by decide)
    | false =>
      have hcreatable := hharmless.2 hviolates
      rw [hviolates, if_neg Bool.false_ne_true] at hpostgres
      simp only [Act.at, apply, raises, Rows.apply, hmemory, hpostgres]
      refine iff_of_true (agreed_raised h rfl (same_set h.same rfl)
        (columns_set h.columns rfl rfl rfl) ?_) trivial
      exact (oneLive_create_iff h.memoryLive hget).2 (hcreatable hget)

/-! ## Transitions -/

theorem transitionRelease_of_valid (now : ℚ) (hr : repo.releases.get? key = some r)
    (hvalid : validateReleaseTransition r.status target rollback = .ok ()) :
    ∃ out, repo.transitionRelease key target rollback now = .ok out := by
  unfold Repository.transitionRelease
  rw [hr]
  dsimp only
  rw [hvalid]
  exact ⟨_, rfl⟩

theorem transitionRelease_of_invalid {e : FeedbackError} (hr : repo.releases.get? key = some r)
    (hvalid : validateReleaseTransition r.status target rollback = .error e) :
    repo.transitionRelease key target rollback now = .error e := by
  unfold Repository.transitionRelease
  rw [hr]
  dsimp only
  rw [hvalid]
  rfl

theorem same_alone (hsame : Same repo rows) (hr : repo.releases.get? key = some r)
    (hrow : r.timeless = current.document.timeless)
    (h : repo.transitionRelease key target rollback now = .ok out) (hnone : out.previous = none) :
    Same out.repo (rows.set key (current.moveTo target now')) := by
  obtain ⟨_, hr', -, hupdated, -⟩ := transitionRelease_eq_ok h
  obtain rfl := Option.some.inj (hr.symm.trans hr')
  intro k
  rw [get?_transition h, get?_set, hnone]
  by_cases hk : k = key
  · rw [if_pos hk, if_pos hk, hupdated]
    exact congrArg some (timeless_moveTo hrow target now now')
  · rw [if_neg hk, if_neg hk, if_neg (fun hp => by obtain ⟨p, hp, -⟩ := hp; cases hp)]
    exact hsame k

theorem same_superseding {p d : ModelRelease} (hsame : Same repo rows)
    (hr : repo.releases.get? key = some r) (hrow : r.timeless = current.document.timeless)
    (h : repo.transitionRelease key .active rollback now = .ok out)
    (hprevious : out.previous = some (p.retire now)) (hp : d.timeless = p.timeless)
    (hd : other.document = d) :
    Same out.repo ((rows.set p.key (other.retire now')).set key (current.moveTo .active now')) := by
  obtain ⟨_, hr', -, hupdated, -⟩ := transitionRelease_eq_ok h
  obtain rfl := Option.some.inj (hr.symm.trans hr')
  intro k
  rw [get?_transition h, get?_set, get?_set, hprevious]
  by_cases hk : k = key
  · rw [if_pos hk, if_pos hk, hupdated]
    exact congrArg some (timeless_moveTo hrow .active now now')
  · rw [if_neg hk, if_neg hk]
    by_cases hkp : k = p.key
    · rw [if_pos ⟨_, rfl, hkp⟩, if_pos hkp]
      subst hd
      exact congrArg some (timeless_retire hp.symm now now')
    · rw [if_neg hkp, if_neg fun heq => by
        obtain ⟨q, hq, hkq⟩ := heq
        rw [← Option.some.inj hq] at hkq
        exact hkp hkq]
      exact hsame k

theorem columns_moveTo (target : ModelReleaseStatus) (now : ℚ) (h : Columns rows)
    (hcurrent : rows.get? key = some current) : (current.moveTo target now).document.key = key ∧
      (current.moveTo target now).capability = (current.moveTo target now).document.capability ∧
      (current.moveTo target now).status = (current.moveTo target now).document.status :=
  ⟨(h key current hcurrent).1, (h key current hcurrent).2.1, rfl⟩

theorem columns_retire (now : ℚ) (h : Columns rows) (hother : rows.get? key = some other) :
    (other.retire now).document.key = key ∧
      (other.retire now).capability = (other.retire now).document.capability ∧
      (other.retire now).status = (other.retire now).document.status :=
  ⟨(h key other hother).1, (h key other hother).2.1, rfl⟩

theorem agreed_transition_valid (h : Agreed s)
    (hr : s.memory.releases.get? key = some r) (hcurrent : s.postgres.get? key = some current)
    (hrow : r.timeless = current.document.timeless)
    (hvalid : validateReleaseTransition r.status target rollback = .ok ())
    (hout : s.memory.transitionRelease key target rollback now = .ok out)
    (hstep : s.step scan (.transition key target rollback now, now') = some s') :
    Agreed s' ↔ (target = .active →
      ∀ r', Live s.memory key.scope r.capability r' → r'.key.modelId = key.modelId) := by
  obtain rfl := Option.some.inj hstep
  obtain ⟨-, hcapability, hstatus⟩ := fields_of_timeless hrow
  have hcolumn : r.capability = current.capability :=
    hcapability.trans (h.columns key current hcurrent).2.1.symm
  have hvalid' : validateReleaseTransition current.document.status target rollback = .ok () :=
    hstatus ▸ hvalid
  have hspec := supersedes_of_transition h.memoryLive hout
  have hone : OneLive out.repo := oneLive_transition h.memoryLive hout
  obtain ⟨_, hr₀, -, hupdated, -⟩ := transitionRelease_eq_ok hout
  obtain rfl := Option.some.inj (hr.symm.trans hr₀)
  have hcapable : out.updated.capability = r.capability := by
    rw [hupdated]
    rfl
  by_cases hother : target = .active ∧ ∃ p, Live s.memory key.scope r.capability p ∧ p.key ≠ key
  · obtain ⟨rfl, p, hp, hne⟩ := hother
    have hprevious : out.previous = some (p.retire now) :=
      (hspec.previous _).2 ⟨rfl, p, hcapable ▸ hp, hne, rfl⟩
    obtain ⟨_, hlive, htimeless⟩ := liveRow_of_live h.same h.columns hp
    rw [hcolumn] at hlive
    by_cases hmodel : p.key.modelId = key.modelId
    · obtain ⟨_, _, hpostgres⟩ := transition_superseding scan now' h.columns
         h.postgresLive hcurrent hvalid' hlive hne hmodel
      simp only [Act.at, apply, raises, Rows.apply, hout, hpostgres]
      refine iff_of_true (agreed_raised h rfl
        (same_superseding h.same hr hrow hout hprevious htimeless rfl) ?_ hone) fun _ r' hr' => ?_
      · obtain ⟨hk, hc, hs⟩ := columns_retire now' h.columns hlive.stored
        obtain ⟨hk', hc', hs'⟩ := columns_moveTo .active now' h.columns hcurrent
        exact columns_set (columns_set h.columns hk hc hs) hk' hc' hs'
      · rwa [h.memoryLive hr' hp]
    · have hpostgres := transition_violating scan now' h.columns h.postgresLive
        hcurrent hvalid' hlive hmodel
      simp only [Act.at, apply, raises, Rows.apply, hout, hpostgres]
      exact iff_of_false (not_agreed fun heq => by cases heq)
        fun hmodels => hmodel (hmodels trivial p hp)
  · have hnone : out.previous = none := by
      cases hprevious : out.previous with
      | none => rfl
      | some p =>
        obtain ⟨htarget, r', hr', hne, -⟩ := (hspec.previous p).1 hprevious
        exact absurd ⟨htarget, r', hcapable ▸ hr', hne⟩ hother
    have halone : target = .active → ∀ k other,
        LiveRow s.postgres key.scope current.capability k other → k = key := by
      intro htarget k _ hlive
      by_contra hne
      obtain ⟨p, hp, rfl⟩ := live_of_liveRow h.same h.columns hlive
      exact hother ⟨htarget, p, hcolumn ▸ hp, hne⟩
    obtain ⟨_, hpostgres⟩ := transition_alone scan now' h.columns hcurrent
      hvalid' halone
    simp only [Act.at, apply, raises, Rows.apply, hout, hpostgres]
    refine iff_of_true (agreed_raised h rfl (same_alone h.same hr hrow hout hnone) ?_ hone)
      fun htarget r' hr' => ?_
    · obtain ⟨hk', hc', hs'⟩ := columns_moveTo target now' h.columns hcurrent
      exact columns_set h.columns hk' hc' hs'
    · by_contra hmodel
      exact hother ⟨htarget, r', hr', fun heq => hmodel (congrArg Key.modelId heq)⟩

theorem agreed_transition (h : Agreed s)
    (hstep : s.step scan (.transition key target rollback now, now') = some s') :
    Agreed s' ↔ Harmless s (.transition key target rollback now, now') := by
  -- A call that raises in both stores leaves them as they are.
  have hraised (hmemory : ∃ e, s.memory.transitionRelease key target rollback now = .error e)
      (hpostgres : ∃ e, s.postgres.transitionRelease scan key target rollback now' = .error e) :
      Agreed s' := by
    obtain ⟨e, hmemory⟩ := hmemory
    obtain ⟨_, hpostgres⟩ := hpostgres
    obtain rfl := Option.some.inj hstep
    simp only [Act.at, apply, raises, Rows.apply, hmemory, hpostgres]
    exact agreed_raised h rfl h.same h.columns h.memoryLive
  cases hr : s.memory.releases.get? key with
  | none =>
    have hnone : s.postgres.get? key = none := by
      have hsame := h.same key
      rw [hr] at hsame
      exact Option.map_eq_none_iff.1 hsame.symm
    refine iff_of_true (hraised ⟨.notFound "model release not found", ?_⟩
      ⟨_, transition_missing hnone⟩) fun current hcurrent => by rw [hr] at hcurrent; cases hcurrent
    unfold Repository.transitionRelease
    rw [hr]
  | some r =>
    obtain ⟨current, hcurrent, hrow⟩ := row_of_release h.same hr
    have hharmless : Harmless s (.transition key target rollback now, now') ↔
        (validateReleaseTransition r.status target rollback = .ok () → target = .active →
          ∀ r', Live s.memory key.scope r.capability r' → r'.key.modelId = key.modelId) := by
      constructor
      · exact fun hharmless => hharmless r hr
      · intro hharmless _ hr'
        obtain rfl := Option.some.inj (hr.symm.trans hr')
        exact hharmless
    rw [hharmless]
    cases hvalid : validateReleaseTransition r.status target rollback with
    | error e =>
      have hinvalid : validateReleaseTransition current.document.status target rollback =
          .error e := (fields_of_timeless hrow).2.2 ▸ hvalid
      exact iff_of_true (hraised ⟨e, transitionRelease_of_invalid hr hvalid⟩
        ⟨e, transition_invalid hcurrent hinvalid⟩) fun hok => by cases hok
    | ok =>
      obtain ⟨_, hout⟩ := transitionRelease_of_valid now hr hvalid
      rw [agreed_transition_valid h hr hcurrent hrow.symm hvalid hout hstep]
      exact (imp_iff_right rfl).symm

theorem agreed_step (h : Agreed s) (hstep : s.step scan a = some s') :
    Agreed s' ↔ Harmless s a := by
  obtain ⟨act, _⟩ := a
  cases act with
  | create => exact agreed_create h hstep
  | transition => exact agreed_transition h hstep

theorem agreed_start : Agreed Stores.start where
  alike := by simp [Stores.start]
  same _ := rfl
  columns _ _ h := by cases h
  memoryLive := oneLive_empty
  postgresLive h := by cases h.stored

/-- **Runs.** The two stores agree in every state exactly when every call is harmless, in whatever
order the rows are selected. -/
theorem stores_agree_iff (scan : Scan) (acts : List (Act × ℚ)) :
    (∀ s ∈ states (Stores.step scan) .start acts, Agreed s) ↔
      Along (Stores.step scan) Harmless .start acts :=
  states_iff nofun (fun _ _ _ => agreed_step) agreed_start

/-! ## Two models under one capability -/

/-- A release of a model, as `FeedbackService.create_release` makes it. -/
def candidate (modelId : String) : ModelRelease where
  key := ⟨⟨"acme", "city"⟩, modelId, "1.0.0"⟩
  capability := "face_detection"
  runtimeModelId := "face/detector"
  packageSha256 := ""
  evidenceRefs := []
  status := .candidate
  updatedAt := 0
  activatedAt := none
  retiredAt := none

/-- A release is created and activated. -/
def released (modelId : String) : List (Act × ℚ) :=
  let key := (candidate modelId).key
  [(.create (candidate modelId), 0), (.transition key .validated false 1, 1),
    (.transition key .approved false 2, 2), (.transition key .active false 3, 3)]

/-- The second model is activated in memory and raises in PostgreSQL. -/
theorem two_models :
    ¬(∀ s ∈ states (Stores.step .inOrder) .start (released "alpha" ++ released "beta"), Agreed s) ∧
    ((states (Stores.step .inOrder) .start (released "alpha" ++ released "beta")).getLast?.map
      fun s => s.raised.getLast?) = some (some (false, true)) := by
  have hlast : ((states (Stores.step .inOrder) .start (released "alpha" ++
      released "beta")).getLast?.map
      fun s => s.raised.getLast?) = some (some (false, true)) := by decide +kernel
  refine ⟨fun h => ?_, hlast⟩
  obtain ⟨s, hs, hraised⟩ := Option.map_eq_some_iff.1 hlast
  have halike := (h s (List.mem_of_getLast? hs)).alike _ (List.mem_of_getLast? hraised)
  cases halike

end Scenara.Release
