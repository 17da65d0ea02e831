import Scenara.DataService.Invariant

/-!
# The versions of a dataset

Versions are unique and listed exactly when each is stored under its dataset's id.
-/

namespace Scenara.DataService

open Scenara.Core

/-- The versions that were created for a dataset. -/
def versionsOf (s : DataStore) (tenantId projectId datasetId : String) : List Record :=
  ((s.records .versions).filter fun k r =>
    k.tenantId = tenantId ∧ k.projectId = projectId ∧
      is (get r "dataset_id") (some datasetId)).values

/-- `DATASET_VERSION_CONFLICT`. -/
def versionConflict : Error := ⟨"DATASET_VERSION_CONFLICT", "dataset version already exists", 409⟩

/-- Versions are unique and listed. -/
structure Listed (setting : Setting) (s : DataStore) : Prop where
  unique : ∀ k k' r r', (s.records .versions).get? k = some r →
    (s.records .versions).get? k' = some r' →
    k.tenantId = k'.tenantId → k.projectId = k'.projectId →
      get r "dataset_id" = get r' "dataset_id" →
    get r "version" = get r' "version" → k = k'
  /-- A label that the dataset has, with no key or with one that was not used before. -/
  conflict : ∀ q datasetId body, replayed s .versions q = none →
    (∃ r ∈ versionsOf s q.tenantId q.projectId datasetId, get r "version" = .str body.version) →
    (createVersion setting s q datasetId body).1 = .error versionConflict
  total : ∀ tenantId projectId datasetId cursor limit,
    (listVersions setting s tenantId projectId datasetId cursor limit).total =
      (versionsOf s tenantId projectId datasetId).length
  /-- The pages, put together. -/
  pages : ∀ tenantId projectId datasetId limit n,
    (versionsOf s tenantId projectId datasetId).length ≤ n * limit →
    (((List.range n).map fun i =>
      (listVersions setting s tenantId projectId datasetId (i * limit) limit).items).flatten).Perm
      (versionsOf s tenantId projectId datasetId)

/-- The dataset of a version is there. -/
def Based (s : DataStore) : Prop :=
  ∀ k r datasetId, (s.records .versions).get? k = some r → get r "dataset_id" = .str datasetId →
    ((s.records .datasets).get? ⟨k.tenantId, k.projectId, datasetId⟩).isSome

/-- Every version is stored under the id of its dataset. -/
def AtHome (s : DataStore) : Prop :=
  ∀ k r, (s.records .versions).get? k = some r → get r "dataset_id" = .str k.recordId

variable {setting : Setting} {s t : DataStore} {q : Request} {k : Key} {r : Record}
  {tenantId projectId datasetId : String}

theorem mem_versionsOf : r ∈ versionsOf s tenantId projectId datasetId ↔ ∃ k,
    (s.records .versions).get? k = some r ∧ k.tenantId = tenantId ∧ k.projectId = projectId ∧
      get r "dataset_id" = .str datasetId := by
  unfold versionsOf
  rw [Dict.mem_values]
  refine exists_congr fun k => ?_
  rw [Dict.get?_filter, Option.filter_eq_some_iff, decide_eq_true_eq, is_iff]
  rfl

theorem mem_versionRows : r ∈ versionRows setting s tenantId projectId datasetId ↔
    (s.records .versions).get? ⟨tenantId, projectId, datasetId⟩ = some r := by
  unfold versionRows sorted versionEntries
  rw [List.mem_mergeSort]
  change r ∈ Dict.values _ ↔ _
  rw [Dict.mem_values]
  constructor
  · rintro ⟨k, hk⟩
    rw [Dict.get?_filter, Option.filter_eq_some_iff, decide_eq_true_eq] at hk
    exact hk.2 ▸ hk.1
  · intro h
    exact ⟨_, by rw [Dict.get?_filter, Option.filter_eq_some_iff]; exact ⟨h, by simp⟩⟩

/-! ## At home -/

theorem rows_perm (h : AtHome s) :
    (versionRows setting s tenantId projectId datasetId).Perm
      (versionsOf s tenantId projectId datasetId) := by
  refine (List.mergeSort_perm _ _).trans (List.Perm.of_eq ?_)
  refine congrArg (List.map Prod.snd) (List.filter_congr fun e he => ?_)
  have hid := h e.1 e.2 ((Dict.mem_entries _ _ _).1 he)
  rw [decide_eq_decide, is_iff, hid]
  constructor
  · rintro heq
    rw [heq]
    exact ⟨rfl, rfl, rfl⟩
  · rintro ⟨rfl, rfl, hdataset⟩
    exact congrArg (Key.mk e.1.tenantId e.1.projectId) (Doc.str.inj hdataset)

theorem listed_of_atHome (hbased : Based s) (h : AtHome s) : Listed setting s where
  unique k k' r r' hr hr' htenant hproject hdataset _ := by
    have hid : k.recordId = k'.recordId := by
      rw [h k r hr, h k' r' hr'] at hdataset
      exact Doc.str.inj hdataset
    obtain ⟨_, _⟩ := k'
    cases htenant
    cases hproject
    cases hid
    rfl
  conflict q datasetId body hreplayed hlabel := by
    obtain ⟨r, hr, hversion⟩ := hlabel
    obtain ⟨k, hk, htenant, hproject, hdataset⟩ := mem_versionsOf.1 hr
    have hkey : k = ⟨q.tenantId, q.projectId, datasetId⟩ := by
      rw [h k r hk] at hdataset
      cases k
      cases htenant
      cases hproject
      cases hdataset
      rfl
    have hthere : ((s.records .datasets).get? (q.key datasetId)).isSome := by
      have hsome := hbased k r datasetId hk hdataset
      rwa [htenant, hproject] at hsome
    have hclash : (versionEntries s q.tenantId q.projectId datasetId).any
        (fun e => is (get e.2 "version") (some body.version)) = true := by
      refine List.any_eq_true.2 ⟨(k, r), ?_, is_iff.2 hversion⟩
      exact List.mem_filter.2 ⟨(Dict.mem_entries _ _ _).2 hk, decide_eq_true hkey⟩
    unfold createVersion
    rw [if_neg (by simpa [Option.isSome_iff_ne_none] using hthere), hreplayed]
    exact congrArg Prod.fst (if_pos hclash)
  total tenantId projectId datasetId cursor limit := (rows_perm h).length_eq
  pages tenantId projectId datasetId limit n hn := by
    have hrows : (versionRows setting s tenantId projectId datasetId).Perm _ := rows_perm h
    refine List.Perm.trans (List.Perm.of_eq ?_) hrows
    refine (flatten_map_slice limit _ n).trans (List.take_of_length_le ?_)
    rwa [hrows.length_eq]

theorem atHome_of_listed (hinv : Inv setting s) (h : Listed setting s) : AtHome s := by
  intro k r hr
  have hshape : VersionShape k.recordId r := hinv.shape .versions k r hr
  obtain ⟨datasetId, hdataset⟩ := hshape.datasetId
  have hmem : r ∈ versionsOf s k.tenantId k.projectId datasetId :=
    mem_versionsOf.2 ⟨k, hr, rfl, rfl, hdataset⟩
  have hpages := h.pages k.tenantId k.projectId datasetId 1
    (versionsOf s k.tenantId k.projectId datasetId).length (Nat.mul_one _).ge
  -- On some page it stands, so it is stored under the id of its dataset.
  have hlisted : r ∈ versionRows setting s k.tenantId k.projectId datasetId := by
    have hpage := hpages.mem_iff.2 hmem
    obtain ⟨_, hpage, hr⟩ := List.mem_flatten.1 hpage
    obtain ⟨i, -, rfl⟩ := List.mem_map.1 hpage
    exact List.mem_of_mem_take (List.mem_of_mem_drop hr)
  have hhome : VersionShape datasetId r := hinv.shape .versions _ r (mem_versionRows.1 hlisted)
  rw [hdataset, ← hhome.versionId, hshape.versionId]

theorem listed_iff (hinv : Inv setting s) (hbased : Based s) : Listed setting s ↔ AtHome s :=
  ⟨atHome_of_listed hinv, listed_of_atHome hbased⟩

/-! ## Steps -/

theorem Writes.kept {entities : List Entity} {kind : Kind} (hw : Writes setting q entities s t)
    (h : (s.records kind).get? k ≠ none) : (t.records kind).get? k ≠ none := by
  induction hw with
  | refl | draw _ ih => assumption
  | create _ _ _ ih =>
    rw [DataStore.get?_create]
    split
    · exact Option.some_ne_none _
    · exact ih
  | update _ _ _ _ ih =>
    rw [DataStore.get?_save]
    split
    · exact Option.some_ne_none _
    · exact ih

theorem Writes.versions {entities : List Entity} (hw : Writes setting q entities s t)
    (hinv : Inv setting s)
    (hno : .version ∉ entities) (hr : (t.records .versions).get? k = some r) :
    ∃ r', (s.records .versions).get? k = some r' ∧ identity r = identity r' := by
  induction hw generalizing k r with
  | refl => exact ⟨r, hr, rfl⟩
  | draw _ ih => exact ih hr
  | create _ hnew hentity ih =>
    rename_i entity item recordId idempotencyKey
    have hkind : Kind.versions ≠ entity.kind := by
      rintro hkind
      have hversion : entity = .version := by cases entity <;> first | rfl | cases hkind
      rw [hversion] at hentity
      rcases List.mem_cons.1 hentity with heq | hmem
      · cases heq
      · exact hno hmem
    rw [DataStore.get?_create, if_neg fun hboth => hkind hboth.1] at hr
    exact ih hr
  | update hw hfound hidentity _ ih =>
    rw [DataStore.get?_save] at hr
    split at hr
    · rename_i hboth
      obtain ⟨rfl, rfl⟩ := hboth
      cases hr
      rw [keyOf_congr hidentity, (hw.inv hinv).keyOf hfound]
      obtain ⟨r', hr', hold⟩ := ih hfound
      exact ⟨r', hr', hidentity.trans hold⟩
    · exact ih hr

/-- `create_version` gets as far as `store.save`. -/
def Stores (s : DataStore) (q : Request) (datasetId : String) (body : VersionCreate) : Prop :=
  ((s.records .datasets).get? (q.key datasetId)).isSome ∧ replayed s .versions q = none ∧
    ∀ e ∈ versionEntries s q.tenantId q.projectId datasetId, is (get e.2 "version")
      (some body.version) = false
  deriving Decidable

variable {body : VersionCreate}

theorem createVersion_of_not_stores (h : ¬Stores s q datasetId body) :
    (createVersion setting s q datasetId body).2 = s := by
  unfold createVersion
  split
  · rfl
  · rename_i hthere
    split
    · rfl
    · rename_i hreplayed
      rw [if_pos]
      by_contra hclash
      refine h ⟨by simpa [Option.isSome_iff_ne_none] using hthere, hreplayed, fun e he => ?_⟩
      rw [Bool.eq_false_iff]
      exact fun hversion => hclash (List.any_eq_true.2 ⟨e, he, hversion⟩)

theorem createVersion_of_stores (h : Stores s q datasetId body) (k : Key) :
    ((createVersion setting s q datasetId body).2.records .versions).get? k =
      if k = q.key ("dsv_" ++ s.uuid setting) then
        some (versionItem setting q ("dsv_" ++ s.uuid setting) datasetId body)
      else (s.records .versions).get? k := by
  obtain ⟨hthere, hreplayed, hclash⟩ := h
  have hnoClash : ¬(versionEntries s q.tenantId q.projectId datasetId).any
      (fun e => is (get e.2 "version") (some body.version)) = true := by
    rw [List.any_eq_true]
    rintro ⟨e, he, hversion⟩
    simp [hclash e he] at hversion
  have hnew : New setting q s.draw.drawn .version _ ("dsv_" ++ s.uuid setting) _ :=
    new_version datasetId body
  have hkey := hnew.keyOf
  unfold createVersion
  rw [if_neg (by simpa [Option.isSome_iff_ne_none] using hthere), hreplayed]
  rw [if_neg hnoClash, emit_other _ _ _ _ (by decide), DataStore.get?_create, hkey]
  simp [Entity.kind]

/-- A version that is stored has the id of its dataset. -/
def StoresAtHome (setting : Setting) (s : DataStore) (q : Request) : Prop :=
  match q.route with
  | .createVersion datasetId body => Stores s q datasetId body →
      datasetId = "dsv_" ++ s.uuid setting
  | _ => True

theorem atHome_createVersion (h : AtHome s) :
    AtHome (createVersion setting s q datasetId body).2 ↔
      (Stores s q datasetId body → datasetId = "dsv_" ++ s.uuid setting) := by
  by_cases hstores : Stores s q datasetId body
  · have hitem : get (versionItem setting q ("dsv_" ++ s.uuid setting) datasetId body)
        "dataset_id" = .str datasetId := by simp [versionItem, record, Dict.ofList]
    constructor
    · intro hhome _
      have hid := hhome (q.key ("dsv_" ++ s.uuid setting)) _
        ((createVersion_of_stores hstores _).trans (if_pos rfl))
      rw [hitem] at hid
      exact Doc.str.inj hid
    · intro hid k r hr
      rw [createVersion_of_stores hstores] at hr
      split at hr
      · rename_i hkey
        rw [← Option.some.inj hr, hitem, hkey]
        exact congrArg Doc.str (hid hstores)
      · exact h k r hr
  · rw [createVersion_of_not_stores hstores]
    exact iff_of_true h fun hyes => absurd hyes hstores

theorem atHome_handle (hinv : Inv setting s) (h : AtHome s) (q : Request) :
    AtHome (handle setting s q).2 ↔ StoresAtHome setting s q := by
  have hwrites := handle_writes hinv q
  unfold StoresAtHome
  cases hroute : q.route with
  | createVersion datasetId body =>
    rw [show handle setting s q = createVersion setting s q datasetId body by
      unfold handle
      rw [hroute]]
    exact atHome_createVersion h
  | _ =>
    refine iff_of_true (fun k r hr => ?_) trivial
    obtain ⟨r', hr', hidentity⟩ := hwrites.versions hinv (by simp [hroute, Route.creates]) hr
    rw [get_datasetId_congr hidentity]
    exact h k r' hr'

theorem based_handle (hinv : Inv setting s) (h : Based s) (q : Request) :
    Based (handle setting s q).2 := by
  have hwrites := handle_writes hinv q
  intro k r datasetId hr hdataset
  rw [Option.isSome_iff_ne_none]
  cases hroute : q.route with
  | createVersion datasetId' body =>
    rw [show handle setting s q = createVersion setting s q datasetId' body by
      unfold handle
      rw [hroute]] at hr hwrites ⊢
    by_cases hstores : Stores s q datasetId' body
    · rw [createVersion_of_stores hstores] at hr
      split at hr
      · rename_i hkey
        obtain rfl : datasetId' = datasetId := by
          rw [← Option.some.inj hr] at hdataset
          simpa [versionItem, record, Dict.ofList] using hdataset
        rw [hkey]
        exact hwrites.kept (Option.isSome_iff_ne_none.1 hstores.1)
      · exact hwrites.kept (Option.isSome_iff_ne_none.1 (h k r datasetId hr hdataset))
    · rw [createVersion_of_not_stores hstores] at hr ⊢
      exact Option.isSome_iff_ne_none.1 (h k r datasetId hr hdataset)
  | _ =>
    obtain ⟨r', hr', hidentity⟩ := hwrites.versions hinv (by simp [hroute, Route.creates]) hr
    rw [get_datasetId_congr hidentity] at hdataset
    exact hwrites.kept (Option.isSome_iff_ne_none.1 (h k r' datasetId hr' hdataset))

/-- **Versions are unique and listed** in every state of a run exactly when none is stored under an
id that is not its dataset's. -/
theorem versions_listed_iff (setting : Setting) (requests : List Request) :
    (∀ x ∈ states (step setting) .empty requests, Listed setting x) ↔
      Along (step setting) (StoresAtHome setting) .empty requests := by
  have hbased : ∀ x ∈ states (step setting) .empty requests, Inv setting x ∧ Based x := by
    refine invariant_states (P := fun _ _ => True) (fun s q t h _ hs => ?_) ⟨inv_empty, nofun⟩
      (along_of_forall (fun _ _ => trivial) _ _)
    cases hs
    exact ⟨inv_handle h.1 q, based_handle h.1 h.2 q⟩
  have hiff : (∀ x ∈ states (step setting) .empty requests, Inv setting x ∧ AtHome x) ↔
      Along (step setting) (StoresAtHome setting) .empty requests := by
    refine states_iff (fun s q hs => nomatch hs) (fun s q t h hs => ?_) ⟨inv_empty, nofun⟩
    cases hs
    rw [← atHome_handle h.1 h.2 q]
    exact and_iff_right (inv_handle h.1 q)
  rw [← hiff]
  refine forall₂_congr fun x hx => ?_
  obtain ⟨hinv, hbased⟩ := hbased x hx
  rw [listed_iff hinv hbased]
  exact (and_iff_right hinv).symm

/-- A dataset, and the same version of it twice. -/
def twice : List Request :=
  let version : VersionCreate :=
    ⟨"1.0.0", String.ofList (List.replicate 64 'a'), 0, by decide, by decide⟩
  [requestOf (.createDataset ⟨"faces", "", .empty, some "dst-1",
    [], by decide, by decide, by decide, by decide⟩),
    requestOf (.createVersion "dst-1" version), requestOf (.createVersion "dst-1" version)]

/-- One label is given to two versions of a dataset. -/
theorem label_twice : ¬∀ x ∈ states (step plain) .empty twice, Listed plain x := by
  intro h
  have hlast := h _ (mem_states_of_exec rfl)
  have hstored : ∀ hex ∈ ["xx", "xxxx"],
      (((twice.foldl (fun s q => (handle plain s q).2) .empty).records
      .versions).get? ⟨"t", "p", "dsv_" ++ hex⟩).map
        (fun r => is (get r "dataset_id") (some "dst-1") && is (get r "version") (some "1.0.0")) =
          some true := by
    decide +kernel
  obtain ⟨r, hr, hfields⟩ := Option.map_eq_some_iff.1 (hstored "xx" (by decide))
  obtain ⟨r', hr', hfields'⟩ := Option.map_eq_some_iff.1 (hstored "xxxx" (by decide))
  rw [Bool.and_eq_true, is_iff, is_iff] at hfields hfields'
  exact absurd (hlast.unique _ _ r r' hr hr' rfl rfl (hfields.1.trans hfields'.1.symm)
    (hfields.2.trans hfields'.2.symm)) (by decide)

end Scenara.DataService
