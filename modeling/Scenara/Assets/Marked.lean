import Scenara.Assets.Model

/-!
# Marking the objects of assets

What a sequence of `mark_objects_deleted` calls makes of the assets, in either state store.

* `deleted_at` is set by a call that marks the preview, when the original is marked by then;
  Postgres sees the preview only the first time (`Timely`).
-/

namespace Scenara.Assets

open Scenara.Core
open Result (Category OwnerType RetentionRecord StateStore)

variable {M : Type} {s : Store M} {key : Key} {asset : MediaAsset M} {store : StateStore}
  {category : Category} {id : String}

/-! ## Assets and their objects -/

/-- The object of the asset that is tracked under the category. -/
def MediaAsset.object (asset : MediaAsset M) : Category → Option String
  | .rawMedia => some asset.objectKey
  | .preview => asset.previewObjectKey
  | _ => none

/-- Its objects. -/
def MediaAsset.objectKeys (asset : MediaAsset M) : List String :=
  asset.objectKey :: asset.previewObjectKey.toList

/-- Nothing of an asset is deleted, and the rows that name it are those of its objects. -/
structure Tracked (s : Store M) : Prop where
  whole : ∀ key asset, s.assets.get? key = some asset →
    asset.originalDeletedAt = none ∧ asset.deletedAt = none
  tracked : ∀ key asset category id, s.assets.get? key = some asset →
    asset.object category = some id →
    ∃ row, s.retention.get? { key with id := id } = some row ∧ row.ownerType = .mediaAsset ∧
      row.category = category ∧ row.ownerId = key.id ∧ row.deletedAt = none
  owned : ∀ key asset id row, s.assets.get? key = some asset →
    s.retention.get? { key with id := id } = some row → row.ownerType = .mediaAsset →
    row.ownerId = key.id → asset.object row.category = some id

/-! ## Runs -/

/-- A `mark_objects_deleted` call. -/
structure Marking where
  objectKeys : List String
  now : ℚ

/-- The calls, one after the other. -/
def Store.markAll (store : StateStore) (s : Store M) (calls : List Marking) : Store M :=
  calls.foldl (fun s call => s.markObjectsDeleted store call.objectKeys call.now) s

/-- The keys that the calls mark. -/
def marked (calls : List Marking) : List String := calls.flatMap Marking.objectKeys

/-- The record, its times aside. -/
def MediaAsset.timeless (asset : MediaAsset M) : MediaAsset M :=
  { asset with
    originalDeletedAt := asset.originalDeletedAt.map fun _ => 0
    deletedAt := asset.deletedAt.map fun _ => 0 }

/-- What the record should be, its times aside, when the keys were marked. -/
def MediaAsset.settled (objectKeys : List String) (asset : MediaAsset M) : MediaAsset M :=
  let previewGone := asset.previewObjectKey.any fun preview => decide (preview ∈ objectKeys)
  { asset with
    previewObjectKey := if previewGone then none else asset.previewObjectKey
    previewContentType := if previewGone then none else asset.previewContentType
    previewSha256 := if previewGone then none else asset.previewSha256
    originalDeletedAt := if asset.objectKey ∈ objectKeys then some 0 else none
    deletedAt := if ∀ objectKey ∈ asset.objectKeys, objectKey ∈ objectKeys then some 0 else none }

/-- The assets are what they should be. -/
def Settles (store : StateStore) (s : Store M) (calls : List Marking) : Prop :=
  ∀ key, ((s.markAll store calls).assets.get? key).map MediaAsset.timeless =
    (s.assets.get? key).map (MediaAsset.settled (marked calls))

/-- The first call with the key. -/
def first (calls : List Marking) (objectKey : String) : Nat :=
  calls.findIdx fun call => decide (objectKey ∈ call.objectKeys)

/-- The preview is marked, and the original is no later. -/
def Timely (asset : MediaAsset M) (calls : List Marking) : Prop :=
  ∃ preview ∈ asset.previewObjectKey, preview ∈ marked calls ∧
    first calls asset.objectKey ≤ first calls preview

/-- Every asset whose objects are all marked has a preview, and the first call with its original is
no later than the first with that. -/
def OriginalFirst (s : Store M) (calls : List Marking) : Prop :=
  ∀ key asset, s.assets.get? key = some asset →
    (∀ objectKey ∈ asset.objectKeys, objectKey ∈ marked calls) → Timely asset calls

/-! ## Rows -/

variable {calls : List Marking} {call : Marking} {row : RetentionRecord}

theorem marked_snoc : marked (calls ++ [call]) = marked calls ++ call.objectKeys := by
  simp [marked]

theorem Store.markAll_snoc : s.markAll store (calls ++ [call]) =
    (s.markAll store calls).markObjectsDeleted store call.objectKeys call.now := by
  simp [Store.markAll]

theorem get?_markAll_retention (store : StateStore) (calls : List Marking)
    (h : s.retention.get? key = some row) :
    ∃ deletedAt, (s.markAll store calls).retention.get? key =
        some { row with deletedAt := deletedAt } ∧
      (row.deletedAt = none → (deletedAt = none ↔ key.id ∉ marked calls)) := by
  induction calls using List.reverseRecOn with
  | nil => exact ⟨row.deletedAt, h, fun hnone => by simp [hnone, marked]⟩
  | append_singleton _ call ih =>
    obtain ⟨deletedAt, hget, hmarked⟩ := ih
    rw [Store.markAll_snoc, Store.markObjectsDeleted, Store.get?_mark_retention, hget, marked_snoc]
    by_cases htouch :
        Store.touches store call.objectKeys key { row with deletedAt := deletedAt } = true
    · rw [Option.map_some, if_pos htouch]
      refine ⟨some call.now, rfl, fun _ => ?_⟩
      have hkey : key.id ∈ call.objectKeys := of_decide_eq_true (Bool.and_eq_true_iff.1 htouch).1
      simp [hkey]
    · rw [Option.map_some, if_neg htouch]
      refine ⟨deletedAt, rfl, fun hnone => ?_⟩
      rw [hmarked hnone, List.mem_append, not_or]
      refine (and_iff_left_of_imp fun hout hkey => htouch ?_).symm
      simp [Store.touches, hkey, (hmarked hnone).2 hout]

theorem get?_markAll_retention_none (calls : List Marking) (h : s.retention.get? key = none) :
    (s.markAll store calls).retention.get? key = none := by
  induction calls using List.reverseRecOn with
  | nil => exact h
  | append_singleton _ _ ih =>
    rw [Store.markAll_snoc, Store.markObjectsDeleted, Store.get?_mark_retention, ih,
      Option.map_none]

/-- The object is among the keys, and the store has not marked it yet, if it looks at that. -/
def Hit (store : StateStore) (calls : List Marking) (call : Marking) (objectKey : String) : Prop :=
  objectKey ∈ call.objectKeys ∧ (store = .postgres → objectKey ∉ marked calls)

theorem mem_owners_markAll (hs : Tracked s) (ha : s.assets.get? key = some asset) :
    key ∈ (s.markAll store calls).owners (Store.touches store call.objectKeys) category ↔
      ∃ objectKey ∈ asset.object category, Hit store calls call objectKey := by
  have htouch : ∀ (key : Key) (row : RetentionRecord),
      Store.touches store call.objectKeys key row = true ↔
        key.id ∈ call.objectKeys ∧ (store = .postgres → row.deletedAt = none) := by
    intro _ _
    cases store <;> simp [Store.touches]
  rw [Store.mem_owners]
  constructor
  · rintro ⟨id, row, hget, hrow, howner, hcategory, hid⟩
    cases hold : s.retention.get? { key with id := id } with
    | none =>
      simp [get?_markAll_retention_none calls hold] at hget
    | some old =>
      obtain ⟨_, hget', hmarked⟩ := get?_markAll_retention store calls hold
      rw [hget] at hget'
      cases hget'
      have hobject := hs.owned key asset id old ha hold howner hid
      obtain ⟨_, hold', -, -, -, hnone⟩ := hs.tracked key asset _ id ha hobject
      rw [hold] at hold'
      cases hold'
      obtain ⟨hkey, hunmarked⟩ := (htouch _ _).1 hrow
      exact ⟨id, hcategory ▸ hobject, hkey, fun hstore => (hmarked hnone).1 (hunmarked hstore)⟩
  · rintro ⟨id, hobject, hkey, hout⟩
    obtain ⟨_, hget, howner, hcategory, hid, hnone⟩ := hs.tracked key asset category id ha hobject
    obtain ⟨_, hget', hmarked⟩ := get?_markAll_retention store calls hget
    exact ⟨id, _, hget', (htouch _ _).2 ⟨hkey, fun hstore => (hmarked hnone).2 (hout hstore)⟩,
      howner, hcategory, hid⟩

/-! ## Records -/

theorem first_lt_length {x : String} : first calls x < calls.length ↔ x ∈ marked calls := by
  simp [first, marked, List.findIdx_lt_length]

theorem first_snoc (x : String) : first (calls ++ [call]) x =
    if x ∈ marked calls then first calls x
    else if x ∈ call.objectKeys then calls.length else calls.length + 1 := by
  simp only [← @first_lt_length calls, first, List.findIdx_append, List.findIdx_singleton]
  by_cases hcall : x ∈ call.objectKeys
  · simp [hcall]
  · simp [hcall, Nat.add_comm]

theorem timely_snoc : Timely asset (calls ++ [call]) ↔ Timely asset calls ∨
    ∃ preview ∈ asset.previewObjectKey, preview ∉ marked calls ∧ preview ∈ call.objectKeys ∧
      asset.objectKey ∈ marked (calls ++ [call]) := by
  have horder : ∀ preview, preview ∈ marked (calls ++ [call]) ∧
      first (calls ++ [call]) asset.objectKey ≤ first (calls ++ [call]) preview ↔
      (preview ∈ marked calls ∧ first calls asset.objectKey ≤ first calls preview) ∨
        (preview ∉ marked calls ∧ preview ∈ call.objectKeys ∧
          asset.objectKey ∈ marked (calls ++ [call])) := by
    intro preview
    by_cases hp : preview ∈ marked calls
    · -- the first call with the preview is among the earlier ones
      have hlt := first_lt_length.2 hp
      have hp' : preview ∈ marked (calls ++ [call]) := by
        rw [marked_snoc]
        exact List.mem_append_left _ hp
      simp only [hp, hp', true_and, not_true, false_and, or_false]
      rw [first_snoc preview, if_pos hp, first_snoc]
      split_ifs with ho
      · rfl
      all_goals
        have hle := mt first_lt_length.1 ho
        omega
    · rw [marked_snoc, List.mem_append]
      simp only [hp, false_or, false_and, not_false_iff, true_and]
      refine and_congr_right fun hcall => ?_
      rw [first_snoc preview, if_neg hp, if_pos hcall, first_snoc, List.mem_append]
      split_ifs with ho ho'
      · simp only [ho, true_or, iff_true]
        exact (first_lt_length.2 ho).le
      · simp [ho']
      · simp [ho, ho']
  unfold Timely
  rw [← exists_or]
  refine exists_congr fun preview => ?_
  rw [horder, and_or_left]

/-- The record with its times aside, as the keys and the flag say. -/
def MediaAsset.aged (objectKeys : List String) (gone : Bool) (asset : MediaAsset M) :
    MediaAsset M :=
  { asset.settled objectKeys with deletedAt := if gone then some 0 else none }

theorem MediaAsset.timeless_update (asset : MediaAsset M) (rawGone previewGone : Bool) (now : ℚ) :
    (asset.update rawGone previewGone now).timeless =
      asset.timeless.update rawGone previewGone 0 := by
  cases horiginal : asset.originalDeletedAt <;> cases rawGone <;> cases previewGone <;>
    simp [MediaAsset.timeless, MediaAsset.update, horiginal]

theorem hit_iff (objectKey : String) : objectKey ∈ marked (calls ++ [call]) ↔
    objectKey ∈ marked calls ∨ Hit store calls call objectKey := by
  rw [marked_snoc, List.mem_append, Hit]
  by_cases h : objectKey ∈ marked calls <;> simp [h]

theorem MediaAsset.update_aged {keys keys' : List String} {gone rawGone previewGone : Bool}
    (hraw : asset.objectKey ∈ keys' ↔ asset.objectKey ∈ keys ∨ rawGone = true)
    (hpreview : (asset.previewObjectKey.any fun preview => decide (preview ∈ keys')) =
      (asset.previewObjectKey.any (fun preview => decide (preview ∈ keys)) || previewGone)) :
    (asset.aged keys gone).update rawGone previewGone 0 =
      asset.aged keys' (gone || previewGone && (rawGone || decide (asset.objectKey ∈ keys))) := by
  simp only [MediaAsset.aged, MediaAsset.settled, MediaAsset.update, hpreview]
  by_cases hold : asset.objectKey ∈ keys <;> cases rawGone <;> cases previewGone <;> cases gone <;>
    simp_all

/-- The flag says whether the calls have set `deleted_at`. -/
structure Flag (store : StateStore) (asset : MediaAsset M) (calls : List Marking) (gone : Bool) :
    Prop where
  all : gone = true → ∀ objectKey ∈ asset.objectKeys, objectKey ∈ marked calls
  timely : Timely asset calls → gone = true
  postgres : store = .postgres → gone = true → Timely asset calls

theorem Flag.snoc {gone rawGone previewGone : Bool} (h : Flag store asset calls gone)
    (hraw : rawGone = true ↔ Hit store calls call asset.objectKey) (hpreview : previewGone = true ↔
      ∃ preview ∈ asset.previewObjectKey, Hit store calls call preview) :
    Flag store asset (calls ++ [call])
      (gone || previewGone && (rawGone || decide (asset.objectKey ∈ marked calls))) := by
  have hgone : (gone || previewGone && (rawGone || decide (asset.objectKey ∈ marked calls))) =
      true ↔ gone = true ∨ (∃ preview ∈ asset.previewObjectKey, Hit store calls call preview) ∧
        asset.objectKey ∈ marked (calls ++ [call]) := by
    rw [Bool.or_eq_true, Bool.and_eq_true, Bool.or_eq_true, decide_eq_true_iff, hraw, hpreview,
      @hit_iff store, or_comm (a := Hit _ _ _ _)]
  constructor
  · rw [hgone]
    rintro (hold | ⟨⟨_, hmem, hhit⟩, horiginal⟩) objectKey hobject
    · rw [marked_snoc]
      exact List.mem_append_left _ (h.all hold objectKey hobject)
    · rcases List.mem_cons.1 hobject with rfl | hobject
      · exact horiginal
      · rw [Option.mem_def.1 hmem] at hobject
        rw [List.mem_singleton.1 hobject]
        exact (hit_iff _).2 (.inr hhit)
  · rw [timely_snoc, hgone]
    rintro (hold | ⟨preview, hmem, hout, hcall, horiginal⟩)
    · exact .inl (h.timely hold)
    · exact .inr ⟨⟨preview, hmem, hcall, fun _ => hout⟩, horiginal⟩
  · intro hstore
    rw [timely_snoc, hgone]
    rintro (hold | ⟨⟨preview, hmem, hhit⟩, horiginal⟩)
    · exact .inl (h.postgres hstore hold)
    · exact .inr ⟨preview, hmem, hhit.2 hstore, hhit.1, horiginal⟩

theorem get?_markAll_assets (hs : Tracked s) (ha : s.assets.get? key = some asset)
    (store : StateStore) (calls : List Marking) :
    ∃ current gone, (s.markAll store calls).assets.get? key = some current ∧
      current.timeless = asset.aged (marked calls) gone ∧ Flag store asset calls gone := by
  induction calls using List.reverseRecOn with
  | nil =>
    obtain ⟨horiginal, hdeleted⟩ := hs.whole key asset ha
    refine ⟨asset, false, ha, ?_, by simp, ?_, by simp⟩
    · simp [MediaAsset.timeless, MediaAsset.aged, MediaAsset.settled, marked, horiginal, hdeleted]
    · rintro ⟨_, -, hmem, -⟩
      cases hmem
  | append_singleton calls call ih =>
    obtain ⟨_, _, hget, haged, hflag⟩ := ih
    have hraw : decide (key ∈ (s.markAll store calls).owners (Store.touches store call.objectKeys)
        .rawMedia) = true ↔ Hit store calls call asset.objectKey := by
      rw [decide_eq_true_iff, mem_owners_markAll hs ha]
      simp [MediaAsset.object]
    have hpreview : decide
        (key ∈ (s.markAll store calls).owners (Store.touches store call.objectKeys)
        .preview) = true ↔ ∃ preview ∈ asset.previewObjectKey, Hit store calls call preview := by
      rw [decide_eq_true_iff]
      exact mem_owners_markAll hs ha
    rw [Store.markAll_snoc, Store.markObjectsDeleted, Store.get?_mark_assets, hget]
    refine ⟨_, _, rfl, ?_, hflag.snoc hraw hpreview⟩
    rw [MediaAsset.timeless_update, haged]
    refine MediaAsset.update_aged ?_ (Bool.eq_iff_iff.2 ?_)
    · rw [hraw]
      exact hit_iff _
    · rw [Bool.or_eq_true, hpreview]
      cases asset.previewObjectKey with
      | none => simp
      | some preview => simpa using hit_iff preview

theorem get?_markAll_assets_none (store : StateStore) (calls : List Marking)
    (h : s.assets.get? key = none) : (s.markAll store calls).assets.get? key = none := by
  induction calls using List.reverseRecOn with
  | nil => exact h
  | append_singleton _ _ ih =>
    rw [Store.markAll_snoc, Store.markObjectsDeleted, Store.get?_mark_assets, ih, Option.map_none]

/-! ## Order and batching -/

theorem aged_eq_settled_iff {gone : Bool} (keys : List String) :
    asset.aged keys gone = asset.settled keys ↔
      (gone = true ↔ ∀ objectKey ∈ asset.objectKeys, objectKey ∈ keys) := by
  by_cases h : ∀ objectKey ∈ asset.objectKeys, objectKey ∈ keys <;> cases gone <;>
    simp [MediaAsset.aged, MediaAsset.settled, h]

/-- **Marking the objects of assets.** In both stores the records are what the set of marked keys
says exactly when originals come first; then they depend on nothing else. -/
theorem marks_settle (hs : Tracked s) (calls : List Marking) :
    ((∀ store, Settles store s calls) ↔ OriginalFirst s calls) ∧
      (OriginalFirst s calls → ∀ calls', OriginalFirst s calls' →
        (∀ objectKey, objectKey ∈ marked calls' ↔ objectKey ∈ marked calls) → ∀ store store' key,
        ((s.markAll store calls).assets.get? key).map MediaAsset.timeless =
          ((s.markAll store' calls').assets.get? key).map MediaAsset.timeless) := by
  have hsettles : ∀ calls, OriginalFirst s calls → ∀ store, Settles store s calls := by
    intro calls hfirst store key
    cases ha : s.assets.get? key with
    | none => rw [get?_markAll_assets_none store calls ha, Option.map_none, Option.map_none]
    | some asset =>
      obtain ⟨_, _, hget, haged, hflag⟩ := get?_markAll_assets hs ha store calls
      rw [hget, Option.map_some, Option.map_some, haged]
      exact congrArg some ((aged_eq_settled_iff _).2
        ⟨hflag.all, fun hall => hflag.timely (hfirst key asset ha hall)⟩)
  refine ⟨⟨fun h key asset ha hall => ?_, hsettles calls⟩, ?_⟩
  · -- Postgres sets `deleted_at` only in time
    obtain ⟨_, _, hget, haged, hflag⟩ := get?_markAll_assets hs ha .postgres calls
    have hsettled := h .postgres key
    rw [hget, ha, Option.map_some, Option.map_some, Option.some_inj, haged,
      aged_eq_settled_iff] at hsettled
    exact hflag.postgres rfl (hsettled.2 hall)
  · intro hfirst calls' hfirst' hkeys store store' key
    have hsame : ∀ asset : MediaAsset M, asset.settled (marked calls') =
        asset.settled (marked calls) := by
      intro _
      simp only [MediaAsset.settled, hkeys]
    rw [hsettles calls hfirst store key, hsettles calls' hfirst' store' key]
    exact Option.map_congr fun asset _ => (hsame asset).symm

/-- One asset, its original and its preview. -/
def single : Store Unit where
  assets := Dict.empty.insert ⟨"t", "p", "a"⟩
    ⟨.image, none, none, "image/png", 1, "0", "o", some "v", some "image/jpeg", some "1", (), false,
      0, none, none, none⟩
  retention := (Dict.empty.insert ⟨"t", "p", "o"⟩ ⟨.rawMedia, .mediaAsset, "a", 0, some 1,
    none⟩).insert ⟨"t", "p", "v"⟩ ⟨.preview, .mediaAsset, "a", 0, some 1, none⟩

theorem single_assets {asset : MediaAsset Unit} (ha : single.assets.get? key = some asset) :
    key = ⟨"t", "p", "a"⟩ ∧ single.assets.get? ⟨"t", "p", "a"⟩ = some asset := by
  have hkey : key = ⟨"t", "p", "a"⟩ := by
    by_contra hne
    simp [single, Dict.get?_insert_of_ne _ _ hne] at ha
  exact ⟨hkey, hkey ▸ ha⟩

theorem tracked_single : Tracked single := by
  constructor
  · intro key asset ha
    obtain ⟨rfl, ha⟩ := single_assets ha
    cases ha
    exact ⟨rfl, rfl⟩
  · intro key asset category id ha hobject
    obtain ⟨rfl, ha⟩ := single_assets ha
    cases ha
    cases category <;> cases hobject
    all_goals exact ⟨_, rfl, rfl, rfl, rfl, rfl⟩
  · intro _ _ _ _ ha hrow _ _
    obtain ⟨rfl, ha⟩ := single_assets ha
    cases ha
    simp only [single, Dict.get?_insert, Key.mk.injEq, true_and] at hrow
    split_ifs at hrow with hv ho
    · cases hrow
      rw [hv]
      rfl
    · cases hrow
      rw [ho]
      rfl
    · cases hrow

/-- The original, then the preview. -/
theorem single_settles : OriginalFirst single [⟨["o"], 2⟩, ⟨["v"], 3⟩] ∧
    ∀ store, Settles store single [⟨["o"], 2⟩, ⟨["v"], 3⟩] := by
  have hfirst : OriginalFirst single [⟨["o"], 2⟩, ⟨["v"], 3⟩] := by
    intro _ _ ha _
    obtain ⟨rfl, ha⟩ := single_assets ha
    cases ha
    exact ⟨"v", rfl, by decide, by decide⟩
  exact ⟨hfirst, (marks_settle tracked_single _).1.2 hfirst⟩

/-- The preview, then the original: `deleted_at` is not set, and in the other order it is. -/
theorem single_preview_first : Tracked single ∧
    ((Store.markAll .memory single [⟨["v"], 2⟩, ⟨["o"], 3⟩]).assets.get? ⟨"t", "p", "a"⟩).map
      MediaAsset.deletedAt = some none ∧
    ((Store.markAll .memory single [⟨["o"], 2⟩, ⟨["v"], 3⟩]).assets.get? ⟨"t", "p", "a"⟩).map
      MediaAsset.deletedAt = some (some 3) ∧
    ¬ Settles .memory single [⟨["v"], 2⟩, ⟨["o"], 3⟩] ∧
    ¬ Settles .postgres single [⟨["v"], 2⟩, ⟨["o"], 3⟩] := by
  refine ⟨tracked_single, by decide +kernel, by decide +kernel, fun h => ?_, fun h => ?_⟩
  all_goals exact absurd (h ⟨"t", "p", "a"⟩) (by decide +kernel)

end Scenara.Assets
