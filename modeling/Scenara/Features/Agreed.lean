import Scenara.Core.Raising
import Scenara.Core.Sorting
import Scenara.Core.Transition
import Scenara.Features.Postgres

/-!
# The feature stores agree
-/

namespace Scenara.Features

open Scenara.Core

variable {db : Database} {s : Store} {space : FeatureSpace} {feature : FeatureRecord}
variable {embedding : List Scalar}

/-! ## Embeddings -/

/-- The vector has the dimension of the space, and is finite. -/
def Normal (space : FeatureSpace) (embedding : List Scalar) : Prop :=
  embedding.length = space.dimension ∧ finite embedding = true
  deriving Decidable

/-- A vector of a cosine space is not zero. -/
def Directed (space : FeatureSpace) (embedding : List Scalar) : Prop :=
  space.distanceMetric = .cosine → zero (numbers embedding) = false
  deriving Decidable

theorem normalizeEmbedding_of_normal (h : Normal space embedding) :
    normalizeEmbedding embedding space.dimension = .ok (numbers embedding) := by
  unfold normalizeEmbedding
  rw [if_neg (not_not.2 h.1), h.2]
  rfl

theorem normalizeEmbedding_of_not (h : ¬Normal space embedding) :
    ∃ message, normalizeEmbedding embedding space.dimension =
      .error (.featureStoreError message) := by
  unfold normalizeEmbedding
  split_ifs with hlength hfinite
  · exact ⟨_, rfl⟩
  · exact ⟨_, rfl⟩
  · exact absurd ⟨not_not.1 hlength, by simpa using hfinite⟩ h

theorem compareEmbeddings_of_normal {g : Geometry} {left right : List Scalar}
    (hleft : Normal space left)
    (hright : Normal space right) (hdleft : Directed space left) (hdright : Directed space right) :
    compareEmbeddings g space left right =
      .ok (g.compare space.distanceMetric (numbers left) (numbers right)) := by
  unfold compareEmbeddings
  rw [normalizeEmbedding_of_normal hleft, normalizeEmbedding_of_normal hright]
  have hzero : ¬(space.distanceMetric = .cosine ∧
      (zero (numbers left) = true ∨ zero (numbers right) = true)) := by
    rintro ⟨hcosine, hzero⟩
    rw [hdleft hcosine, hdright hcosine] at hzero
    simp at hzero
  dsimp only [bind, Except.bind]
  rw [if_neg hzero]
  rfl

/-! ## Valid stores -/

/-- What is stored is under its own key, is read back as it is, and a feature fits its space. -/
structure Valid (db : Database) (s : Store) : Prop where
  spaceId : ∀ id space, s.spaces.get? id = some space → space.featureSpaceId = id
  spaceTime : ∀ id space, s.spaces.get? id = some space → db.readSpace space = space
  key : ∀ key feature, s.features.get? key = some feature → feature.toFeatureKey = key
  time : ∀ key feature, s.features.get? key = some feature → db.readFeature feature = feature
  space : ∀ key feature, s.features.get? key = some feature →
    ∃ space, s.spaces.get? feature.featureSpaceId = some space ∧ Normal space feature.embedding ∧
      Directed space feature.embedding

theorem valid_empty : Valid db .empty :=
  ⟨nofun, nofun, nofun, nofun, nofun⟩

theorem valid_insertSpace (h : Valid db s) (htime : db.readSpace space = space)
    (hnew : s.spaces.get? space.featureSpaceId = none) :
    Valid db { s with spaces := s.spaces.insert space.featureSpaceId space } := by
  refine ⟨fun id stored hget => ?_, fun id stored hget => ?_, h.key, h.time,
    fun key feature hget => ?_⟩
  · dsimp only at hget
    rw [Dict.get?_insert] at hget
    split_ifs at hget with hid
    · cases hget
      exact hid.symm
    · exact h.spaceId id stored hget
  · dsimp only at hget
    rw [Dict.get?_insert] at hget
    split_ifs at hget with hid
    · cases hget
      exact htime
    · exact h.spaceTime id stored hget
  · obtain ⟨stored, hstored, hfits⟩ := h.space key feature hget
    refine ⟨stored, ?_, hfits⟩
    rw [Dict.get?_insert_of_ne _ _ fun heq => by rw [heq, hnew] at hstored; cases hstored]
    exact hstored

theorem valid_insertFeature (h : Valid db s) (htime : db.readFeature feature = feature)
    (hspace : s.spaces.get? feature.featureSpaceId = some space)
    (hnormal : Normal space feature.embedding) (hdirected : Directed space feature.embedding) :
    Valid db { s with features := s.features.insert feature.toFeatureKey feature } := by
  have hcases : ∀ key stored, (s.features.insert feature.toFeatureKey feature).get? key =
      some stored →
      key = feature.toFeatureKey ∧ stored = feature ∨ s.features.get? key = some stored := by
    intro _ _ hget
    rw [Dict.get?_insert] at hget
    split_ifs at hget with hkey
    · cases hget
      exact .inl ⟨hkey, rfl⟩
    · exact .inr hget
  refine ⟨h.spaceId, h.spaceTime, fun key stored hget => ?_, fun key stored hget => ?_,
    fun key stored hget => ?_⟩
  · rcases hcases key stored hget with ⟨rfl, rfl⟩ | hold
    · rfl
    · exact h.key key stored hold
  · rcases hcases key stored hget with ⟨-, rfl⟩ | hold
    · exact htime
    · exact h.time key stored hold
  · rcases hcases key stored hget with ⟨-, rfl⟩ | hold
    · exact ⟨space, hspace, hnormal, hdirected⟩
    · exact h.space key stored hold

theorem valid_of_subset (h : Valid db s) {features : Dict FeatureKey FeatureRecord}
    (hsub : ∀ key feature, features.get? key = some feature → s.features.get? key = some feature) :
    Valid db { s with features := features } :=
  ⟨h.spaceId, h.spaceTime, fun key feature hget => h.key key feature (hsub key feature hget),
    fun key feature hget => h.time key feature (hsub key feature hget),
    fun key feature hget => h.space key feature (hsub key feature hget)⟩

theorem valid_discard (h : Valid db s) (p : FeatureKey → FeatureRecord → Bool) :
    Valid db (s.discard p) :=
  valid_of_subset h fun key feature hget => by
    rw [Dict.get?_filter] at hget
    exact (Option.filter_eq_some_iff.1 hget).1

/-! ## Calls that agree -/

/-- Both are the first `limit` of the same matches, ordered by their distances. -/
def SameMatches (limit : Nat) (found found' : List FeatureMatch) : Prop :=
  ∃ all all' : List FeatureMatch, all.Perm all' ∧ all.Pairwise (·.distance ≤ ·.distance) ∧
    all'.Pairwise (·.distance ≤ ·.distance) ∧ found = all.take limit ∧ found' = all'.take limit

/-- How many matches a call asks for. -/
def Call.limit : Call → Nat
  | .search _ _ _ _ limit _ _ => limit.toNat
  | _ => 0

/-- The same answer: the same matches up to equal distances, and the same features in any order. -/
def Answer.Same (limit : Nat) : Answer → Answer → Prop
  | .matches rows, answer => ∃ rows', answer = .matches rows' ∧ SameMatches limit rows rows'
  | .features rows, answer => ∃ rows', answer = .features rows' ∧ rows.Perm rows'
  | answer, answer' => answer = answer'

/-- Both raise `FeatureStoreError`, or both return the same. -/
def SameAnswer (limit : Nat) : Except Error Answer → Except Error Answer → Prop
  | .ok answer, .ok answer' => answer.Same limit answer'
  | .error e, .error e' => (∃ message, e = .featureStoreError message) ∧
      ∃ message, e' = .featureStoreError message
  | _, _ => False

/-- The features that have expired, with their keys. -/
def Store.expiredRows (s : Store) (before : ℚ) : List (FeatureKey × FeatureRecord) :=
  s.features.entries.filter fun row => row.2.expired before

/-- The order of the keys, of rows. -/
def byKey (x y : FeatureKey × FeatureRecord) : Prop := keyLe x.1 y.1
  deriving Decidable

/-- The texts and times of the call have their columns, and: a space is created under the contract
and with the time of the one stored, or where none of its contract is stored, at its own time; a
feature that the space takes is new and not longer than a column, with times that are read back; a
vector of another dimension is searched for only where there is a feature to compare it to; a
feature has expired by its column when it has by its time; where more features have expired than are
deleted, those that memory puts first come first by their columns. Vectors of a cosine space are not
zero. -/
def Fits (db : Database) (s : Store) : Call → Prop
  | .createSpace space now => bindable space.texts = true ∧
      (∀ stored ∈ s.spaces.get? space.featureSpaceId, stored.contract = space.contract →
        stored.createdAt = space.createdAt) ∧
      (s.spaces.get? space.featureSpaceId = none → now = space.createdAt ∧ db.readBack now = now ∧
        ∀ other ∈ s.spaces.values, sameContract space other = false)
  | .add feature => bindable [feature.featureSpaceId] = true ∧
      ∀ space ∈ s.spaces.get? feature.featureSpaceId, Normal space feature.embedding →
        Directed space feature.embedding ∧ s.features.get? feature.toFeatureKey = none ∧
          db.fits feature = true ∧ db.readFeature feature = feature
  | .search tenantId projectId featureSpaceId embedding limit _ now => 1 ≤ limit ∧ limit ≤ 1000 →
      bindable [featureSpaceId] = true ∧ ∀ space ∈ s.spaces.get? featureSpaceId,
        (¬Normal space embedding → s.live tenantId projectId featureSpaceId now ≠ []) ∧
        (Normal space embedding → Directed space embedding ∧ bindable [tenantId, projectId] = true ∧
          embedding.length ≤ maxDimensions ∧
          ∀ row ∈ s.features.entries, expiredRow db now row.2 = row.2.expired now)
  | .getFeature key | .deleteFeature key => bindable key.texts = true
  | .listSubjectFeatures tenantId projectId featureSpaceId subjectType subjectId =>
      bindable [tenantId, projectId, featureSpaceId, subjectType, subjectId] = true
  | .deleteSubject tenantId projectId subjectType subjectId =>
      bindable [tenantId, projectId, subjectType, subjectId] = true
  | .deleteExpired before limit => 1 ≤ limit ∧ limit ≤ 10000 → db.inRange before = true ∧
      (∀ row ∈ s.features.entries, expiredRow db before row.2 = row.2.expired before) ∧
      ∀ x ∈ s.expiredRows before, ∀ y ∈ s.expiredRows before,
        ahead byKey (s.expiredRows before) x < limit.toNat →
        limit.toNat ≤ ahead byKey (s.expiredRows before) y → ¬expiresBefore db y x

/-- The call is answered alike, and leaves the same valid store. -/
structure Alike (db : Database) (limit : Nat) (memory postgres : Outcome Answer) : Prop where
  answer : SameAnswer limit memory.1 postgres.1
  store : memory.2 = postgres.2
  valid : Valid db memory.2

variable {g : Geometry}

section

variable (hvalid : Valid db s)
include hvalid

theorem alike_createSpace {now : ℚ} (h : Fits db s (.createSpace space now)) :
    Alike db 0 ((Call.createSpace space now).onMemory g s)
      ((Call.createSpace space now).onPostgres db g s) := by
  obtain ⟨hbind, hstored, hnew⟩ := h
  simp only [Call.onMemory, Call.onPostgres, Store.createSpace, Store.insertSpace]
  cases hget : s.spaces.get? space.featureSpaceId with
  | none =>
    obtain ⟨rfl, hread, hunique⟩ := hnew hget
    have hnone : s.spaces.values.any (sameContract space) = false :=
      List.any_eq_false.2 fun other hother => by
      rw [hunique other hother]
      exact Bool.false_ne_true
    have hreadSpace : db.readSpace space = space := by
      unfold Database.readSpace
      rw [hread]
    simp only [hbind, hnone, hreadSpace, Bool.not_true, Bool.false_eq_true, if_false]
    exact ⟨rfl, rfl, valid_insertSpace hvalid hreadSpace hget⟩
  | some stored =>
    by_cases hcontract : stored.contract = space.contract
    · have hcreated := hstored stored hget hcontract
      have heq : stored = space := by
        cases stored
        cases space
        simp only [FeatureSpace.contract, FeatureSpace.mk.injEq] at hcontract hcreated ⊢
        simp [hcontract, hcreated]
      subst heq
      simp only [hbind, ne_eq, not_true, if_false, hvalid.spaceTime _ _ hget,
        Dict.insert_of_get? hget, Bool.not_true, Bool.false_eq_true]
      exact ⟨rfl, rfl, hvalid⟩
    · simp only [hbind, ne_eq, hcontract, not_false_eq_true, if_true, Bool.not_true,
        Bool.false_eq_true, if_false]
      exact ⟨⟨⟨_, rfl⟩, _, rfl⟩, rfl, hvalid⟩

theorem alike_add (h : Fits db s (.add feature)) :
    Alike db 0 ((Call.add feature).onMemory g s) ((Call.add feature).onPostgres db g s) := by
  obtain ⟨hbind, hfits⟩ := h
  simp only [Call.onMemory, Call.onPostgres, Store.add, Store.insertFeature, Store.getSpace, hbind,
    Bool.not_true, Bool.false_eq_true, if_false]
  cases hget : s.spaces.get? feature.featureSpaceId with
  | none => exact ⟨⟨⟨_, rfl⟩, _, rfl⟩, rfl, hvalid⟩
  | some space =>
    by_cases hnormal : Normal space feature.embedding
    · obtain ⟨hdirected, hnew, hcolumns, htime⟩ := hfits space hget hnormal
      simp only [normalizeEmbedding_of_normal hnormal, hnew, hcolumns, Option.isSome_none,
        Bool.not_true, Bool.or_self, Bool.false_eq_true, if_false]
      exact ⟨rfl, rfl, valid_insertFeature hvalid htime hget hnormal hdirected⟩
    · obtain ⟨_, hraised⟩ := normalizeEmbedding_of_not hnormal
      simp only [hraised]
      exact ⟨⟨⟨_, rfl⟩, _, rfl⟩, rfl, hvalid⟩

theorem alike_getFeature {key : FeatureKey} (hbind : bindable key.texts = true) :
    Alike db 0 ((Call.getFeature key).onMemory g s) ((Call.getFeature key).onPostgres db g s) := by
  have hread : (s.features.get? key).map db.readFeature = s.features.get? key := by
    cases hget : s.features.get? key with
    | none => rfl
    | some feature => exact congrArg some (hvalid.time key feature hget)
  simp only [Call.onMemory, Call.onPostgres, Store.getFeature, Store.selectFeature, hbind, hread,
    Bool.not_true, Bool.false_eq_true, if_false]
  exact ⟨rfl, rfl, hvalid⟩

theorem alike_listSubjectFeatures {tenantId projectId featureSpaceId subjectType subjectId : String}
    (hbind : bindable [tenantId, projectId, featureSpaceId, subjectType, subjectId] = true) :
    Alike db 0
      ((Call.listSubjectFeatures tenantId projectId featureSpaceId subjectType subjectId).onMemory g
        s)
      ((Call.listSubjectFeatures tenantId projectId featureSpaceId subjectType subjectId).onPostgres
        db g s) := by
  simp only [Call.onMemory, Call.onPostgres, Store.listSubjectFeatures, Store.selectSubject, hbind,
    Bool.not_true, Bool.false_eq_true, if_false]
  refine ⟨⟨_, rfl, ?_⟩, rfl, hvalid⟩
  have hrows : (s.subjectRows tenantId projectId featureSpaceId subjectType subjectId).map
      db.readFeature = s.subjectRows tenantId projectId featureSpaceId subjectType subjectId := by
    refine (List.map_congr_left fun feature hfeature => ?_).trans (List.map_id _)
    obtain ⟨row, hrow, rfl⟩ := List.mem_map.1 hfeature
    exact hvalid.time row.1 row.2 ((Dict.mem_entries _ _ _).1 (List.mem_of_mem_filter hrow))
  have hscan := (((db.scan_perm s.features.entries).filter fun row =>
    row.1.tenantId = tenantId && row.1.projectId = projectId &&
      row.2.featureSpaceId = featureSpaceId &&
      row.2.subjectType = subjectType && row.2.subjectId = subjectId).map Prod.snd).map
        db.readFeature
  have hsorted := ((List.perm_insertionSort (olderRow db) _).map db.readFeature).trans hscan
  exact (List.perm_insertionSort older _).trans (hrows ▸ hsorted.symm)

theorem alike_deleteFeature {key : FeatureKey} (hbind : bindable key.texts = true) :
    Alike db 0 ((Call.deleteFeature key).onMemory g s)
      ((Call.deleteFeature key).onPostgres db g s) := by
  simp only [Call.onMemory, Call.onPostgres, Store.deleteFeature, Store.removeFeature, hbind,
    Bool.not_true, Bool.false_eq_true, if_false]
  refine ⟨rfl, rfl, valid_of_subset hvalid fun other feature hget => ?_⟩
  rw [Dict.get?_erase] at hget
  split_ifs at hget
  exact hget

theorem alike_deleteSubject {tenantId projectId subjectType subjectId : String}
    (hbind : bindable [tenantId, projectId, subjectType, subjectId] = true) :
    Alike db 0 ((Call.deleteSubject tenantId projectId subjectType subjectId).onMemory g s)
      ((Call.deleteSubject tenantId projectId subjectType subjectId).onPostgres db g s) := by
  simp only [Call.onMemory, Call.onPostgres, Store.deleteSubject, Store.removeSubject, hbind,
    Bool.not_true, Bool.false_eq_true, if_false]
  exact ⟨rfl, rfl, valid_discard hvalid _⟩

end

/-! ## Searches -/

/-- The match of a feature at a distance. -/
def matchAt (metric : Metric) (feature : FeatureRecord) (distance : ℚ) : FeatureMatch :=
  ⟨feature.featureId, feature.subjectType, feature.subjectId, metric.score distance, distance⟩

/-- The match reaches the cutoff. -/
def reaches (cutoff : Option ℚ) (found : FeatureMatch) : Bool := cutoff.all (· ≤ found.score)

theorem matchesAmong_eq {cutoff : Option ℚ} {features : List FeatureRecord}
    (hnormal : Normal space embedding) (hdirected : Directed space embedding)
    (h : ∀ feature ∈ features, Normal space feature.embedding ∧ Directed space feature.embedding) :
    matchesAmong g space embedding cutoff features =
      .ok ((features.map fun feature => matchAt space.distanceMetric feature
        (g.distance space.distanceMetric (numbers feature.embedding) (numbers embedding))).filter
          (reaches cutoff)) := by
  induction features with
  | nil => rfl
  | cons feature _ ih =>
    obtain ⟨hfnormal, hfdirected⟩ := h feature List.mem_cons_self
    unfold matchesAmong
    rw [compareEmbeddings_of_normal hnormal hfnormal hdirected hfdirected,
      ih fun other hother => h other (List.mem_cons_of_mem _ hother), List.map_cons]
    dsimp only [bind, Except.bind, pure, Except.pure]
    rw [g.compare_fst, g.compare_snd, g.distance_comm]
    split_ifs with hreach
    · rw [List.filter_cons_of_pos (by exact hreach)]
      rfl
    · rw [List.filter_cons_of_neg (by exact hreach)]

theorem matchesAmong_raised {features : List FeatureRecord}
    (hnormal : ¬Normal space embedding) (h : features ≠ []) (cutoff : Option ℚ) :
    ∃ message, matchesAmong g space embedding cutoff features =
      .error (.featureStoreError message) := by
  cases features with
  | nil => exact absurd rfl h
  | cons =>
    obtain ⟨message, hraised⟩ := normalizeEmbedding_of_not hnormal
    refine ⟨message, ?_⟩
    unfold matchesAmong compareEmbeddings
    rw [hraised]
    rfl

section Search

variable {tenantId projectId featureSpaceId : String} {now : ℚ}

theorem normal_of_mem_live (hvalid : Valid db s)
    (hspace : s.spaces.get? featureSpaceId = some space)
    (h : feature ∈ s.live tenantId projectId featureSpaceId now) :
    Normal space feature.embedding ∧ Directed space feature.embedding := by
  obtain ⟨row, hrow, rfl⟩ := List.mem_map.1 h
  obtain ⟨hentry, hkept⟩ := List.mem_filter.1 hrow
  obtain ⟨_, hstored, hfits⟩ := hvalid.space row.1 row.2 ((Dict.mem_entries _ _ _).1 hentry)
  simp only [Bool.and_eq_true, decide_eq_true_eq] at hkept
  rw [hkept.1.2, hspace] at hstored
  cases hstored
  exact hfits

instance : Std.Total nearer := ⟨fun x y => le_total x.2 y.2⟩

instance : IsTrans (FeatureRecord × ℚ) nearer := ⟨fun _ _ _ hxy hyz => le_trans hxy hyz⟩

instance : Std.Total better :=
  have : Std.Total fun x y : FeatureMatch => x.featureId ≤ y.featureId := ⟨fun _ _ => le_total _ _⟩
  have := total_thenBy (fun x : FeatureMatch => x.distance) fun x y => x.featureId ≤ y.featureId
  total_thenBy (fun x : FeatureMatch => OrderDual.toDual x.score)
    (thenBy (fun x => x.distance) fun x y => x.featureId ≤ y.featureId)

instance : IsTrans FeatureMatch better :=
  have : IsTrans FeatureMatch fun x y => x.featureId ≤ y.featureId :=
    ⟨fun _ _ _ hxy hyz => hxy.trans hyz⟩
  have := trans_thenBy (fun x : FeatureMatch => x.distance) fun x y => x.featureId ≤ y.featureId
  trans_thenBy (fun x : FeatureMatch => OrderDual.toDual x.score)
    (thenBy (fun x => x.distance) fun x y => x.featureId ≤ y.featureId)

theorem score_le_of_better {x y : FeatureMatch} (h : better x y) : y.score ≤ x.score := by
  rcases h with hlt | ⟨heq, -⟩
  · exact hlt.le
  · exact heq.ge

theorem search_sameMatches (hvalid : Valid db s)
    (hspace : s.spaces.get? featureSpaceId = some space) (hnormal : Normal space embedding)
    (hdirected : Directed space embedding)
    (hexpired : ∀ row ∈ s.features.entries, expiredRow db now row.2 = row.2.expired now)
    (cutoff : Option ℚ) (limit : Nat) :
    ∃ found, matchesAmong g space embedding cutoff (s.live tenantId projectId featureSpaceId now) =
      .ok found ∧ SameMatches limit ((found.insertionSort better).take limit)
        ((((s.distances db g space.distanceMetric tenantId projectId featureSpaceId
          (numbers embedding)
          now).insertionSort nearer).take limit).filterMap fun (feature, distance) =>
            if cutoff.all (· ≤ space.distanceMetric.score distance) then
              some (matchAt space.distanceMetric feature distance)
            else none) := by
  let apart := fun feature : FeatureRecord =>
    g.distance space.distanceMetric (numbers feature.embedding) (numbers embedding)
  let found := ((s.live tenantId projectId featureSpaceId now).map fun feature =>
    matchAt space.distanceMetric feature (apart feature)).filter (reaches cutoff)
  let sorted := (s.distances db g space.distanceMetric tenantId projectId featureSpaceId
    (numbers embedding) now).insertionSort nearer
  let ranked := sorted.map fun row => matchAt space.distanceMetric row.1 row.2
  have hlive : (s.distances db g space.distanceMetric tenantId projectId featureSpaceId
      (numbers embedding)
      now).Perm ((s.live tenantId projectId featureSpaceId now).map fun feature =>
        (feature, apart feature)) := by
    unfold Store.distances Store.live
    rw [List.map_map]
    refine (((db.scan_perm s.features.entries).filter _).map _).trans (.of_eq ?_)
    rw [List.filter_congr fun row hrow => by rw [hexpired row hrow]]
    rfl
  have hapart : ∀ row ∈ sorted, row.2 = apart row.1 := by
    intro _ hrow
    obtain ⟨_, -, rfl⟩ := List.mem_map.1 (hlive.mem_iff.1 ((List.mem_insertionSort nearer).1 hrow))
    rfl
  have hsorted : ranked.Pairwise (·.distance ≤ ·.distance) :=
    List.pairwise_map.2 (List.pairwise_insertionSort nearer _)
  have hclosed : ranked.Pairwise fun x y => reaches cutoff y = true → reaches cutoff x = true := by
    refine List.pairwise_map.2 ((List.pairwise_insertionSort nearer _).imp_of_mem
      fun {x y} hx hy hxy hreach => ?_)
    have hscore : space.distanceMetric.score y.2 ≤ space.distanceMetric.score x.2 := by
      have hle : x.2 ≤ y.2 := hxy
      rw [hapart x hx, hapart y hy] at hle ⊢
      exact (g.score_le_score_iff _ _ _ _ _).2 hle
    refine (Option.all_eq_true _ _).2 fun bound hbound => ?_
    exact decide_eq_true ((of_decide_eq_true ((Option.all_eq_true _ _).1 hreach bound hbound)).trans
      hscore)
  refine ⟨found, matchesAmong_eq hnormal hdirected fun feature hfeature =>
    normal_of_mem_live hvalid hspace hfeature,
    found.insertionSort better, ranked.filter (reaches cutoff), ?_, ?_, hsorted.filter _, rfl, ?_⟩
  · refine (List.perm_insertionSort better found).trans (List.Perm.filter _ ?_)
    have hranked := ((List.perm_insertionSort nearer _).trans hlive).map
      fun row => matchAt space.distanceMetric row.1 row.2
    rw [List.map_map] at hranked
    exact hranked.symm
  · have hform : ∀ x ∈ found.insertionSort better, ∃ feature, x =
        matchAt space.distanceMetric feature (apart feature) := by
      intro x hx
      obtain ⟨feature, -, rfl⟩ :=
        List.mem_map.1 (List.mem_of_mem_filter ((List.mem_insertionSort better).1 hx))
      exact ⟨feature, rfl⟩
    refine (List.pairwise_insertionSort better found).imp_of_mem fun {x y} hx hy hxy => ?_
    obtain ⟨_, rfl⟩ := hform x hx
    obtain ⟨_, rfl⟩ := hform y hy
    exact (g.score_le_score_iff _ _ _ _ _).1 (score_le_of_better hxy)
  · rw [← filter_take hclosed, ← List.map_take, ← List.filterMap_eq_filter, List.filterMap_map]
    refine List.filterMap_congr fun row _ => ?_
    simp only [Function.comp_apply, Option.guard, reaches, matchAt]

theorem alike_search (hvalid : Valid db s) {limit : Int} {threshold : Option ℚ}
    (h : Fits db s (.search tenantId projectId featureSpaceId embedding limit threshold now)) :
    Alike db limit.toNat
      ((Call.search tenantId projectId featureSpaceId embedding limit threshold now).onMemory g s)
      ((Call.search tenantId projectId featureSpaceId embedding limit threshold now).onPostgres db g
        s) := by
  simp only [Call.onMemory, Call.onPostgres, Store.search, Store.selectMatches]
  by_cases hlimit : 1 ≤ limit ∧ limit ≤ 1000
  · obtain ⟨hbind, hspaces⟩ := h hlimit
    rw [if_neg (not_not.2 hlimit), if_neg (not_not.2 hlimit)]
    unfold Store.getSpace
    rw [hbind]
    cases hget : s.spaces.get? featureSpaceId with
    | none => exact ⟨⟨⟨_, rfl⟩, _, rfl⟩, rfl, hvalid⟩
    | some space =>
      obtain ⟨hraised, hcompared⟩ := hspaces space hget
      simp only [Bool.not_true, Bool.false_eq_true, if_false, bind, Except.bind]
      by_cases hnormal : Normal space embedding
      · obtain ⟨hdirected, htexts, hlength, hexpired⟩ := hcompared hnormal
        obtain ⟨_, hfound, hsame⟩ :=
          search_sameMatches (g := g) hvalid hget hnormal hdirected hexpired
          (threshold.or space.threshold) limit.toNat
        have hshort : ¬maxDimensions < (numbers embedding).length :=
          ((List.length_filterMap_le _ _).trans hlength).not_gt
        rw [hfound]
        simp only [normalizeEmbedding_of_normal hnormal, htexts, Bool.not_true, Bool.false_or,
          decide_eq_true_eq, hshort, if_false]
        exact ⟨⟨_, rfl, hsame⟩, rfl, hvalid⟩
      · obtain ⟨_, hmemory⟩ := matchesAmong_raised (g := g) hnormal (hraised hnormal)
          (threshold.or space.threshold)
        obtain ⟨_, hpostgres⟩ := normalizeEmbedding_of_not hnormal
        rw [hmemory]
        simp only [hpostgres]
        exact ⟨⟨⟨_, rfl⟩, _, rfl⟩, rfl, hvalid⟩
  · rw [if_pos hlimit, if_pos hlimit]
    exact ⟨⟨⟨_, rfl⟩, _, rfl⟩, rfl, hvalid⟩

end Search

/-! ## Expired features -/

section Expired

variable {before : ℚ} {limit : Int}

theorem byKey_eq : byKey = thenBy (fun x => x.1.tenantId)
    (thenBy (fun x => x.1.projectId) fun x y => x.1.featureId ≤ y.1.featureId) := rfl

instance : Std.Total byKey := by
  have : Std.Total fun x y : FeatureKey × FeatureRecord => x.1.featureId ≤ y.1.featureId :=
    ⟨fun _ _ => le_total _ _⟩
  have := total_thenBy (fun x : FeatureKey × FeatureRecord => x.1.projectId) fun x y =>
      x.1.featureId ≤ y.1.featureId
  rw [byKey_eq]
  exact total_thenBy _ _

instance : IsTrans (FeatureKey × FeatureRecord) byKey := by
  have : IsTrans (FeatureKey × FeatureRecord) fun x y => x.1.featureId ≤ y.1.featureId :=
    ⟨fun _ _ _ hxy hyz => hxy.trans hyz⟩
  have := trans_thenBy (fun x : FeatureKey × FeatureRecord => x.1.projectId) fun x y =>
      x.1.featureId ≤ y.1.featureId
  rw [byKey_eq]
  exact trans_thenBy _ _

instance : Std.Total (expiresBefore db) :=
  have : Std.Total fun x y : FeatureKey × FeatureRecord => db.sortKey x.1.featureId ≤
      db.sortKey y.1.featureId :=
    ⟨fun _ _ => le_total _ _⟩
  total_thenBy (expiresAt db) _

instance : IsTrans (FeatureKey × FeatureRecord) (expiresBefore db) :=
  have : IsTrans (FeatureKey × FeatureRecord) fun x y => db.sortKey x.1.featureId ≤
      db.sortKey y.1.featureId :=
    ⟨fun _ _ _ hxy hyz => hxy.trans hyz⟩
  trans_thenBy (expiresAt db) _

theorem byKey_antisymm :
    ∀ x ∈ s.expiredRows before, ∀ y ∈ s.expiredRows before, byKey x y → byKey y x → x = y := by
  intro x hx y hy hxy hyx
  rw [byKey_eq] at hxy hyx
  obtain ⟨htenant, hxy, hyx⟩ := hxy.both hyx
  obtain ⟨hproject, hxy, hyx⟩ := hxy.both hyx
  have hkey : x.1 = y.1 := by
    cases hxk : x.1
    cases hyk : y.1
    rw [hxk, hyk] at htenant hproject hxy hyx
    rw [FeatureKey.mk.injEq]
    exact ⟨htenant, hproject, hxy.antisymm hyx⟩
  exact List.inj_on_of_nodup_map s.features.nodup (List.mem_of_mem_filter hx)
    (List.mem_of_mem_filter hy) hkey

theorem alike_deleteExpired (hvalid : Valid db s) (h : Fits db s (.deleteExpired before limit)) :
    Alike db 0 ((Call.deleteExpired before limit).onMemory g s)
      ((Call.deleteExpired before limit).onPostgres db g s) := by
  simp only [Call.onMemory, Call.onPostgres, Store.deleteExpired, Store.removeExpired]
  by_cases hlimit : 1 ≤ limit ∧ limit ≤ 10000
  · obtain ⟨hrange, hexpired, hahead⟩ := h hlimit
    have hrows : (s.expiredRows before).Perm
        ((db.scan s.features.entries).filter fun row => expiredRow db before row.2) := by
      refine ((db.scan_perm s.features.entries).symm.filter _).trans
        (.of_eq (List.filter_congr fun row hrow => ?_))
      exact (hexpired row ((db.scan_perm _).mem_iff.1 hrow)).symm
    have hnodup : (s.expiredRows before).Nodup := (List.Nodup.of_map _ s.features.nodup).filter _
    have hkeys : ((s.expiredRows before).insertionSort byKey).map Prod.fst =
        (s.expiredKeys before).insertionSort keyLe :=
        List.map_insertionSort _ _ _ _ fun _ _ _ _ => Iff.rfl
    have hperm := (take_insertionSort_perm byKey_antisymm hnodup hrows hahead).map Prod.fst
    have hcut : (((s.expiredRows before).insertionSort byKey).take limit.toNat).map Prod.fst =
        ((s.expiredKeys before).insertionSort keyLe).take limit.toNat := by
      rw [List.map_take, hkeys]
    rw [hcut] at hperm
    have hmem : (fun (key : FeatureKey) (_ : FeatureRecord) => decide (key ∈ _)) = fun key _ =>
        decide (key ∈ _) :=
      funext fun key => funext fun _ => decide_eq_decide.2 hperm.symm.mem_iff
    rw [if_neg (not_not.2 hlimit), if_neg (not_not.2 hlimit), hrange]
    exact ⟨congrArg Answer.count hperm.length_eq.symm, congrArg s.discard hmem,
      valid_discard hvalid _⟩
  · rw [if_pos hlimit, if_pos hlimit]
    exact ⟨⟨⟨_, rfl⟩, _, rfl⟩, rfl, hvalid⟩

end Expired

/-! ## Runs -/

/-- Both stores. -/
structure Both where
  memory : Store
  postgres : Store

/-- Nothing stored in either. -/
def Both.empty : Both := ⟨.empty, .empty⟩

section Runs

variable (db g)

/-- The call on both stores. -/
def step (s : Both) (call : Call) : Option Both :=
  some ⟨(call.onMemory g s.memory).2, (call.onPostgres db g s.postgres).2⟩

/-- Both answer the call alike. -/
def Answered (s : Both) (call : Call) : Prop :=
  SameAnswer call.limit (call.onMemory g s.memory).1 (call.onPostgres db g s.postgres).1

/-- What PostgreSQL reads back is what the memory store holds. -/
structure SameRows (s : Both) : Prop where
  spaces : ∀ id, s.memory.spaces.get? id = (s.postgres.spaces.get? id).map db.readSpace
  features : ∀ key, s.memory.features.get? key = (s.postgres.features.get? key).map db.readFeature

end Runs

theorem agree_call (hvalid : Valid db s) {call : Call} (h : Fits db s call) :
    Alike db call.limit (call.onMemory g s) (call.onPostgres db g s) := by
  cases call with
  | createSpace => exact alike_createSpace hvalid h
  | add => exact alike_add hvalid h
  | search => exact alike_search hvalid h
  | getFeature => exact alike_getFeature hvalid h
  | listSubjectFeatures =>
    exact alike_listSubjectFeatures hvalid h
  | deleteFeature => exact alike_deleteFeature hvalid h
  | deleteSubject => exact alike_deleteSubject hvalid h
  | deleteExpired => exact alike_deleteExpired hvalid h

theorem sameRows_of_valid (hvalid : Valid db s) : SameRows db ⟨s, s⟩ := by
  refine ⟨fun id => ?_, fun key => ?_⟩
  · cases hget : s.spaces.get? id with
    | none => rfl
    | some space => exact congrArg some (hvalid.spaceTime id space hget).symm
  · cases hget : s.features.get? key with
    | none => rfl
    | some feature => exact congrArg some (hvalid.time key feature hget).symm

/-- **The stores agree** along every run of calls that fit. -/
theorem features_agree (calls : List Call)
    (h : Along (step db g) (fun s call => Fits db s.memory call) .empty calls) :
    Along (step db g) (Answered db g) .empty calls ∧
      ∀ s ∈ states (step db g) .empty calls, SameRows db s := by
  have hstep : ∀ (s : Both) call s', s.memory = s.postgres ∧ Valid db s.memory →
      Fits db s.memory call →
      step db g s call = some s' → s'.memory = s'.postgres ∧ Valid db s'.memory := by
    intro s call s' ⟨hsame, hvalid⟩ hfits hs
    cases hs
    have halike := agree_call (g := g) hvalid hfits
    exact ⟨hsame ▸ halike.store, halike.valid⟩
  have hempty : Both.empty.memory = Both.empty.postgres ∧ Valid db Both.empty.memory :=
    ⟨rfl, valid_empty⟩
  refine ⟨along_mono hstep ?_ hempty h, fun s hs => ?_⟩
  · intro s call ⟨hsame, hvalid⟩ hfits
    unfold Answered
    rw [← hsame]
    exact (agree_call hvalid hfits).answer
  · obtain ⟨hsame, hvalid⟩ := invariant_states hstep hempty h s hs
    obtain ⟨_, _⟩ := s
    cases hsame
    exact sameRows_of_valid hvalid

/-! ## Decided, on runs -/

instance (db : Database) (s : Store) : ∀ call, Decidable (Fits db s call)
  | .createSpace _ _ => inferInstanceAs (Decidable (_ ∧ _ ∧ _))
  | .add _ => inferInstanceAs (Decidable (_ ∧ _))
  | .search _ _ _ _ _ _ _ => inferInstanceAs (Decidable (_ → _))
  | .getFeature _ | .deleteFeature _ => inferInstanceAs (Decidable (_ = true))
  | .listSubjectFeatures _ _ _ _ _ => inferInstanceAs (Decidable (_ = true))
  | .deleteSubject _ _ _ _ => inferInstanceAs (Decidable (_ = true))
  | .deleteExpired _ _ => inferInstanceAs (Decidable (_ → _))

/-- Whether a call raises, and then whether it raises `FeatureStoreError`. -/
def raised : Except Error Answer → Option Bool
  | .ok _ => none
  | .error (.featureStoreError _) => some true
  | .error .databaseError => some false

theorem raised_of_sameAnswer {limit : Nat} {x y : Except Error Answer} (h : SameAnswer limit x y) :
    raised x = raised y := by
  cases x <;> cases y
  · obtain ⟨⟨_, rfl⟩, _, rfl⟩ := h
    rfl
  · exact h.elim
  · exact h.elim
  · rfl

variable {calls : List Call}

theorem exists_unanswered {call : Call} (h : (exec (step db g) .empty calls).any (fun s => decide
    (raised (call.onMemory g s.memory).1 ≠ raised (call.onPostgres db g s.postgres).1)) = true) :
    ∃ s ∈ states (step db g) .empty calls, ¬Answered db g s call := by
  obtain ⟨s, hs, hdiffer⟩ := (Option.any_eq_true _ _).1 h
  exact ⟨s, mem_states_of_exec hs,
    fun hsame => of_decide_eq_true hdiffer (raised_of_sameAnswer hsame)⟩

theorem exists_unlike {k : FeatureKey} (h : (exec (step db g) .empty calls).any (fun s => decide
    (s.memory.features.get? k ≠ (s.postgres.features.get? k).map db.readFeature)) = true) :
    ∃ s ∈ states (step db g) .empty calls, ¬SameRows db s := by
  obtain ⟨s, hs, hdiffer⟩ := (Option.any_eq_true _ _).1 h
  exact ⟨s, mem_states_of_exec hs, fun hsame => of_decide_eq_true hdiffer (hsame.features k)⟩

/-- Times in microseconds, code point order, rows as they were stored. -/
def microseconds : Database where
  toTimestamp t := some (t * 1000000).floor
  sortKey := id
  sortKey_injective := fun _ _ h => h
  epoch t := t / 1000000
  scan := id
  scan_perm rows := .refl rows

/-- A feature space. -/
def faces : FeatureSpace := ⟨"faces", "portrait", "face", "model", "1", 1, .l2, none, 0⟩

/-- A feature in it. -/
def face (tenantId featureId : String) (value : ℚ) (expiresAt : Option ℚ) : FeatureRecord where
  tenantId := tenantId
  projectId := "gate"
  featureId := featureId
  featureSpaceId := "faces"
  subjectType := "portrait_identity"
  subjectId := "idn_1"
  embedding := [some value]
  createdAt := 1
  expiresAt := expiresAt

/-- A space with a few features, searched and emptied. -/
def visit : List Call :=
  [.createSpace faces 0, .createSpace faces 3, .createSpace { faces with dimension := 2 } 3,
    .add (face "acme" "f1" 1 none), .add (face "acme" "f2" 3 (some 9)),
    .add (face "bolt" "f3" 1 (some 8)),
    .add { face "acme" "f4" 1 none with embedding := [] },
      .search "acme" "gate" "faces" [some 2] 1 none 4,
    .search "acme" "gate" "faces" [some 2, none] 5 none 4, .getFeature ⟨"acme", "gate", "f2"⟩,
    .listSubjectFeatures "acme" "gate" "faces" "portrait_identity" "idn_1", .deleteExpired 8 1,
    .deleteFeature ⟨"acme", "gate", "f1"⟩, .deleteSubject "acme" "gate" "portrait_identity" "idn_1"]

theorem visit_alike :
    Along (step microseconds .squares) (Answered microseconds .squares) .empty visit ∧
      ∀ s ∈ states (step microseconds .squares) .empty visit, SameRows microseconds s :=
  features_agree visit (by decide +kernel)

/-- **Calls that the stores take differently.** A second space of one contract, and a feature added
again, make the INSERT raise; a query of another dimension raises in memory only where there is a
feature; of two features that have expired, memory deletes that of the first tenant and PostgreSQL
the one that expired first. -/
theorem features_differ :
    (∃ s ∈ states (step microseconds .squares) .empty [.createSpace faces 0],
      ¬Answered microseconds .squares s
        (.createSpace { faces with featureSpaceId := "people" } 0)) ∧
    (∃ s ∈ states (step microseconds .squares) .empty [.createSpace faces 0,
      .add (face "acme" "f1" 1 none)],
      ¬Answered microseconds .squares s (.add (face "acme" "f1" 1 none))) ∧
    (∃ s ∈ states (step microseconds .squares) .empty [.createSpace faces 0],
      ¬Answered microseconds .squares s (.search "acme" "gate" "faces" [some 1, some 1] 5 none 4)) ∧
    ∃ s ∈ states (step microseconds .squares) .empty
        [.createSpace faces 0, .add (face "acme" "f1" 1 (some 7)),
          .add (face "bolt" "f1" 1 (some 6)), .deleteExpired 8 1],
      ¬SameRows microseconds s :=
  ⟨exists_unanswered (by decide +kernel), exists_unanswered (by decide +kernel),
    exists_unanswered (by decide +kernel),
    exists_unlike (k := ⟨"acme", "gate", "f1"⟩) (by decide +kernel)⟩

end Scenara.Features
