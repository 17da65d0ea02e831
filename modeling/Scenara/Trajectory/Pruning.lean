import Mathlib.Data.Prod.Lex
import Scenara.Trajectory.Records
import Scenara.Trajectory.Templates

/-!
# One call of `_prune_templates`

`_prune_templates` looks at the spaces that the identity records and ranks by what the first 1000
segments of the identity say. A merge brings templates in without recording their spaces, so what it
looks at can miss a space; an identity of more segments has templates that it ranks at 0.
-/

namespace Scenara.Trajectory

open Scenara.Core

variable {l : Landing} {features : Features} {maxTemplates : Nat}
variable {e : Key × FeatureRecord} {spaces : List String}

/-! ## What the pruning is for -/

/-- The templates of the identity in a space. -/
def Landing.group (l : Landing) (featureSpaceId : String) : Key × FeatureRecord → Bool :=
  inSpace l.scope featureSpaceId l.identityId

/-- How many templates the identity has in a space. -/
def Landing.count (l : Landing) (features : Features) (featureSpaceId : String) : Nat :=
  (listSubjectFeatures features l.scope featureSpaceId l.identityId).length

/-- A stored segment names the feature. -/
structure Landing.Names (l : Landing) (segment : TrajectorySegment) (c : Contribution) (k : Key) :
    Prop where
  stored : Stored l.repo segment
  scope_eq : segment.scope = k.scope
  contribution : l.contributions.get? segment.key = some c
  mem : k.id ∈ c.featureIds.values

/-- No space holds more templates of the identity than the limit. -/
def Landing.Bounded (l : Landing) (maxTemplates : Nat) : Prop :=
  ∀ featureSpaceId, l.count (l.prune maxTemplates) featureSpaceId ≤ maxTemplates

/-- What is evicted is a template of the identity, and no template of the identity that stays in its
space has a lower recorded track quality. -/
def Landing.Lowest (l : Landing) (maxTemplates : Nat) : Prop :=
  ∀ {k record}, l.features.get? k = some record → (l.prune maxTemplates).get? k = none →
    l.group record.featureSpaceId (k, record) ∧
    ∀ {k' record'}, (l.prune maxTemplates).get? k' = some record' →
      l.group record.featureSpaceId (k', record') →
      ∀ {segment c segment' c'}, l.Names segment c k → l.Names segment' c' k' →
        c.trackQuality ≤ c'.trackQuality

/-- The spaces that exceed the limit are recorded. -/
def Landing.SpacesRecorded (l : Landing) (maxTemplates : Nat) : Prop :=
  ∀ featureSpaceId, maxTemplates < l.count l.features featureSpaceId →
    featureSpaceId ∈ l.featureSpaceIds.values

/-- A segment that names a template of a space that exceeds the limit is one that
`_prune_templates` reads, or has quality 0. -/
def Landing.QualitiesListed (l : Landing) (maxTemplates : Nat) : Prop :=
  ∀ {k record}, l.features.get? k = some record → l.group record.featureSpaceId (k, record) →
    maxTemplates < l.count l.features record.featureSpaceId →
    ∀ {segment c}, l.Names segment c k →
      segment ∈ listing l.repo l.scope l.identityId ∨ c.trackQuality = 0

/-! ## One space -/

/-- The templates of a space, as the loop of `_prune_templates` ranks them. -/
def Landing.ordered (l : Landing) (features : Features) (featureSpaceId : String) :
    List (Key × FeatureRecord) :=
  (listSubjectFeatures features l.scope featureSpaceId l.identityId).insertionSort
    (Cheaper l.quality)

theorem ordered_perm (featureSpaceId : String) :
    (l.ordered features featureSpaceId).Perm (features.select (l.group featureSpaceId)) :=
  (List.perm_insertionSort _ _).trans (List.perm_insertionSort _ _)

theorem count_eq (featureSpaceId : String) :
    l.count features featureSpaceId = (features.select (l.group featureSpaceId)).length :=
  (List.perm_insertionSort _ _).length_eq

theorem pruneSpace_eq (featureSpaceId : String) :
    l.pruneSpace maxTemplates features featureSpaceId =
    features.evict maxTemplates (l.ordered features featureSpaceId) := by
  have hlength : (l.ordered features featureSpaceId).length =
      (listSubjectFeatures features l.scope featureSpaceId l.identityId).length :=
    List.length_insertionSort _ _
  unfold Landing.pruneSpace Dict.evict
  dsimp only
  split
  · rename_i hle
    rw [overflow_eq_nil (hlength.trans_le hle)]
    rfl
  · unfold overflow Dict.eraseAll
    rw [List.foldl_map, hlength]
    rfl

theorem count_pruneSpace (featureSpaceId other : String) :
    l.count (l.pruneSpace maxTemplates features featureSpaceId) other =
      if other = featureSpaceId then min (l.count features other) maxTemplates
      else l.count features other := by
  rw [pruneSpace_eq, count_eq, count_eq]
  split
  · rename_i heq
    rw [heq, Dict.length_select_evict (ordered_perm featureSpaceId)]
  · rename_i hne
    rw [Dict.select_evict_of_disjoint (ordered_perm featureSpaceId) fun e he ho => hne ?_]
    simp only [Landing.group, inSpace, Bool.and_eq_true, decide_eq_true_eq] at he ho
    exact ho.1.2.symm.trans he.1.2

theorem mem_pruneSpace {featureSpaceId : String} :
    e ∈ (l.pruneSpace maxTemplates features featureSpaceId).entries ↔
      e ∈ features.entries ∧ e ∉ overflow maxTemplates (l.ordered features featureSpaceId) := by
  rw [pruneSpace_eq, Dict.mem_entries_evict (ordered_perm featureSpaceId)]

theorem mem_ordered {featureSpaceId : String} :
    e ∈ l.ordered features featureSpaceId ↔ e ∈ features.entries ∧ l.group featureSpaceId e := by
  rw [(ordered_perm featureSpaceId).mem_iff]
  exact List.mem_filter

/-! ## The loop -/

/-- The turns of `_prune_templates` over some spaces. -/
def Landing.pruneSpaces (l : Landing) (maxTemplates : Nat) (features : Features)
    (spaces : List String) : Features :=
  spaces.foldl (l.pruneSpace maxTemplates) features

theorem count_pruneSpaces (spaces : List String) (featureSpaceId : String) :
    l.count (l.pruneSpaces maxTemplates features spaces) featureSpaceId =
      if featureSpaceId ∈ spaces then min (l.count features featureSpaceId) maxTemplates
      else l.count features featureSpaceId := by
  induction spaces generalizing features with
  | nil => simp [Landing.pruneSpaces]
  | cons space spaces ih =>
    have hturn : l.pruneSpaces maxTemplates features (space :: spaces) =
      l.pruneSpaces maxTemplates (l.pruneSpace maxTemplates features space) spaces := rfl
    rw [hturn, ih, count_pruneSpace]
    by_cases heq : featureSpaceId = space
    · rw [if_pos heq, if_pos (List.mem_cons.2 (.inl heq))]
      split
      · rw [min_assoc, min_self]
      · rfl
    · rw [if_neg heq]
      simp [heq]

theorem bounded_iff : l.Bounded maxTemplates ↔ l.SpacesRecorded maxTemplates := by
  have hcount : ∀ featureSpaceId, l.count (l.prune maxTemplates) featureSpaceId =
      if featureSpaceId ∈ l.featureSpaceIds.values then
        min (l.count l.features featureSpaceId) maxTemplates
      else l.count l.features featureSpaceId := fun featureSpaceId => by
    have h : l.count (l.pruneSpaces maxTemplates l.features l.featureSpaceIds.values.dedup)
      featureSpaceId = _ := count_pruneSpaces _ featureSpaceId
    simp only [List.mem_dedup] at h
    exact h
  refine forall_congr' fun featureSpaceId => ?_
  rw [hcount]
  split
  · rename_i hin
    simp [hin]
  · rename_i hout
    simp [hout]

theorem mem_of_mem_pruneSpaces
    (h : e ∈ (l.pruneSpaces maxTemplates features spaces).entries) : e ∈ features.entries := by
  induction spaces generalizing features with
  | nil => exact h
  | cons _ _ ih => exact (mem_pruneSpace.1 (ih h)).1

theorem evicted_of_pruneSpaces
    (he : e ∈ features.entries) (hout : e ∉ (l.pruneSpaces maxTemplates features spaces).entries) :
    l.group e.2.featureSpaceId e ∧ maxTemplates < l.count features e.2.featureSpaceId := by
  induction spaces generalizing features with
  | nil => exact absurd he hout
  | cons space _ ih =>
    by_cases hturn : e ∈ (l.pruneSpace maxTemplates features space).entries
    · obtain ⟨hgroup, hmore⟩ := ih hturn hout
      refine ⟨hgroup, hmore.trans_le ?_⟩
      rw [count_pruneSpace]
      split
      · exact min_le_left _ _
      · exact le_rfl
    · have hover : e ∈ overflow maxTemplates (l.ordered features space) := by
        by_contra hstays
        exact hturn (mem_pruneSpace.2 ⟨he, hstays⟩)
      have hgroup := (mem_ordered.1 (mem_of_mem_overflow hover)).2
      have hspace : e.2.featureSpaceId = space := by
        simp only [Landing.group, inSpace, Bool.and_eq_true, decide_eq_true_eq] at hgroup
        exact hgroup.1.2
      rw [hspace, count_eq, ← (ordered_perm space).length_eq]
      refine ⟨hgroup, ?_⟩
      by_contra hle
      simp [overflow_eq_nil (not_lt.1 hle)] at hover

theorem cheaper_iff {quality : Dict String ℚ} {a b : Key × FeatureRecord} : Cheaper quality a b ↔
    toLex ((quality.get? a.1.id).getD 0, a.2.createdAt) ≤
      toLex ((quality.get? b.1.id).getD 0, b.2.createdAt) := by
  rw [Prod.Lex.toLex_le_toLex]
  rfl

instance (quality : Dict String ℚ) : Std.Total (Cheaper quality) where
  total _ _ := (le_total _ _).imp cheaper_iff.2 cheaper_iff.2

instance (quality : Dict String ℚ) : IsTrans _ (Cheaper quality) where
  trans _ _ _ hab hbc := cheaper_iff.2 ((cheaper_iff.1 hab).trans (cheaper_iff.1 hbc))

theorem cheaper_of_pruneSpaces {e f : Key × FeatureRecord}
    (he : e ∈ features.entries) (hout : e ∉ (l.pruneSpaces maxTemplates features spaces).entries)
    (hf : f ∈ (l.pruneSpaces maxTemplates features spaces).entries)
    (hgroup : l.group e.2.featureSpaceId f) : Cheaper l.quality e f := by
  induction spaces generalizing features with
  | nil => exact absurd he hout
  | cons space _ ih =>
    by_cases hturn : e ∈ (l.pruneSpace maxTemplates features space).entries
    · exact ih hturn hout hf
    have hover : e ∈ overflow maxTemplates (l.ordered features space) := by
      by_contra hstays
      exact hturn (mem_pruneSpace.2 ⟨he, hstays⟩)
    have hspace : e.2.featureSpaceId = space := by
      have hself := (mem_ordered.1 (mem_of_mem_overflow hover)).2
      simp only [Landing.group, inSpace, Bool.and_eq_true, decide_eq_true_eq] at hself
      exact hself.1.2
    obtain ⟨hmem, hstays⟩ := mem_pruneSpace.1 (mem_of_mem_pruneSpaces hf)
    exact rel_of_overflow (List.pairwise_insertionSort _ _) hover
      (mem_ordered.2 ⟨hmem, hspace ▸ hgroup⟩) hstays

/-! ## Qualities -/

/-- No two segments name one feature. -/
def Attributed (contributions : Dict Key Contribution) : Prop :=
  ∀ {k k' c c' featureId}, contributions.get? k = some c → contributions.get? k' = some c' →
    featureId ∈ c.featureIds.values → featureId ∈ c'.featureIds.values → k = k'

theorem mem_qualities {contributions : Dict Key Contribution} {segments : List TrajectorySegment}
    {featureId : String} {q : ℚ} :
    (featureId, q) ∈ segments.flatMap (qualities contributions) ↔
      ∃ segment ∈ segments, ∃ c, contributions.get? segment.key = some c ∧
        featureId ∈ c.featureIds.values ∧ c.trackQuality = q := by
  rw [List.mem_flatMap]
  refine exists_congr fun segment => and_congr_right fun _ => ?_
  unfold qualities
  split
  · rename_i hnone
    simp [hnone]
  · rename_i c hc
    simp [hc]

theorem get?_qualityByFeature {contributions : Dict Key Contribution} (h : Attributed contributions)
    {segments : List TrajectorySegment} {featureId : String} {q : ℚ} :
    (qualityByFeature contributions segments).get? featureId = some q ↔
      ∃ segment ∈ segments, ∃ c, contributions.get? segment.key = some c ∧
        featureId ∈ c.featureIds.values ∧ c.trackQuality = q := by
  unfold qualityByFeature
  rw [Dict.get?_ofList, mem_qualities]
  intro _ q _ hq hq'
  obtain ⟨_, -, c, hc, hmem, rfl⟩ := mem_qualities.1 hq
  obtain ⟨_, -, _, hc', hmem', rfl⟩ := mem_qualities.1 hq'
  rw [h hc hc' hmem hmem'] at hc
  rw [Option.some.inj (hc.symm.trans hc')]

/-- **A template is ranked by its segment**, if that one is listed or has quality 0. -/
theorem quality_eq (h : Attributed l.contributions) {segment : TrajectorySegment} {c : Contribution}
    {k : Key} (hnames : l.Names segment c k)
    (hlisted : segment ∈ listing l.repo l.scope l.identityId ∨ c.trackQuality = 0) :
    (l.quality.get? k.id).getD 0 = c.trackQuality := by
  have hsame : ∀ {q}, l.quality.get? k.id = some q → q = c.trackQuality := fun hq => by
    obtain ⟨_, -, _, hc', hmem', rfl⟩ := (get?_qualityByFeature h).1 hq
    have hkey := h hc' hnames.contribution hmem' hnames.mem
    rw [hkey, hnames.contribution] at hc'
    rw [Option.some.inj hc']
  rcases hlisted with hin | hzero
  · have hget : l.quality.get? k.id = some c.trackQuality :=
      (get?_qualityByFeature h).2 ⟨segment, hin, c, hnames.contribution, hnames.mem, rfl⟩
    rw [hget, Option.getD_some]
  · cases hget : l.quality.get? k.id with
    | none => rw [Option.getD_none, hzero]
    | some q => rw [Option.getD_some, hsame hget]

theorem lowest_of_listed (h : Attributed l.contributions)
    (hlisted : l.QualitiesListed maxTemplates) : l.Lowest maxTemplates := by
  intro k record hbefore hafter
  have he := (Dict.mem_entries _ _ _).2 hbefore
  have hout : (k, record) ∉ (l.prune maxTemplates).entries := fun hin => by
    simp [Dict.mem_entries, hafter] at hin
  obtain ⟨hgroup, hmore⟩ := evicted_of_pruneSpaces he hout
  refine ⟨hgroup, fun {k' record'} hstays hgroup' => ?_⟩
  intro _ c _ _ hnames hnames'
  have hf := (Dict.mem_entries _ _ _).2 hstays
  have hcheaper := cheaper_of_pruneSpaces he hout hf hgroup'
  have hspace : record'.featureSpaceId = record.featureSpaceId := by
    simp only [Landing.group, inSpace, Bool.and_eq_true, decide_eq_true_eq] at hgroup'
    exact hgroup'.1.2
  have hbefore' := (Dict.mem_entries _ _ _).1 (mem_of_mem_pruneSpaces hf)
  have hq := quality_eq h hnames (hlisted hbefore hgroup hmore hnames)
  have hq' := quality_eq h hnames' (hlisted hbefore' (by rwa [hspace]) (by rwa [hspace]) hnames')
  unfold Cheaper at hcheaper
  rw [hq, hq'] at hcheaper
  exact hcheaper.elim le_of_lt fun heq => heq.1.le

end Scenara.Trajectory
