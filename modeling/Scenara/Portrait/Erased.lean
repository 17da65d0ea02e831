import Scenara.Core.Parties
import Scenara.Portrait.Model

/-!
# What is left of an identity

* `Lawful`: nothing is stored for an identity behind the back of its deletion, and no enrolment
  gives up what it has stored.
* `Inv`: every row is covered: a deletion is about to clear it, or its identity is there, has not
  been cleared, and its enrolment is recorded or on its way.
-/

namespace Scenara.Portrait

open Scenara.Core

variable {x y : State} {i : Nat} {t t' : Task} {e : Enrol} {pos : EnrolAt} {key row : Key}
    {act : Act}

/-! ## The claim -/

/-- The enrolment of a feature, of an identity. -/
def FeatureRecorded (s : Stores) (row key : Key) : Prop :=
  ∃ enrollment, s.enrollments.get? row = some enrollment ∧ sibling row enrollment.identityId = key

/-- The enrolment of an index record, of an identity. -/
def RecordRecorded (s : Stores) (row key : Key) : Prop :=
  ∃ k enrollment, s.enrollments.get? k = some enrollment ∧ sibling k enrollment.identityId = key ∧
    sibling k enrollment.indexRecordId = row

/-- **What is stored** of portrait identities. -/
structure Erased (x : State) : Prop where
  features : ∀ row f, x.stores.features.get? row = some f → f.subjectType = portraitIdentity →
    sibling row f.subjectId ∈ x.stores.identities ∧
    FeatureRecorded x.stores row (sibling row f.subjectId)
  records : ∀ row r, x.stores.records.get? row = some r → r.deleted = false →
    r.sourceType = portraitIdentity →
    sibling row r.sourceId ∈ x.stores.identities ∧
      RecordRecorded x.stores row (sibling row r.sourceId)
  deletedFeatures : ∀ key ∈ x.deleted, ∀ row f, x.stores.features.get? row = some f →
    f.subjectType = portraitIdentity → sibling row f.subjectId ≠ key
  deletedRecords : ∀ key ∈ x.deleted, ∀ row r, x.stores.records.get? row = some r →
    r.deleted = false → r.sourceType = portraitIdentity → sibling row r.sourceId ≠ key

/-- No call is in flight. -/
def Quiet (x : State) : Prop := ∀ t ∈ x.tasks, t = .ended

/-! ## Stages -/

/-- A table that enrolments fill and deletions clear. -/
structure Stage where
  /-- A deletion of the identity that is yet to clear the table. -/
  clears : Key → Task → Bool
  /-- A deletion of the identity that has cleared the table. -/
  cleared : Key → Task → Bool
  /-- The enrolment of the row, of the identity, that is yet to be recorded. -/
  enrols : Key → Key → Task → Bool
  recorded : Stores → Key → Key → Prop

/-- The deletion of the features. -/
def featureStage : Stage where
  clears key
    | .delete k .audit | .delete k .features => k = key
    | _ => false
  cleared key
    | .delete k .records | .delete k .remove => k = key
    | _ => false
  enrols row key
    | .enrol e .index | .enrol e .record | .enrol e .enrollment => e.featureKey = row && e.key = key
    | _ => false
  recorded := FeatureRecorded

/-- The deletion of the index records. -/
def recordStage : Stage where
  clears key
    | .delete k .audit | .delete k .features | .delete k .records => k = key
    | _ => false
  cleared key
    | .delete k .remove => k = key
    | _ => false
  enrols row key
    | .enrol e .enrollment => e.recordKey = row && e.key = key
    | _ => false
  recorded := RecordRecorded

/-- A deletion of the identity is about to clear the table. -/
def Stage.ToClear (stage : Stage) (x : State) (key : Key) : Prop :=
  ∃ t ∈ x.tasks, stage.clears key t = true
  deriving Decidable

/-- The identity is there, and no deletion has cleared the table. -/
def Stage.Open (stage : Stage) (x : State) (key : Key) : Prop :=
  key ∈ x.stores.identities ∧ ∀ t ∈ x.tasks, stage.cleared key t = false
  deriving Decidable

/-- **A row is covered.** -/
def Stage.Covered (stage : Stage) (x : State) (row key : Key) : Prop :=
  stage.ToClear x key ∨ stage.Open x key ∧
    (stage.recorded x.stores row key ∨ ∃ t ∈ x.tasks, stage.enrols row key t = true)

/-! ## The condition -/

/-- What an enrolment has stored is not its own to give up, or a deletion is about to clear it. -/
def Renounces (x : State) (e : Enrol) : EnrolAt → Prop
  | .index | .record =>
    x.stores.features.get? e.featureKey = none ∨ featureStage.ToClear x e.key
  | .enrollment =>
    (x.stores.features.get? e.featureKey = none ∨ featureStage.ToClear x e.key) ∧
      ((x.stores.records.get? e.recordKey).all (·.deleted) = true ∨ recordStage.ToClear x e.key)
  | _ => True

instance (x : State) (e : Enrol) : ∀ pos, Decidable (Renounces x e pos)
  | .index | .record => inferInstanceAs (Decidable (_ ∨ _))
  | .enrollment => inferInstanceAs (Decidable (_ ∧ _))
  | .identity | .space | .feature | .audit => inferInstanceAs (Decidable True)

/-- What an enrolment stores is not behind the back of a deletion. -/
def Timely (x : State) (e : Enrol) : EnrolAt → Prop
  | .feature => featureStage.ToClear x e.key ∨ featureStage.Open x e.key
  | .record => recordStage.ToClear x e.key ∨ recordStage.Open x e.key
  | _ => True

instance (x : State) (e : Enrol) : ∀ pos, Decidable (Timely x e pos)
  | .feature | .record => inferInstanceAs (Decidable (_ ∨ _))
  | .identity | .space | .index | .enrollment | .audit => inferInstanceAs (Decidable True)

/-- **The condition** on a store call of an enrolment, which goes through or raises. -/
def CallLawful (x : State) (raises : Bool) (e : Enrol) (pos : EnrolAt) : Prop :=
  if (raises || (e.call x.stores pos).isNone) = true then Renounces x e pos else Timely x e pos
  deriving Decidable

/-- A task may go on; or may raise. -/
def TaskLawful (x : State) (raises : Bool) : Task → Prop
  | .enrol e pos => CallLawful x raises e pos
  | _ => True

instance (x : State) (raises : Bool) : ∀ t, Decidable (TaskLawful x raises t)
  | .enrol e pos => inferInstanceAs (Decidable (CallLawful x raises e pos))
  | .delete _ _ | .ended => inferInstanceAs (Decidable True)

/-- The condition on a step. -/
def Lawful (x : State) : Act → Prop
  | .go i => ∀ t ∈ x.tasks[i]?, TaskLawful x false t
  | .fail i => ∀ t ∈ x.tasks[i]?, TaskLawful x true t
  | _ => True

instance (x : State) : ∀ act, Decidable (Lawful x act)
  | .go i => inferInstanceAs (Decidable (∀ _ ∈ _, _))
  | .fail i => inferInstanceAs (Decidable (∀ _ ∈ _, _))
  | .enroll _ | .delete _ => inferInstanceAs (Decidable True)

/-! ## The invariant -/

/-- What every lawful step keeps. -/
structure Inv (x : State) : Prop where
  features : ∀ row f, x.stores.features.get? row = some f → f.subjectType = portraitIdentity →
    featureStage.Covered x row (sibling row f.subjectId)
  records : ∀ row r, x.stores.records.get? row = some r → r.deleted = false →
    r.sourceType = portraitIdentity → recordStage.Covered x row (sibling row r.sourceId)
  deleted : ∀ key ∈ x.deleted, key ∉ x.stores.identities

variable {stage : Stage}

theorem Stage.ToClear.move (h : stage.ToClear x key) (ht : x.tasks[i]? = some t)
    (htasks : y.tasks = x.tasks.set i t')
    (hclears : stage.clears key t = true → stage.clears key t' = true) : stage.ToClear y key := by
  rw [Stage.ToClear, htasks]
  exact Parties.exists_set ht hclears h

theorem Stage.Covered.move (h : stage.Covered x row key) (ht : x.tasks[i]? = some t)
    (htasks : y.tasks = x.tasks.set i t')
    (hidentities : key ∈ x.stores.identities → key ∈ y.stores.identities)
    (hrecorded : stage.recorded x.stores row key → stage.recorded y.stores row key)
    (hclears : stage.clears key t = true → stage.clears key t' = true)
    (hcleared : stage.cleared key t = false → stage.cleared key t' = false)
    (henrols : stage.enrols row key t = true →
      stage.enrols row key t' = true ∨ stage.recorded y.stores row key ∨ stage.ToClear y key) :
    stage.Covered y row key := by
  rcases h with hclear | ⟨⟨hthere, hopen⟩, hcovered⟩
  · exact .inl (hclear.move ht htasks hclears)
  · have hopen' : stage.Open y key := by
      refine ⟨hidentities hthere, fun u hu => ?_⟩
      rw [htasks] at hu
      rcases List.mem_or_eq_of_mem_set hu with hu | rfl
      · exact hopen u hu
      · exact hcleared (hopen t (List.mem_of_getElem? ht))
    rcases hcovered with hrec | henr
    · exact .inr ⟨hopen', .inl (hrecorded hrec)⟩
    · obtain ⟨u, hu, henr⟩ := henr
      by_cases hself : u = t
      · rw [hself] at henr
        rcases henrols henr with henr' | hrec | hclear
        · refine .inr ⟨hopen', .inr ⟨t', ?_, henr'⟩⟩
          rw [htasks]
          exact List.mem_of_getElem? (Parties.getElem?_set_same ht)
        · exact .inr ⟨hopen', .inl hrec⟩
        · exact .inl hclear
      · refine .inr ⟨hopen', .inr ?_⟩
        rw [htasks]
        obtain ⟨v, hv, heq⟩ := Parties.exists_set (P := fun v => v = u) (p := t') ht
          (fun heq => absurd heq.symm hself) ⟨u, hu, rfl⟩
        exact ⟨v, hv, heq ▸ henr⟩

theorem Stage.Covered.append (h : stage.Covered x row key) (htasks : y.tasks = x.tasks ++ [t])
    (hstores : y.stores = x.stores) (hcleared : stage.cleared key t = false) :
    stage.Covered y row key := by
  have hmono : ∀ p : Task → Bool, (∃ u ∈ x.tasks, p u = true) → ∃ u ∈ y.tasks, p u = true := by
    rintro p ⟨u, hu, hpu⟩
    refine ⟨u, ?_, hpu⟩
    rw [htasks]
    exact List.mem_append_left _ hu
  refine h.imp (hmono _) ?_
  rintro ⟨⟨_, hopen⟩, hcovered⟩
  refine ⟨⟨by rwa [hstores], fun u hu => ?_⟩, ?_⟩
  · rw [htasks] at hu
    rcases List.mem_append.1 hu with hu | hu
    · exact hopen u hu
    · rwa [List.mem_singleton.1 hu]
  · rw [hstores]
    exact hcovered.imp_right (hmono _)

theorem Inv.request (h : Inv x)
    (hnew : ∀ key, featureStage.cleared key t = false ∧ recordStage.cleared key t = false) :
    Inv { x with tasks := x.tasks ++ [t] } where
  features row f hf hsubject := (h.features row f hf hsubject).append rfl rfl (hnew _).1
  records row r hr hlisted hsource := (h.records row r hr hlisted hsource).append rfl rfl (hnew _).2
  deleted := h.deleted

/-! ## Enrolments -/

theorem Inv.raises (h : Inv x) (ht : x.tasks[i]? = some (.enrol e pos))
    (hrenounces : Renounces x e pos) : Inv (x.go i .ended) where
  features row f hf hsubject := by
    refine (h.features row f hf hsubject).move ht rfl id id nofun (fun _ => rfl)
      fun henrols => ?_
    have hgives : x.stores.features.get? e.featureKey = none ∨ featureStage.ToClear x e.key := by
      cases pos with
      | index | record => exact hrenounces
      | enrollment => exact hrenounces.1
      | _ => cases henrols
    have hmine : e.featureKey = row ∧ e.key = sibling row f.subjectId := by
      cases pos with
      | index | record | enrollment => simpa [featureStage] using henrols
      | _ => cases henrols
    rcases hgives with hnone | hclear
    · have hstored : x.stores.features.get? row = some f := hf
      simp [hmine.1, hstored] at hnone
    · rw [← hmine.2]
      exact .inr (.inr (hclear.move ht rfl fun hc => by cases hc))
  records row r hr hlisted hsource := by
    refine (h.records row r hr hlisted hsource).move ht rfl id id nofun
      (fun _ => rfl)
      fun henrols => ?_
    cases pos with
    | enrollment =>
      obtain ⟨hrow, hkey⟩ : e.recordKey = row ∧ e.key = sibling row r.sourceId := by
        simpa [recordStage] using henrols
      rcases hrenounces.2 with hnone | hclear
      · have hstored : x.stores.records.get? row = some r := hr
        simp [hrow, hstored, Option.all_some, hlisted] at hnone
      · rw [← hkey]
        exact .inr (.inr (hclear.move ht rfl fun hc => by cases hc))
    | _ => cases henrols
  deleted := h.deleted

variable {s : Stores}

theorem Inv.add (h : Inv x) (ht : x.tasks[i]? = some (.enrol e .feature))
    (htimely : Timely x e .feature) (hcall : x.stores.add e.featureKey e.feature = some s) :
    Inv { x.go i (.enrol e .index) with stores := s } := by
  obtain rfl : { x.stores with features := x.stores.features.insert e.featureKey e.feature } =
      s := by
    unfold Stores.add at hcall
    split at hcall
    · cases hcall
    · split at hcall
      · cases hcall
      · split at hcall <;> cases hcall
        rfl
  refine ⟨fun row f hf hsubject => ?_, fun row r hr hlisted hsource => ?_, h.deleted⟩
  · rcases Dict.get?_insert_cases hf with ⟨hrow, rfl⟩ | ⟨-, hf⟩
    · have hkey : sibling row e.feature.subjectId = e.key := by
        rw [hrow]
        rfl
      rw [hkey]
      rcases htimely with hclear | ⟨hthere, hopen⟩
      · exact .inl (hclear.move ht rfl fun hc => by cases hc)
      · refine .inr ⟨⟨hthere, fun u hu => ?_⟩, .inr ⟨.enrol e .index, ?_, ?_⟩⟩
        · rcases List.mem_or_eq_of_mem_set hu with hu | rfl
          · exact hopen u hu
          · rfl
        · exact List.mem_of_getElem? (Parties.getElem?_set_same ht)
        · simp [featureStage, hrow]
    · exact (h.features row f hf hsubject).move ht rfl id id nofun (fun _ => rfl)
        nofun
  · exact (h.records row r hr hlisted hsource).move ht rfl id id nofun
      (fun _ => rfl)
      nofun

theorem Inv.upsert (h : Inv x) (ht : x.tasks[i]? = some (.enrol e .record))
    (htimely : Timely x e .record) (hcall : x.stores.upsert e.recordKey e.record = some s) :
    Inv { x.go i (.enrol e .enrollment) with stores := s } := by
  obtain rfl : { x.stores with records := x.stores.records.insert e.recordKey e.record } = s := by
    unfold Stores.upsert at hcall
    split at hcall
    · cases hcall
    · split at hcall <;> cases hcall
      rfl
  refine ⟨fun row f hf hsubject => ?_, fun row r hr hlisted hsource => ?_, h.deleted⟩
  · exact (h.features row f hf hsubject).move ht rfl id id nofun (fun _ => rfl)
      fun hc => .inl hc
  · rcases Dict.get?_insert_cases hr with ⟨hrow, rfl⟩ | ⟨-, hr⟩
    · have hkey : sibling row e.record.sourceId = e.key := by
        rw [hrow]
        rfl
      rw [hkey]
      rcases htimely with hclear | ⟨hthere, hopen⟩
      · exact .inl (hclear.move ht rfl fun hc => by cases hc)
      · refine .inr ⟨⟨hthere, fun u hu => ?_⟩, .inr ⟨.enrol e .enrollment, ?_, ?_⟩⟩
        · rcases List.mem_or_eq_of_mem_set hu with hu | rfl
          · exact hopen u hu
          · rfl
        · exact List.mem_of_getElem? (Parties.getElem?_set_same ht)
        · simp [recordStage, hrow]
    · exact (h.records row r hr hlisted hsource).move ht rfl id id nofun
        (fun _ => rfl)
        nofun

theorem Inv.createEnrollment (h : Inv x)
    (ht : x.tasks[i]? = some (.enrol e .enrollment))
    (hcall : x.stores.createEnrollment e.featureKey e.enrollment = some s) :
    Inv { x.go i (.enrol e .audit) with stores := s } := by
  unfold Stores.createEnrollment at hcall
  split at hcall
  · cases hcall
  rename_i hnone
  cases hcall
  have hmono : ∀ k enrollment, x.stores.enrollments.get? k = some enrollment →
      (x.stores.enrollments.insert e.featureKey e.enrollment).get? k = some enrollment := by
    intro k _ hk
    rw [Dict.get?_insert_of_ne, hk]
    rintro rfl
    rw [hk] at hnone
    exact hnone rfl
  have hnew : (x.stores.enrollments.insert e.featureKey e.enrollment).get? e.featureKey =
      some e.enrollment := Dict.get?_insert_self _ _ _
  refine ⟨fun row f hf hsubject => ?_, fun row r hr hlisted hsource => ?_, h.deleted⟩
  · refine (h.features row f hf hsubject).move ht rfl id ?_ nofun (fun _ => rfl)
      fun henrols => ?_
    · rintro ⟨enrollment, hget, hid⟩
      exact ⟨enrollment, hmono row enrollment hget, hid⟩
    · obtain ⟨hrow, hkey⟩ : e.featureKey = row ∧ e.key = sibling row f.subjectId := by
        simpa [featureStage] using henrols
      refine .inr (.inl ⟨e.enrollment, hrow ▸ hnew, ?_⟩)
      rw [← hkey, ← hrow]
      rfl
  · refine (h.records row r hr hlisted hsource).move ht rfl id ?_ nofun
      (fun _ => rfl)
      fun henrols => ?_
    · rintro ⟨k, enrollment, hget, hid, hrecord⟩
      exact ⟨k, enrollment, hmono k enrollment hget, hid, hrecord⟩
    · obtain ⟨hrow, hkey⟩ : e.recordKey = row ∧ e.key = sibling row r.sourceId := by
        simpa [recordStage] using henrols
      refine .inr (.inl ⟨e.featureKey, e.enrollment, hnew, hkey ▸ rfl, hrow ▸ rfl⟩)

/-! ## Every step -/

theorem Inv.still (h : Inv x) (ht : x.tasks[i]? = some t)
    (hsame : s.identities = x.stores.identities ∧ s.enrollments = x.stores.enrollments ∧
      s.features = x.stores.features ∧ s.records = x.stores.records)
    (hclears : ∀ key, (featureStage.clears key t = true → featureStage.clears key t' = true) ∧
      (recordStage.clears key t = true → recordStage.clears key t' = true))
    (hcleared : ∀ key, (featureStage.cleared key t = false → featureStage.cleared key t' = false) ∧
      (recordStage.cleared key t = false → recordStage.cleared key t' = false))
    (henrols : ∀ row key, (featureStage.enrols row key t = true →
      featureStage.enrols row key t' = true) ∧
      (recordStage.enrols row key t = true → recordStage.enrols row key t' = true)) :
    Inv { x.go i t' with stores := s } := by
  obtain ⟨hidentities, henrollments, hfeatures, hrecords⟩ := hsame
  refine ⟨fun row f hf hsubject => ?_, fun row r hr hlisted hsource => ?_, fun key hkey => ?_⟩
  · rw [hfeatures] at hf
    refine (h.features row f hf hsubject).move ht rfl (fun hkey => by rwa [hidentities])
      (fun hrec => ?_) (hclears _).1 (hcleared _).1 fun hc => .inl ((henrols _ _).1 hc)
    show FeatureRecorded s row _
    rwa [FeatureRecorded, henrollments]
  · rw [hrecords] at hr
    refine (h.records row r hr hlisted hsource).move ht rfl (fun hkey => by rwa [hidentities])
      (fun hrec => ?_) (hclears _).2 (hcleared _).2 fun hc => .inl ((henrols _ _).2 hc)
    show RecordRecorded s row _
    rwa [RecordRecorded, henrollments]
  · show key ∉ s.identities
    rw [hidentities]
    exact h.deleted key hkey

theorem Enrol.call_same (hpos : pos = .identity ∨ pos = .space ∨ pos = .index ∨
    pos = .audit) (hcall : e.call x.stores pos = some s) :
    s.identities = x.stores.identities ∧ s.enrollments = x.stores.enrollments ∧
      s.features = x.stores.features ∧ s.records = x.stores.records := by
  rcases hpos with rfl | rfl | rfl | rfl
  · rw [Enrol.call] at hcall
    split at hcall <;> cases hcall
    exact ⟨rfl, rfl, rfl, rfl⟩
  · rw [Enrol.call, Stores.createSpace] at hcall
    split at hcall
    · split at hcall <;> cases hcall
      exact ⟨rfl, rfl, rfl, rfl⟩
    · cases hcall
      exact ⟨rfl, rfl, rfl, rfl⟩
  · rw [Enrol.call, Stores.createIndex] at hcall
    split at hcall
    · split at hcall <;> cases hcall
      exact ⟨rfl, rfl, rfl, rfl⟩
    · cases hcall
      exact ⟨rfl, rfl, rfl, rfl⟩
  · cases hcall
    exact ⟨rfl, rfl, rfl, rfl⟩

theorem Inv.calls (h : Inv x) (ht : x.tasks[i]? = some (.enrol e pos))
    (htimely : Timely x e pos) (hcall : e.call x.stores pos = some s) :
    Inv { x.go i (e.next pos) with stores := s } := by
  cases pos with
  | feature => exact h.add ht htimely hcall
  | record => exact h.upsert ht htimely hcall
  | enrollment => exact h.createEnrollment ht hcall
  | identity =>
    exact h.still ht (Enrol.call_same (.inl rfl) hcall) (fun _ => ⟨id, id⟩) (fun _ => ⟨id, id⟩)
      fun _ _ => ⟨id, id⟩
  | space =>
    exact h.still ht (Enrol.call_same (.inr (.inl rfl)) hcall) (fun _ => ⟨id, id⟩)
      (fun _ => ⟨id, id⟩)
      fun _ _ => ⟨nofun, nofun⟩
  | index =>
    exact h.still ht (Enrol.call_same (.inr (.inr (.inl rfl))) hcall) (fun _ => ⟨id, id⟩)
      (fun _ => ⟨id, id⟩) fun _ _ => ⟨id, id⟩
  | audit =>
    exact h.still ht (Enrol.call_same (.inr (.inr (.inr rfl))) hcall) (fun _ => ⟨id, id⟩)
      (fun _ => ⟨id, id⟩) fun _ _ => ⟨id, id⟩

theorem Inv.deleteSubject (h : Inv x) (ht : x.tasks[i]? = some (.delete key .features)) :
    Inv { x.go i (.delete key .records) with
      stores := x.stores.deleteSubject portraitIdentity key } where
  features row f hf hsubject := by
    obtain ⟨hold, hkept⟩ := Option.filter_eq_some_iff.1 ((Dict.get?_filter _ _ _).symm.trans hf)
    have hne : key ≠ sibling row f.subjectId := by
      rintro rfl
      simp [hsubject] at hkept
    refine (h.features row f hold hsubject).move ht rfl id id (fun hc => ?_) (fun _ => ?_)
      fun hc => ?_
    · exact absurd (of_decide_eq_true hc) hne
    · exact decide_eq_false hne
    · cases hc
  records row r hr hlisted hsource :=
    (h.records row r hr hlisted hsource).move ht rfl id id id (fun hc => hc) fun hc => by cases hc
  deleted := h.deleted

theorem Inv.deleteSource (h : Inv x) (ht : x.tasks[i]? = some (.delete key .records)) :
    Inv { x.go i (.delete key .remove) with
      stores := x.stores.deleteSource portraitIdentity key } where
  features row f hf hsubject :=
    (h.features row f hf hsubject).move ht rfl id id id (fun hc => hc) fun hc => by cases hc
  records row r hr hlisted hsource := by
    obtain ⟨_, hold, heq⟩ := Option.map_eq_some_iff.1 ((Dict.get?_mapVals _ _ _).symm.trans hr)
    split at heq
    · cases heq
      cases hlisted
    rename_i hother
    cases heq
    have hne : key ≠ sibling row r.sourceId := by
      rintro rfl
      exact hother ⟨rfl, hsource⟩
    refine (h.records row r hold hlisted hsource).move ht rfl id id (fun hc => ?_) (fun _ => ?_)
      fun hc => ?_
    · exact absurd (of_decide_eq_true hc) hne
    · exact decide_eq_false hne
    · cases hc
  deleted := h.deleted

theorem Inv.deleteIdentity (h : Inv x) (ht : x.tasks[i]? = some (.delete key .remove)) :
    Inv { x.go i .ended with
      stores := x.stores.deleteIdentity key
      deleted := x.deleted ++ [key] } := by
  have hmem := List.mem_of_getElem? ht
  have hidentities : ∀ k, k ≠ key → k ∈ x.stores.identities →
      k ∈ (x.stores.deleteIdentity key).identities := fun k hk hthere =>
    List.mem_filter.2 ⟨hthere, decide_eq_true hk⟩
  have henrollments : ∀ row enrollment, sibling row enrollment.identityId ≠ key →
      x.stores.enrollments.get? row = some enrollment →
      (x.stores.deleteIdentity key).enrollments.get? row = some enrollment := by
    intro _ _ hne hget
    refine (Dict.get?_filter _ _ _).trans ?_
    rw [hget]
    simp [Option.filter, hne]
  refine ⟨fun row f hf hsubject => ?_, fun row r hr hlisted hsource => ?_, fun k hk => ?_⟩
  · have hcovered := h.features row f hf hsubject
    by_cases hkey : sibling row f.subjectId = key
    · rcases hcovered with hclear | ⟨⟨-, hopen⟩, -⟩
      · exact .inl (hclear.move ht rfl fun hc => by cases hc)
      · exact absurd (hopen _ hmem) (by simp [featureStage, hkey])
    · refine hcovered.move ht rfl (hidentities _ hkey) ?_ nofun (fun _ => rfl)
        fun hc => by cases hc
      rintro ⟨enrollment, hget, hid⟩
      exact ⟨enrollment, henrollments row enrollment (hid ▸ hkey) hget, hid⟩
  · have hcovered := h.records row r hr hlisted hsource
    by_cases hkey : sibling row r.sourceId = key
    · rcases hcovered with hclear | ⟨⟨-, hopen⟩, -⟩
      · exact .inl (hclear.move ht rfl fun hc => by cases hc)
      · exact absurd (hopen _ hmem) (by simp [recordStage, hkey])
    · refine hcovered.move ht rfl (hidentities _ hkey) ?_ nofun (fun _ => rfl)
        fun hc => by cases hc
      rintro ⟨k, enrollment, hget, hid, hrow⟩
      exact ⟨k, enrollment, henrollments k enrollment (hid ▸ hkey) hget, hid, hrow⟩
  · intro hthere
    obtain ⟨hold, hne⟩ := List.mem_filter.1 hthere
    rcases List.mem_append.1 hk with hk | hk
    · exact h.deleted k hk hold
    · exact of_decide_eq_true hne (List.mem_singleton.1 hk)

theorem Inv.stepTask (h : Inv x) (ht : x.tasks[i]? = some t) (hlawful : TaskLawful x false t)
    (hs : stepTask x i t = some y) : Inv y := by
  cases t with
  | enrol e pos =>
    rw [Portrait.stepTask] at hs
    cases hcall : e.call x.stores pos with
    | some s =>
      rw [hcall] at hs
      cases hs
      refine h.calls ht ?_ hcall
      simpa [TaskLawful, CallLawful, hcall] using hlawful
    | none =>
      rw [hcall] at hs
      cases hs
      refine h.raises ht ?_
      simpa [TaskLawful, CallLawful, hcall] using hlawful
  | delete _ pos =>
    cases pos with
    | identity =>
      cases hs
      refine h.still ht ⟨rfl, rfl, rfl, rfl⟩ (fun _ => ⟨nofun, nofun⟩)
        (fun _ => ?_) fun _ _ => ⟨nofun, nofun⟩
      split <;> exact ⟨fun _ => rfl, fun _ => rfl⟩
    | audit =>
      cases hs
      exact h.still ht ⟨rfl, rfl, rfl, rfl⟩ (fun _ => ⟨id, id⟩) (fun _ => ⟨id, id⟩) fun _ _ =>
        ⟨id, id⟩
    | features =>
      cases hs
      exact h.deleteSubject ht
    | records =>
      cases hs
      exact h.deleteSource ht
    | remove =>
      rw [Portrait.stepTask] at hs
      split at hs <;> cases hs
      · exact h.deleteIdentity ht
      · exact h.still ht ⟨rfl, rfl, rfl, rfl⟩ (fun _ => ⟨id, id⟩)
          (fun _ => ⟨fun _ => rfl, fun _ => rfl⟩)
          fun _ _ => ⟨id, id⟩
  | ended => cases hs

theorem Inv.step (h : Inv x) (hlawful : Lawful x act) (hs : step x act = some y) : Inv y := by
  cases act with
  | enroll | delete =>
    cases hs
    exact h.request fun _ => ⟨rfl, rfl⟩
  | go i =>
    obtain ⟨t, ht, hs⟩ := Option.bind_eq_some_iff.1 hs
    exact h.stepTask ht (hlawful t ht) hs
  | fail i =>
    dsimp only [Portrait.step] at hs
    split at hs
    · rename_i e pos ht
      cases hs
      refine h.raises ht ?_
      simpa [TaskLawful, CallLawful] using hlawful _ ht
    · cases hs

/-! ## Runs -/

theorem Stage.Covered.quiet (h : stage.Covered x row key) (hquiet : Quiet x)
    (hnone : ∀ row key, stage.clears key .ended = false ∧ stage.enrols row key .ended = false) :
    key ∈ x.stores.identities ∧ stage.recorded x.stores row key := by
  rcases h with ⟨t, ht, hclears⟩ | ⟨⟨hthere, -⟩, hrec | ⟨t, ht, henrols⟩⟩
  · simp [hquiet t ht, (hnone row key).1] at hclears
  · exact ⟨hthere, hrec⟩
  · simp [hquiet t ht, (hnone row key).2] at henrols

theorem Inv.erased (h : Inv x) (hquiet : Quiet x) : Erased x := by
  have hfeatures : ∀ row f, x.stores.features.get? row = some f → f.subjectType = portraitIdentity →
      sibling row f.subjectId ∈ x.stores.identities ∧
        FeatureRecorded x.stores row (sibling row f.subjectId) := fun row f hf hsubject =>
    (h.features row f hf hsubject).quiet hquiet fun _ _ => ⟨rfl, rfl⟩
  have hrecords : ∀ row r, x.stores.records.get? row = some r → r.deleted = false →
      r.sourceType = portraitIdentity → sibling row r.sourceId ∈ x.stores.identities ∧
        RecordRecorded x.stores row (sibling row r.sourceId) := fun row r hr hlisted hsource =>
    (h.records row r hr hlisted hsource).quiet hquiet fun _ _ => ⟨rfl, rfl⟩
  refine ⟨hfeatures, hrecords, fun key hkey row f hf hsubject heq => ?_,
    fun key hkey row r hr hlisted hsource heq => ?_⟩
  · exact h.deleted key hkey (heq ▸ (hfeatures row f hf hsubject).1)
  · exact h.deleted key hkey (heq ▸ (hrecords row r hr hlisted hsource).1)

theorem Inv.start (htasks : x.tasks = []) (hdeleted : x.deleted = []) (h : Erased x) : Inv x := by
  have hopen : ∀ (stage : Stage) key, key ∈ x.stores.identities → stage.Open x key := by
    intro _ _ hkey
    refine ⟨hkey, fun t ht => ?_⟩
    simp [htasks] at ht
  refine ⟨fun row f hf hsubject => ?_, fun row r hr hlisted hsource => ?_, fun key hkey => ?_⟩
  · obtain ⟨hthere, hrec⟩ := h.features row f hf hsubject
    exact .inr ⟨hopen _ _ hthere, .inl hrec⟩
  · obtain ⟨hthere, hrec⟩ := h.records row r hr hlisted hsource
    exact .inr ⟨hopen _ _ hthere, .inl hrec⟩
  · simp [hdeleted] at hkey

/-- **Nothing is left behind** by lawful runs of enrolments and deletions, from any state without
calls where nothing is. -/
theorem erased_of_lawful (htasks : x.tasks = []) (hdeleted : x.deleted = []) (herased : Erased x)
    (acts : List Act) (hlawful : Along step Lawful x acts) :
    ∀ y ∈ states step x acts, Quiet y → Erased y := by
  intro y hy hquiet
  exact Inv.erased (invariant_states (I := Inv) (fun _ _ _ h hP hs => h.step hP hs)
    (Inv.start htasks hdeleted herased) hlawful y hy) hquiet

/-! ## Runs on fixed inputs -/

/-- One identity, and empty stores. -/
def alone : State where
  stores :=
    { identities := [("t", "p", "idn_1")]
      enrollments := Dict.empty
      spaces := Dict.empty
      features := Dict.empty
      indexes := Dict.empty
      records := Dict.empty }
  tasks := []
  deleted := []

theorem erased_alone : Erased alone where
  features _ _ hf := by cases hf
  records _ _ hr := by cases hr
  deletedFeatures _ hkey := by cases hkey
  deletedRecords _ hkey := by cases hkey

/-- An enrolment of that identity. -/
def enrolOne : Enrol where
  key := ("t", "p", "idn_1")
  featureSpaceId := "face"
  modality := "face"
  modelId := "arcface"
  modelVersion := "1"
  distanceMetric := "cosine"
  threshold := none
  embedding := ⟨512, true⟩
  featureId := "feat_1"
  indexRecordId := "idxr_1"
  enrollmentId := "enr_1"

/-- An enrolment whose last writes fall into a deletion, and the deletion. -/
theorem erased_one :
    let acts : List Act := [.enroll enrolOne, .go 0, .go 0, .delete ("t", "p", "idn_1"),
      .go 1, .go 1, .go 0, .go 1, .go 0, .go 0, .go 1, .go 0, .go 1, .go 0]
    ∃ y, exec step alone acts = some y ∧ Erased y ∧ y.deleted = [("t", "p", "idn_1")] ∧
      y.tasks = [.ended, .ended] := by
  intro acts
  have hlawful : Along step Lawful alone acts := by decide +kernel
  obtain ⟨y, hy, hdone⟩ : ∃ y, exec step alone acts = some y ∧ y.deleted = [("t", "p", "idn_1")] ∧
      y.tasks = [.ended, .ended] :=
    exec_decide (by decide +kernel)
  refine ⟨y, hy, ?_, hdone⟩
  refine erased_of_lawful rfl rfl erased_alone acts hlawful y (mem_states_of_exec hy) ?_
  intro t ht
  rw [hdone.2] at ht
  simpa using ht

/-- **What is left behind**: by an enrolment whose upsert raises, and by an enrolment that has
looked the identity up before its deletion, and stores its vectors after it. -/
theorem left_behind :
    let failed : List Act := [.enroll enrolOne, .go 0, .go 0, .go 0, .go 0, .fail 0]
    let overtaken : List Act := [.enroll enrolOne, .go 0, .delete ("t", "p", "idn_1")] ++
      List.replicate 5 (.go 1) ++ List.replicate 6 (.go 0)
    (∃ y, exec step alone failed = some y ∧ Quiet y ∧ ¬ Erased y) ∧
    ∃ y, exec step alone overtaken = some y ∧ Quiet y ∧ ¬ Erased y ∧
      y.deleted = [("t", "p", "idn_1")] ∧
      y.stores.features.get? ("t", "p", "feat_1") = some enrolOne.feature ∧
      y.stores.records.get? ("t", "p", "idxr_1") = some enrolOne.record := by
  intro failed overtaken
  constructor
  · obtain ⟨y, hy, htasks, hfeature, hnone⟩ : ∃ y, exec step alone failed = some y ∧
        y.tasks = [.ended] ∧ y.stores.features.get? ("t", "p", "feat_1") = some enrolOne.feature ∧
        y.stores.enrollments.get? ("t", "p", "feat_1") = none :=
      exec_decide (by decide +kernel)
    refine ⟨y, hy, fun t ht => ?_, fun herased => ?_⟩
    · rw [htasks] at ht
      exact List.mem_singleton.1 ht
    · obtain ⟨-, _, hget, -⟩ := herased.features _ _ hfeature rfl
      simp [hnone] at hget
  · obtain ⟨y, hy, htasks, hdeleted, hfeature, hrecord⟩ : ∃ y, exec step alone overtaken = some y ∧
        y.tasks = [.ended, .ended] ∧ y.deleted = [("t", "p", "idn_1")] ∧
        y.stores.features.get? ("t", "p", "feat_1") = some enrolOne.feature ∧
        y.stores.records.get? ("t", "p", "idxr_1") = some enrolOne.record :=
      exec_decide (by decide +kernel)
    refine ⟨y, hy, fun t ht => ?_, fun herased => ?_, hdeleted, hfeature, hrecord⟩
    · rw [htasks] at ht
      simpa using ht
    · exact herased.deletedFeatures ("t", "p",
        "idn_1") (by rw [hdeleted]; exact List.mem_singleton.2 rfl) _ _ hfeature rfl rfl

end Scenara.Portrait
