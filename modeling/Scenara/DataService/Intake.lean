import Scenara.DataService.Frame

/-!
# Intakes of hard samples

`hard_sample_intake` saves the manifest before it looks at the sources, and answers with a manifest
that is there without looking at them.
-/

namespace Scenara.DataService

open Scenara.Core

variable (setting : Setting)

/-- The ids of the sources that have one. -/
def sourceIds : List Doc → List String
  | [] => []
  | .obj fields :: sources =>
    if sourceId setting (record fields) = "" then sourceIds sources
    else sourceId setting (record fields) :: sourceIds sources
  | _ :: sources => sourceIds sources

/-- The source has no id, or a valid reference. -/
def validSource : Doc → Bool
  | .obj fields => sourceId setting (record fields) = "" ||
    (validateObjectReference setting (get (record fields) "source_ref")).toOption.isSome
  | _ => true

/-- There is a sample of the id. -/
def Sampled (s : DataStore) (q : Request) (sampleId : String) : Prop :=
  ∃ r, (s.records .intakes).get? (q.key sampleId) = some r ∧ entityOf .intakes r = .sample

/-- The event says that the manifest was imported. -/
def isImport (q : Request) (manifestId : String) (event : Record) : Bool :=
  is (get event "event_type") (some "hard_sample.imported") &&
  is (get event "tenant_id") (some q.tenantId) &&
    is (get event "project_id") (some q.projectId) &&
      match get event "data" with
      | .obj data => is (get (record data) "manifest_id") (some manifestId)
      | _ => false

/-- How often the manifest was imported. -/
def imports (s : DataStore) (q : Request) (manifestId : String) : Nat :=
  (s.records .outbox).values.countP (isImport q manifestId)

/-- `str(manifest["manifest_id"])`. -/
def manifestIdOf (body : Record) : String := setting.str (get (manifestOf body) "manifest_id")

/-- An error leaves the records alone; else the samples are there, and the manifest was imported
once. -/
def Intaken (s : DataStore) (q : Request) (body : Record) : Prop :=
  match hardSampleIntake setting s q body with
  | (.error _, t) => t.records = s.records
  | (.ok _, t) => (∀ sampleId ∈ sourceIds setting (sourcesOf body), Sampled t q sampleId) ∧
      imports t q (manifestIdOf setting body) = 1

/-- Of a new manifest the sources are valid; of one that is there the samples are, and it was
imported. -/
def Importable (s : DataStore) (q : Request) (body : Record) : Prop :=
  (∃ items, checkManifest setting q (manifestOf body) = .ok items) →
    if ((s.records .intakes).get? (q.key (manifestIdOf setting body))).isSome then
      (∀ sampleId ∈ sourceIds setting (sourcesOf body), Sampled s q sampleId) ∧
        imports s q (manifestIdOf setting body) = 1
    else (∀ source ∈ sourcesOf body, validSource setting source = true) ∧
      imports s q (manifestIdOf setting body) = 0

variable {setting} {s t : DataStore} {q : Request}

/-! ## Sources -/

theorem intakeSources_cases (setting : Setting) (q : Request) (manifestId : String)
    (sources : List Doc) (n : Nat) (s : DataStore) :
    ((∀ source ∈ sources, validSource setting source = true) ∧
        (∃ t, (intakeSources setting q manifestId n s sources).1 = .ok t) ∧
          (sourceSamples setting q manifestId n sources).map Prod.fst = sourceIds setting sources) ∨
      (¬∀ source ∈ sources, validSource setting source = true) ∧
        ∃ e, (intakeSources setting q manifestId n s sources).1 = .error e := by
  induction sources generalizing n s with
  | nil => exact .inl ⟨fun _ h => absurd h List.not_mem_nil, ⟨s, rfl⟩, rfl⟩
  | cons source _ ih =>
    simp only [List.forall_mem_cons]
    cases source with
    | obj fields =>
      unfold intakeSources sourceSamples sourceIds validSource
      by_cases hid : sourceId setting (record fields) = ""
      · simp only [hid, if_true, decide_true, Bool.true_or, true_and]
        exact ih n s
      · simp only [hid, if_false, decide_false, Bool.false_or]
        cases hreference : validateObjectReference setting (get (record fields) "source_ref") with
        | error => exact .inr ⟨fun h => absurd h.1 Bool.false_ne_true, _, rfl⟩
        | ok =>
          simp only [Except.toOption, Option.isSome_some, true_and, List.map_cons, List.cons.injEq]
          exact ih (n + 1) _
    | null | bool _ | num _ | str _ | arr _ =>
      simp only [intakeSources, sourceSamples, sourceIds, validSource, true_and]
      exact ih n s

theorem entityOf_sourceSamples (manifestId : String) (sources : List Doc) (n : Nat) :
    ∀ e ∈ sourceSamples setting q manifestId n sources, entityOf .intakes e.2 = .sample := by
  intro e he
  obtain ⟨_, _, _, _, hitem⟩ := mem_sourceSamples manifestId sources n e he
  simp [hitem, entityOf, sampleItem, record, Dict.ofList, Dict.get?_insert]

theorem sample_of_mem {samples : List (String × Record)} {sampleId : String}
    (h : sampleId ∈ samples.map Prod.fst) :
    ∃ e ∈ samples, (Dict.ofList samples).get? sampleId = some e.2 := by
  induction samples using List.reverseRecOn with
  | nil => cases h
  | append_singleton samples e ih =>
    have hofList : Dict.ofList (samples ++ [e]) = (Dict.ofList samples).insert e.1 e.2 :=
      List.foldl_append
    rw [hofList, Dict.get?_insert]
    by_cases hid : sampleId = e.1
    · exact ⟨e, List.mem_append_right _ List.mem_cons_self, if_pos hid⟩
    · rw [List.map_append, List.mem_append] at h
      obtain ⟨e', he', hget⟩ := ih (h.resolve_right fun hlast => hid (List.mem_singleton.1 hlast))
      exact ⟨e', List.mem_append_left _ he', (if_neg hid).trans hget⟩

/-! ## Events -/

theorem outbox_create (s : DataStore) {entity : Entity} (h : entity.kind ≠ .outbox) (item : Record)
    (recordId : String) (idempotencyKey : Option String) :
    (s.create setting entity item recordId idempotencyKey).records .outbox = s.records .outbox :=
  Function.update_of_ne h.symm _ _

theorem outbox_samples (samples : List (String × Record)) (s : DataStore) :
    (samples.foldl (fun s e => s.create setting .sample e.2 e.1 none) s).records .outbox =
      s.records .outbox := by
  induction samples generalizing s with
  | nil => rfl
  | cons e _ ih => exact (ih _).trans (outbox_create s (by decide) _ _ _)

theorem imports_emit (h : Inv setting s) (manifestId now : String) (items : List Doc) :
    imports (emit setting s q "hard_sample.imported"
      [("manifest_id", .str manifestId), ("item_count", .int items.length)] now) q manifestId =
        imports s q manifestId + 1 := by
  have hfresh : (s.records .outbox).get? (q.key ("evt_" ++ s.uuid setting)) = none :=
    h.fresh .event rfl
  unfold imports emit DataStore.create DataStore.save
  dsimp only [Entity.kind]
  rw [Function.update_self, Dict.values_insert, List.countP_append, List.countP_singleton, if_pos]
  · rfl
  · simp [isImport, record, Dict.ofList, is_iff, optional]
  · simpa [DataStore.keyOf, record, Dict.ofList, Request.key] using hfresh

/-! ## Intakes -/

/-- **An intake** does what it answers exactly when it is of a new manifest with valid sources, or
of one that was taken in whole. -/
theorem intaken_iff (setting : Setting) (requests : List Request) (q : Request) (body : Record) :
    Intaken setting (after setting requests) q body ↔
    Importable setting (after setting requests) q body := by
  have hinv : Inv setting (after setting requests) := inv_after requests
  generalize after setting requests = s at hinv
  unfold Intaken Importable hardSampleIntake manifestIdOf
  dsimp only
  cases hcheck : checkManifest setting q (manifestOf body) with
  | error e => exact iff_of_true rfl (by rintro ⟨_, hok⟩; cases hok)
  | ok items =>
    rw [forall_prop_of_true ⟨items, rfl⟩]
    generalize hmanifestId : setting.str (get (manifestOf body) "manifest_id") = manifestId
    cases hthere : (s.records .intakes).get? (q.key manifestId) with
    | some =>
      simp only [Option.isSome_some, if_true, answerIntake, hthere]
    | none =>
      let item := manifestItem q manifestId (manifestOf body) items
      let samples := sourceSamples setting q manifestId 1 (sourcesOf body)
      let u := s.create setting .manifest item manifestId q.idempotencyKey
      have hnew : New setting q s.drawn .manifest item manifestId q.idempotencyKey :=
        new_manifest ..
      have hkeys : ∀ e ∈ samples, DataStore.keyOf setting e.2 e.1 = q.key e.1 :=
        keyOf_sourceSamples _ _ _
      have hwritten : (intakeSources setting q manifestId 1 u (sourcesOf body)).2 = _ :=
        intakeSources_samples ..
      have hwrites := intakeSources_writes manifestId (sourcesOf body) 1
          (Writes.refl.create hnew (by simp))
      have hcases := intakeSources_cases setting q manifestId (sourcesOf body) 1 u
      -- What is under an id of the caller then: a sample, or what was there and the manifest.
      have hintakes : ∀ recordId,
          ((intakeSources setting q manifestId 1 u (sourcesOf body)).2.records
          .intakes).get? (q.key recordId) =
            ((Dict.ofList samples).get? recordId).or
              ((u.records .intakes).get? (q.key recordId)) := by
        intro _
        rw [hwritten, get?_foldl_create hkeys, if_pos ⟨rfl, rfl⟩]
        rfl
      have hmanifest : (u.records .intakes).get? (q.key manifestId) = some item := by
        rw [DataStore.get?_create, hnew.keyOf, if_pos ⟨rfl, rfl⟩]
      rw [Option.isSome_none, if_neg Bool.false_ne_true]
      simp only [Bool.false_eq_true, if_false]
      have houtbox : (intakeSources setting q manifestId 1 u (sourcesOf body)).2.records .outbox =
          s.records .outbox := by
        rw [hwritten, outbox_samples]
        exact outbox_create s (by decide) _ _ _
      have hv := hwrites.inv hinv
      generalize intakeSources setting q manifestId 1 u (sourcesOf body) = result
        at hcases hintakes houtbox hv ⊢
      obtain ⟨_, v⟩ := result
      have hfound : ∃ r, (v.records .intakes).get? (q.key manifestId) = some r := by
        rw [hintakes, hmanifest]
        cases (Dict.ofList samples).get? manifestId with
        | none => exact ⟨item, rfl⟩
        | some sample => exact ⟨sample, rfl⟩
      obtain ⟨r, hr⟩ := hfound
      rcases hcases with ⟨hvalid, ⟨_, rfl⟩, hids⟩ | ⟨hinvalid, e, rfl⟩
      · have himports := imports_emit (q :=
          q) hv manifestId (q.now (1 + (sourcesOf body).length)) items
        have hall : ∀ sampleId ∈ sourceIds setting (sourcesOf body),
            Sampled (emit setting v q "hard_sample.imported"
            [("manifest_id", .str manifestId), ("item_count", .int items.length)]
            (q.now (1 + (sourcesOf body).length))) q sampleId := by
          intro _ hsampleId
          obtain ⟨e, he, hget⟩ := sample_of_mem (hids ▸ hsampleId)
          refine ⟨e.2, ?_, entityOf_sourceSamples _ _ _ e he⟩
          rw [emit_other _ _ _ _ (by decide), hintakes, hget, Option.some_or]
        simp only [answerIntake, emit_other _ _ _ _ (show Kind.intakes ≠ .outbox by decide), hr]
        rw [himports, and_iff_right hall, and_iff_right hvalid]
        unfold imports
        rw [houtbox]
        omega
      · refine iff_of_false (fun hsame => ?_) fun h => hinvalid h.1
        simp [hsame, hthere] at hr

/-- An intake of one sample whose reference is missing. -/
def strandedIntake : Record := record
  [("manifest_id", .str "m1"), ("tenant_id", .str "t"), ("project_id", .str "p"),
    ("dataset_id", .str "d1"),
    ("version", .str "1"), ("items", .arr []), ("created_by", .str "u"), ("created_at", .str ""),
    ("sha256", .str (String.ofList (List.replicate 64 '0'))),
    ("sources", .arr [.obj [("sample_id", .str "s1")]])]

/-- The intake is refused, and its manifest is there. -/
theorem intake_stranded : ¬∀ (setting : Setting) (requests : List Request) (q : Request)
    (body : Record), Intaken setting (after setting requests) q body := by
  intro h
  have hkept := h plain [] (requestOf (.hardSampleIntake strandedIntake)) strandedIntake
  have hraised : ((hardSampleIntake plain (after plain [])
      (requestOf (.hardSampleIntake strandedIntake))
      strandedIntake).1.toOption.isNone && (((hardSampleIntake plain (after plain [])
        (requestOf (.hardSampleIntake strandedIntake)) strandedIntake).2.records .intakes).get?
          ⟨"t", "p", "m1"⟩).isSome) = true := by decide +kernel
  unfold Intaken at hkept
  generalize hardSampleIntake plain (after plain []) (requestOf (.hardSampleIntake strandedIntake))
    strandedIntake = answer at hkept hraised
  obtain ⟨_ | _, t⟩ := answer
  · have hsame : t.records = (after plain []).records := hkept
    rw [Bool.and_eq_true, hsame] at hraised
    cases hraised.2
  · cases hraised

end Scenara.DataService
