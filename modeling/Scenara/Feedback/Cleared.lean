import Mathlib.Data.List.Dedup
import Scenara.Core.Parties
import Scenara.Feedback.Model

/-!
# Only cleared feedback is exported

`Cleared`: every item of every stored manifest stems from an approved, authorized, deidentified
feedback without a sensitive key.
-/

namespace Scenara.Feedback

open Scenara.Core
open Release (Scope FeedbackError)

variable {lower : String → String} {sha256 : CreateManifestRequest → List HardSampleItem → String}
  {repo repo' : Repository} {s s' : System} {call call' : Call} {now : ℚ}

/-! ## What is promised -/

/-- No key of the correction, at any depth, is sensitive. -/
def CleanCorrection (lower : String → String) (correction : Json) : Prop :=
  ∀ key, correction.KeyIn key → lower key ∉ sensitiveCorrectionKeys

/-- The feedback may be used for training. -/
structure Approvable (lower : String → String) (record : FeedbackRecord) : Prop where
  authorized : record.authorizedForTraining = true
  deidentified : record.deidentified = true
  clean : CleanCorrection lower record.correction

/-- The item was made of a stored feedback of the scope that is approved and cleared. -/
def Stems (lower : String → String) (repo : Repository) (scope : Scope) (item : HardSampleItem) :
    Prop :=
  ∃ record, repo.feedback.get? ⟨scope, item.feedbackId⟩ = some record ∧
    record.status = .approved ∧ Approvable lower record ∧ item = itemOf record

/-- The domains of the items are those of one domain. -/
def OneDomain (items : List HardSampleItem) : Prop :=
  ∀ item ∈ items, ∀ item' ∈ items, ∀ d ∈ item.domain, ∀ d' ∈ item'.domain, d = d'

/-- Every manifest holds cleared items of one domain. -/
def Cleared (lower : String → String) (repo : Repository) : Prop :=
  ∀ k manifest, repo.manifests.get? k = some manifest →
    (∀ item ∈ manifest.items, Stems lower repo k.scope item) ∧ OneDomain manifest.items

/-- A reviewed feedback stays as it is, its status and correction with it. -/
def Later (repo repo' : Repository) : Prop :=
  ∀ k record, repo.feedback.get? k = some record → record.status ≠ .pending →
    repo'.feedback.get? k = some record

theorem Later.refl (repo : Repository) : Later repo repo := fun _ _ h _ => h

theorem Later.trans {a b c : Repository} (hab : Later a b) (hbc : Later b c) : Later a c :=
  fun k record h hreviewed => hbc k record (hab k record h hreviewed) hreviewed

theorem Stems.later {scope : Scope} {item : HardSampleItem} (h : Stems lower repo scope item)
    (hlater : Later repo repo') : Stems lower repo' scope item := by
  obtain ⟨record, hget, happroved, hok, hitem⟩ := h
  exact ⟨record, hlater _ _ hget (by simp [happroved]), happroved, hok, hitem⟩

theorem clean_iff {correction : Json} :
    containsSensitiveCorrection lower correction = false ↔ CleanCorrection lower correction := by
  rw [← Bool.not_eq_true, containsSensitiveCorrection, Json.anyKey_iff]
  simp [CleanCorrection, sensitiveKey]

theorem oneDomain_of_length {items : List HardSampleItem} (h : ¬1 < (domainsOf items).length) :
    OneDomain items := by
  intro item hitem item' hitem' d hd d' hd'
  have hmem : ∀ item ∈ items, ∀ d ∈ item.domain, d ∈ domainsOf items := fun item hitem d hd =>
    List.mem_dedup.2 (List.mem_filterMap.2 ⟨item, hitem, hd⟩)
  have hd := hmem item hitem d hd
  have hd' := hmem item' hitem' d' hd'
  match hdomains : domainsOf items with
  | [] => simp [hdomains] at hd
  | [only] =>
    rw [hdomains, List.mem_singleton] at hd hd'
    exact hd.trans hd'.symm
  | _ :: _ :: _ => simp [hdomains] at h

theorem get?_put (record : FeedbackRecord) (k : Key) : (repo.put record).feedback.get? k =
    if k = record.key then some record else repo.feedback.get? k :=
  Dict.get?_insert _ _ _ _

theorem later_put {record : FeedbackRecord}
    (h : ∀ current, repo.feedback.get? record.key = some current → current.status = .pending) :
    Later repo (repo.put record) := by
  intro k r hget hreviewed
  rw [get?_put]
  split
  · rename_i hk
    exact absurd (h r (hk ▸ hget)) hreviewed
  · exact hget

/-! ## One call of the repository -/

/-- What the next call of the repository does. -/
inductive Effect (lower : String → String) (repo : Repository) :
    Call → Repository → Call → Prop where
  | created {record} (hnew : repo.feedback.get? record.key = none) :
      Effect lower repo (.creating record) (repo.put record) .returned
  | reviewed {principal feedbackId body updated}
      (hok : updated.status = .approved → Approvable lower updated) :
      Effect lower repo (.reviewing principal feedbackId body) repo (.saving updated)
  | saved {updated current} (hget : repo.feedback.get? updated.key = some current)
      (hpending : current.status = .pending) :
      Effect lower repo (.saving updated) (repo.put updated) .returned
  | item {principal manifestId feedbackId body remaining items record}
      (hget : repo.feedback.get? ⟨principal.scope, feedbackId⟩ = some record)
      (happroved : record.status = .approved) :
      Effect lower repo (.exporting principal manifestId body (feedbackId :: remaining) items) repo
        (.exporting principal manifestId body remaining (items ++ [itemOf record]))
  | stored {principal manifestId body items manifest} (hitems : manifest.items = items)
      (hscope : manifest.key.scope = principal.scope) (hdomain : OneDomain items) :
      Effect lower repo (.exporting principal manifestId body [] items)
        { repo with manifests := repo.manifests.insert manifest.key manifest } .returned
  | raised (call : Call) (error : FeedbackError) : Effect lower repo call repo (.raised error)

theorem reviewed_ok {principal : Principal} {body : ReviewFeedbackRequest}
    {record updated : FeedbackRecord} (h : reviewed lower principal body record now = .ok updated) :
    updated.status = .approved → Approvable lower updated := by
  unfold reviewed at h
  split at h
  · cases h
  split at h
  · cases h
  split at h
  · cases h
  rename_i hcleared hclean
  cases h
  intro happroved
  have hcleared := not_not.1 fun hn => hcleared ⟨happroved, hn⟩
  have hclean := Bool.eq_false_iff.2 fun hs => hclean ⟨happroved, hs⟩
  exact ⟨hcleared.1, hcleared.2, clean_iff.1 hclean⟩

theorem createFeedback_eq_ok {record : FeedbackRecord}
    (h : repo.createFeedback record = .ok repo') :
    repo.feedback.get? record.key = none ∧ repo' = repo.put record := by
  unfold Repository.createFeedback at h
  split at h
  · cases h
  · rename_i hnew
    cases h
    exact ⟨Option.not_isSome_iff_eq_none.1 hnew, rfl⟩

theorem saveFeedback_eq_ok {record : FeedbackRecord} {expected : FeedbackStatus}
    (h : repo.saveFeedback record expected = .ok repo') :
    ∃ current, repo.feedback.get? record.key = some current ∧ current.status = expected ∧
      repo' = repo.put record := by
  unfold Repository.saveFeedback at h
  split at h
  · cases h
  · rename_i current hget
    split at h
    · cases h
    · rename_i hexpected
      cases h
      exact ⟨current, hget, not_not.1 hexpected, rfl⟩

theorem exported_eq_ok {feedbackId : String} {found : Option FeedbackRecord} {item : HardSampleItem}
    (h : exported feedbackId found = .ok item) :
    ∃ record, found = some record ∧ record.status = .approved ∧ item = itemOf record := by
  unfold exported at h
  split at h
  · cases h
  · rename_i record
    split at h
    · cases h
    · rename_i happroved
      cases h
      exact ⟨record, rfl, not_not.1 fun hn => happroved (.inl hn), rfl⟩

theorem newManifest_eq_ok {principal : Principal} {manifestId : String}
    {body : CreateManifestRequest} {items : List HardSampleItem} {manifest : HardSampleManifest}
    (h : newManifest sha256 principal manifestId body items now = .ok manifest) :
    manifest.items = items ∧ manifest.key.scope = principal.scope ∧ OneDomain items := by
  unfold newManifest at h
  split at h
  · cases h
  · rename_i hdomains
    cases h
    exact ⟨rfl, rfl, oneDomain_of_length hdomains⟩

theorem createManifest_eq_ok {manifest : HardSampleManifest}
    (h : repo.createManifest manifest = .ok repo') :
    repo' = { repo with manifests := repo.manifests.insert manifest.key manifest } := by
  unfold Repository.createManifest at h
  split at h
  · cases h
  · cases h
    rfl

theorem stepCall_effect (h : stepCall lower sha256 now repo call = some (repo', call')) :
    Effect lower repo call repo' call' := by
  unfold stepCall at h
  split at h
  case h_1 record =>
    split at h <;> cases h
    · rename_i hcreate
      obtain ⟨hnew, rfl⟩ := createFeedback_eq_ok hcreate
      exact .created hnew
    · exact .raised _ _
  case h_2 principal feedbackId body =>
    split at h
    · cases h
      exact .raised _ _
    · split at h <;> cases h
      · rename_i hreviewed
        exact .reviewed (reviewed_ok hreviewed)
      · exact .raised _ _
  case h_3 updated =>
    split at h <;> cases h
    · rename_i hsave
      obtain ⟨_, hget, hpending, rfl⟩ := saveFeedback_eq_ok hsave
      exact .saved hget hpending
    · exact .raised _ _
  case h_4 principal manifestId body feedbackId remaining items =>
    split at h <;> cases h
    · rename_i hitem
      obtain ⟨_, hget, happroved, rfl⟩ := exported_eq_ok hitem
      exact .item hget happroved
    · exact .raised _ _
  case h_5 principal manifestId body items =>
    split at h
    · cases h
      exact .raised _ _
    · rename_i manifest hmanifest
      obtain ⟨hitems, hscope, hdomain⟩ := newManifest_eq_ok hmanifest
      split at h <;> cases h
      · rename_i hcreate
        obtain rfl := createManifest_eq_ok hcreate
        exact .stored hitems hscope hdomain
      · exact .raised _ _
  case h_6 | h_7 => cases h

theorem Effect.later (h : Effect lower repo call repo' call') : Later repo repo' := by
  cases h with
  | created hnew => exact later_put fun current hget => by rw [hnew] at hget; cases hget
  | saved hget hpending =>
    refine later_put fun current hcurrent => ?_
    rw [hget] at hcurrent
    cases hcurrent
    exact hpending
  | reviewed | item | stored | raised => exact .refl repo

/-! ## The invariant -/

/-- What a call holds is cleared. -/
def Call.Ok (lower : String → String) (repo : Repository) : Call → Prop
  | .creating record => record.status = .pending
  | .saving updated => updated.status = .approved → Approvable lower updated
  | .exporting principal _ _ _ items => ∀ item ∈ items, Stems lower repo principal.scope item
  | .reviewing _ _ _ | .returned | .raised _ => True

/-- What every step keeps. -/
structure Inv (lower : String → String) (s : System) : Prop where
  cleared : Cleared lower s.repo
  approved : ∀ k record, s.repo.feedback.get? k = some record → record.status = .approved →
    Approvable lower record
  calls : ∀ call ∈ s.calls, call.Ok lower s.repo

theorem Call.Ok.later (h : call.Ok lower repo) (hlater : Later repo repo') :
    call.Ok lower repo' := by
  cases call with
  | exporting => exact fun item hitem => (h item hitem).later hlater
  | creating | saving => exact h
  | reviewing | returned | raised => trivial

theorem Cleared.later (h : Cleared lower repo) (hlater : Later repo repo')
    (hsame : repo'.manifests = repo.manifests) : Cleared lower repo' := by
  intro k manifest hget
  rw [hsame] at hget
  obtain ⟨hitems, hdomain⟩ := h k manifest hget
  exact ⟨fun item hitem => (hitems item hitem).later hlater, hdomain⟩

theorem ok_begin (principal : Principal) (request : Request) :
    (begin principal now request).Ok lower repo := by
  unfold begin
  split
  · split
    · rfl
    · trivial
  · trivial
  · split
    · exact fun item hitem => absurd hitem List.not_mem_nil
    · trivial

theorem inv_effect (hc : Cleared lower repo)
    (ha : ∀ k record, repo.feedback.get? k = some record → record.status = .approved →
      Approvable lower record)
    (hok : call.Ok lower repo) (h : Effect lower repo call repo' call') :
    Cleared lower repo' ∧
      (∀ k record, repo'.feedback.get? k = some record → record.status = .approved →
        Approvable lower record) ∧
      call'.Ok lower repo' := by
  have hput : ∀ record : FeedbackRecord, (record.status = .approved → Approvable lower record) →
      ∀ k r, (repo.put record).feedback.get? k = some r → r.status = .approved →
        Approvable lower r := by
    intro _ hrecord k r hget
    rw [get?_put] at hget
    split at hget
    · cases hget
      exact hrecord
    · exact ha k r hget
  have hlater := h.later
  cases h with
  | created =>
    refine ⟨hc.later hlater rfl, hput _ fun happroved => ?_, trivial⟩
    simp [show _ = FeedbackStatus.pending from hok] at happroved
  | reviewed hreviewed => exact ⟨hc, ha, hreviewed⟩
  | saved => exact ⟨hc.later hlater rfl, hput _ hok, trivial⟩
  | @item _ _ feedbackId _ _ _ record hget happroved =>
    refine ⟨hc, ha, fun item hitem => ?_⟩
    rcases Parties.mem_snoc.1 hitem with hitem | rfl
    · exact hok item hitem
    · have hid : record.key.id = feedbackId := congrArg Key.id (repo.keyed hget)
      exact ⟨record, by rw [show (itemOf record).feedbackId = feedbackId from hid, hget], happroved,
        ha _ record hget happroved, rfl⟩
  | @stored _ _ _ _ _ hitems hscope hdomain =>
    refine ⟨fun k m hget => ?_, ha, trivial⟩
    rcases Dict.get?_insert_cases hget with ⟨hk, rfl⟩ | ⟨-, hget⟩
    · rw [hitems, hk, hscope]
      exact ⟨fun item hitem => (hok item hitem).later (.refl repo), hdomain⟩
    · exact hc k m hget
  | raised => exact ⟨hc, ha, trivial⟩

theorem inv_step (hs : Inv lower s) {act : Act} (h : step lower sha256 s act = some s') :
    Inv lower s' ∧ Later s.repo s'.repo := by
  cases act with
  | start principal request =>
    cases h
    refine ⟨⟨hs.cleared, hs.approved, fun call hcall => ?_⟩, .refl _⟩
    rcases Parties.mem_snoc.1 hcall with hcall | rfl
    · exact hs.calls call hcall
    · exact ok_begin principal request
  | advance i =>
    obtain ⟨call, hcall, h⟩ := Option.bind_eq_some_iff.1 h
    obtain ⟨⟨_, _⟩, hstep, h⟩ := Option.bind_eq_some_iff.1 h
    cases h
    have heffect := stepCall_effect hstep
    obtain ⟨hcleared, happroved, hok⟩ := inv_effect hs.cleared hs.approved
      (hs.calls call (List.mem_of_getElem? hcall)) heffect
    refine ⟨⟨hcleared, happroved, fun c hc => ?_⟩, heffect.later⟩
    rcases List.mem_or_eq_of_mem_set hc with hc | rfl
    · exact (hs.calls c hc).later heffect.later
    · exact hok

theorem inv_empty : Inv lower .empty where
  cleared k manifest h := by cases h
  approved k record h := by cases h
  calls call h := by cases h

/-- **Training exports contain only cleared data**, and a reviewed feedback never changes again. -/
theorem exports_cleared (lower : String → String)
    (sha256 : CreateManifestRequest → List HardSampleItem → String) (acts : List Act) :
    (∀ s ∈ states (step lower sha256) .empty acts, Cleared lower s.repo) ∧
      (states (step lower sha256) .empty acts).Pairwise fun s t => Later s.repo t.repo := by
  have halong : Along (step lower sha256) (fun _ _ => True) .empty acts :=
    along_of_forall (fun _ _ => trivial) _ _
  constructor
  · intro s hs
    have hinv : Inv lower s :=
      invariant_states (fun s a s' hI _ h => (inv_step hI h).1) inv_empty halong s hs
    exact hinv.cleared
  · exact pairwise_states (I := Inv lower) (R := fun s t => Later s.repo t.repo)
      (fun _ _ _ => Later.trans) (fun s a s' hI _ h => inv_step hI h) inv_empty halong

/-- Somebody of a project. -/
def reviewer : Principal := ⟨⟨"t", "p"⟩, "ann"⟩

/-- A feedback is created, approved and exported. -/
def createdAndExported : List Act :=
  [.start reviewer (.create "fbk_1" ⟨"res", "med", "ocr.text", "1.0.0", "ocr"⟩
      ⟨.ocrCorrection, "run_1", "m", "1", .obj [("text", .str "x")], none, true, true⟩) 0,
    .advance 0 1, .start reviewer (.review "fbk_1" ⟨.approved, "", by decide⟩) 2, .advance 1 3,
    .advance 1 4,
    .start reviewer (.createManifest "mft_1" ⟨"set", "1", "lines", "train", ["fbk_1"]⟩) 5,
    .advance 2 6, .advance 2 7]

example : ((exec (step id fun _ _ => "") .empty createdAndExported).map fun s =>
    s.repo.manifests.values.map fun manifest => manifest.items.map HardSampleItem.feedbackId) =
      some [["fbk_1"]] := by decide +kernel

end Scenara.Feedback
