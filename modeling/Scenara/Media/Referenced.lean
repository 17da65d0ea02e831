import Scenara.Creation.Stranded
import Scenara.Media.Model

/-!
# Live runs and their media

* `Inv`: what a creation is about to use is intact, and no call is about to delete it.
-/

namespace Scenara.Media

open Scenara.Core
open Creation (Backend Choice Held RunIds)

/-- `create_run` finds the medium. -/
def Library.offers (s : Library) : Medium → Bool
  | .asset assetId => (s.assets.get? assetId).any fun asset => !asset.gone
  | .source sourceId => (s.sources.get? sourceId).isSome

/-- Its object or its secret is there. -/
def Library.holds (s : Library) : Medium → Bool
  | .asset assetId => decide (.original assetId ∈ s.objects)
  | .source sourceId => decide (sourceId ∈ s.secrets)

/-- The medium is there, with its object or its secret. -/
def Library.intact (s : Library) (medium : Medium) : Bool := s.offers medium && s.holds medium

/-- The medium that a `create_run` looks for. -/
def Call.reading? : Call → Option Medium
  | .reading request => some request.medium
  | _ => none

/-- The medium that a `create_run` has found, and is about to use. -/
def Call.using? : Call → Option Medium
  | .inserting request => some request.medium
  | _ => none

/-- The medium whose runs a deletion asks for. -/
def Call.checking? : Call → Option Medium
  | .checkingAsset asset => some (.asset asset.assetId)
  | .checkingSource source => some (.source source.sourceId)
  | _ => none

/-- The medium that a call found no live run on, and is about to delete. -/
def Call.deleting : Call → Option Medium
  | .auditingAsset asset | .deletingObjects asset _ | .deletingAsset asset | .deletingIndex asset =>
    some (.asset asset.assetId)
  | .auditingSource source | .deletingSource source | .deletingSecret source =>
    some (.source source.sourceId)
  | _ => none

/-- The asset that a deletion has deleted an object of, and not the asset itself. -/
def Call.stripping : Call → Option Medium
  | .deletingObjects asset keys =>
    if keys = asset.objectKeys then none else some (.asset asset.assetId)
  | .deletingAsset asset => some (.asset asset.assetId)
  | _ => none

/-- The call that a step moves, and how. -/
def System.actor (x : System) : Act → Option (Call × Choice)
  | .advance i _ choice => (x.calls[i]?).map (·, choice)
  | _ => none

/-- The backend call raises. -/
def fails : Choice → Bool
  | .raise _ => true
  | .go | .deadline => false

/-- No creation finds a medium that a call is about to delete, no deletion asks for the runs of a
medium that a creation has found, and no deletion fails that has deleted an object of an asset still
offered. -/
def Safe (x : System) (act : Act) : Prop :=
  ∀ actor ∈ x.actor act, (∀ medium ∈ actor.1.reading?, x.shared.offers medium →
      ∀ call ∈ x.calls, call.deleting ≠ some medium) ∧
    (∀ medium ∈ actor.1.checking?, ∀ call ∈ x.calls, call.using? ≠ some medium) ∧
    (fails actor.2 → ∀ medium ∈ actor.1.stripping, x.shared.offers medium = false)
  deriving Decidable

/-- Every medium has its object or its secret. -/
def Library.Stocked (s : Library) : Prop := ∀ medium, s.offers medium → s.intact medium

/-- A run that is live has its medium. -/
def Shared.Referenced (s : Shared) (runId : String) : Prop :=
  ∀ run, s.backend.run runId = some run → run.status.terminal = false →
    ∃ medium, s.media.get? runId = some medium ∧ s.intact medium

/-- A call is over. -/
def Call.finished : Call → Bool
  | .creating call => call.finished
  | .deleted | .raised _ => true
  | _ => false

/-- A `create_run` returned the run. -/
def System.Created (x : System) (runId : String) : Prop :=
  ∃ outcome, .creating (.returned outcome) ∈ x.calls ∧ outcome.runId = runId

/-- A live run is on the medium. -/
def Shared.Live (s : Shared) (medium : Medium) : Prop :=
  ∃ runId run, s.backend.run runId = some run ∧ run.status.terminal = false ∧
    s.media.get? runId = some medium

variable {ids : RunIds} {s s' : Shared} {x x' : System} {call call' : Call} {now : ℚ}
  {choice : Choice} {medium : Medium} {runId : String}

theorem hasNonTerminalRun_iff : s.hasNonTerminalRun medium = true ↔ s.Live medium := by
  unfold Shared.hasNonTerminalRun Shared.Live Backend.run
  simp only [List.any_eq_true, Prod.exists, Dict.mem_entries, Bool.and_eq_true, Bool.not_eq_true',
    decide_eq_true_eq, Option.map_eq_some_iff]
  constructor
  · rintro ⟨runId, rows, hrows, hlive, hmedium⟩
    exact ⟨runId, rows.run, ⟨rows, hrows, rfl⟩, hlive, hmedium⟩
  · rintro ⟨runId, _, ⟨rows, hrows, rfl⟩, hlive, hmedium⟩
    exact ⟨runId, rows, hrows, hlive, hmedium⟩

/-! ## The media -/

namespace Library

variable {s : Library} {assetId sourceId : String} {key : ObjectKey} {keys : List ObjectKey}

theorem intact_deleteObject (hne : medium ≠ .asset key.assetId) :
    (s.deleteObject key).intact medium = s.intact medium := by
  cases medium with
  | source => rfl
  | asset other =>
    have hkey : ObjectKey.original other ≠ key := by
      rintro rfl
      exact hne rfl
    simp [intact, offers, holds, deleteObject, hkey]

theorem getAsset_markObjectsDeleted (keys : List ObjectKey) (now : ℚ) (assetId : String) :
    (s.markObjectsDeleted keys now).assets.get? assetId =
      (s.assets.get? assetId).map (s.marked keys now) :=
  Table.get?_map (f := s.marked keys now) (fun _ => rfl) s.assets assetId

theorem intact_markObjectsDeleted (hkeys : ∀ key ∈ keys, medium ≠ .asset key.assetId) :
    (s.markObjectsDeleted keys now).intact medium = s.intact medium := by
  cases medium with
  | source => rfl
  | asset other =>
    have horiginal : ObjectKey.original other ∉ keys := fun h => hkeys _ h rfl
    have hpreview : ObjectKey.preview other ∉ keys := fun h => hkeys _ h rfl
    refine congrArg (· && s.holds (.asset other)) ?_
    simp only [offers, getAsset_markObjectsDeleted]
    cases hasset : s.assets.get? other with
    | none => rfl
    | some asset =>
      have hid : asset.assetId = other := Table.key_of_get? hasset
      simp [marked, markAsset, tracked, MediaAsset.gone, hid, horiginal, hpreview]

theorem offers_of_markObjectsDeleted (h : (s.markObjectsDeleted keys now).offers medium) :
    s.offers medium := by
  cases medium with
  | source => exact h
  | asset other =>
    simp only [offers, getAsset_markObjectsDeleted] at h ⊢
    cases hasset : s.assets.get? other with
    | none => simp [hasset] at h
    | some asset =>
      simp only [hasset, Option.map_some, Option.any_some, MediaAsset.gone, marked, markAsset,
        Bool.not_eq_true', Bool.or_eq_false_iff] at h ⊢
      obtain ⟨hdeleted, horiginal⟩ := h
      constructor
      · split at hdeleted
        · cases hdeleted
        · exact hdeleted
      · split at horiginal
        · cases horiginal
        · exact horiginal

theorem offers_deleteAsset :
    (s.deleteAsset assetId).offers medium = (s.offers medium &&
      decide (medium ≠ .asset assetId)) := by
  cases medium with
  | source => simp [offers, deleteAsset]
  | asset other =>
    change Option.any _ (Table.get? (Table.filter _ _) other) = (Option.any _ _ && _)
    rw [Table.get?_filter]
    cases hasset : s.assets.get? other with
    | none => rfl
    | some asset =>
      have hid : asset.assetId = other := Table.key_of_get? hasset
      by_cases hsame : other = assetId <;> simp [Option.filter, hid, hsame]

theorem offers_deleteSource :
    (s.deleteSource sourceId).offers medium =
      (s.offers medium && decide (medium ≠ .source sourceId)) := by
  cases medium with
  | asset => simp [offers, deleteSource]
  | source other =>
    change Option.isSome (Table.get? (Table.filter _ _) other) = (Option.isSome _ && _)
    rw [Table.get?_filter]
    cases hsource : s.sources.get? other with
    | none => rfl
    | some source =>
      have hid : source.sourceId = other := Table.key_of_get? hsource
      by_cases hsame : other = sourceId <;> simp [Option.filter, hid, hsame]

theorem intact_deleteAsset (hne : medium ≠ .asset assetId) :
    (s.deleteAsset assetId).intact medium = s.intact medium := by
  unfold intact
  rw [offers_deleteAsset, decide_eq_true hne, Bool.and_true]
  rfl

theorem intact_deleteSource (hne : medium ≠ .source sourceId) :
    (s.deleteSource sourceId).intact medium = s.intact medium := by
  unfold intact
  rw [offers_deleteSource, decide_eq_true hne, Bool.and_true]
  rfl

theorem intact_deleteSecret (hne : medium ≠ .source sourceId) :
    (s.deleteSecret sourceId).intact medium = s.intact medium := by
  cases medium with
  | asset => rfl
  | source other =>
    have hid : other ≠ sourceId := fun h => hne (congrArg Medium.source h)
    simp [intact, offers, holds, deleteSecret, hid]

end Library

theorem assetId_of_mem_objectKeys {asset : MediaAsset} {key : ObjectKey}
    (h : key ∈ asset.objectKeys) : key.assetId = asset.assetId := by
  rcases List.mem_cons.1 h with rfl | h
  · rfl
  · split at h
    · rw [List.mem_singleton.1 h]
      rfl
    · exact absurd h List.not_mem_nil

/-! ## The runs -/

section Creation

variable {b b' : Backend} {c c' : Creation.Call}

theorem live_of_creation (h : Creation.stepCall now b c choice = some (b', c'))
    {run' : Run.RunRecord}
    (hrun : b'.run runId = some run') (hlive : run'.status.terminal = false) :
    ∃ run, b.run runId = some run ∧ run.status.terminal = false := by
  have happend : ∀ {b₁ : Backend} {held : Held} {eventType : String},
      Creation.appendEvent b held.runId held.stored eventType = .ok b₁ →
      b₁.run runId = b.run runId :=
    fun hb₁ => (Creation.appendEvent_ok hb₁).2.1 runId
  unfold Creation.stepCall at h
  split at h
  case h_5 held message =>
    cases h
    rw [Creation.run_deleteRun] at hrun
    split at hrun
    · cases hrun
    · exact ⟨run', hrun, hlive⟩
  case h_7 | h_13 =>
    split at h
    · next _ hb₁ =>
      cases h
      exact ⟨run', (happend hb₁).symm.trans hrun, hlive⟩
    · cases h
      exact ⟨run', hrun, hlive⟩
  case h_11 held message =>
    split at h
    · next _ saved hsave =>
      cases h
      unfold Creation.saveRun at hsave
      split at hsave
      · cases hsave
      · split at hsave
        · cases hsave
        · next _ _ hrows =>
          cases hsave
          rw [Creation.run_insert] at hrun
          split at hrun
          · -- The record that is saved is `FAILED`.
            obtain ⟨record, hrecord, heq⟩ := Option.map_eq_some_iff.1 hrows
            have hfailed : record.status = .failed := by
              unfold cas at hrecord
              split at hrecord <;> cases hrecord
              rfl
            cases heq
            cases hrun
            rw [hfailed] at hlive
            cases hlive
          · exact ⟨run', hrun, hlive⟩
    · cases h
      exact ⟨run', hrun, hlive⟩
  case h_15 =>
    split at h
    · cases h
      exact ⟨run', hrun, hlive⟩
    · split at h <;> cases h <;> exact ⟨run', hrun, hlive⟩
  case h_16 =>
    split at h <;> cases h <;> exact ⟨run', hrun, hlive⟩
  case h_18 => cases h
  all_goals
    cases h
    exact ⟨run', hrun, hlive⟩

end Creation

/-- The keys still to be deleted are the asset's; a secret is deleted after its source. -/
def Call.Ok (s : Library) : Call → Prop
  | .deletingObjects asset keys => keys <:+ asset.objectKeys
  | .deletingSecret source => s.offers (.source source.sourceId) = false
  | _ => True

theorem Call.Ok.mono {s s' : Library} (h : call.Ok s)
    (hoffers : ∀ medium, s'.offers medium → s.offers medium) : call.Ok s' := by
  cases call with
  | deletingObjects => exact h
  | deletingSecret source =>
    have hgone : s.offers (.source source.sourceId) = false := h
    exact Bool.eq_false_iff.2 fun hoffered =>
      Bool.false_ne_true (hgone.symm.trans (hoffers _ hoffered))
  | _ => trivial

theorem Call.deleting_of_stripping (h : call.stripping = some medium) :
    call.deleting = some medium := by
  cases call with
  | deletingObjects asset keys =>
    dsimp only [stripping] at h
    split at h
    · cases h
    · exact h
  | deletingAsset => exact h
  | _ => cases h

theorem Call.deleting_of_using (h : call.using? = some medium) : call.deleting = none := by
  cases call <;> first | rfl | cases h

/-- What a backend call does. -/
structure Effect (s : Shared) (call : Call) (choice : Choice) (s' : Shared) (call' : Call) :
    Prop where
  /-- A live run was one before, or it is the one that is stored. -/
  live : ∀ {runId run}, s'.backend.run runId = some run → run.status.terminal = false →
    (∃ run, s.backend.run runId = some run ∧ run.status.terminal = false ∧
      s'.media.get? runId = s.media.get? runId) ∨
    ∃ medium, call.using? = some medium ∧ s'.media.get? runId = some medium
  /-- What is deleted is what the call is about to delete. -/
  intact : ∀ medium, call.deleting ≠ some medium → s'.intact medium = s.intact medium
  /-- A call that begins to delete has found no live run. -/
  deleting : ∀ medium, call'.deleting = some medium → call.deleting = some medium ∨
    call.checking? = some medium ∧ ¬s'.Live medium
  /-- No medium comes in. -/
  offers : ∀ medium, s'.offers medium → s.offers medium
  /-- A creation has found what it is about to use. -/
  found : ∀ medium, call'.using? = some medium → call.reading? = some medium ∧ s.offers medium
  /-- An asset that has lost its object is the call's, or no creation finds it. -/
  stripping : ∀ medium, s'.offers medium →
    (fails choice → call.stripping = some medium → s.offers medium = false) →
    s.intact medium ∨ call.stripping = some medium →
    s'.intact medium ∨ call'.stripping = some medium

theorem Effect.quiet (hdeleting : ∀ medium, call'.deleting = some medium →
      call.deleting = some medium ∨ call.checking? = some medium ∧ ¬s.Live medium)
    (hfound : ∀ medium, call'.using? = some medium → call.reading? = some medium ∧ s.offers medium)
    (hstripping : ∀ medium, call.stripping = some medium → s.offers medium →
      (fails choice → s.offers medium = false) → call'.stripping = some medium) :
    Effect s call choice s call' where
  live hrun hlive := .inl ⟨_, hrun, hlive, rfl⟩
  intact _ _ := rfl
  deleting := hdeleting
  offers _ := id
  found := hfound
  stripping medium hoffers hfails :=
    Or.imp id fun hsome => hstripping medium hsome hoffers fun h => hfails h hsome

theorem Effect.library {library' : Library}
    (hintact : ∀ medium, call.deleting ≠ some medium → library'.intact medium = s.intact medium)
    (hdeleting : ∀ medium, call'.deleting = some medium → call.deleting = some medium)
    (hoffers : ∀ medium, library'.offers medium → s.offers medium) (hfound : call'.using? = none)
    (hstripping : ∀ medium, call.deleting = some medium → library'.offers medium →
      call'.stripping = some medium) :
    Effect s call choice { s with toLibrary := library' } call' where
  live hrun hlive := .inl ⟨_, hrun, hlive, rfl⟩
  intact := hintact
  deleting medium h := .inl (hdeleting medium h)
  offers := hoffers
  found medium h := by
    rw [hfound] at h
    cases h
  stripping medium hoffered _ hwhole := by
    by_cases hmine : call.deleting = some medium
    · exact .inr (hstripping medium hmine hoffered)
    · rcases hwhole with hwhole | hwhole
      · exact .inl ((hintact medium hmine).trans hwhole)
      · exact absurd (Call.deleting_of_stripping hwhole) hmine

theorem Effect.runs {b : Backend} {media : Dict String Medium} {drawn : Nat}
    (hlive : ∀ {runId run}, b.run runId = some run → run.status.terminal = false →
      (∃ run, s.backend.run runId = some run ∧ run.status.terminal = false ∧
        media.get? runId = s.media.get? runId) ∨
      ∃ medium, call.using? = some medium ∧ media.get? runId = some medium)
    (hdeleting : call'.deleting = none) (hfound : call'.using? = none)
    (hstripping : call.stripping = none) :
    Effect s call choice ⟨s.toLibrary, b, media, drawn⟩ call' where
  live := hlive
  intact _ _ := rfl
  deleting medium h := by
    rw [hdeleting] at h
    cases h
  offers _ := id
  found medium h := by
    rw [hfound] at h
    cases h
  stripping medium _ _ := Or.imp id fun hsome => by
    rw [hstripping] at hsome
    cases hsome

theorem Effect.still (hdeleting : call'.deleting = none) (hfound : call'.using? = none)
    (hstripping : call.stripping = none) : Effect s call choice s call' :=
  .runs (fun hrun hlive => .inl ⟨_, hrun, hlive, rfl⟩) hdeleting hfound hstripping

theorem inserting_effect {request : Request}
    (h : stepCall ids now s (.inserting request) = some (s', call')) :
    Effect s (.inserting request) .go s' call' := by
  unfold stepCall Creation.createRunIdempotent at h
  dsimp only at h
  split at h
  · -- stored
    rename_i b runId stored hstored
    cases h
    split at hstored
    · split at hstored
      · cases hstored
      · split at hstored <;> cases hstored
    · split at hstored <;> cases hstored
      refine .runs (fun {a run} hrun hlive => ?_) rfl rfl rfl
      rw [Creation.run_insert] at hrun
      by_cases ha : a = ids.draw s.drawn
      · refine .inr ⟨request.medium, rfl, ?_⟩
        rw [ha]
        exact Dict.get?_insert_self _ _ _
      · rw [if_neg ha] at hrun
        exact .inl ⟨run, hrun, hlive, Dict.get?_insert_of_ne _ _ ha⟩
  · -- the run that is there already
    rename_i b runId stored hstored
    cases h
    have hsame : b = s.backend := by
      split at hstored
      · split at hstored
        · cases hstored
        · split at hstored <;> cases hstored
          rfl
      · split at hstored <;> cases hstored
    subst hsame
    exact .runs (fun hrun hlive => .inl ⟨_, hrun, hlive, rfl⟩) rfl rfl rfl
  · cases h
    exact .runs (fun hrun hlive => .inl ⟨_, hrun, hlive, rfl⟩) rfl rfl rfl

theorem stepCall_effect (hok : call.Ok s.toLibrary)
    (h : stepCall ids now s call = some (s', call')) :
    Effect s call .go s' call' ∧ call'.Ok s'.toLibrary := by
  cases call with
  | inserting =>
    refine ⟨inserting_effect h, ?_⟩
    unfold stepCall at h
    dsimp only at h
    split at h <;> cases h <;> trivial
  | reading request =>
    have hraised : ∀ message, Effect s (.reading request) .go s (.raised message) := fun _ =>
      .still rfl rfl rfl
    have hfound : s.offers request.medium →
        Effect s (.reading request) .go s (.inserting request) := fun hoffers =>
      .quiet (fun _ h => by cases h)
        (fun medium hmedium => ⟨hmedium, Option.some.inj hmedium ▸ hoffers⟩) (fun _ h => by cases h)
    unfold stepCall at h
    dsimp only at h
    split at h
    · rename_i assetId hmedium
      split at h
      · cases h
        exact ⟨hraised _, trivial⟩
      · rename_i asset hasset
        split at h <;> cases h
        · exact ⟨hraised _, trivial⟩
        · rename_i hgone
          exact ⟨hfound (by simp [hmedium, Library.offers, hasset, hgone]), trivial⟩
    · rename_i sourceId hmedium
      split at h <;> cases h
      · exact ⟨hraised _, trivial⟩
      · rename_i hsource
        exact ⟨hfound (by simp [hmedium, Library.offers, hsource]), trivial⟩
  | gettingAsset | gettingSource =>
    unfold stepCall at h
    dsimp only at h
    split at h <;> cases h <;> exact ⟨.still rfl rfl rfl, trivial⟩
  | checkingAsset | checkingSource =>
    unfold stepCall at h
    dsimp only at h
    split at h
    · cases h
      exact ⟨.still rfl rfl rfl, trivial⟩
    · rename_i hnone
      cases h
      refine ⟨.quiet (fun medium hmedium => .inr ⟨hmedium, fun hlive => hnone ?_⟩)
        (fun _ h => by cases h) (fun _ h => by cases h), trivial⟩
      exact hasNonTerminalRun_iff.2 (Option.some.inj hmedium ▸ hlive)
  | auditingAsset asset =>
    cases h
    exact ⟨.quiet (fun _ => .inl) (fun _ h => by cases h) (fun _ h => by cases h),
      List.suffix_refl _⟩
  | auditingSource =>
    cases h
    exact ⟨.quiet (fun _ => .inl) (fun _ h => by cases h) (fun _ h => by cases h), trivial⟩
  | deletingIndex =>
    cases h
    exact ⟨.still rfl rfl rfl, trivial⟩
  | deletingObjects asset keys =>
    have hne : ∀ {medium : Medium} {key : ObjectKey}, key ∈ asset.objectKeys →
        (Call.deletingObjects asset keys).deleting ≠ some medium → medium ≠ .asset key.assetId := by
      rintro _ _ hkey hne rfl
      exact hne (congrArg (fun id => some (Medium.asset id)) (assetId_of_mem_objectKeys hkey).symm)
    cases keys with
    | nil =>
      cases h
      exact ⟨.library (fun medium hmedium => Library.intact_markObjectsDeleted fun key hkey =>
        hne hkey hmedium) (fun _ => id) (fun _ => Library.offers_of_markObjectsDeleted) rfl
        (fun _ hmedium _ => hmedium), trivial⟩
    | cons key keys =>
      cases h
      have hkey : key ∈ asset.objectKeys := hok.subset List.mem_cons_self
      have hshorter : keys ≠ asset.objectKeys := by
        rintro rfl
        exact absurd hok.length_le (by simp)
      refine ⟨.library (fun medium hmedium => Library.intact_deleteObject (hne hkey hmedium))
        (fun _ => id) (fun medium => ?_) rfl (fun medium hmedium _ => ?_),
        (List.suffix_cons key keys).trans hok⟩
      · cases medium <;> exact id
      · exact (if_neg hshorter).trans hmedium
  | deletingAsset asset =>
    cases h
    refine ⟨.library (fun medium hne => Library.intact_deleteAsset fun heq => hne (heq ▸ rfl))
      (fun _ => id) (fun medium hoffers => ?_) rfl (fun medium hmedium hoffers => ?_), trivial⟩
    · rw [Library.offers_deleteAsset, Bool.and_eq_true] at hoffers
      exact hoffers.1
    · rw [Library.offers_deleteAsset, ← Option.some.inj hmedium] at hoffers
      simp at hoffers
  | deletingSource source =>
    cases h
    refine ⟨.library (fun medium hne => Library.intact_deleteSource fun heq => hne (heq ▸ rfl))
      (fun _ => id) (fun medium hoffers => ?_) rfl (fun medium hmedium hoffers => ?_), ?_⟩
    · rw [Library.offers_deleteSource, Bool.and_eq_true] at hoffers
      exact hoffers.1
    · rw [Library.offers_deleteSource, ← Option.some.inj hmedium] at hoffers
      simp at hoffers
    · exact Library.offers_deleteSource.trans (by simp)
  | deletingSecret source =>
    cases h
    refine ⟨.library (fun medium hne => Library.intact_deleteSecret fun heq =>
      hne (heq ▸ rfl)) (fun _ h => by cases h) (fun medium => ?_) rfl
      (fun medium hmedium hoffers => ?_), trivial⟩
    · cases medium <;> exact id
    · -- The source is gone already.
      rw [← Option.some.inj hmedium] at hoffers
      exact absurd (hok.symm.trans hoffers) Bool.false_ne_true
  | creating | deleted | raised => cases h

theorem advanceCall_effect (hok : call.Ok s.toLibrary)
    (h : advanceCall ids now choice s call = some (s', call')) :
    Effect s call choice s' call' ∧ call'.Ok s'.toLibrary := by
  unfold advanceCall at h
  split at h
  · obtain ⟨⟨_, c⟩, hcall, heq⟩ := Option.map_eq_some_iff.1 h
    cases heq
    refine ⟨.runs (fun {a run} hrun hlive => ?_) rfl rfl rfl, trivial⟩
    obtain ⟨old, hold, hlive⟩ := live_of_creation hcall hrun hlive
    exact .inl ⟨old, hold, hlive, rfl⟩
  · cases h
  · cases h
  · exact stepCall_effect hok h
  · cases h
    refine ⟨.quiet nofun nofun fun medium _ hoffers hfails => ?_, trivial⟩
    exact absurd ((hfails rfl).symm.trans hoffers) Bool.false_ne_true
  · cases h

/-! ## Runs -/

/-- A live run is on the medium, or a creation has found it. -/
def System.Used (x : System) (medium : Medium) : Prop :=
  x.shared.Live medium ∨ ∃ call ∈ x.calls, call.using? = some medium

/-- What safe steps keep. -/
structure Inv (x : System) : Prop where
  ok : ∀ call ∈ x.calls, call.Ok x.shared.toLibrary
  known : ∀ {runId run}, x.shared.backend.run runId = some run → run.status.terminal = false →
    ∃ medium, x.shared.media.get? runId = some medium
  /-- A medium in use is intact, and nobody is about to delete it. -/
  used : ∀ medium, x.Used medium →
    x.shared.intact medium ∧ ∀ call ∈ x.calls, call.deleting ≠ some medium
  /-- What a creation would find is intact, or a deletion is at it. -/
  offered : ∀ medium, x.shared.offers medium →
    x.shared.intact medium ∨ ∃ call ∈ x.calls, call.stripping = some medium

theorem Inv.referenced (h : Inv x) (runId : String) : x.shared.Referenced runId := by
  intro run hrun hlive
  obtain ⟨medium, hmedium⟩ := h.known hrun hlive
  exact ⟨medium, hmedium, (h.used medium (.inl ⟨runId, run, hrun, hlive, hmedium⟩)).1⟩

theorem inv_start {library : Library} (h : library.Stocked) : Inv (System.start library) where
  ok call hcall := absurd hcall List.not_mem_nil
  known hrun := by cases hrun
  used := by
    rintro _ (⟨_, _, hrun, -⟩ | ⟨_, hcall, -⟩)
    · cases hrun
    · cases hcall
  offered medium hoffers := .inl (h medium hoffers)

theorem Inv.started (h : Inv x) (hok : call.Ok x.shared.toLibrary) (husing : call.using? = none)
    (hdeleting : call.deleting = none) : Inv { x with calls := x.calls ++ [call] } where
  ok other hother := by
    rcases Parties.mem_snoc.1 hother with hother | rfl
    · exact h.ok other hother
    · exact hok
  known := h.known
  used medium hused := by
    have hold : x.Used medium := by
      refine hused.imp id ?_
      rintro ⟨other, hother, hsome⟩
      rcases Parties.mem_snoc.1 hother with hother | rfl
      · exact ⟨other, hother, hsome⟩
      · rw [husing] at hsome
        cases hsome
    obtain ⟨hintact, hfree⟩ := h.used medium hold
    refine ⟨hintact, fun other hother => ?_⟩
    rcases Parties.mem_snoc.1 hother with hother | rfl
    · exact hfree other hother
    · rw [hdeleting]
      exact Option.some_ne_none _ ∘ Eq.symm
  offered medium hoffers := by
    refine (h.offered medium hoffers).imp id ?_
    rintro ⟨other, hother, hsome⟩
    exact ⟨other, List.mem_append_left _ hother, hsome⟩

section

variable {i : Nat} (h : Inv x) (hcall : x.calls[i]? = some call)
include h hcall

/-- What is in use after a step was intact before it, and nobody was about to delete it: a creation
that has just found it has found it whole. -/
theorem Inv.was_used (heffect : Effect x.shared call choice s' call')
    (hread : ∀ medium ∈ call.reading?, x.shared.offers medium →
      ∀ other ∈ x.calls, other.deleting ≠ some medium)
    (hused : System.Used ⟨s', x.calls.set i call'⟩ medium) :
    x.shared.intact medium ∧ ∀ other ∈ x.calls, other.deleting ≠ some medium := by
  rcases hused with ⟨a, _, hrun, hrunning, hmedia⟩ | ⟨other, hother, hsome⟩
  · rcases heffect.live hrun hrunning with ⟨old, hold, hrunning, hsame⟩ | ⟨_, husing, hnew⟩
    · exact h.used medium (.inl ⟨a, old, hold, hrunning, hsame ▸ hmedia⟩)
    · rw [hnew] at hmedia
      exact h.used medium (.inr ⟨call, List.mem_of_getElem? hcall, husing.trans hmedia⟩)
  · rcases List.mem_or_eq_of_mem_set hother with hother | rfl
    · exact h.used medium (.inr ⟨other, hother, hsome⟩)
    · obtain ⟨hreading, hoffers⟩ := heffect.found medium hsome
      have hfree := hread medium hreading hoffers
      refine ⟨(h.offered medium hoffers).resolve_right ?_, hfree⟩
      rintro ⟨other, hother, hstripping⟩
      exact hfree other hother (Call.deleting_of_stripping hstripping)

theorem Inv.advanced (hok : call'.Ok s'.toLibrary) (heffect : Effect x.shared call choice s' call')
    (hread : ∀ medium ∈ call.reading?, x.shared.offers medium →
      ∀ other ∈ x.calls, other.deleting ≠ some medium)
    (hcheck : ∀ medium ∈ call.checking?, ∀ other ∈ x.calls, other.using? ≠ some medium)
    (hfails : fails choice → ∀ medium ∈ call.stripping, x.shared.offers medium = false) :
    Inv ⟨s', x.calls.set i call'⟩ where
  ok other hother := by
    rcases List.mem_or_eq_of_mem_set hother with hother | rfl
    · exact (h.ok other hother).mono heffect.offers
    · exact hok
  known hrun hrunning := by
    rcases heffect.live hrun hrunning with ⟨old, hold, hrunning, hmedia⟩ | ⟨medium, -, hmedia⟩
    · rw [hmedia]
      exact h.known hold hrunning
    · exact ⟨medium, hmedia⟩
  used medium hused := by
    obtain ⟨hintact, hfree⟩ := h.was_used hcall heffect hread hused
    have hmine : call.deleting ≠ some medium := hfree call (List.mem_of_getElem? hcall)
    refine ⟨(heffect.intact medium hmine).trans hintact, fun other hother => ?_⟩
    rcases List.mem_or_eq_of_mem_set hother with hother | rfl
    · exact hfree other hother
    · intro hdeleting
      obtain ⟨hchecking, hdead⟩ := (heffect.deleting medium hdeleting).resolve_left hmine
      rcases hused with hlive | ⟨user, huser, husing⟩
      · exact hdead hlive
      · rcases List.mem_or_eq_of_mem_set huser with huser | rfl
        · exact hcheck medium hchecking user huser husing
        · rw [Call.deleting_of_using husing] at hdeleting
          cases hdeleting
  offered medium hoffers := by
    have hbefore := h.offered medium (heffect.offers medium hoffers)
    have hown := heffect.stripping medium hoffers fun hraises hsome => hfails hraises medium hsome
    by_cases hwhole : x.shared.intact medium ∨ call.stripping = some medium
    · refine (hown hwhole).imp id fun hsome => ?_
      exact ⟨call', List.mem_of_getElem? (Parties.getElem?_set_same hcall), hsome⟩
    · rw [not_or] at hwhole
      obtain ⟨other, hother, hsome⟩ := hbefore.resolve_left hwhole.1
      obtain ⟨j, hj⟩ := List.getElem?_of_mem hother
      have hji : j ≠ i := by
        rintro rfl
        exact hwhole.2 (Option.some.inj (hcall.symm.trans hj) ▸ hsome)
      exact .inr ⟨other, List.mem_of_getElem? ((Parties.getElem?_set_other hji).trans hj), hsome⟩

end

theorem inv_step {act : Act} (h : Inv x) (hsafe : Safe x act) (hs : step ids x act = some x') :
    Inv x' := by
  cases act with
  | createRun | deleteAsset | deleteSource =>
    cases hs
    exact h.started trivial rfl rfl
  | save runId rows =>
    simp only [step, Option.bind_eq_bind, Option.bind_eq_some_iff] at hs
    obtain ⟨current, hcurrent, hs⟩ := hs
    split at hs <;> cases hs
    rename_i hterminal
    have hlive : ∀ {a run}, Backend.run { x.shared.backend with
        runs := x.shared.backend.runs.insert runId rows } a = some run →
          run.status.terminal = false →
        ∃ run, x.shared.backend.run a = some run ∧ run.status.terminal = false := by
      intro a run hrun hrunning
      rw [Creation.run_insert] at hrun
      by_cases ha : a = runId
      · rw [if_pos ha] at hrun
        cases hrun
        refine ⟨current.run, ?_, ?_⟩
        · rw [ha, Backend.run, hcurrent]
          rfl
        · simpa [hrunning] using hterminal
      · rw [if_neg ha] at hrun
        exact ⟨run, hrun, hrunning⟩
    refine ⟨h.ok, fun hrun hrunning => ?_, fun medium hused => h.used medium ?_, h.offered⟩
    · obtain ⟨old, hold, hrunning⟩ := hlive hrun hrunning
      exact h.known hold hrunning
    · refine hused.imp ?_ id
      rintro ⟨a, _, hrun, hrunning, hmedium⟩
      obtain ⟨old, hold, hrunning⟩ := hlive hrun hrunning
      exact ⟨a, old, hold, hrunning, hmedium⟩
  | advance i _ choice =>
    simp only [step, Option.bind_eq_bind, Option.bind_eq_some_iff, Option.pure_def,
      Option.some.injEq, Prod.exists] at hs
    obtain ⟨call, hcall, _, _, hcalled, rfl⟩ := hs
    obtain ⟨heffect, hok⟩ := advanceCall_effect (h.ok call (List.mem_of_getElem? hcall)) hcalled
    obtain ⟨hread, hcheck, hfails⟩ := hsafe (call, choice) (by simp [System.actor, hcall])
    exact h.advanced hcall hok heffect hread hcheck hfails

/-- **No live run points at deleted media**, in every state of a run whose steps are safe. -/
theorem live_runs_referenced (ids : RunIds) (library : Library) (acts : List Act)
    (hstocked : library.Stocked) (hsafe : Along (step ids) Safe (System.start library) acts) :
    ∀ x ∈ states (step ids) (System.start library) acts, ∀ runId, x.shared.Referenced runId := by
  intro x hx runId
  have hinv : Inv x := invariant_states (fun _ _ _ hinv hact hs => inv_step hinv hact hs)
    (inv_start hstocked) hsafe x hx
  exact hinv.referenced runId

/-- One asset, with its original and its preview. -/
def oneAsset : Library where
  assets := .put .empty ⟨"a", true, none, none⟩
  sources := .empty
  retention := .empty
  objects := [.original "a", .preview "a"]
  secrets := []

/-- A request to run on it. -/
def oneRequest : Request := ⟨"k", "h", .asset "a", none, false⟩

/-- The run is created, then a deletion of its asset is refused. -/
theorem referenced_in_turn :
    let acts : List Act := [.createRun oneRequest, .deleteAsset "a"] ++
      List.replicate 6 (.advance 0 1 .go) ++ List.replicate 2 (.advance 1 2 .go)
    oneAsset.Stocked ∧ Along (step .counted) Safe (System.start oneAsset) acts ∧
      ∀ x ∈ states (step .counted) (System.start oneAsset) acts,
      ∀ runId, x.shared.Referenced runId := by
  intro acts
  have hstocked : oneAsset.Stocked := by
    rintro (assetId | sourceId) hoffers
    · by_cases hasset : assetId = "a"
      · subst hasset
        decide
      · simp [Library.offers, oneAsset, Table.get?_put, hasset] at hoffers
    · cases hoffers
  have hsafe : Along (step .counted) Safe (System.start oneAsset) acts := by decide
  exact ⟨hstocked, hsafe, live_runs_referenced .counted oneAsset acts hstocked hsafe⟩

/-- The asset is deleted between the check of the creation and its insert. -/
theorem deleted_under_a_run :
    ¬∀ x ∈ states (step .counted) (System.start oneAsset)
        ([.createRun oneRequest, .deleteAsset "a", .advance 0 1 .go] ++
          List.replicate 8 (.advance 1 2 .go) ++ List.replicate 5 (.advance 0 3 .go)),
      (∀ call ∈ x.calls, call.finished) → ∀ runId, x.Created runId → x.shared.Referenced runId := by
  intro h
  have hlast := h _ (mem_states_of_exec rfl) (by decide) "" ⟨_, List.mem_cons_self, rfl⟩
  obtain ⟨_, hmedium, hintact⟩ := hlast _ rfl rfl
  cases hmedium
  exact absurd hintact (by decide)

end Scenara.Media
