import Scenara.Core.Parties
import Scenara.Surveillance.Snapshots

/-!
# The evidence of an alert

* `Lawful`: an alert with a snapshot is recorded when the object is tracked and no sweep has it, no
  sweep reads it before it is protected, and the run does not fail after that.
-/

namespace Scenara.Surveillance.Snapshots

open Scenara.Core Result

variable {setting : Setting} {x y : State} {a : Alert} {key : String} {act : Act}

/-! ## The claim -/

/-- The object of the snapshot is there. -/
def Present (x : State) : Prop :=
  ∀ a ∈ x.alerts, ∀ key, a.snapshot = some key → x.now < a.expiresAt → key ∈ x.objects

/-- **Evidence is kept.** -/
def Kept (x : State) : Prop :=
  ∀ a ∈ x.alerts, ∀ key, a.snapshot = some key → x.now < a.expiresAt →
    key ∈ x.objects ∧ ∀ row, x.rows.get? key = some row → row.deletedAt = none →
      ∀ expiresAt, row.expiresAt = some expiresAt → a.expiresAt ≤ expiresAt

/-! ## The condition -/

/-- The object is there, has a retention record that is not deleted, and no sweep has it. -/
def Held (x : State) (key : String) : Prop :=
  key ∈ x.objects ∧ (x.rows.get? key).any (fun row => row.deletedAt.isNone) = true ∧
    ∀ s ∈ x.sweeps, key ∉ s.rest ∧ key ∉ s.deleted
  deriving Decidable

/-- The object whose protection is under way. -/
def Phase.pending? : Phase → Option String
  | .protecting _ key _ _ => some key
  | _ => none

/-- The object that the next alert will name. -/
def Phase.snapshot? : Phase → Option String
  | .evaluating _ snapshot => snapshot
  | _ => none

/-- **The condition.** -/
def Lawful (x : State) : Act → Prop
  | .alert _ _ => ∀ key ∈ x.phase.snapshot?, Held x key
  | .sweepRead keys => ∀ key ∈ keys, x.phase.pending? ≠ some key
  | .fail => x.phase = .completing → ∀ a ∈ x.alerts, x.now < a.expiresAt →
      ∀ key ∈ a.snapshot, key ∉ x.keys
  | _ => True

instance (x : State) : ∀ act, Decidable (Lawful x act)
  | .alert _ _ => inferInstanceAs (Decidable (∀ _ ∈ _, _))
  | .sweepRead keys => inferInstanceAs (Decidable (∀ _ ∈ _, _))
  | .fail => inferInstanceAs (Decidable (_ → ∀ _ ∈ _, _ → ∀ _ ∈ _, _))
  | .tick _ | .image _ _ | .publish | .protect | .evaluated | .finish | .track | .complete | .stop _
  | .discard | .sweepDelete _ | .sweepMark _ => inferInstanceAs (Decidable True)

/-! ## The invariant -/

/-- `protect_object_for_alert` of the alert is next. -/
def Protecting (x : State) (a : Alert) : Prop :=
  ∃ final key, x.phase = .protecting final key a.alertId a.expiresAt ∧ a.snapshot = some key

/-- What an alert that lives may count on. -/
structure Safe (x : State) (a : Alert) (key : String) : Prop where
  object : key ∈ x.objects
  row : ∃ row expiresAt, x.rows.get? key = some row ∧ row.deletedAt = none ∧
    row.expiresAt = some expiresAt ∧ (a.expiresAt ≤ expiresAt ∨ Protecting x a)
  sweeps : ∀ s ∈ x.sweeps, key ∉ s.rest ∧ key ∉ s.deleted
  discarding : ∀ rest, x.phase = .discarding rest → key ∉ rest

/-- The artifacts that are not tracked yet, as far as they may come to be. -/
def State.untracked (x : State) : List String :=
  match x.phase with
  | .piping | .evaluating false _ | .protecting false _ _ _ => x.keys
  | .storing rest | .keeping rest => rest
  | _ => []

/-- What every lawful step keeps. -/
structure Inv (x : State) : Prop where
  safe : ∀ a ∈ x.alerts, ∀ key, a.snapshot = some key → x.now < a.expiresAt → Safe x a key
  fresh : ∀ key ∈ x.untracked, x.rows.get? key = none
  nodup : x.untracked.Nodup
  dated : ∀ key row, x.rows.get? key = some row → ∃ expiresAt, row.expiresAt = some expiresAt

theorem Inv.present (h : Inv x) : Present x :=
  fun a ha key hkey hlive => (h.safe a ha key hkey hlive).object

theorem not_protecting (hphase : ∀ final key alertId expiresAt,
    x.phase ≠ .protecting final key alertId expiresAt) : ¬ Protecting x a := by
  rintro ⟨_, _, h, -⟩
  exact hphase _ _ _ _ h

theorem Inv.kept (h : Inv x) (hpending : x.phase.pending? = none) : Kept x := by
  intro a ha key hkey hlive
  have hsafe := h.safe a ha key hkey hlive
  obtain ⟨row, _, hrow, -, hexpires, hpromise⟩ := hsafe.row
  have hquiet : ¬ Protecting x a := not_protecting fun _ _ _ _ hphase => by
    rw [hphase] at hpending
    cases hpending
  refine ⟨hsafe.object, fun row' hrow' _ expiresAt' hexpires' => ?_⟩
  rw [hrow] at hrow'
  cases hrow'
  rw [hexpires] at hexpires'
  cases hexpires'
  exact hpromise.resolve_right hquiet

theorem Inv.untracked_ne (h : Inv x) (ha : a ∈ x.alerts) (hkey : a.snapshot = some key)
    (hlive : x.now < a.expiresAt) : key ∉ x.untracked := by
  intro hmem
  obtain ⟨row, _, hrow, -⟩ := (h.safe a ha key hkey hlive).row
  simp [h.fresh key hmem] at hrow

theorem Safe.stays (h : Safe x a key) (hquiet : ¬Protecting x a) (hobject : key ∈ y.objects)
    (hrow : y.rows.get? key = x.rows.get? key) (hsweeps : y.sweeps = x.sweeps)
    (hdiscarding : ∀ rest, y.phase = .discarding rest → key ∉ rest) : Safe y a key := by
  obtain ⟨row, expiresAt, hget, hdeleted, hexpires, hpromise⟩ := h.row
  exact ⟨hobject, ⟨row, expiresAt, hrow.trans hget, hdeleted, hexpires,
    .inl (hpromise.resolve_right hquiet)⟩, hsweeps ▸ h.sweeps, hdiscarding⟩

/-! ## Steps -/

theorem Inv.goes {phase : Phase} (h : Inv x)
    (hphase : ∀ final key alertId expiresAt, x.phase ≠ .protecting final key alertId expiresAt)
    (huntracked : State.untracked { x with phase } = x.untracked ∨
      State.untracked { x with phase } = [])
    (hdiscarding : ∀ rest, phase = .discarding rest → ∀ a ∈ x.alerts, ∀ key, a.snapshot = some key →
      x.now < a.expiresAt → key ∉ rest) : Inv { x with phase } where
  safe a ha key hkey hlive := by
    have hsafe := h.safe a ha key hkey hlive
    exact hsafe.stays (not_protecting hphase) hsafe.object rfl rfl fun rest hrest =>
      hdiscarding rest hrest a ha key hkey hlive
  fresh key hkey := by
    rcases huntracked with heq | heq
    · rw [heq] at hkey
      exact h.fresh key hkey
    · simp [heq] at hkey
  nodup := by
    rcases huntracked with heq | heq
    · rw [heq]
      exact h.nodup
    · rw [heq]
      exact List.nodup_nil
  dated := h.dated

theorem Inv.tick {time : ℚ} (h : Inv x) (htime : 0 ≤ time) :
    Inv { x with now := x.now + time } where
  safe a ha key hkey hlive := by
    have hbefore : x.now < a.expiresAt := (le_add_of_nonneg_right htime).trans_lt hlive
    obtain ⟨hobject, hrow, hsweeps, hdiscarding⟩ := h.safe a ha key hkey hbefore
    exact ⟨hobject, hrow, hsweeps, hdiscarding⟩
  fresh := h.fresh
  nodup := h.nodup
  dated := h.dated

theorem Inv.image {type : ArtifactType} {new : String} (h : Inv x) (hphase : x.phase = .piping)
    (hnew : new ∉ x.keys) (hrow : x.rows.get? new = none) :
    Inv { x with objects := x.objects ++ [new], artifacts := x.artifacts ++ [(type, new)] } := by
  have huntracked : x.untracked = x.keys := by rw [State.untracked, hphase]
  have huntracked' : State.untracked { x with
      objects := x.objects ++ [new], artifacts := x.artifacts ++ [(type, new)] } = x.keys ++
        [new] := by
    simp [State.untracked, hphase, State.keys]
  refine ⟨fun a ha key hkey hlive => ?_, fun key hkey => ?_, ?_, h.dated⟩
  · obtain ⟨hobject, hrow', hsweeps, hdiscarding⟩ := h.safe a ha key hkey hlive
    exact ⟨List.mem_append_left _ hobject, hrow', hsweeps, hdiscarding⟩
  · rw [huntracked', List.mem_append, List.mem_singleton] at hkey
    rcases hkey with hkey | rfl
    · exact h.fresh key (huntracked ▸ hkey)
    · exact hrow
  · rw [huntracked', ← huntracked]
    exact h.nodup.append (List.nodup_singleton new) (by simpa [huntracked] using hnew)

theorem Inv.alert {final : Bool} {snapshot : Option String} {alertId : String} {expiresAt : ℚ}
    (h : Inv x) (hphase : x.phase = .evaluating final snapshot)
    (hheld : ∀ key ∈ snapshot, Held x key) :
    Inv { x with
      alerts := x.alerts ++ [⟨alertId, snapshot, expiresAt⟩]
      phase := .alerted final alertId expiresAt snapshot } := by
  have huntracked : State.untracked { x with
      alerts := x.alerts ++ [⟨alertId, snapshot, expiresAt⟩]
      phase := .alerted final alertId expiresAt snapshot } = x.untracked := by
    cases snapshot <;> cases final <;> simp [State.untracked, hphase, Phase.alerted, State.keys]
  have hquiet : ∀ b : Alert, ¬ Protecting x b := fun b => not_protecting (by simp [hphase])
  have hdiscarding : ∀ rest, Phase.alerted final alertId expiresAt snapshot ≠ .discarding rest := by
    intro _
    cases snapshot <;> simp [Phase.alerted]
  refine ⟨fun a ha key hkey hlive => ?_, fun key hkey => ?_, ?_, h.dated⟩
  · rcases Parties.mem_snoc.1 ha with ha | rfl
    · have hsafe := h.safe a ha key hkey hlive
      exact hsafe.stays (hquiet a) hsafe.object rfl rfl fun rest hrest =>
        absurd hrest (hdiscarding rest)
    · have hkey : snapshot = some key := hkey
      obtain ⟨hobject, hrow, hsweeps⟩ := hheld key hkey
      obtain ⟨row, hrow, hdeleted⟩ := (Option.any_eq_true _ _).1 hrow
      obtain ⟨e, hexpires⟩ := h.dated key row hrow
      refine ⟨hobject, ⟨row, e, hrow, Option.isNone_iff_eq_none.1 hdeleted, hexpires, .inr ?_⟩,
        hsweeps,
        fun rest hrest => absurd hrest (hdiscarding rest)⟩
      refine ⟨final, key, ?_, hkey⟩
      rw [hkey]
      rfl
  · rw [huntracked] at hkey
    exact h.fresh key hkey
  · rw [huntracked]
    exact h.nodup

theorem untracked_protected {final : Bool} {k alertId : String} {expiresAt : ℚ}
    (hphase : x.phase = .protecting final k alertId expiresAt)
    (rows : Dict String RetentionRecord) :
    State.untracked { x with rows, phase := .evaluating final (some k) } = x.untracked := by
  cases final <;> simp [State.untracked, hphase, State.keys]

theorem Inv.protect {final : Bool} {k alertId : String} {expiresAt : ℚ} (h : Inv x)
    (hphase : x.phase = .protecting final k alertId expiresAt) :
    Inv { x.protectObjectForAlert k alertId expiresAt with
      phase := .evaluating final (some k) } := by
  have hprotecting : ∀ b : Alert, Protecting x b → b.snapshot = some k ∧
      b.expiresAt = expiresAt := by
    rintro b ⟨_, _, hb, hkey⟩
    rw [hphase] at hb
    cases hb
    exact ⟨hkey, rfl⟩
  have hsame : x.protectObjectForAlert k alertId expiresAt = x →
      (∀ row, x.rows.get? k = some row → row.deletedAt ≠ none) →
      Inv { x.protectObjectForAlert k alertId expiresAt with
        phase := .evaluating final (some k) } := by
    intro heq hnone
    rw [heq]
    refine ⟨fun a ha key hkey hlive => ?_, fun key hkey => ?_, ?_, h.dated⟩
    · have hsafe := h.safe a ha key hkey hlive
      refine hsafe.stays (fun hp => ?_) hsafe.object rfl rfl fun rest hrest => by cases hrest
      obtain ⟨row, -, hrow, hdeleted, -⟩ := hsafe.row
      rw [(hprotecting a hp).1] at hkey
      cases hkey
      exact hnone row hrow hdeleted
    · rw [untracked_protected hphase] at hkey
      exact h.fresh key hkey
    · rw [untracked_protected hphase]
      exact h.nodup
  unfold State.protectObjectForAlert at hsame ⊢
  cases hcurrent : x.rows.get? k with
  | none =>
    simp only [hcurrent] at hsame ⊢
    exact hsame trivial nofun
  | some current =>
    cases hdeleted : current.deletedAt with
    | some time =>
      simp only [hcurrent, hdeleted, Option.isSome_some, if_true] at hsame ⊢
      refine hsame trivial fun row hrow => ?_
      cases hrow
      rw [hdeleted]
      exact Option.some_ne_none time
    | none =>
      obtain ⟨e, he⟩ := h.dated k current hcurrent
      simp only [hdeleted, Option.isSome_none, Bool.false_eq_true, if_false, he, Option.getD_some]
      refine ⟨fun a ha key hkey hlive => ?_, fun key hkey => ?_, ?_, fun key row hrow => ?_⟩
      · have hsafe := h.safe a ha key hkey hlive
        by_cases hsame : key = k
        · obtain ⟨hobject, ⟨_, _, hrow, -, hexpires, hpromise⟩, hsweeps, -⟩ := hsafe
          rw [hsame, hcurrent] at hrow
          cases hrow
          rw [he] at hexpires
          cases hexpires
          rw [hsame] at hobject hsweeps ⊢
          refine ⟨hobject, ⟨_, _, Dict.get?_insert_self _ _ _, rfl, rfl, .inl ?_⟩, hsweeps, nofun⟩
          rcases hpromise with hle | hp
          · exact hle.trans (le_max_left _ _)
          · rw [(hprotecting a hp).2]
            exact le_max_right _ _
        · refine hsafe.stays (fun hp => ?_) hsafe.object (Dict.get?_insert_of_ne _ _ hsame) rfl
            fun rest hrest => by cases hrest
          rw [(hprotecting a hp).1] at hkey
          exact hsame (Option.some.inj hkey).symm
      · rw [untracked_protected hphase] at hkey
        have hfresh := h.fresh key hkey
        refine (Dict.get?_insert_of_ne _ _ ?_).trans hfresh
        rintro rfl
        rw [hcurrent] at hfresh
        cases hfresh
      · rw [untracked_protected hphase]
        exact h.nodup
      · rcases Dict.get?_insert_cases hrow with ⟨-, rfl⟩ | ⟨-, hrow⟩
        · exact ⟨_, rfl⟩
        · exact h.dated key row hrow

theorem Inv.tracks {rest : List String} {new : String} {phase : Phase} {row : RetentionRecord}
    (h : Inv x) (huntracked : x.untracked = new :: rest)
    (hnext : ∀ rows, State.untracked { x with rows, phase } = rest)
    (hphase : ∀ final key alertId expiresAt, x.phase ≠ .protecting final key alertId expiresAt)
    (hdiscarding : ∀ rest, phase ≠ .discarding rest) (hdated : row.expiresAt.isSome = true) :
    Inv { x with rows := x.rows.insert new row, phase } := by
  have hnew : new ∈ x.untracked := by
    rw [huntracked]
    exact List.mem_cons_self
  have hnodup := h.nodup
  rw [huntracked, List.nodup_cons] at hnodup
  refine ⟨fun a ha key hkey hlive => ?_, fun key hkey => ?_, ?_, fun key row' hrow => ?_⟩
  · have hsafe := h.safe a ha key hkey hlive
    have hne : key ≠ new := by
      rintro rfl
      exact h.untracked_ne ha hkey hlive hnew
    exact hsafe.stays (not_protecting hphase) hsafe.object (Dict.get?_insert_of_ne _ _ hne) rfl
      fun rest hrest => absurd hrest (hdiscarding rest)
  · rw [hnext] at hkey
    have hne : key ≠ new := by
      rintro rfl
      exact hnodup.1 hkey
    refine (Dict.get?_insert_of_ne _ _ hne).trans (h.fresh key ?_)
    rw [huntracked]
    exact List.mem_cons_of_mem _ hkey
  · rw [hnext]
    exact hnodup.2
  · rcases Dict.get?_insert_cases hrow with ⟨-, rfl⟩ | ⟨-, hrow⟩
    · exact Option.isSome_iff_exists.1 hdated
    · exact h.dated key row' hrow

theorem Inv.discards {rest : List String} {k : String} (h : Inv x)
    (hphase : x.phase = .discarding (k :: rest)) :
    Inv { x with objects := x.objects.filter (· ≠ k), phase := .discarding rest } := by
  refine ⟨fun a ha key hkey hlive => ?_, fun key hkey => ?_, ?_, h.dated⟩
  · have hsafe := h.safe a ha key hkey hlive
    have hnot := hsafe.discarding _ hphase
    rw [List.mem_cons, not_or] at hnot
    refine hsafe.stays (not_protecting (by simp [hphase]))
      (List.mem_filter.2 ⟨hsafe.object, by simpa using hnot.1⟩) rfl rfl fun rest' hrest' => ?_
    cases hrest'
    exact hnot.2
  · cases hkey
  · exact List.nodup_nil

theorem Inv.sweepReads {keys : List String} (h : Inv x)
    (hexpired : ∀ key ∈ keys, x.expired key = true)
    (hpending : ∀ key ∈ keys, x.phase.pending? ≠ some key) :
    Inv { x with sweeps := x.sweeps ++ [⟨keys, []⟩] } := by
  refine ⟨fun a ha key hkey hlive => ?_, h.fresh, h.nodup, h.dated⟩
  obtain ⟨hobject, ⟨row, e, hrow, hdeleted, hexpires, hpromise⟩, hsweeps, hdiscarding⟩ :=
    h.safe a ha key hkey hlive
  refine ⟨hobject, ⟨row, e, hrow, hdeleted, hexpires, hpromise⟩, fun s hs => ?_, hdiscarding⟩
  rcases Parties.mem_snoc.1 hs with hs | rfl
  · exact hsweeps s hs
  · refine ⟨fun hmem => ?_, List.not_mem_nil⟩
    rcases hpromise with hle | ⟨_, _, hphase, hkey'⟩
    · -- what expires after the alert is not expired
      have hgone := hexpired key hmem
      rw [State.expired, hrow, Option.any_some, hexpires, Option.any_some, Bool.and_eq_true,
        decide_eq_true_eq] at hgone
      exact absurd (hlive.trans_le (hle.trans hgone.1)) (lt_irrefl _)
    · rw [hkey] at hkey'
      cases hkey'
      exact hpending key hmem (by rw [hphase]; rfl)

theorem Inv.sweepDeletes {i : Nat} {k : String} {rest deleted : List String} (h : Inv x)
    (hi : x.sweeps[i]? = some ⟨k :: rest, deleted⟩) : Inv (sweepDelete x i k rest deleted) := by
  refine ⟨fun a ha key hkey hlive => ?_, h.fresh, h.nodup, h.dated⟩
  obtain ⟨hobject, hrow, hsweeps, hdiscarding⟩ := h.safe a ha key hkey hlive
  obtain ⟨hrest, hdeleted⟩ := hsweeps _ (List.mem_of_getElem? hi)
  rw [List.mem_cons, not_or] at hrest
  refine ⟨List.mem_filter.2 ⟨hobject, by simpa using hrest.1⟩, hrow, fun s hs => ?_, hdiscarding⟩
  rcases List.mem_or_eq_of_mem_set hs with hs | rfl
  · exact hsweeps s hs
  · refine ⟨hrest.2, fun hmem => ?_⟩
    split at hmem
    · rcases List.mem_append.1 hmem with hmem | hmem
      · exact hdeleted hmem
      · exact hrest.1 (List.mem_singleton.1 hmem)
    · exact hdeleted hmem

theorem Inv.sweepMarks {i : Nat} {deleted : List String} (h : Inv x)
    (hi : x.sweeps[i]? = some ⟨[], deleted⟩) :
    Inv { x.markObjectsDeleted deleted with sweeps := x.sweeps.set i ⟨[], []⟩ } := by
  refine ⟨fun a ha key hkey hlive => ?_, fun key hkey => ?_, h.nodup, fun key row hrow => ?_⟩
  · obtain ⟨hobject, ⟨row, e, hrow, hdeleted, hexpires, hpromise⟩, hsweeps, hdiscarding⟩ :=
      h.safe a ha key hkey hlive
    have hnot := (hsweeps _ (List.mem_of_getElem? hi)).2
    refine ⟨hobject, ⟨row, e, ?_, hdeleted, hexpires, hpromise⟩, fun s hs => ?_, hdiscarding⟩
    · show (Dict.mapVals _ x.rows).get? key = some row
      rw [Dict.get?_mapVals, hrow, Option.map_some, if_neg hnot]
    · rcases List.mem_or_eq_of_mem_set hs with hs | rfl
      · exact hsweeps s hs
      · exact ⟨List.not_mem_nil, List.not_mem_nil⟩
  · show (Dict.mapVals _ x.rows).get? key = none
    rw [Dict.get?_mapVals, h.fresh key hkey, Option.map_none]
  · have hrow : (Dict.mapVals _ x.rows).get? key = some row := hrow
    rw [Dict.get?_mapVals] at hrow
    obtain ⟨row', hrow', rfl⟩ := Option.map_eq_some_iff.1 hrow
    obtain ⟨e, he⟩ := h.dated key row' hrow'
    refine ⟨e, ?_⟩
    split <;> exact he

theorem Inv.ends {phase : Phase} (h : Inv x) (hphase : x.phase = .piping)
    (hnext : phase = .keeping x.keys ∨ phase = .discarding x.keys) : Inv { x with phase } := by
  have huntracked : x.untracked = x.keys := by rw [State.untracked, hphase]
  refine h.goes (by simp [hphase]) ?_ fun rest hrest a ha key hkey hlive => ?_
  · rcases hnext with rfl | rfl
    · exact .inl huntracked.symm
    · exact .inr rfl
  · rcases hnext with rfl | rfl
    · cases hrest
    · cases hrest
      rw [← huntracked]
      exact h.untracked_ne ha hkey hlive

theorem Inv.trackStep (h : Inv x) (hs : Snapshots.step setting x .track = some y) : Inv y := by
  have hfresh : ∀ rest new, x.untracked = new :: rest → x.rows.get? new = none := by
    intro _ new huntracked
    refine h.fresh new ?_
    rw [huntracked]
    exact List.mem_cons_self
  have htrack : ∀ new, x.rows.get? new = none → x.trackObject new (State.record setting) =
      some { x with rows := x.rows.insert new (State.record setting) } := by
    intro _ hnew
    rw [State.trackObject, hnew]
  dsimp only [Snapshots.step] at hs
  cases hphase : x.phase <;> simp only [hphase, reduceCtorEq] at hs
  all_goals
    rename_i keys
    cases keys with
    | nil =>
      cases hs
      exact h.goes (by simp [hphase]) (.inr rfl) nofun
    | cons key rest =>
      have huntracked : x.untracked = key :: rest := by rw [State.untracked, hphase]
      simp only [htrack key (hfresh rest key huntracked)] at hs
      cases hs
      exact h.tracks huntracked (fun _ => rfl) (by simp [hphase])
        nofun rfl

theorem Inv.step (h : Inv x) (hlawful : Lawful x act) (hs : step setting x act = some y) :
    Inv y := by
  cases act with
  | tick =>
    dsimp only [Snapshots.step] at hs
    split at hs <;> cases hs
    exact h.tick ‹_›
  | image =>
    dsimp only [Snapshots.step] at hs
    split at hs <;> cases hs
    rename_i hguard
    exact h.image hguard.1 hguard.2.2.1 hguard.2.2.2.1
  | publish =>
    dsimp only [Snapshots.step] at hs
    split at hs <;> cases hs
    rename_i hphase
    exact h.goes (by simp [hphase]) (.inl (by simp [State.untracked, hphase, State.keys]))
      nofun
  | alert =>
    dsimp only [Snapshots.step] at hs
    split at hs
    · rename_i final snapshot hphase
      split at hs <;> cases hs
      refine h.alert hphase fun key hkey => hlawful key ?_
      rwa [hphase]
    · cases hs
  | protect =>
    dsimp only [Snapshots.step] at hs
    split at hs <;> cases hs
    exact h.protect ‹_›
  | evaluated =>
    dsimp only [Snapshots.step] at hs
    split at hs <;> cases hs
    rename_i final snapshot hphase
    refine h.goes (by simp [hphase]) (.inl ?_) fun rest hrest => ?_
    · cases final <;> simp [State.untracked, hphase, State.keys]
    · cases final <;> cases hrest
  | finish =>
    dsimp only [Snapshots.step] at hs
    split at hs <;> cases hs
    rename_i hphase
    exact h.goes (by simp [hphase]) (.inl (by simp [State.untracked, hphase]))
      nofun
  | track => exact h.trackStep hs
  | complete =>
    dsimp only [Snapshots.step] at hs
    split at hs <;> cases hs
    rename_i hphase
    exact h.goes (by simp [hphase]) (.inr rfl) nofun
  | stop referenced =>
    dsimp only [Snapshots.step] at hs
    split at hs <;> cases hs
    refine h.ends ‹_› ?_
    cases referenced
    · exact .inr rfl
    · exact .inl rfl
  | fail =>
    dsimp only [Snapshots.step] at hs
    split at hs <;> cases hs
    rename_i hphase
    rcases hphase with hphase | hphase
    · exact h.ends hphase (.inr rfl)
    · refine h.goes (by simp [hphase]) (.inr rfl) fun rest hrest a ha key hkey hlive => ?_
      cases hrest
      exact hlawful hphase a ha hlive key hkey
  | discard =>
    dsimp only [Snapshots.step] at hs
    split at hs <;> cases hs
    · rename_i hphase
      exact h.goes (by simp [hphase]) (.inr rfl) nofun
    · exact h.discards ‹_›
  | sweepRead =>
    dsimp only [Snapshots.step] at hs
    split at hs <;> cases hs
    exact h.sweepReads ‹_› hlawful
  | sweepDelete i =>
    dsimp only [Snapshots.step] at hs
    split at hs <;> cases hs
    exact h.sweepDeletes ‹_›
  | sweepMark i =>
    dsimp only [Snapshots.step] at hs
    split at hs <;> cases hs
    exact h.sweepMarks ‹_›

theorem Inv.init (now : ℚ) : Inv (init now) where
  safe a ha := by cases ha
  fresh key hkey := by cases hkey
  nodup := List.nodup_nil
  dated key row hrow := by
    have hrow : (Dict.empty : Dict String RetentionRecord).get? key = some row := hrow
    simp [Dict.get?_empty] at hrow

/-! ## Every run -/

/-- **Evidence is kept** in every state of a lawful run, whose objects are there at every moment. -/
theorem kept_of_lawful (setting : Setting) (now : ℚ) (acts : List Act)
    (hlawful : Along (step setting) Lawful (init now) acts) :
    ∀ x ∈ states (step setting) (init now) acts, Present x ∧
      (x.phase.pending? = none → Kept x) := by
  intro x hx
  have h := invariant_states (I := Inv) (fun x a y h hl hs => h.step hl hs) (Inv.init now)
      hlawful x hx
  exact ⟨h.present, h.kept⟩

/-- Previews stay a week, alert snapshots thirty days. -/
def week : Setting := ⟨"run_1", 0, 7, 30⟩

/-- An alert of the final result outlives the previews. -/
theorem snapshot_kept :
    let acts : List Act := [.image .unitFrame "k1", .finish, .track, .track, .alert "sa_1" 0,
      .protect, .evaluated, .complete, .tick (8 * 86400), .sweepRead []]
    ∃ x, exec (step week) (init 0) acts = some x ∧ Present x ∧ Kept x ∧
      x.alerts = [⟨"sa_1", some "k1", 30 * 86400⟩] ∧ x.now = 8 * 86400 := by
  intro acts
  have hlawful : Along (step week) Lawful (init 0) acts := by decide +kernel
  obtain ⟨x, hx, hpending, hdone⟩ : ∃ x, exec (step week) (init 0) acts = some x ∧
      x.phase.pending? = none ∧ x.alerts = [⟨"sa_1", some "k1", 30 * 86400⟩] ∧ x.now = 8 * 86400 :=
    exec_decide (by decide +kernel)
  obtain ⟨hpresent, hkept⟩ := kept_of_lawful week 0 acts hlawful x (mem_states_of_exec hx)
  exact ⟨x, hx, hpresent, hkept hpending, hdone⟩

/-- **A snapshot that is gone.** The alert of a partial result names an object without a retention
record: it is tracked with the previews and swept after a week, or it is discarded with a run that
fails. -/
theorem snapshot_swept :
    let alerted : List Act := [.image .unitFrame "k1", .publish, .alert "sa_1" 0, .protect,
        .evaluated]
    let swept : List Act := alerted ++ [.finish, .track, .track, .evaluated, .complete,
      .tick (8 * 86400), .sweepRead ["k1"], .sweepDelete 0, .sweepMark 0]
    let discarded : List Act := alerted ++ [.fail, .discard]
    (∃ x, exec (step week) (init 0) swept = some x ∧ ¬ Kept x ∧ x.objects = [] ∧
      x.alerts = [⟨"sa_1", some "k1", 30 * 86400⟩] ∧ x.now = 8 * 86400) ∧
    ∃ x, exec (step week) (init 0) discarded = some x ∧ ¬ Kept x ∧ x.objects = [] ∧
      x.alerts = [⟨"sa_1", some "k1", 30 * 86400⟩] ∧ x.now = 0 := by
  intro _ swept discarded
  have hgone : ∀ x : State, x.objects = [] → x.alerts = [⟨"sa_1", some "k1", 30 * 86400⟩] →
      x.now < 30 * 86400 → ¬ Kept x := by
    intro x hobjects halerts hnow hkept
    have ha : (⟨"sa_1", some "k1", 30 * 86400⟩ : Alert) ∈ x.alerts := by
      rw [halerts]
      exact List.mem_singleton_self _
    have hobject := (hkept _ ha "k1" rfl hnow).1
    simp [hobjects] at hobject
  constructor
  · obtain ⟨x, hx, hobjects, halerts, hnow⟩ : ∃ x, exec (step week) (init 0) swept = some x ∧
        x.objects = [] ∧ x.alerts = [⟨"sa_1", some "k1", 30 * 86400⟩] ∧ x.now = 8 * 86400 :=
      exec_decide (by decide +kernel)
    refine ⟨x, hx, hgone x hobjects halerts ?_, hobjects, halerts, hnow⟩
    rw [hnow]
    decide +kernel
  · obtain ⟨x, hx, hobjects, halerts, hnow⟩ : ∃ x, exec (step week) (init 0) discarded = some x ∧
        x.objects = [] ∧ x.alerts = [⟨"sa_1", some "k1", 30 * 86400⟩] ∧ x.now = 0 :=
      exec_decide (by decide +kernel)
    refine ⟨x, hx, hgone x hobjects halerts ?_, hobjects, halerts, hnow⟩
    rw [hnow]
    decide +kernel

end Scenara.Surveillance.Snapshots
