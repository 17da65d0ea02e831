import Scenara.Core.Parties
import Scenara.Enterprise.Agreed

/-!
# Quotas of a license
-/

namespace Scenara.Enterprise

open Scenara.Core

variable {claims : LicenseClaims} {request : Request} {rows rows' : Key → Row Nat}
  {phase phase' : Phase} {s s' : Concurrent} {i j : Nat} {act : Act}

/-! ## What a transaction holds -/

/-- The request has the limit of the license. -/
def Limited (claims : LicenseClaims) (request : Request) : Prop :=
  request.limit = claims.limits.get? request.key.2

/-- What transaction `i` holds at its statement. -/
def Holding (claims : LicenseClaims) (rows : Key → Row Nat) (i : Nat) : Phase → Prop
  | .begun request => Limited claims request ∧ Row.HoldsNone rows i
  | .closing request (.ok written) =>
    Limited claims request ∧ ∃ found, request.upsert found = .ok written ∧
      Row.HoldsOne rows i request.key found written
  | .closing _ (.error _) => Row.HoldsNone rows i
  | .returned _ | .rolledBack => Row.HoldsNone rows i

/-- **The invariant.** -/
structure Inv (claims : LicenseClaims) (s : Concurrent) : Prop where
  holding : ∀ i phase, s.phases[i]? = some phase → Holding claims s.rows i phase
  fresh : ∀ i, s.phases.length ≤ i → Row.HoldsNone s.rows i
  summed : ∀ key, s.used key = total s.accepted key

theorem Holding.moved (h : Holding claims rows i phase)
    (hmoved : ∀ key, Row.Moved j (rows key) (rows' key)) (hij : i ≠ j) :
    Holding claims rows' i phase := by
  cases phase with
  | begun => exact ⟨h.1, h.2.moved hmoved hij⟩
  | closing _ outcome =>
    cases outcome with
    | error => exact Row.HoldsNone.moved h hmoved hij
    | ok =>
      obtain ⟨hlimited, found, hupsert, hholds⟩ := h
      exact ⟨hlimited, found, hupsert, hholds.moved hmoved hij⟩
  | returned | rolledBack => exact Row.HoldsNone.moved h hmoved hij

theorem inv_start : Inv claims Concurrent.start where
  holding _ _ h := by cases h
  fresh i _ key := Row.free_stored none i
  summed _ := rfl

/-! ## One statement -/

/-- **A statement of one transaction**: it holds what its next phase says, the others keep what they
hold, and what it commits is what it takes. -/
structure Stated (claims : LicenseClaims) (i : Nat) (rows rows' : Key → Row Nat) (phase' : Phase)
    (taken : List (Key × Nat)) : Prop where
  holding : Holding claims rows' i phase'
  moved : ∀ key, Row.Moved i (rows key) (rows' key)
  committed : ∀ key, (rows' key).committed.getD 0 = (rows key).committed.getD 0 + total taken key

theorem total_nil (key : Key) : total [] key = 0 := rfl

theorem total_one (request : Request) (key : Key) :
    total [(request.key, request.amount)] key = if key = request.key then request.amount
    else 0 := by
  rw [← List.nil_append [_], total_append, total_nil, Nat.zero_add]

theorem upsert_written {found : Option Nat} {used : Nat}
    (h : request.upsert found = .ok (some used)) :
    used = found.getD 0 + request.amount ∧ request.upserts found := by
  rcases upsert_cases request found with ⟨hupserts, heq⟩ | ⟨-, heq | heq⟩
  · rw [heq] at h
    cases h
    exact ⟨rfl, hupserts⟩
  all_goals
    rw [heq] at h
    cases h

theorem stated_abort (rows : Key → Row Nat)
    (hphase' : ∀ rows', Row.HoldsNone rows' i → Holding claims rows' i phase') :
    Stated claims i rows (fun key => (rows key).abort i) phase' [] where
  holding := hphase' _ fun key => Row.free_abort (rows key) i
  moved key := Row.moved_abort (rows key) i
  committed key := by rw [Row.abort_committed, total_nil, Nat.add_zero]

theorem stated_stepPhase (h : Holding claims rows i phase)
    (hstep : stepPhase i rows phase = some (rows', phase')) :
    Stated claims i rows rows' phase' phase.accepts := by
  cases phase with
  | begun request =>
    obtain ⟨hlimited, hnone⟩ := h
    obtain ⟨hfree, hstep⟩ := Option.ite_none_left_eq_some.1 hstep
    cases houtcome : request.upsert (rows request.key).committed with
    | error =>
      rw [houtcome] at hstep
      obtain ⟨rfl, rfl⟩ := Prod.mk.inj (Option.some.inj hstep)
      exact ⟨hnone, fun key => .refl i _, fun key => rfl⟩
    | ok written =>
      rw [houtcome] at hstep
      obtain ⟨rfl, rfl⟩ := Prod.mk.inj (Option.some.inj hstep)
      refine ⟨⟨hlimited, _, houtcome, hnone.update request.key _ written⟩,
        Row.moved_update (Row.moved_take hfree), fun key => ?_⟩
      have hrow : (⟨(rows request.key).committed, some (i, written)⟩ : Row Nat).committed =
          (rows request.key).committed := rfl
      rw [Row.committed_update hrow]
      rfl
  | closing request outcome =>
    cases outcome with
    | error =>
      obtain ⟨rfl, rfl⟩ := Prod.mk.inj (Option.some.inj hstep)
      exact stated_abort rows fun _ hnone => hnone
    | ok written =>
      obtain ⟨rfl, rfl⟩ := Prod.mk.inj (Option.some.inj hstep)
      obtain ⟨-, _, hupsert, hholds⟩ := h
      refine ⟨Row.holdsNone_commit rows i, fun key => Row.moved_commit (rows key) i, fun key => ?_⟩
      cases written with
      | none =>
        show _ = _ + 0
        by_cases hkey : key = request.key
        · rw [hkey, hholds.row, Row.commit_of_lock]
          rfl
        · rw [Row.commit_of_free (hholds.others key hkey), Nat.add_zero]
      | some =>
        rw [hholds.commit, Phase.accepts, total_one]
        by_cases hkey : key = request.key
        · rw [if_pos hkey, if_pos hkey, hkey, hholds.row, (upsert_written hupsert).1]
          rfl
        · rw [if_neg hkey, if_neg hkey, Nat.add_zero]
  | returned | rolledBack => cases hstep

theorem total_append_list (taken more : List (Key × Nat)) (key : Key) :
    total (taken ++ more) key = total taken key + total more key := by
  simp [total]

theorem inv_set {taken : List (Key × Nat)} (h : Inv claims s) (hi : s.phases[i]? = some phase)
    (hstated : Stated claims i s.rows rows' phase' taken) :
    Inv claims ⟨rows', s.phases.set i phase', s.accepted ++ taken⟩ where
  holding j other hj := by
    rcases Parties.getElem?_set_cases hj with ⟨rfl, rfl⟩ | ⟨hij, hj⟩
    · exact hstated.holding
    · exact (h.holding j other hj).moved hstated.moved hij
  fresh j hj := by
    rw [List.length_set] at hj
    have hlt := (List.getElem?_eq_some_iff.1 hi).1
    exact (h.fresh j hj).moved hstated.moved (by omega)
  summed key := by
    rw [total_append_list, ← h.summed]
    exact hstated.committed key

theorem inv_begin (h : Inv claims s)
    (hphase : ∀ rows i, Row.HoldsNone rows i → Holding claims rows i phase) :
    Inv claims { s with phases := s.phases ++ [phase] } where
  holding i other hi := by
    rcases Nat.lt_or_ge i s.phases.length with hlt | hge
    · rw [List.getElem?_append_left hlt] at hi
      exact h.holding i other hi
    · rw [List.getElem?_append_right hge] at hi
      rw [← List.mem_singleton.1 (List.mem_of_getElem? hi)] at hphase
      exact hphase s.rows i (h.fresh i hge)
  fresh i hi := by
    rw [List.length_append] at hi
    exact h.fresh i (Nat.le_of_add_right_le hi)
  summed := h.summed

theorem limited_of_request {call : Call} (h : claims.request call = .ok request) :
    Limited claims request := by
  rw [request_eq h]
  rfl

theorem inv_step (h : Inv claims s) (hstep : Concurrent.step claims s act = some s') :
    Inv claims s' := by
  cases act with
  | start call =>
    unfold Concurrent.step at hstep
    cases hrequest : claims.request call with
    | error =>
      simp only [hrequest, Option.some.injEq] at hstep
      subst hstep
      exact inv_begin h fun _ _ hnone => hnone
    | ok =>
      simp only [hrequest, Option.some.injEq] at hstep
      subst hstep
      exact inv_begin h fun _ _ hnone => ⟨limited_of_request hrequest, hnone⟩
  | advance i =>
    simp only [Concurrent.step, bind, Option.bind_eq_some_iff, pure, Option.some.injEq] at hstep
    obtain ⟨phase, hi, ⟨_, _⟩, hphase, rfl⟩ := hstep
    exact inv_set h hi (stated_stepPhase (h.holding i phase hi) hphase)
  | abort i =>
    simp only [Concurrent.step, bind, Option.bind_eq_some_iff, Option.ite_none_right_eq_some,
      Option.some.injEq] at hstep
    obtain ⟨_, hi, -, rfl⟩ := hstep
    have hstated : Stated claims i s.rows (fun key => (s.rows key).abort i) .rolledBack [] :=
      stated_abort s.rows fun _ hnone => hnone
    have hinv := inv_set h hi hstated
    rwa [List.append_nil] at hinv

/-! ## The limits -/

/-- A call that commits the first use of a metric is within its limit. -/
def Admitted (s : Concurrent) : Act → Prop
  | .advance i => ∀ request used, s.phases[i]? = some (.closing request (.ok (some used))) →
      (s.rows request.key).committed = none → request.admits request.amount = true
  | .start _ | .abort _ => True

theorem used_of_accepted (h : Inv claims s) (hstep : Concurrent.step claims s act = some s')
    (haccepted : s'.accepted = s.accepted) (key : Key) : s'.used key = s.used key := by
  rw [(inv_step h hstep).summed, h.summed, haccepted]

theorem kept_of_accepted (h : Inv claims s) (hkept : Kept claims s.used s.accepted)
    (hstep : Concurrent.step claims s act = some s') (haccepted : s'.accepted = s.accepted) :
    Kept claims s'.used s'.accepted := by
  rwa [funext (used_of_accepted h hstep haccepted), haccepted]

theorem kept_commit {used : Nat} (h : Inv claims s) (hkept : Kept claims s.used s.accepted)
    (hi : s.phases[i]? = some (.closing request (.ok (some used))))
    (hstep : Concurrent.step claims s (.advance i) = some s')
    (haccepted : s'.accepted = s.accepted ++ [(request.key, request.amount)]) :
    Kept claims s'.used s'.accepted ↔ Admitted s (.advance i) := by
  obtain ⟨hlimited, found, hupsert, hholds⟩ := h.holding i _ hi
  have hused (key : Key) :
      s'.used key = s.used key + if key = request.key then request.amount else 0 := by
    rw [(inv_step h hstep).summed, haccepted, total_append, h.summed]
  have hfound : (s.rows request.key).committed = found := by rw [hholds.row]
  have hadmitted : Admitted s (.advance i) ↔
      (found = none → request.admits request.amount = true) := by
    constructor
    · exact fun hadmitted hnone => hadmitted request used hi (hfound.trans hnone)
    · intro hadmits _ _ hi' hnone
      rw [hi] at hi'
      obtain ⟨rfl, -⟩ := Phase.closing.inj (Option.some.inj hi')
      exact hadmits (hfound.symm.trans hnone)
  rw [haccepted, kept_accept hkept hlimited hused, hadmitted, Concurrent.used, hfound]
  constructor
  · rintro hadmits rfl
    simpa using hadmits
  · intro hadmits
    rcases (upsert_written hupsert).2.2 with hnone | hupserts
    · subst hnone
      simpa using hadmits rfl
    · exact hupserts

theorem kept_step (h : Inv claims s) (hkept : Kept claims s.used s.accepted)
    (hstep : Concurrent.step claims s act = some s') :
    Kept claims s'.used s'.accepted ↔ Admitted s act := by
  cases act with
  | start =>
    refine iff_of_true (kept_of_accepted h hkept hstep ?_) trivial
    unfold Concurrent.step at hstep
    dsimp only at hstep
    split at hstep <;> exact Option.some.inj hstep ▸ rfl
  | abort i =>
    refine iff_of_true (kept_of_accepted h hkept hstep ?_) trivial
    simp only [Concurrent.step, bind, Option.bind_eq_some_iff, Option.ite_none_right_eq_some,
      Option.some.injEq] at hstep
    obtain ⟨_, _, -, rfl⟩ := hstep
    rfl
  | advance i =>
    have hadvance := hstep
    simp only [Concurrent.step, bind, Option.bind_eq_some_iff, pure, Option.some.injEq] at hadvance
    obtain ⟨phase, hi, ⟨_, _⟩, _, hs'⟩ := hadvance
    have haccepted : s'.accepted = s.accepted ++ phase.accepts := hs' ▸ rfl
    by_cases haccepts : ∃ request used, phase = .closing request (.ok (some used))
    · obtain ⟨request, used, rfl⟩ := haccepts
      exact kept_commit h hkept hi hstep haccepted
    · have hnone : phase.accepts = [] := by
        unfold Phase.accepts
        split
        · exact absurd ⟨_, _, rfl⟩ haccepts
        · rfl
      rw [hnone, List.append_nil] at haccepted
      refine iff_of_true (kept_of_accepted h hkept hstep haccepted) fun request used hi' => ?_
      rw [hi] at hi'
      exact absurd ⟨request, used, Option.some.inj hi'⟩ haccepts

theorem inv_states (claims : LicenseClaims) (acts : List Act) :
    ∀ s ∈ states (Concurrent.step claims) .start acts, Inv claims s :=
  invariant_all (fun _ _ _ => inv_step) acts inv_start

theorem kept_states_iff (claims : LicenseClaims) (acts : List Act) :
    (∀ s ∈ states (Concurrent.step claims) .start acts, Kept claims s.used s.accepted) ↔
      Along (Concurrent.step claims) Admitted .start acts := by
  have hkept : (∀ s ∈ states (Concurrent.step claims) .start acts,
      Kept claims s.used s.accepted) ↔ ∀ s ∈ states (Concurrent.step claims) .start acts,
        Inv claims s ∧ Kept claims s.used s.accepted :=
    forall₂_congr fun s hs => (and_iff_right (inv_states claims acts s hs)).symm
  rw [hkept]
  refine states_iff (I := fun s => Inv claims s ∧ Kept claims s.used s.accepted)
    (fun s act hstuck => ?_) (fun s act s' h hstep => ?_) ?_
  · cases act with
    | start | abort => trivial
    | advance i =>
      intro _ _ hi
      simp [Concurrent.step, hi, stepPhase] at hstuck
  · rw [and_iff_right (inv_step h.1 hstep)]
    exact kept_step h.1 h.2 hstep
  · exact ⟨inv_start, fun _ _ _ => Nat.zero_le _, fun _ => rfl⟩

/-- **Quotas.** One after another, the two repositories keep the limits and the sums and accept the
same calls exactly when every call fits its row; a call that raises changes nothing. Concurrently,
`PostgresEnterpriseRepository` does exactly when every first use of a metric that is committed is
within its limit; what accepts nothing changes no counter. -/
theorem quotas_iff (claims : LicenseClaims) :
    (∀ calls, (∀ s ∈ states (Both.step claims) .start calls, Agreed claims s) ↔
      Along (Both.step claims) (Fits claims) .start calls) ∧
    (∀ (repository : Repository) usage call raised,
      (claims.consume repository usage call).2 = .error raised →
        (claims.consume repository usage call).1 = usage) ∧
    (∀ acts, (∀ s ∈ states (Concurrent.step claims) .start acts, Kept claims s.used s.accepted) ↔
      Along (Concurrent.step claims) Admitted .start acts) ∧
    (∀ acts, ∀ s ∈ states (Concurrent.step claims) .start acts, ∀ act s',
      Concurrent.step claims s act = some s' → s'.accepted = s.accepted →
        ∀ key, s'.used key = s.used key) := by
  refine ⟨fun calls => ?_, fun _ _ _ _ h => consume_raised h, kept_states_iff claims,
    fun acts s hs act s' hstep haccepted key =>
      used_of_accepted (inv_states claims acts s hs) hstep haccepted key⟩
  exact states_iff nofun
    (fun s call s' h hstep => agreed_step h hstep) agreed_start

/-! ## The first use of a metric -/

/-- A license of three runs, and five at once. -/
def threeRuns : LicenseClaims where
  tenantIds := ["acme"]
  limits := .ofList [("runs", 3)]
  issuedAt := 0
  notBefore := 0
  expiresAt := 100

/-- Five runs are used. -/
def fiveRuns : Call := ⟨10, "acme", "runs", 5⟩

/-- `MemoryEnterpriseRepository` refuses the five runs, `PostgresEnterpriseRepository` inserts them
over the limit, alone or among concurrent calls. -/
theorem first_use_over_limit :
    (¬∀ s ∈ states (Both.step threeRuns) .start [fiveRuns], Agreed threeRuns s) ∧
    (¬∀ s ∈ states (Concurrent.step threeRuns) .start [.start fiveRuns, .advance 0, .advance 0],
      Kept threeRuns s.used s.accepted) ∧
    (threeRuns.consume .memory .empty fiveRuns).2 =
      .error (.policyDenied "enterprise quota exceeded: runs") ∧
    (threeRuns.consume .postgres .empty fiveRuns).2 = .ok () := by
  refine ⟨fun h => ?_, fun h => ?_, by decide, by decide⟩
  · have hagreed := h _ (mem_states_of_exec (show exec (Both.step threeRuns) _ _ = some _ from rfl))
    exact absurd (hagreed.postgres.within ("acme", "runs") 3 (by decide)) (by decide)
  · have hkept := h _
      (mem_states_of_exec (show exec (Concurrent.step threeRuns) _ _ = some _ from rfl))
    exact absurd (hkept.within ("acme", "runs") 3 (by decide)) (by decide)

end Scenara.Enterprise
