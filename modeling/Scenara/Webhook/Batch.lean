import Scenara.Webhook.Settled

/-!
# One batch of deliveries

A call of `deliver_due` in company: subscriptions are deleted, and other calls run, between any two
of its own calls of the store.
-/

namespace Scenara.Webhook

open Scenara.Core

variable {ids : Fresh String} {s s' : System} {store store' : Store} {w w' : Worker} {i : Nat}
    {act : Act}

/-! ## Outcomes of one call -/

/-- An outcome as it was recorded. -/
structure Outcome where
  copy : WebhookDeliveryRecord
  succeeded : Bool
  /-- The time that `retry_at` counts from. -/
  retryFrom : ℚ

/-- Delivered if the send succeeded; else given up, or to be tried again later. -/
def Outcome.Proper (o : Outcome) : Prop :=
  if o.succeeded then o.copy.status = .delivered
  else o.copy.status = .deadLetter ∨ o.copy.status = .pending ∧ o.retryFrom < o.copy.nextAttemptAt

/-- The send succeeded. -/
def Phase.succeededBool : Phase → Bool
  | .succeeded _ => true
  | _ => false

/-- The outcome that the call `i` records in a step. -/
def outcomeOf (s : System) (i : Nat) : Act → Option Outcome
  | .save j retryFrom now =>
    if j = i then do
      let w ← s.workers[i]?
      let row ← w.rows.head?
      let copy ← copyToSave row retryFrom now w.phase
      if (s.store.deliveries.get? copy.key).isSome then
        some ⟨copy, w.phase.succeededBool, retryFrom⟩
      else none
    else none
  | _ => none

/-- The system, and what one call has recorded. -/
structure Watched where
  system : System
  saved : List Outcome

/-- A step, with the outcome it records. -/
def watch (ids : Fresh String) (i : Nat) (t : Watched) (act : Act) : Option Watched :=
  (step ids t.system act).map fun s' => ⟨s', t.saved ++ (outcomeOf t.system i act).toList⟩

/-- The call returned or raised. -/
def Watched.Ended (t : Watched) (i : Nat) : Prop :=
  ∃ w, t.system.workers[i]? = some w ∧ (w.phase = .raised ∨ w.rows = [])

/-- The call returned, with the right counts; what it recorded is one proper outcome for a row at
most, and one for every row that there still is. -/
structure Done (i : Nat) (rows : List WebhookDeliveryRecord) (t : Watched) : Prop where
  returned : ∃ w, t.system.workers[i]? = some w ∧ w.phase ≠ .raised ∧
    w.delivered + w.failed = rows.length ∧ w.delivered = t.saved.countP (·.succeeded)
  once : (t.saved.map fun o => o.copy.key).Sublist (rows.map fun row => row.key)
  proper : ∀ o ∈ t.saved, o.Proper
  complete : ∀ row ∈ rows, (t.system.store.deliveries.get? row.key).isSome = true →
    ∃ o ∈ t.saved, o.copy.key = row.key

/-- No failure is recorded of a delivery that vanished, and no other error ends the call. -/
def Unharmed (i : Nat) (s : System) : Act → Prop
  | .save j _ _ => j = i → ∀ w ∈ s.workers[i]?, ∀ row ∈ w.rows.head?, ∀ error, w.phase =
    .failed error → (s.store.deliveries.get? row.key).isSome = true
  | .send j .raised => j ≠ i
  | .abandon j => j ≠ i
  | _ => True

/-! ## Deliveries come and go -/

/-- A delivery is new, or was there. -/
structure Grows (ids : Fresh String) (store store' : Store) : Prop where
  drawn : ∀ k, store.Drawn ids k → store'.Drawn ids k
  kept : ∀ k d', store'.deliveries.get? k = some d' →
    (∃ d, store.deliveries.get? k = some d) ∨ ¬store.Drawn ids k ∧ store'.Drawn ids k

theorem Grows.refl (store : Store) : Grows ids store store :=
  ⟨fun _ h => h, fun _ d h => .inl ⟨d, h⟩⟩

theorem Extends.grows (h : Extends ids store store') : Grows ids store store' :=
  ⟨h.drawn, fun k d hd => (h.kept k d hd).imp_left fun hd => ⟨d, hd⟩⟩

theorem grows_claim (now leaseUntil : ℚ) (limit : Nat) (locked : List Key) :
    Grows ids store (store.claimWebhookDeliveries now leaseUntil limit locked) := by
  refine ⟨fun k hk => drawn_claim.2 hk, fun k d hd => .inl ?_⟩
  rcases get?_claim.1 hd with ⟨hin, rfl⟩ | ⟨-, hd⟩
  · obtain ⟨e, he, -, rfl⟩ := mem_claimed hin
    exact ⟨e, he⟩
  · exact ⟨d, hd⟩

theorem grows_save (copy : WebhookDeliveryRecord) : Grows ids s.store (s.save i w copy).store := by
  unfold System.save Store.saveWebhookDelivery
  by_cases hstored : (s.store.deliveries.get? copy.key).isSome = true
  · rw [if_pos hstored]
    refine ⟨fun _ h => h, fun k d hd => .inl ?_⟩
    have hget : (s.store.put copy).deliveries.get? k = some d := hd
    rw [Store.get?_put] at hget
    split at hget
    · next hk =>
      rw [hk]
      exact Option.isSome_iff_exists.1 hstored
    · exact ⟨d, hget⟩
  · rw [if_neg hstored]
    exact .refl _

theorem step_claim {now leaseSeconds : ℚ} {limit : Nat} {locked : List Key}
    (h : step ids s (.claim now leaseSeconds limit locked) = some s') :
    s' = s.claim now leaseSeconds limit locked := by
  have hstep : step ids s (.claim now leaseSeconds limit locked) =
      if 1 ≤ limit ∧ limit ≤ 1000 then some (s.claim now leaseSeconds limit locked) else none := rfl
  rw [hstep] at h
  split at h
  · exact (Option.some.inj h).symm
  · cases h

theorem grows_step (h : step ids s act = some s') : Grows ids s.store s'.store := by
  cases act with
  | emit scope eventType createdAt =>
    cases h
    exact (extends_enqueue scope eventType createdAt).grows
  | subscribe endpoint =>
    cases h
    exact (extends_create endpoint).grows
  | unsubscribe k =>
    cases h
    exact (extends_delete k).grows
  | claim now leaseSeconds limit locked =>
    rw [step_claim h]
    exact grows_claim now (now + leaseSeconds) limit locked
  | read | send =>
    obtain ⟨w, -, h⟩ := Option.bind_eq_some_iff.1 h
    obtain ⟨_, -, h⟩ := Option.bind_eq_some_iff.1 h
    cases h
    exact .refl _
  | save i =>
    obtain ⟨w, -, h⟩ := Option.bind_eq_some_iff.1 h
    obtain ⟨_, -, h⟩ := Option.bind_eq_some_iff.1 h
    obtain ⟨copy, -, h⟩ := Option.bind_eq_some_iff.1 h
    cases h
    exact grows_save copy
  | abandon i =>
    obtain ⟨w, -, h⟩ := Option.bind_eq_some_iff.1 h
    cases h
    exact .refl _

/-- What is stored has a drawn id. -/
def AllDrawn (ids : Fresh String) (s : System) : Prop :=
  ∀ k d, s.store.deliveries.get? k = some d → s.store.Drawn ids k

theorem allDrawn_step (hs : AllDrawn ids s) (h : step ids s act = some s') : AllDrawn ids s' := by
  intro k d hd
  have hgrows := grows_step h
  rcases hgrows.kept k d hd with ⟨e, he⟩ | ⟨-, hdrawn⟩
  · exact hgrows.drawn k (hs k e he)
  · exact hdrawn

variable {acts : List Act}

theorem allDrawn_exec (h : exec (step ids) .empty acts = some s) :
    AllDrawn ids s := by
  refine invariant_exec (P := fun _ _ => True) (fun s a s' hs _ hstep => allDrawn_step hs hstep) ?_
    (along_of_forall (fun _ _ => trivial) _ _) h
  intro k d hd
  cases hd

theorem gone_step {k : Key} (hdrawn : s.store.Drawn ids k)
    (hgone : s.store.deliveries.get? k = none)
    (h : step ids s act = some s') : s'.store.deliveries.get? k = none := by
  cases hget : s'.store.deliveries.get? k with
  | none => rfl
  | some d =>
    rcases (grows_step h).kept k d hget with ⟨e, he⟩ | ⟨hnew, -⟩
    · simp [hgone] at he
    · exact absurd hdrawn hnew

/-! ## The turns of a call -/

/-- What a step is to the call `i`. -/
inductive Turn (s : System) (i : Nat) (w : Worker) : Act → Worker → Prop where
  | other (act : Act) : outcomeOf s i act = none → Unharmed i s act → Turn s i w act w
  | read (w' : Worker) : w.read s.store = some w' → Turn s i w (.read i) w'
  | send (sent : Sent) (w' : Worker) : w.send sent = some w' → Turn s i w (.send i sent) w'
  | save (retryFrom now : ℚ) (row copy : WebhookDeliveryRecord) : w.rows.head? = some row →
    copyToSave row retryFrom now w.phase = some copy →
    Turn s i w (.save i retryFrom now) (w.afterSave (s.store.deliveries.get? copy.key).isSome)
  | abandon : Turn s i w (.abandon i) { w with phase := .raised }

theorem workers_save (copy : WebhookDeliveryRecord) : (s.save i w copy).workers =
    s.workers.set i (w.afterSave (s.store.deliveries.get? copy.key).isSome) := by
  unfold System.save Store.saveWebhookDelivery
  by_cases hstored : (s.store.deliveries.get? copy.key).isSome = true
  · rw [if_pos hstored, hstored]
  · rw [if_neg hstored, Bool.eq_false_iff.2 hstored]

theorem turn_step (hw : s.workers[i]? = some w) (h : step ids s act = some s') :
    ∃ w', s'.workers[i]? = some w' ∧ Turn s i w act w' := by
  have hlt : i < s.workers.length := (List.getElem?_eq_some_iff.1 hw).1
  have hself : ∀ w' : Worker, (s.workers.set i w')[i]? = some w' := fun w' =>
    List.getElem?_set_self hlt
  have hother : ∀ {j : Nat} {w' : Worker}, j ≠ i → (s.workers.set j w')[i]? = some w := fun hne =>
    (List.getElem?_set_ne hne).trans hw
  cases act with
  | emit | subscribe | unsubscribe =>
    cases h
    exact ⟨w, hw, .other _ rfl trivial⟩
  | claim =>
    rw [step_claim h]
    exact ⟨w, (List.getElem?_append_left hlt).trans hw, .other _ rfl trivial⟩
  | read j =>
    obtain ⟨v, hv, h⟩ := Option.bind_eq_some_iff.1 h
    obtain ⟨v', hread, h⟩ := Option.bind_eq_some_iff.1 h
    cases h
    by_cases hj : j = i
    · subst hj
      cases hw.symm.trans hv
      exact ⟨v', hself v', .read v' hread⟩
    · exact ⟨w, hother hj, .other _ rfl trivial⟩
  | send j sent =>
    obtain ⟨v, hv, h⟩ := Option.bind_eq_some_iff.1 h
    obtain ⟨v', hsend, h⟩ := Option.bind_eq_some_iff.1 h
    cases h
    by_cases hj : j = i
    · subst hj
      cases hw.symm.trans hv
      exact ⟨v', hself v', .send sent v' hsend⟩
    · refine ⟨w, hother hj, .other _ rfl ?_⟩
      cases sent with
      | receipt | error => trivial
      | raised => exact hj
  | save j retryFrom now =>
    obtain ⟨v, hv, h⟩ := Option.bind_eq_some_iff.1 h
    obtain ⟨row, hrow, h⟩ := Option.bind_eq_some_iff.1 h
    obtain ⟨copy, hcopy, h⟩ := Option.bind_eq_some_iff.1 h
    cases h
    rw [workers_save]
    by_cases hj : j = i
    · subst hj
      cases hw.symm.trans hv
      exact ⟨_, hself _, .save retryFrom now row copy hrow hcopy⟩
    · exact ⟨w, hother hj, .other _ (if_neg hj) fun heq => absurd heq hj⟩
  | abandon j =>
    obtain ⟨v, hv, h⟩ := Option.bind_eq_some_iff.1 h
    cases h
    by_cases hj : j = i
    · subst hj
      cases hw.symm.trans hv
      exact ⟨_, hself _, .abandon⟩
    · exact ⟨w, hother hj, .other _ rfl hj⟩

/-! ## The account of a call -/

/-- What is true after every step: the rows done with are counted and have an outcome or are
gone. -/
structure Book (ids : Fresh String) (i : Nat) (rows : List WebhookDeliveryRecord) (t : Watched)
    (w : Worker) (past : List WebhookDeliveryRecord) : Prop where
  worker : t.system.workers[i]? = some w
  split : rows = past ++ w.rows
  drawn : ∀ row ∈ rows, t.system.store.Drawn ids row.key
  counts : w.delivered + w.failed = past.length
  delivered : w.delivered = t.saved.countP (·.succeeded)
  once : (t.saved.map fun o => o.copy.key).Sublist (past.map fun row => row.key)
  proper : ∀ o ∈ t.saved, o.Proper
  complete : ∀ row ∈ past, (t.system.store.deliveries.get? row.key).isSome = true →
    ∃ o ∈ t.saved, o.copy.key = row.key

theorem proper_copyToSave {row copy : WebhookDeliveryRecord} {retryFrom now : ℚ} {phase : Phase}
    (h : copyToSave row retryFrom now phase = some copy) :
    Outcome.Proper ⟨copy, phase.succeededBool, retryFrom⟩ := by
  cases phase with
  | reading | sending | raised => cases h
  | unavailable =>
    cases h
    exact .inl rfl
  | succeeded =>
    cases h
    rfl
  | failed =>
    cases h
    split
    · exact .inl rfl
    · have hpos : (0 : ℚ) < min 3600 (2 ^ (row.attempts + 1)) :=
        lt_min (by decide) (pow_pos (by decide) _)
      exact .inr ⟨rfl, lt_add_of_pos_right retryFrom hpos⟩

variable {t t' : Watched} {rows past : List WebhookDeliveryRecord}

theorem Book.stay (hb : Book ids i rows t w past) (hstep : step ids t.system act = some s')
    (hw' : s'.workers[i]? = some w') (hrows : w'.rows = w.rows)
    (hdelivered : w'.delivered = w.delivered)
    (hfailed : w'.failed = w.failed) : Book ids i rows ⟨s', t.saved⟩ w' past where
  worker := hw'
  split := hrows ▸ hb.split
  drawn row hrow := (grows_step hstep).drawn _ (hb.drawn row hrow)
  counts := by rw [hdelivered, hfailed, hb.counts]
  delivered := hdelivered.trans hb.delivered
  once := hb.once
  proper := hb.proper
  complete row hrow hstored := by
    refine hb.complete row hrow ?_
    cases hget : t.system.store.deliveries.get? row.key with
    | some d => rfl
    | none =>
      have hin : row ∈ rows := hb.split ▸ List.mem_append_left _ hrow
      simp [gone_step (hb.drawn row hin) hget hstep] at hstored

theorem Book.next {row : WebhookDeliveryRecord} (outcome : Option Outcome)
    (hb : Book ids i rows t w past)
    (hstep : step ids t.system act = some s') (hw' : s'.workers[i]? = some w')
    (hrows : w.rows = row :: w'.rows) (hkey : ∀ o ∈ outcome, o.copy.key = row.key ∧ o.Proper)
    (hgone : outcome = none → t.system.store.deliveries.get? row.key = none)
    (hcount : w'.delivered + w'.failed = w.delivered + w.failed + 1)
    (hdelivered : w'.delivered = w.delivered + outcome.toList.countP (·.succeeded)) :
    Book ids i rows ⟨s', t.saved ++ outcome.toList⟩ w' (past ++ [row]) where
  worker := hw'
  split := by rw [hb.split, hrows, List.append_assoc, List.singleton_append]
  drawn row hrow := (grows_step hstep).drawn _ (hb.drawn row hrow)
  counts := by rw [hcount, hb.counts, List.length_append, List.length_singleton]
  delivered := by rw [List.countP_append, hdelivered, hb.delivered]
  once := by
    rw [List.map_append, List.map_append]
    refine hb.once.append ?_
    cases outcome with
    | none => exact List.nil_sublist _
    | some o =>
      have hsame := (hkey o rfl).1
      simp [hsame]
  proper o ho := by
    rcases List.mem_append.1 ho with ho | ho
    · exact hb.proper o ho
    · exact (hkey o (Option.mem_toList.1 ho)).2
  complete r hr hstored := by
    have hin : r ∈ rows := by
      rw [hb.split, hrows]
      rcases List.mem_append.1 hr with hr | hr
      · exact List.mem_append_left _ hr
      · exact List.mem_append_right _ (List.mem_singleton.1 hr ▸ List.mem_cons_self)
    have hbefore : (t.system.store.deliveries.get? r.key).isSome = true := by
      cases hget : t.system.store.deliveries.get? r.key with
      | some d => rfl
      | none =>
        simp [gone_step (hb.drawn r hin) hget hstep] at hstored
    rcases Parties.mem_snoc.1 hr with hr | rfl
    · obtain ⟨o, ho, hok⟩ := hb.complete r hr hbefore
      exact ⟨o, List.mem_append_left _ ho, hok⟩
    · cases houtcome : outcome with
      | none =>
        simp [hgone houtcome] at hbefore
      | some o => exact ⟨o, List.mem_append_right _ (by simp), (hkey o houtcome).1⟩

theorem read_counts (h : w.read store = some w') :
    w'.delivered = w.delivered ∧ w'.failed = w.failed := by
  unfold Worker.read at h
  split at h
  · cases h
    exact ⟨rfl, rfl⟩
  · cases h

theorem send_counts {sent : Sent} (h : w.send sent = some w') :
    w'.delivered = w.delivered ∧ w'.failed = w.failed := by
  unfold Worker.send at h
  split at h <;> cases h <;> exact ⟨rfl, rfl⟩

theorem afterSave_counts {row copy : WebhookDeliveryRecord} {retryFrom now : ℚ}
    (h : copyToSave row retryFrom now w.phase = some copy) :
    (w.afterSave true).delivered = w.delivered + (if w.phase.succeededBool then 1 else 0) ∧
      (w.afterSave true).failed = w.failed + (if w.phase.succeededBool then 0 else 1) := by
  unfold Worker.afterSave
  cases hphase : w.phase with
  | unavailable | succeeded | failed => exact ⟨rfl, rfl⟩
  | reading | sending | raised =>
    rw [hphase] at h
    cases h

theorem book_step (hb : Book ids i rows t w past) (h : watch ids i t act = some t') :
    ∃ w' past', Turn t.system i w act w' ∧ Book ids i rows t' w' past' := by
  obtain ⟨_, hstep, rfl⟩ := Option.map_eq_some_iff.1 h
  obtain ⟨w', hw', hturn⟩ := turn_step hb.worker hstep
  refine ⟨w', ?_⟩
  cases hturn with
  | other act hnone hunharmed =>
    rw [hnone]
    exact ⟨past, .other act hnone hunharmed, by simpa using hb.stay hstep hw' rfl rfl rfl⟩
  | read w' hread =>
    obtain ⟨hdelivered, hfailed⟩ := read_counts hread
    exact ⟨past, .read w' hread, by
      simpa [outcomeOf] using hb.stay hstep hw' (read_spec hread).2 hdelivered hfailed⟩
  | send sent w' hsend =>
    obtain ⟨hdelivered, hfailed⟩ := send_counts hsend
    exact ⟨past, .send sent w' hsend, by
      simpa [outcomeOf] using hb.stay hstep hw' (send_spec hsend).2 hdelivered hfailed⟩
  | abandon => exact ⟨past, .abandon, by simpa [outcomeOf] using hb.stay hstep hw' rfl rfl rfl⟩
  | save retryFrom now row copy hrow hcopy =>
    obtain ⟨rest, hrows⟩ : ∃ rest, w.rows = row :: rest := List.head?_eq_some_iff.1 hrow
    obtain ⟨hkey, -⟩ := copyToSave_spec hcopy
    have houtcome : outcomeOf t.system i (.save i retryFrom now) =
        if (t.system.store.deliveries.get? copy.key).isSome then
          some ⟨copy, w.phase.succeededBool, retryFrom⟩ else none := by
      simp [outcomeOf, hb.worker, hrow, hcopy]
    have hturn : Turn t.system i w (.save i retryFrom now) _ :=
      .save retryFrom now row copy hrow hcopy
    have hproper := proper_copyToSave hcopy
    rw [houtcome]
    cases hstored : t.system.store.deliveries.get? copy.key with
    | some d =>
      rw [hstored] at hw' hturn
      refine ⟨past ++ [row], hturn, ?_⟩
      obtain ⟨hdelivered, hfailed⟩ := afterSave_counts hcopy
      refine hb.next (some ⟨copy, w.phase.succeededBool, retryFrom⟩) hstep hw' ?_ ?_ ?_ ?_ ?_
      · rw [Option.isSome_some, afterSave_stored hcopy, hrows, List.tail_cons]
      · rintro o ⟨⟩
        exact ⟨hkey, hproper⟩
      · intro hnone
        cases hnone
      · rw [Option.isSome_some, hdelivered, hfailed]
        cases w.phase.succeededBool <;> simp <;> omega
      · rw [Option.isSome_some, hdelivered]
        cases w.phase.succeededBool <;> rfl
    | none =>
      rw [hstored] at hw' hturn
      have hgone : t.system.store.deliveries.get? row.key = none := hkey ▸ hstored
      cases hphase : w.phase with
      | reading | sending | raised =>
        rw [hphase] at hcopy
        cases hcopy
      | unavailable =>
        have hafter : w.afterSave false = { w.next with failed := w.failed + 1 } := by
          unfold Worker.afterSave
          rw [hphase]
        refine ⟨past ++ [row], hturn, hb.next none hstep hw' ?_ ?_ (fun _ => hgone) ?_ ?_⟩
        · rw [Option.isSome_none, hafter]
          exact hrows.trans (by rw [Worker.next, hrows, List.tail_cons])
        · rintro o ⟨⟩
        all_goals
          rw [Option.isSome_none, hafter]
          rfl
      | succeeded =>
        have hafter : w.afterSave false = { w with phase := .failed conflictMessage } := by
          unfold Worker.afterSave
          rw [hphase]
        rw [Option.isSome_none, hafter] at hw'
        refine ⟨past, hturn, ?_⟩
        rw [Option.isSome_none, hafter]
        simpa using hb.stay hstep hw' rfl rfl rfl
      | failed =>
        have hafter : w.afterSave false = { w with phase := .raised } := by
          unfold Worker.afterSave
          rw [hphase]
        rw [Option.isSome_none, hafter] at hw'
        refine ⟨past, hturn, ?_⟩
        rw [Option.isSome_none, hafter]
        simpa using hb.stay hstep hw' rfl rfl rfl

theorem raised_iff (hturn : Turn s i w act w') (hw : s.workers[i]? = some w) :
    w'.phase ≠ .raised ↔ w.phase ≠ .raised ∧ Unharmed i s act := by
  cases hturn with
  | other _ _ hunharmed => exact (and_iff_left hunharmed).symm
  | read _ hread =>
    unfold Worker.read at hread
    split at hread
    · next hphase _ =>
      cases hread
      refine iff_of_true ?_ ⟨by rw [hphase]; decide, trivial⟩
      show (if _ then Phase.sending else Phase.unavailable) ≠ .raised
      split <;> decide
    · cases hread
  | send _ _ hsend =>
    unfold Worker.send at hsend
    split at hsend
    · next hphase =>
      cases hsend
      exact iff_of_true (by intro h; cases h) ⟨by rw [hphase]; decide, trivial⟩
    · next hphase =>
      cases hsend
      exact iff_of_true (by intro h; cases h) ⟨by rw [hphase]; decide, trivial⟩
    · cases hsend
      exact iff_of_false (fun h => h rfl) fun h => h.2 rfl
    · cases hsend
  | abandon => exact iff_of_false (fun h => h rfl) fun h => h.2 rfl
  | save retryFrom now row copy hrow hcopy =>
    obtain ⟨hkey, -⟩ := copyToSave_spec hcopy
    have hunharmed : Unharmed i s (.save i retryFrom now) ↔ ∀ error, w.phase = .failed error →
        (s.store.deliveries.get? copy.key).isSome = true := by
      rw [hkey]
      constructor
      · exact fun h => h rfl w hw row hrow
      · intro h _ v hv r hr
        cases hw.symm.trans hv
        cases hrow.symm.trans hr
        exact h
    rw [hunharmed]
    unfold Worker.afterSave
    cases hphase : w.phase with
    | reading | sending | raised =>
      rw [hphase] at hcopy
      cases hcopy
    | unavailable => exact iff_of_true (by intro h; cases h) ⟨by decide, by intro error h; cases h⟩
    | succeeded =>
      refine iff_of_true ?_ ⟨(by intro h; cases h), by intro error h; cases h⟩
      cases (s.store.deliveries.get? copy.key).isSome <;> (intro h; cases h)
    | failed message =>
      cases (s.store.deliveries.get? copy.key).isSome with
      | true => exact iff_of_true (by intro h; cases h) ⟨(by intro h; cases h), fun _ _ => rfl⟩
      | false =>
        refine iff_of_false (fun h => h rfl) fun h => ?_
        exact absurd (h.2 message rfl) (by decide)

/-! ## The batch -/

theorem book_claim (hs : AllDrawn ids s) (now leaseSeconds : ℚ) (limit : Nat) (locked : List Key) :
    Book ids s.workers.length (s.store.claimed now (now + leaseSeconds) limit locked)
      ⟨s.claim now leaseSeconds limit locked, []⟩
      ⟨s.claims + 1, s.store.claimed now (now + leaseSeconds) limit locked, .reading, 0, 0⟩ [] where
  worker := List.getElem?_concat_length
  split := rfl
  drawn row hrow := by
    obtain ⟨d, hd, -, rfl⟩ := mem_claimed hrow
    exact drawn_claim.2 (hs _ d hd)
  counts := rfl
  delivered := rfl
  once := List.nil_sublist _
  proper o ho := by cases ho
  complete row hrow := by cases hrow

theorem book_exec (hb : Book ids i rows t w past)
    (hrun : exec (watch ids i) t acts = some t') : ∃ w' past', Book ids i rows t' w' past' := by
  refine invariant_exec (P := fun _ _ => True) (I := fun t => ∃ w past, Book ids i rows t w past) ?_
    ⟨w, past, hb⟩ (along_of_forall (fun _ _ => trivial) _ _) hrun
  rintro t _ _ ⟨w, _, hb⟩ - h
  obtain ⟨w', past', -, hb'⟩ := book_step hb h
  exact ⟨w', past', hb'⟩

theorem returned_iff (hb : Book ids i rows t w past) (hphase : w.phase ≠ .raised)
    (hrun : exec (watch ids i) t acts = some t') :
    (∃ w', t'.system.workers[i]? = some w' ∧ w'.phase ≠ .raised) ↔
      Along (watch ids i) (fun t act => Unharmed i t.system act) t acts := by
  have hiff := exec_iff (I := fun t => ∃ w, t.system.workers[i]? = some w ∧ w.phase ≠ .raised)
    (J := fun t => ∃ w past, Book ids i rows t w past) (P := fun t act => Unharmed i t.system act)
    (fun t act t' ⟨w, past, hb⟩ h => by
      obtain ⟨w', past', -, hb'⟩ := book_step hb h
      exact ⟨w', past', hb'⟩)
    (fun t act t' ⟨w, past, hb⟩ h => by
      obtain ⟨_, _, hturn, hb'⟩ := book_step hb h
      simpa [hb.worker, hb'.worker] using raised_iff hturn hb.worker)
    ⟨w, past, hb⟩ hrun
  exact hiff.trans (and_iff_right ⟨w, hb.worker, hphase⟩)

/-- **One batch of deliveries**, in any company: when the call ends, the batch is done exactly when
no failure was recorded of a delivery that had vanished and no other error ended the call. -/
theorem done_iff (ids : Fresh String) {before acts : List Act} {s claimed : System} {t : Watched}
    {now leaseSeconds : ℚ} {limit : Nat} {locked : List Key}
    (hs : exec (step ids) .empty before = some s)
    (hclaim : step ids s (.claim now leaseSeconds limit locked) = some claimed)
    (hrun : exec (watch ids s.workers.length) ⟨claimed, []⟩ acts = some t)
    (hend : t.Ended s.workers.length) :
    Done s.workers.length (s.store.claimed now (now + leaseSeconds) limit locked) t ↔
      Along (watch ids s.workers.length) (fun t act => Unharmed s.workers.length t.system act)
        ⟨claimed, []⟩ acts := by
  rw [step_claim hclaim] at hrun ⊢
  have hbook := book_claim (allDrawn_exec hs) now leaseSeconds limit locked
  rw [← returned_iff hbook (by intro h; cases h) hrun]
  obtain ⟨w, past, hend'⟩ := book_exec hbook hrun
  constructor
  · intro hdone
    obtain ⟨v, hv, hraised, -⟩ := hdone.returned
    exact ⟨v, hv, hraised⟩
  · rintro ⟨v, hv, hraised⟩
    cases hend'.worker.symm.trans hv
    obtain ⟨u, hu, hended⟩ := hend
    cases hend'.worker.symm.trans hu
    -- No row is left: what is done with is all that was claimed.
    have hpast : past = s.store.claimed now (now + leaseSeconds) limit locked := by
      rw [hend'.split, hended.resolve_left hraised, List.append_nil]
    subst hpast
    exact ⟨⟨w, hv, hraised, hend'.counts, hend'.delivered⟩, hend'.once, hend'.proper,
      hend'.complete⟩

/-! ## A subscription deleted during a send -/

/-- A delivery is claimed and its subscription read. -/
def sendingActs : List Act :=
  [.subscribe ⟨⟨⟨"t", "p"⟩, "e"⟩, ["run.completed"], true⟩, .emit ⟨"t", "p"⟩ "run.completed" 0]

/-- It is sent; then the subscription is deleted; then the outcome is to be saved. -/
def vanishing : List Act :=
  [.read 0, .send 0 (.receipt 200), .unsubscribe ⟨⟨"t", "p"⟩, "e"⟩, .save 0 1 1, .save 0 1 1]

/-- It is sent, and its outcome saved. -/
def lasting : List Act := [.read 0, .send 0 (.receipt 200), .save 0 1 1]

/-- How a call that claims the delivery ends: its phase and how many rows are left. -/
def ending (acts : List Act) : Option (Phase × Nat) := do
  let s ← exec (step .counted) .empty sendingActs
  let claimed ← step .counted s (.claim 0 60 100 [])
  let t ← exec (watch .counted s.workers.length) ⟨claimed, []⟩ acts
  let w ← t.system.workers[s.workers.length]?
  return (w.phase, w.rows.length)

theorem ending_spec {phase : Phase} {n : Nat}
    (h : ending acts = some (phase, n)) :
    ∃ s claimed t w, exec (step .counted) .empty sendingActs = some s ∧
      step .counted s (.claim 0 60 100 []) = some claimed ∧
      exec (watch .counted s.workers.length) ⟨claimed, []⟩ acts = some t ∧
      t.system.workers[s.workers.length]? = some w ∧ w.phase = phase ∧ w.rows.length = n := by
  simp only [ending, Option.bind_eq_bind, Option.bind_eq_some_iff] at h
  obtain ⟨s, hs, claimed, hclaim, t, hrun, w, hw, h⟩ := h
  cases h
  exact ⟨s, claimed, t, w, hs, hclaim, hrun, hw, rfl, rfl⟩

theorem done_iff_lasting : ∃ s claimed t, exec (step .counted) .empty sendingActs = some s ∧
    step .counted s (.claim 0 60 100 []) = some claimed ∧
    exec (watch .counted s.workers.length) ⟨claimed, []⟩ lasting = some t ∧
    (Done s.workers.length (s.store.claimed 0 (0 + 60) 100 []) t ↔
      Along (watch .counted s.workers.length) (fun t act => Unharmed s.workers.length t.system act)
        ⟨claimed, []⟩ lasting) := by
  have hending : ending lasting = some (.reading, 0) := by decide +kernel
  obtain ⟨s, claimed, t, w, hs, hclaim, hrun, hw, -, hrows⟩ := ending_spec hending
  exact ⟨s, claimed, t, hs, hclaim, hrun, done_iff .counted hs hclaim hrun
    ⟨w, hw, .inr (List.length_eq_zero_iff.1 hrows)⟩⟩

/-- **The conflict of the second save escapes.** -/
theorem not_done : ¬∀ (ids : Fresh String) (before acts : List Act) (s claimed : System)
    (t : Watched) (now leaseSeconds : ℚ) (limit : Nat) (locked : List Key),
    exec (step ids) .empty before = some s →
    step ids s (.claim now leaseSeconds limit locked) = some claimed →
    exec (watch ids s.workers.length) ⟨claimed, []⟩ acts = some t → t.Ended s.workers.length →
    Done s.workers.length (s.store.claimed now (now + leaseSeconds) limit locked) t := by
  intro h
  have hending : ending vanishing = some (.raised, 1) := by decide +kernel
  obtain ⟨s, claimed, t, w, hs, hclaim, hrun, hw, hraised, -⟩ := ending_spec hending
  have hdone := h .counted sendingActs vanishing s claimed t 0 60 100 [] hs hclaim hrun
    ⟨w, hw, .inl hraised⟩
  obtain ⟨v, hv, hphase, -⟩ := hdone.returned
  cases hw.symm.trans hv
  exact hphase hraised

end Scenara.Webhook
