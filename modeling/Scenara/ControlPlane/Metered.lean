import Mathlib.Algebra.Order.BigOperators.Group.List
import Scenara.ControlPlane.Billing
import Scenara.Core.Strings
import Scenara.Core.Transition

/-!
# Usage and metered events

A call stores its event, and the usage unless that write fails, once.
-/

namespace Scenara.ControlPlane.Billing

open Scenara.Core
open Release (Scope)

variable {s s' : Store} {scope : Scope} {meter meter' : Meter} {account : BillingAccount}
  {body : RecordMeterEventRequest} {event : MeterEvent} {usage : BillingUsage} {now : ℚ}
  {fault : Option Write}

/-! ## What is promised -/

/-- The event counts in the period. -/
def MeterEvent.CountsIn (event : MeterEvent) (meter : Meter) (started ends : ℚ) : Prop :=
  event.meter = meter ∧ started ≤ event.createdAt ∧ event.createdAt < ends
  deriving Decidable

/-- The sum of the amounts of the stored events of a meter in a period. -/
def Store.metered (s : Store) (meter : Meter) (started ends : ℚ) : Nat :=
  (s.events.values.map fun event =>
    if event.CountsIn meter started ends then event.amount.units else 0).sum

/-- The stored usage of a meter. -/
def Store.usage? (s : Store) (meter : Meter) : Option BillingUsage := s.usages.get? meter.usageKey

/-- Whatever was metered has a usage, and its amount is right. -/
def Billed (s : Store) : Prop :=
  ∀ meter, (∃ event ∈ s.events.values, event.meter = meter) →
    ∃ usage, s.usage? meter = some usage ∧
      usage.amount = s.metered meter usage.periodStartedAt usage.periodEndsAt

/-- The period stays, or a later one follows. -/
def Follows (s s' : Store) : Prop :=
  ∀ k usage, s.usages.get? k = some usage → ∃ usage', s'.usages.get? k = some usage' ∧
    ((usage'.periodStartedAt = usage.periodStartedAt ∧ usage'.periodEndsAt = usage.periodEndsAt) ∨
      usage.periodEndsAt ≤ usage'.periodStartedAt)

theorem Follows.refl (s : Store) : Follows s s := fun _ usage h => ⟨usage, h, .inl ⟨rfl, rfl⟩⟩

theorem Follows.trans {s s' s'' : Store} (h : Follows s s') (h' : Follows s' s'') :
    Follows s s'' := by
  intro k usage hk
  obtain ⟨usage', hk', hperiod⟩ := h k usage hk
  obtain ⟨usage'', hk'', hperiod'⟩ := h' k usage' hk'
  refine ⟨usage'', hk'', ?_⟩
  have hlt := usage'.period
  rcases hperiod with ⟨hs, he⟩ | hlater <;> rcases hperiod' with ⟨hs', he'⟩ | hlater'
  · exact .inl ⟨hs'.trans hs, he'.trans he⟩
  · exact .inr (he ▸ hlater')
  · exact .inr (hs' ▸ hlater)
  · exact .inr (hlater.trans (hlt.le.trans hlater'))

/-! ## Attempts -/

/-- The request stores a new event of an active account. -/
structure Store.Accepts (s : Store) (scope : Scope) (body : RecordMeterEventRequest)
    (account : BillingAccount) : Prop where
  found : s.accounts.get? ⟨scope, body.accountId⟩ = some account
  active : account.status = "active"
  fresh : s.events.get? ⟨scope, body.idempotencyKey⟩ = none

/-- The event is stored, and the usage too if `saved`. -/
def Store.bill (s : Store) (account : BillingAccount) (scope : Scope)
    (body : RecordMeterEventRequest) (now : ℚ) (saved : Bool) : Store :=
  let s' := { s with events := s.events.put (body.event scope now) }
  if saved then
    { s' with
      usages := s.usages.put
        (account.usage (s.usage? (body.meter scope)) body.metric body.amount now) }
  else s'

theorem Store.Accepts.key (h : s.Accepts scope body account) :
    account.key = ⟨scope, body.accountId⟩ := Table.key_of_get? h.found

theorem Store.Accepts.owner (h : s.Accepts scope body account) :
    s.accounts.get? (body.meter scope).account = some account := h.found

theorem recordMeterEvent_of_not_accepts (h : ∀ account, ¬s.Accepts scope body account) :
    (recordMeterEvent s scope body now fault).1 = s := by
  unfold recordMeterEvent
  cases haccount : s.accounts.get? ⟨scope, body.accountId⟩ with
  | none => rfl
  | some account =>
    by_cases hactive : account.status = "active"
    · cases hevent : s.events.get? ⟨scope, body.idempotencyKey⟩ with
      | none => exact absurd ⟨haccount, hactive, hevent⟩ (h account)
      | some =>
        simp only [hactive, ne_eq, not_true_eq_false, if_false]
        split <;> rfl
    · simp only [ne_eq, hactive, not_false_eq_true, if_true]

theorem recordMeterEvent_of_accepts (h : s.Accepts scope body account) :
    (recordMeterEvent s scope body now fault).1 =
      if fault = some .event then s
      else s.bill account scope body now (fault ≠ some .usage) := by
  have hkey := h.key
  unfold recordMeterEvent Store.bill
  simp only [h.found, h.active, h.fresh, ne_eq, not_true_eq_false, if_false]
  rcases fault with _ | _ | _ | _ <;>
    simp [Store.usage?, Meter.usageKey, RecordMeterEventRequest.meter, hkey]

theorem not_accepts_bill {saved : Bool} (account' : BillingAccount) :
    ¬(s.bill account scope body now saved).Accepts scope body account' := by
  intro h
  have hfresh := h.fresh
  cases saved <;> exact absurd ((Table.get?_put_self _ _).symm.trans hfresh) (by simp)

theorem recordAttempts_of_not_accepts (h : ∀ account, ¬s.Accepts scope body account) :
    ∀ attempts, recordAttempts scope body s attempts = s
  | [] => rfl
  | attempt :: rest => by
    rw [recordAttempts, recordMeterEvent_of_not_accepts h]
    exact recordAttempts_of_not_accepts h rest

theorem recordAttempts_eq (h : s.Accepts scope body account) (failed : List Attempt) (now : ℚ) :
    let call : MeterCall := ⟨body, failed, now⟩
    recordAttempts scope body s call.attempts =
      s.bill account scope body call.storing.now (call.storing.fault ≠ some .usage) := by
  induction failed with
  | nil =>
    show recordAttempts scope body s [⟨now, none⟩] = _
    rw [recordAttempts, recordAttempts, recordMeterEvent_of_accepts h, if_neg (by simp)]
    rfl
  | cons attempt failed ih =>
    show recordAttempts scope body s (attempt :: (failed ++ [⟨now, none⟩])) = _
    rw [recordAttempts, recordMeterEvent_of_accepts h]
    by_cases hevent : attempt.fault = some .event
    · rw [if_pos hevent]
      refine ih.trans ?_
      simp [MeterCall.storing, hevent]
    · rw [if_neg hevent, recordAttempts_of_not_accepts not_accepts_bill]
      simp [MeterCall.storing, hevent]

theorem meter_of_usageKey (h : ':' ∉ meter.accountId.toList) (h' : ':' ∉ meter'.accountId.toList)
    (hkey : meter.usageKey = meter'.usageKey) : meter = meter' := by
  obtain ⟨_, _⟩ := meter'
  simp only [Meter.usageKey, Key.mk.injEq] at hkey
  obtain ⟨rfl, hid⟩ := hkey
  obtain ⟨rfl, rfl⟩ := append_sep_inj (show ":".toList = [':'] from rfl) h h' hid
  rfl

theorem Hex.colon_notMem (id : Hex) : ':' ∉ ("billing_" ++ id.digits).toList := by
  rw [String.toList_append, List.mem_append, not_or]
  refine ⟨by decide, fun h => ?_⟩
  rcases id.isHex ':' h with h | h <;> exact absurd h (by decide)

/-! ## The invariant -/

/-- Where the period of a usage comes from: the account, or an event after the account's period. -/
structure Placed (s : System) (account : BillingAccount) (meter : Meter) (usage : BillingUsage) :
    Prop where
  begun : usage.periodStartedAt ≤ s.clock
  period : ∃ event ∈ s.store.events.values, event.meter = meter ∧
    ((usage.periodStartedAt = account.periodStartedAt ∧
        usage.periodEndsAt = account.periodEndsAt) ∨
      (account.periodEndsAt ≤ usage.periodStartedAt ∧
        usage.periodEndsAt = usage.periodStartedAt + defaultBillingPeriodSeconds ∧
        event.createdAt = usage.periodStartedAt))

/-- What every call keeps, timely or not. -/
structure Inv (s : System) : Prop where
  ids : ∀ k account, s.store.accounts.get? k = some account → ':' ∉ k.id.toList
  begun : ∀ k account, s.store.accounts.get? k = some account → account.periodStartedAt ≤ s.clock
  past : ∀ event ∈ s.store.events.values, event.createdAt ≤ s.clock
  owned : ∀ event ∈ s.store.events.values, ∃ account,
    s.store.accounts.get? event.meter.account = some account
  usages : ∀ k usage, s.store.usages.get? k = some usage → ∃ meter account,
    k = meter.usageKey ∧ s.store.accounts.get? meter.account = some account ∧
      Placed s account meter usage

theorem inv_start (clock : ℚ) : Inv (.start clock) := by
  refine ⟨fun _ _ h => ?_, fun _ _ h => ?_, fun _ h => ?_, fun _ h => ?_, fun _ _ h => ?_⟩ <;>
    cases h

section Kept

variable {y : System}

theorem Inv.placed (hy : Inv y) (haccount : y.store.accounts.get? meter.account = some account)
    (h : y.store.usage? meter = some usage) : Placed y account meter usage := by
  obtain ⟨_, _, hkey, haccount', hplaced⟩ := hy.usages _ _ h
  obtain rfl := meter_of_usageKey (hy.ids _ _ haccount) (hy.ids _ _ haccount') hkey
  rw [haccount] at haccount'
  cases haccount'
  exact hplaced

theorem Inv.usageKey_ne {account' : BillingAccount} (hy : Inv y)
    (haccount : y.store.accounts.get? meter.account = some account)
    (haccount' : y.store.accounts.get? meter'.account = some account') (hne : meter' ≠ meter) :
    meter'.usageKey ≠ meter.usageKey := fun hkey =>
  hne (meter_of_usageKey (hy.ids _ _ haccount') (hy.ids _ _ haccount) hkey)

theorem Inv.amount_eq (hy : Inv y) (hb : Billed y.store)
    (haccount : y.store.accounts.get? meter.account = some account)
    (h : y.store.usage? meter = some usage) :
    usage.amount = y.store.metered meter usage.periodStartedAt usage.periodEndsAt := by
  obtain ⟨event, hevent, hmeter, -⟩ := (hy.placed haccount h).period
  obtain ⟨_, h', hamount⟩ := hb meter ⟨event, hevent, hmeter⟩
  rw [h] at h'
  cases h'
  exact hamount

/-! ## Sums -/

theorem metered_eq_zero {started ends : ℚ} :
    s.metered meter started ends = 0 ↔
      ∀ event ∈ s.events.values, ¬event.CountsIn meter started ends := by
  unfold Store.metered
  rw [List.sum_eq_zero_iff]
  constructor
  · intro h event hevent hcounts
    have hzero := h _ (List.mem_map.2 ⟨event, hevent, if_pos hcounts⟩)
    exact absurd hzero event.amount.pos.ne'
  · rintro h _ hn
    obtain ⟨event, hevent, rfl⟩ := List.mem_map.1 hn
    exact if_neg (h event hevent)

theorem metered_of_no_usage (hb : Billed s) (h : s.usage? meter = none) (started ends : ℚ) :
    s.metered meter started ends = 0 := by
  refine metered_eq_zero.2 fun event hevent hcounts => ?_
  obtain ⟨_, husage, -⟩ := hb meter ⟨event, hevent, hcounts.1⟩
  simp [h] at husage

theorem metered_lt {started later ends ends' : ℚ} (hevent : event ∈ s.events.values)
    (hcounts : event.CountsIn meter started ends) (hlater : event.createdAt < later)
    (hsub : ∀ e ∈ s.events.values, e.CountsIn meter later ends' → e.CountsIn meter started ends) :
    s.metered meter later ends' < s.metered meter started ends := by
  refine List.sum_lt_sum _ _ (fun e he => ?_) ⟨event, hevent, ?_⟩
  · by_cases hin : e.CountsIn meter later ends'
    · rw [if_pos hin, if_pos (hsub e he hin)]
    · rw [if_neg hin]
      exact Nat.zero_le _
  · rw [if_neg fun hin => absurd hin.2.1 (not_le.2 hlater), if_pos hcounts]
    exact event.amount.pos

/-! ## Billing -/

variable {saved : Bool}

theorem values_bill (h : s.Accepts scope body account) :
    (s.bill account scope body now saved).events.values = s.events.values ++
      [body.event scope now] := by
  cases saved <;> exact Table.values_put _ h.fresh

theorem mem_values_bill (h : s.Accepts scope body account) :
    event ∈ (s.bill account scope body now saved).events.values ↔
      event ∈ s.events.values ∨ event = body.event scope now := by
  rw [values_bill h, List.mem_append, List.mem_singleton]

theorem metered_bill (h : s.Accepts scope body account) (started ends : ℚ) :
    (s.bill account scope body now saved).metered meter started ends =
      s.metered meter started ends +
        if (body.event scope now).CountsIn meter started ends then body.amount.units else 0 := by
  unfold Store.metered
  rw [values_bill h, List.map_append, List.sum_append, List.map_singleton, List.sum_singleton]
  rfl

theorem accounts_bill : (s.bill account scope body now saved).accounts = s.accounts := by
  cases saved <;> rfl

theorem usages_bill (h : s.Accepts scope body account) (k : Key) :
    (s.bill account scope body now saved).usages.get? k =
      if saved = true ∧ k = (body.meter scope).usageKey then
        some (account.usage (s.usage? (body.meter scope)) body.metric body.amount now)
      else s.usages.get? k := by
  have hkey : (account.usage (s.usage? (body.meter scope)) body.metric body.amount now).key =
      (body.meter scope).usageKey := by
    simp [BillingAccount.usage, h.key, Meter.usageKey, RecordMeterEventRequest.meter]
  cases saved with
  | false => simp [Store.bill]
  | true =>
    show (s.usages.put _).get? k = _
    rw [Table.get?_put, hkey]
    simp

theorem inv_bill (hy : Inv y) (h : y.store.Accepts scope body account) {clock : ℚ}
    (hnow : y.clock ≤ now) (hclock : now ≤ clock) :
    Inv ⟨y.store.bill account scope body now saved, clock⟩ := by
  have hmono : y.clock ≤ clock := hnow.trans hclock
  have hnew : body.event scope now ∈
      (y.store.bill account scope body now saved).events.values :=
    (mem_values_bill h).2 (.inr rfl)
  have hold : ∀ {event}, event ∈ y.store.events.values →
      event ∈ (y.store.bill account scope body now saved).events.values :=
    fun hevent => (mem_values_bill h).2 (.inl hevent)
  refine ⟨fun k account' h' => ?_, fun k account' h' => ?_, fun event hevent => ?_,
    fun event hevent => ?_, fun k usage hk => ?_⟩
  · rw [accounts_bill] at h'
    exact hy.ids k account' h'
  · rw [accounts_bill] at h'
    exact (hy.begun k account' h').trans hmono
  · rcases (mem_values_bill h).1 hevent with hevent | rfl
    · exact (hy.past event hevent).trans hmono
    · exact hclock
  · rw [accounts_bill]
    rcases (mem_values_bill h).1 hevent with hevent | rfl
    · exact hy.owned event hevent
    · exact ⟨account, h.found⟩
  · simp only [accounts_bill]
    rw [usages_bill h] at hk
    split at hk
    next hsaved =>
      cases hk
      refine ⟨body.meter scope, account, hsaved.2, h.found, ?_, _, hnew, rfl, ?_⟩
      · show ite _ _ _ ≤ clock
        split
        · exact (hy.begun _ _ h.found).trans hmono
        · exact hclock
      · by_cases hin : now < account.periodEndsAt
        · exact .inl ⟨if_pos hin, if_pos hin⟩
        · refine .inr ⟨(not_lt.1 hin).trans_eq (if_neg hin).symm, ?_, (if_neg hin).symm⟩
          exact (if_neg hin).trans (congrArg (· + _) (if_neg hin).symm)
    next =>
      obtain ⟨meter, account', hkey, hfound, hbegun, event, hevent, hperiod⟩ := hy.usages k usage hk
      exact ⟨meter, account', hkey, hfound, hbegun.trans hmono, event, hold hevent, hperiod⟩

theorem billed_bill_iff (hy : Inv y) (hb : Billed y.store)
    (h : y.store.Accepts scope body account) : Billed (y.store.bill account scope body now saved) ↔
      ∃ usage, (y.store.bill account scope body now saved).usage? (body.meter scope) = some usage ∧
        usage.amount = (y.store.bill account scope body now saved).metered (body.meter scope)
          usage.periodStartedAt usage.periodEndsAt := by
  constructor
  · exact fun hb' => hb' (body.meter scope) ⟨_, (mem_values_bill h).2 (.inr rfl), rfl⟩
  · rintro _ meter ⟨event, hevent, rfl⟩
    by_cases hsame : event.meter = body.meter scope
    · rwa [hsame]
    · have hevent : event ∈ y.store.events.values := by
        rcases (mem_values_bill h).1 hevent with hevent | rfl
        · exact hevent
        · exact absurd rfl hsame
      obtain ⟨_, hfound'⟩ := hy.owned event hevent
      have hkey := hy.usageKey_ne h.owner hfound' hsame
      obtain ⟨usage, _, _⟩ := hb _ ⟨event, hevent, rfl⟩
      refine ⟨usage, ?_, ?_⟩
      · rwa [Store.usage?, usages_bill h, if_neg fun hsaved => hkey hsaved.2]
      · rwa [metered_bill h, if_neg fun hin => hsame hin.1.symm, add_zero]

/-! ## Timely calls -/

/-- When it is right to bill at `now`: before the end of the account's period, or with no usage yet,
or in a period that begins right then, or after the last one and before anything else.
Without the usage: when the last period is over. -/
def TimelyAt (s : Store) (account : BillingAccount) (meter : Meter) (now : ℚ) (saved : Bool) :
    Prop :=
  if saved then
    now < account.periodEndsAt ∨ ∀ usage ∈ s.usage? meter, usage.periodStartedAt = now ∨
      (usage.periodEndsAt ≤ now ∧
        ∀ event ∈ s.events.values, event.meter = meter → event.createdAt ≠ now)
  else ∃ usage ∈ s.usage? meter, usage.periodEndsAt ≤ now

theorem billed_unsaved_iff (hy : Inv y) (hb : Billed y.store)
    (h : y.store.Accepts scope body account) (hnow : y.clock ≤ now) :
    Billed (y.store.bill account scope body now false) ↔
      TimelyAt y.store account (body.meter scope) now false := by
  rw [billed_bill_iff hy hb h]
  refine exists_congr fun usage => and_congr_right fun husage => ?_
  have hamount := hy.amount_eq hb h.owner husage
  have hbegun := (hy.placed h.owner husage).begun
  rw [metered_bill h, hamount]
  constructor
  · intro heq
    by_contra hends
    rw [if_pos ⟨rfl, hbegun.trans hnow, not_le.1 hends⟩] at heq
    exact absurd heq (Nat.lt_add_of_pos_right body.amount.pos).ne
  · intro hends
    rw [if_neg fun hin => absurd hin.2.2 (not_lt.2 hends), add_zero]

/-- What is carried over from the usage before. -/
def carried (usage : Option BillingUsage) (now : ℚ) : Nat :=
  match usage with
  | some usage => if usage.periodEndsAt > now then usage.amount else 0
  | none => 0

theorem billed_saved (hy : Inv y) (hb : Billed y.store) (h : y.store.Accepts scope body account)
    (hnow : y.clock ≤ now) :
    let usage := account.usage (y.store.usage? (body.meter scope)) body.metric body.amount now
    Billed (y.store.bill account scope body now true) ↔
      carried (y.store.usage? (body.meter scope)) now =
        y.store.metered (body.meter scope) usage.periodStartedAt usage.periodEndsAt := by
  intro usage
  have husage : (y.store.bill account scope body now true).usage? (body.meter scope) =
      some usage := by
    rw [Store.usage?, usages_bill h, if_pos ⟨rfl, rfl⟩]
  have hcounts : (body.event scope now).CountsIn (body.meter scope) usage.periodStartedAt
      usage.periodEndsAt := by
    refine ⟨rfl, ?_, ?_⟩
    · show ite _ _ _ ≤ now
      split
      · exact (hy.begun _ _ h.found).trans hnow
      · exact le_rfl
    · show now < ite _ _ _
      split
      · assumption
      · exact lt_add_of_pos_right now (by decide +kernel)
  have hamount : usage.amount =
      carried (y.store.usage? (body.meter scope)) now + body.amount.units := rfl
  rw [billed_bill_iff hy hb h, husage]
  simp only [Option.some.injEq, exists_eq_left', metered_bill h, if_pos hcounts, hamount,
    Nat.add_right_cancel_iff]

theorem billed_saved_iff (hy : Inv y) (hb : Billed y.store)
    (h : y.store.Accepts scope body account) (hnow : y.clock ≤ now) :
    Billed (y.store.bill account scope body now true) ↔
      TimelyAt y.store account (body.meter scope) now true := by
  refine (billed_saved hy hb h hnow).trans ?_
  show _ = y.store.metered _ (ite _ _ _) (ite _ _ _) ↔ _ ∨ _
  cases husage : y.store.usage? (body.meter scope) with
  | none =>
    refine iff_of_true ?_ (.inr fun _ h => nomatch h)
    exact (metered_of_no_usage hb husage _ _).symm
  | some usage =>
    have hamount := hy.amount_eq hb h.owner husage
    obtain ⟨hbegun, event, hevent, hmeter, hperiod⟩ := hy.placed h.owner husage
    have hbefore := hbegun.trans hnow
    simp only [Option.mem_some_iff, forall_eq']
    by_cases hin : now < account.periodEndsAt
    · -- The usage is in the period of the account.
      rw [if_pos hin, if_pos hin]
      obtain ⟨hs, he⟩ | ⟨hlate, -⟩ := hperiod
      · refine iff_of_true ?_ (.inl hin)
        rw [carried, if_pos (he ▸ hin), hamount, hs, he]
      · exact absurd hin (not_lt.2 (hlate.trans hbefore))
    · rw [if_neg hin, if_neg hin, or_iff_right hin]
      by_cases hends : usage.periodEndsAt ≤ now
      · -- The last period is over: nothing may have happened since.
        have hne : usage.periodStartedAt ≠ now := (usage.period.trans_le hends).ne
        rw [carried, if_neg (not_lt.2 hends), or_iff_right hne, and_iff_right hends, eq_comm,
          metered_eq_zero]
        refine forall_congr' fun event => forall_congr' fun hevent => ?_
        constructor
        · rintro hnone hmeter rfl
          exact hnone ⟨hmeter, le_rfl, lt_add_of_pos_right _ (by decide +kernel)⟩
        · rintro hne ⟨hmeter, hge, -⟩
          exact hne hmeter (le_antisymm ((hy.past event hevent).trans hnow) hge)
      · -- The last period goes on: its first event is not in a period that begins later.
        have hopen := not_le.1 hends
        obtain ⟨-, he⟩ | ⟨_, he, hfirst⟩ := hperiod
        · exact absurd (he ▸ hopen) hin
        · rw [carried, if_pos hopen, hamount, or_iff_left fun hover => hends hover.1]
          constructor
          · intro heq
            by_contra hne
            have hlt := lt_of_le_of_ne hbefore hne
            have hless : y.store.metered (body.meter scope) now
                (now + defaultBillingPeriodSeconds) <
                y.store.metered (body.meter scope) usage.periodStartedAt usage.periodEndsAt := by
              refine metered_lt hevent ⟨hmeter, hfirst.ge, hfirst.trans_lt usage.period⟩
                (hfirst.trans_lt hlt) fun e he hcounts => ?_
              exact ⟨hcounts.1, hlt.le.trans hcounts.2.1,
                ((hy.past e he).trans hnow).trans_lt hopen⟩
            exact absurd heq hless.ne'
          · intro hsame
            rw [he, hsame]

theorem follows_bill (hy : Inv y) (h : y.store.Accepts scope body account) (hnow : y.clock ≤ now)
    (htimely : TimelyAt y.store account (body.meter scope) now saved) :
    Follows y.store (y.store.bill account scope body now saved) := by
  intro k usage hk
  rw [usages_bill h]
  by_cases hsaved : saved = true ∧ k = (body.meter scope).usageKey
  · obtain ⟨rfl, rfl⟩ := hsaved
    refine ⟨_, if_pos ⟨rfl, rfl⟩, ?_⟩
    show (ite _ _ _ = _ ∧ ite _ _ _ = _) ∨ _ ≤ ite _ _ _
    obtain ⟨hbegun, _, -, -, hperiod⟩ := hy.placed h.owner hk
    have hbefore := hbegun.trans hnow
    by_cases hin : now < account.periodEndsAt
    · rw [if_pos hin, if_pos hin]
      obtain ⟨hs, he⟩ | ⟨hlate, -⟩ := hperiod
      · exact .inl ⟨hs.symm, he.symm⟩
      · exact absurd hin (not_lt.2 (hlate.trans hbefore))
    · rw [if_neg hin, if_neg hin]
      obtain hlt | hall := htimely
      · exact absurd hlt hin
      obtain hsame | ⟨hends, -⟩ := hall usage hk
      · obtain ⟨-, he⟩ | ⟨-, he, -⟩ := hperiod
        · exact absurd (hsame ▸ he ▸ usage.period) hin
        · exact .inl ⟨hsame.symm, by rw [he, hsame]⟩
      · exact .inr hends
  · exact ⟨usage, (if_neg hsaved).trans hk, .inl ⟨rfl, rfl⟩⟩

end Kept

/-! ## Runs -/

/-- A call that is made is timely at the attempt that stores its event, if any does. -/
def Timely (s : System) : Act → Prop
  | .createBillingAccount _ _ _ _ => True
  | .recordMeterEvent scope call => (s.clock :: call.attempts.map (·.now)).Pairwise (· ≤ ·) →
      ∀ account, s.store.Accepts scope call.body account →
      TimelyAt s.store account (call.body.meter scope) call.storing.now
        (call.storing.fault ≠ some .usage)

theorem storing_between {clock : ℚ} {call : MeterCall}
    (h : (clock :: call.attempts.map (·.now)).Pairwise (· ≤ ·)) :
    clock ≤ call.storing.now ∧ call.storing.now ≤ call.now := by
  obtain ⟨hclock, htimes⟩ := List.pairwise_cons.1 h
  have hmem : call.storing = ⟨call.now, none⟩ ∨ call.storing ∈ call.failed := by
    unfold MeterCall.storing
    cases hfind : call.failed.find? fun attempt => attempt.fault ≠ some .event with
    | none => exact .inl rfl
    | some => exact .inr (List.mem_of_find?_eq_some hfind)
  rw [MeterCall.attempts, List.map_append, List.pairwise_append] at htimes
  rcases hmem with hlast | hfailed
  · rw [hlast]
    exact ⟨hclock _ (by simp [MeterCall.attempts]), le_rfl⟩
  · refine ⟨hclock _ ?_, htimes.2.2 _ (List.mem_map_of_mem hfailed) _ (by simp)⟩
    exact List.mem_map_of_mem (List.mem_append_left _ hfailed)

section Step

variable {x x' : System} {act : Act}

theorem inv_create {id : Hex} {request : CreateBillingAccountRequest} (hx : Inv x)
    (hclock : x.clock ≤ now)
    (hnew : x.store.accounts.get? (request.account scope id now).key = none) :
    Inv ⟨{ x.store with accounts := x.store.accounts.put (request.account scope id now) },
      now⟩ := by
  have hstays : ∀ {k account}, x.store.accounts.get? k = some account →
      (x.store.accounts.put (request.account scope id now)).get? k = some account := by
    intro k _ h
    rw [Table.get?_put_of_ne _ _ fun hk => ?_]
    · exact h
    · simp [hk, hnew] at h
  refine ⟨fun k account h => ?_, fun k account h => ?_, fun event hevent => ?_,
    fun event hevent => ?_, fun k usage hk => ?_⟩
  · obtain ⟨rfl, -⟩ | ⟨-, h⟩ := Table.get?_put_eq_some.1 h
    · exact id.colon_notMem
    · exact hx.ids k account h
  · obtain ⟨-, rfl⟩ | ⟨-, h⟩ := Table.get?_put_eq_some.1 h
    · exact le_rfl
    · exact (hx.begun k account h).trans hclock
  · exact (hx.past event hevent).trans hclock
  · obtain ⟨account, h⟩ := hx.owned event hevent
    exact ⟨account, hstays h⟩
  · obtain ⟨meter, account, hkey, hfound, hbegun, hperiod⟩ := hx.usages k usage hk
    exact ⟨meter, account, hkey, hstays hfound, hbegun.trans hclock, hperiod⟩

theorem Inv.later (hx : Inv x) {clock : ℚ} (hclock : x.clock ≤ clock) : Inv ⟨x.store, clock⟩ := by
  refine ⟨hx.ids, fun k account hk => (hx.begun k account hk).trans hclock,
    fun event hevent => (hx.past event hevent).trans hclock, hx.owned, fun k usage hk => ?_⟩
  obtain ⟨meter, account, hkey, hfound, hbegun, hperiod⟩ := hx.usages k usage hk
  exact ⟨meter, account, hkey, hfound, hbegun.trans hclock, hperiod⟩

theorem step_cases (h : step x act = some x') :
    (∃ scope request id now, act = .createBillingAccount scope request id now ∧ x.clock ≤ now ∧
      x.store.accounts.get? (request.account scope id now).key = none ∧
      x' = ⟨{ x.store with accounts := x.store.accounts.put (request.account scope id now) },
        now⟩) ∨
    ∃ scope call, act = .recordMeterEvent scope call ∧
      (x.clock :: call.attempts.map (·.now)).Pairwise (· ≤ ·) ∧
      (((∀ account, ¬x.store.Accepts scope call.body account) ∧ x' = ⟨x.store, call.now⟩) ∨
        ∃ account, x.store.Accepts scope call.body account ∧
          x' = ⟨x.store.bill account scope call.body call.storing.now
            (call.storing.fault ≠ some .usage), call.now⟩) := by
  cases act with
  | createBillingAccount scope request id now =>
    obtain ⟨⟨hclock, hnew⟩, hx'⟩ := Option.ite_none_right_eq_some.1 h
    cases hx'
    exact .inl ⟨scope, request, id, now, rfl, hclock, Option.isNone_iff_eq_none.1 hnew, rfl⟩
  | recordMeterEvent scope call =>
    obtain ⟨htimes, hx'⟩ := Option.ite_none_right_eq_some.1 h
    cases hx'
    refine .inr ⟨scope, call, rfl, htimes, ?_⟩
    by_cases haccepts : ∃ account, x.store.Accepts scope call.body account
    · obtain ⟨account, haccepts⟩ := haccepts
      exact .inr ⟨account, haccepts, by rw [recordAttempts_eq haccepts call.failed call.now]⟩
    · rw [not_exists] at haccepts
      exact .inl ⟨haccepts, by rw [recordAttempts_of_not_accepts haccepts]⟩

theorem inv_step (hx : Inv x) (h : step x act = some x') : Inv x' := by
  obtain ⟨scope, _, _, _, rfl, hclock, hnew, rfl⟩ | ⟨_, _, rfl, htimes, hcall⟩ :=
    step_cases h
  · exact inv_create hx hclock hnew
  · obtain ⟨hnow, hlast⟩ := storing_between htimes
    obtain ⟨-, rfl⟩ | ⟨_, haccepts, rfl⟩ := hcall
    · exact hx.later (hnow.trans hlast)
    · exact inv_bill hx haccepts hnow hlast

/-- **Whatever the times**, events and usages are those of accounts, and a usage keeps to its
period. -/
theorem usages_placed (clock : ℚ) (acts : List Act) :
    ∀ s ∈ states step (.start clock) acts, Inv s :=
  invariant_all (fun _ _ _ => inv_step) acts (inv_start clock)

theorem billed_step (hx : Inv x) (hb : Billed x.store) (h : step x act = some x') :
    (Billed x'.store ↔ Timely x act) ∧ (Timely x act → Follows x.store x'.store) := by
  obtain ⟨scope, _, _, now, rfl, -, -, rfl⟩ | ⟨scope, call, rfl, htimes, hcall⟩ :=
    step_cases h
  · exact ⟨iff_of_true hb trivial, fun _ => .refl _⟩
  · obtain ⟨hnow, -⟩ := storing_between htimes
    obtain ⟨hnone, rfl⟩ | ⟨account, haccepts, rfl⟩ := hcall
    · exact ⟨iff_of_true hb fun _ account h => absurd h (hnone account), fun _ => .refl _⟩
    · have hiff : Timely x (.recordMeterEvent scope call) ↔
          TimelyAt x.store account (call.body.meter scope) call.storing.now
            (call.storing.fault ≠ some .usage) := by
        refine ⟨fun htimely => htimely htimes account haccepts,
          fun htimely _ account' haccepts' => ?_⟩
        have hsame := haccepts.found.symm.trans haccepts'.found
        cases hsame
        exact htimely
      rw [hiff]
      refine ⟨?_, follows_bill hx haccepts hnow⟩
      cases hsaved : decide (call.storing.fault ≠ some .usage) with
      | true => exact billed_saved_iff hx hb haccepts hnow
      | false => exact billed_unsaved_iff hx hb haccepts hnow

theorem timely_of_stuck (h : step x act = none) : Timely x act := by
  cases act with
  | createBillingAccount => trivial
  | recordMeterEvent =>
    intro htimes
    rw [step, if_pos htimes] at h
    cases h

end Step

/-- **Usage is what was metered.** In a run of calls, whatever was metered has a usage with the sum
of its events in the period, and a period stays or a later one follows, exactly when every call is
timely. -/
theorem billed_iff (clock : ℚ) (acts : List Act) :
    ((∀ s ∈ states step (.start clock) acts, Billed s.store) ∧
      (states step (.start clock) acts).Pairwise fun s t => Follows s.store t.store) ↔
      Along step Timely (.start clock) acts := by
  have hstart : Inv (.start clock) ∧ Billed (System.start clock).store :=
    ⟨inv_start clock, fun _ ⟨_, hevent, _⟩ => nomatch hevent⟩
  have hinv : ∀ s ∈ states step (.start clock) acts, Inv s :=
    invariant_states (P := fun _ _ => True) (fun _ _ _ hx _ h => inv_step hx h) (inv_start clock)
      (along_of_forall (fun _ _ => trivial) _ acts)
  have hiff : (∀ s ∈ states step (.start clock) acts, Inv s ∧ Billed s.store) ↔
      Along step Timely (.start clock) acts :=
    states_iff (I := fun s => Inv s ∧ Billed s.store) (fun _ _ => timely_of_stuck)
      (fun s act s' hs h =>
        let hiff := (billed_step hs.1 hs.2 h).1
        ⟨fun hs' => hiff.1 hs'.2, fun htimely => ⟨inv_step hs.1 h, hiff.2 htimely⟩⟩) hstart
  constructor
  · rintro ⟨hbilled, -⟩
    exact hiff.1 fun s hs => ⟨hinv s hs, hbilled s hs⟩
  · intro h
    refine ⟨fun s hs => (hiff.2 h s hs).2, ?_⟩
    exact pairwise_states (I := fun s => Inv s ∧ Billed s.store)
      (R := fun s t => Follows s.store t.store) (fun _ _ _ => Follows.trans)
      (fun s act s' hs htimely h =>
        let hstep := billed_step hs.1 hs.2 h
        ⟨⟨inv_step hs.1 h, hstep.1.2 htimely⟩, hstep.2 htimely⟩) hstart h

/-- A month of an account. -/
def monthly : CreateBillingAccountRequest := ⟨"plan", "USD", 5, 2592000, by decide, by decide⟩

/-- One unit of a metric, with an idempotency key of its own. -/
def oneUnit (key : String) (now : ℚ) : Act :=
  .recordMeterEvent ⟨"t", "p"⟩
    ⟨⟨"billing_0", "calls", ⟨1, Nat.one_pos, by decide⟩, key, .empty⟩, [], now⟩

/-- Two events after the end of the account's period, one day apart. -/
def afterTheEnd : List Act :=
  [.createBillingAccount ⟨"t", "p"⟩ monthly ⟨"0", by simp⟩ 0, oneUnit "event-01" 2592000,
   oneUnit "event-02" 2678400]

theorem afterTheEnd_placed : ∃ s, exec step (.start 0) afterTheEnd = some s ∧ Inv s :=
  (Option.isSome_iff_exists.1 (by decide +kernel)).imp fun s h =>
    ⟨h, usages_placed _ _ s (mem_states_of_exec h)⟩

/-- **The second period** begins with the second event and has the amount of the first one. -/
theorem carried_over :
    ¬((∀ s ∈ states step (.start 0) afterTheEnd, Billed s.store) ∧
      (states step (.start 0) afterTheEnd).Pairwise fun s t => Follows s.store t.store) := by
  rintro ⟨hbilled, -⟩
  obtain ⟨s, hexec, h⟩ := Option.map_eq_some_iff.1
    (show (exec step (.start 0) afterTheEnd).map (fun s =>
      ((s.store.usage? ⟨⟨"t", "p"⟩, "billing_0", "calls"⟩).map fun usage =>
        (usage.amount, s.store.metered ⟨⟨"t", "p"⟩, "billing_0", "calls"⟩ usage.periodStartedAt
          usage.periodEndsAt),
        s.store.events.values.map (·.meter))) =
      some (some (2, 1), [⟨⟨"t", "p"⟩, "billing_0", "calls"⟩, ⟨⟨"t", "p"⟩, "billing_0", "calls"⟩])
      by decide +kernel)
  rw [Prod.mk.injEq] at h
  obtain ⟨_, husage, hpair⟩ := Option.map_eq_some_iff.1 h.1
  obtain ⟨event, hevent, hmeter⟩ := List.mem_map.1
    (show (⟨⟨"t", "p"⟩, "billing_0", "calls"⟩ : Meter) ∈ s.store.events.values.map (·.meter) by
      rw [h.2]; exact List.mem_cons_self)
  obtain ⟨_, husage', hamount⟩ := hbilled s (mem_states_of_exec hexec) _ ⟨event, hevent, hmeter⟩
  rw [husage] at husage'
  cases husage'
  rw [Prod.mk.injEq] at hpair
  exact absurd (hpair.1.symm.trans (hamount.trans hpair.2)) (by decide)

end Scenara.ControlPlane.Billing
