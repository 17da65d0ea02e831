import Scenara.Core.Transition
import Scenara.Enterprise.Usage

/-!
# One ledger in two repositories
-/

namespace Scenara.Enterprise

open Scenara.Core

variable {claims : LicenseClaims} {repository : Repository} {usage : Usage} {request : Request}
  {row : Option Nat} {call : Call} {key : Key} {s s' : Both} {ledger : Ledger}
  {used used' : Key → Nat} {taken : List (Key × Nat)}

/-! ## Ledgers -/

/-- The sum of what was accepted for a key. -/
def total (accepted : List (Key × Nat)) (key : Key) : Nat :=
  ((accepted.filter (·.1 = key)).map Prod.snd).sum

/-- No counter is over its limit, and every counter is what was accepted. -/
structure Kept (claims : LicenseClaims) (used : Key → Nat) (accepted : List (Key × Nat)) :
    Prop where
  within : ∀ key, ∀ limit ∈ claims.limits.get? key.2, used key ≤ limit
  summed : ∀ key, used key = total accepted key

theorem total_append (accepted : List (Key × Nat)) (request : Request) (key : Key) :
    total (accepted ++ [(request.key, request.amount)]) key =
      total accepted key + if key = request.key then request.amount else 0 := by
  unfold total
  by_cases hkey : key = request.key
  · simp [hkey]
  · simp [hkey, Ne.symm hkey]

theorem request_eq (h : claims.request call = .ok request) :
    request = ⟨(call.tenantId, call.metric), call.amount.toNat,
      claims.limits.get? call.metric⟩ := by
  unfold LicenseClaims.request at h
  split at h
  · cases h
  · cases htime : claims.validateTime call.now with
    | error =>
      rw [htime] at h
      cases h
    | ok =>
      rw [htime] at h
      split at h
      · cases h
      · exact (Except.ok.inj h).symm

theorem admits_iff {nextValue : Nat} :
    request.admits nextValue = true ↔ ∀ limit ∈ request.limit, nextValue ≤ limit := by
  unfold Request.admits
  cases request.limit <;> simp

theorem kept_accept (h : Kept claims used taken)
    (hlimit : request.limit = claims.limits.get? request.key.2)
    (hused : ∀ key, used' key = used key + if key = request.key then request.amount else 0) :
    Kept claims used' (taken ++ [(request.key, request.amount)]) ↔
      request.admits (used request.key + request.amount) = true := by
  rw [admits_iff, hlimit]
  constructor
  · intro hkept limit hl
    have hwithin := hkept.within request.key limit hl
    rwa [hused, if_pos rfl] at hwithin
  · refine fun hadmits => ⟨fun key limit hl => ?_, fun key => ?_⟩
    · rw [hused]
      by_cases hkey : key = request.key
      · rw [if_pos hkey, hkey]
        exact hadmits limit (hkey ▸ hl)
      · rw [if_neg hkey]
        exact h.within key limit hl
    · rw [hused, total_append, h.summed]

/-! ## One request -/

/-- What the row has to do with the request: the first use of a metric is not over the limit, unless
it is out of range; and what the limit admits is in range. -/
structure Request.Fits (request : Request) (row : Option Nat) : Prop where
  first : row = none → request.amount ≤ Request.bigintMax → request.admits request.amount = true
  range : request.admits (row.getD 0 + request.amount) = true →
    row.getD 0 + request.amount ≤ Request.bigintMax

/-- The upsert accepts the request. -/
def Request.upserts (request : Request) (row : Option Nat) : Prop :=
  row.getD 0 + request.amount ≤ Request.bigintMax ∧
    (row = none ∨ request.admits (row.getD 0 + request.amount) = true)

theorem upsert_cases (request : Request) (row : Option Nat) :
    (request.upserts row ∧ request.upsert row = .ok (some (row.getD 0 + request.amount))) ∨
    (¬request.upserts row ∧
      (request.upsert row = .ok none ∨ request.upsert row = .error .numericValueOutOfRange)) := by
  unfold Request.upserts Request.upsert
  cases row with
  | none =>
    by_cases hrange : Request.bigintMax < request.amount
    · exact .inr ⟨fun h => by simp at h; omega, .inr (if_pos hrange)⟩
    · exact .inl ⟨⟨by simp; omega, .inl rfl⟩, by simp [hrange]⟩
  | some used =>
    by_cases hrange : Request.bigintMax < used + request.amount
    · exact .inr ⟨fun h => by simp at h; omega, .inr (if_pos hrange)⟩
    · cases hadmits : request.admits (used + request.amount) with
      | true => exact .inl ⟨⟨by simp; omega, .inr hadmits⟩, by simp [hrange, hadmits]⟩
      | false => exact .inr ⟨fun h => by simp [hadmits] at h, .inl (by simp [hrange, hadmits])⟩

/-- **The upsert accepts what the limit admits** exactly if the request fits the row. -/
theorem upserts_iff_admits (request : Request) (row : Option Nat) :
    (request.upserts row ↔ request.admits (row.getD 0 + request.amount) = true) ↔
      request.Fits row := by
  constructor
  · intro h
    refine ⟨fun hnone hrange => ?_, fun hadmits => (h.2 hadmits).1⟩
    have hadmits := h.1 ⟨by simpa [hnone] using hrange, .inl hnone⟩
    simpa [hnone] using hadmits
  · rintro ⟨hfirst, hrange⟩
    constructor
    · rintro ⟨hle, hnone | hadmits⟩
      · subst hnone
        simpa using hfirst rfl (by simpa using hle)
      · exact hadmits
    · exact fun hadmits => ⟨hrange hadmits, .inr hadmits⟩

/-! ## One call -/

/-- A repository accepts the request. -/
def Repository.Accepts (usage : Usage) (request : Request) : Repository → Prop
  | .memory => request.admits (usage.used request.key + request.amount) = true
  | .postgres => request.upserts (usage.get? request.key)

theorem used_insert (usage : Usage) (request : Request) (key : Key) :
    Usage.used (usage.insert request.key (usage.used request.key + request.amount)) key =
      usage.used key + if key = request.key then request.amount else 0 := by
  unfold Usage.used
  rw [Dict.get?_insert]
  by_cases hkey : key = request.key <;> simp [hkey]

theorem consumeUsage_cases (repository : Repository) (usage : Usage) (request : Request) :
    (repository.Accepts usage request ∧
      repository.consumeUsage usage request =
        (usage.insert request.key (usage.used request.key + request.amount),
          .ok (usage.used request.key + request.amount))) ∨
    (¬repository.Accepts usage request ∧
      ∃ raised, repository.consumeUsage usage request = (usage, .error raised)) := by
  cases repository with
  | memory =>
    by_cases hadmits : request.admits (usage.used request.key + request.amount) = true
    · exact .inl ⟨hadmits, if_neg (not_not.2 hadmits)⟩
    · exact .inr ⟨hadmits, _, if_pos hadmits⟩
  | postgres =>
    unfold Repository.Accepts Repository.consumeUsage
    rcases upsert_cases request (usage.get? request.key) with ⟨hupserts, h⟩ | ⟨hupserts, h | h⟩
    · rw [h]
      exact .inl ⟨hupserts, rfl⟩
    all_goals
      rw [h]
      exact .inr ⟨hupserts, _, rfl⟩

theorem consume_raised {raised : Raised}
    (h : (claims.consume repository usage call).2 = .error raised) :
    (claims.consume repository usage call).1 = usage := by
  unfold LicenseClaims.consume at h ⊢
  cases hrequest : claims.request call with
  | error => rfl
  | ok request =>
    rw [hrequest] at h
    rcases consumeUsage_cases repository usage request with ⟨-, heq⟩ | ⟨-, _, heq⟩
    · simp only [heq] at h
      cases h
    · simp only [heq]

/-! ## Both repositories -/

/-- The answer is no exception. -/
def accepts (answer : Except Raised Unit) : Bool :=
  match answer with
  | .ok _ => true
  | .error _ => false

/-- What the repository accepted. -/
def Ledger.accepted (ledger : Ledger) : List (Key × Nat) :=
  (ledger.answers.filter fun answer => accepts answer.2).map fun answer =>
    ((answer.1.tenantId, answer.1.metric), answer.1.amount.toNat)

/-- Both repositories keep the limits and the sums, and accept the same calls. -/
structure Agreed (claims : LicenseClaims) (s : Both) : Prop where
  memory : Kept claims s.memory.usage.used s.memory.accepted
  postgres : Kept claims s.postgres.usage.used s.postgres.accepted
  alike : s.memory.answers.map (fun answer => (answer.1, accepts answer.2)) =
    s.postgres.answers.map fun answer => (answer.1, accepts answer.2)

/-- The request of a call fits the row of the table, if the call comes to a request. -/
def Fits (claims : LicenseClaims) (s : Both) (call : Call) : Prop :=
  ∀ request, claims.request call = .ok request → request.Fits (s.postgres.usage.get? request.key)

theorem accepted_eq (h : Agreed claims s) : s.memory.accepted = s.postgres.accepted := by
  have hacc : ∀ answers : List (Call × Except Raised Unit),
      (answers.filter fun answer => accepts answer.2).map (fun answer =>
          ((answer.1.tenantId, answer.1.metric), answer.1.amount.toNat)) =
        ((answers.map fun answer => (answer.1, accepts answer.2)).filter Prod.snd).map fun answer =>
          ((answer.1.tenantId, answer.1.metric), answer.1.amount.toNat) := by
    intro _
    rw [List.filter_map, List.map_map]
    rfl
  unfold Ledger.accepted
  rw [hacc, hacc, h.alike]

theorem used_eq (h : Agreed claims s) (key : Key) :
    s.memory.usage.used key = s.postgres.usage.used key := by
  rw [h.memory.summed, h.postgres.summed, accepted_eq h]

theorem consume_error {raised : Raised} (h : claims.request call = .error raised) :
    ledger.consume claims repository call =
      ⟨ledger.usage, ledger.answers ++ [(call, .error raised)]⟩ := by
  simp only [Ledger.consume, LicenseClaims.consume, h]

theorem accepted_append_error {raised : Raised} (usage : Usage) :
    Ledger.accepted ⟨usage, ledger.answers ++ [(call, .error raised)]⟩ = ledger.accepted := by
  simp [Ledger.accepted, accepts]

theorem consume_request (hrequest : claims.request call = .ok request) (repository : Repository)
    (ledger : Ledger) :
    (repository.Accepts ledger.usage request ∧
      (∀ key, (ledger.consume claims repository call).usage.used key =
        ledger.usage.used key + if key = request.key then request.amount else 0) ∧
      (ledger.consume claims repository call).accepted =
        ledger.accepted ++ [(request.key, request.amount)] ∧
      (ledger.consume claims repository call).answers = ledger.answers ++ [(call, .ok ())]) ∨
    (¬repository.Accepts ledger.usage request ∧
      (ledger.consume claims repository call).usage = ledger.usage ∧
      (ledger.consume claims repository call).accepted = ledger.accepted ∧
      ∃ raised, (ledger.consume claims repository call).answers =
        ledger.answers ++ [(call, .error raised)]) := by
  rcases consumeUsage_cases repository ledger.usage request with ⟨haccepts, h⟩ |
    ⟨haccepts, raised, h⟩
  · have hconsume : ledger.consume claims repository call =
        ⟨ledger.usage.insert request.key (ledger.usage.used request.key + request.amount),
          ledger.answers ++ [(call, .ok ())]⟩ := by
      simp only [Ledger.consume, LicenseClaims.consume, hrequest, h, Except.map]
    refine .inl ⟨haccepts, fun key => ?_, ?_, ?_⟩
    · rw [hconsume]
      exact used_insert ledger.usage request key
    · rw [hconsume, request_eq hrequest]
      simp [Ledger.accepted, accepts]
    · rw [hconsume]
  · have hconsume : ledger.consume claims repository call =
        ⟨ledger.usage, ledger.answers ++ [(call, .error raised)]⟩ := by
      simp only [Ledger.consume, LicenseClaims.consume, hrequest, h, Except.map]
    refine .inr ⟨haccepts, ?_, ?_, raised, ?_⟩
    · rw [hconsume]
    · rw [hconsume]
      exact accepted_append_error ledger.usage
    · rw [hconsume]

theorem agreed_start : Agreed claims Both.start where
  memory := ⟨fun _ _ _ => Nat.zero_le _, fun _ => rfl⟩
  postgres := ⟨fun _ _ _ => Nat.zero_le _, fun _ => rfl⟩
  alike := rfl

theorem agreed_step (h : Agreed claims s) (hstep : Both.step claims s call = some s') :
    Agreed claims s' ↔ Fits claims s call := by
  obtain rfl := Option.some.inj hstep
  cases hrequest : claims.request call with
  | error =>
    refine iff_of_true ?_ fun request hr => by rw [hrequest] at hr; cases hr
    have hconsume (repository : Repository) (ledger : Ledger)
        (hkept : Kept claims ledger.usage.used ledger.accepted) :
        Kept claims (ledger.consume claims repository call).usage.used
          (ledger.consume claims repository call).accepted := by
      rwa [consume_error hrequest, accepted_append_error]
    refine ⟨hconsume .memory s.memory h.memory, hconsume .postgres s.postgres h.postgres, ?_⟩
    rw [consume_error hrequest, consume_error hrequest]
    simp only [List.map_append, h.alike, List.map_cons, List.map_nil]
  | ok request =>
    have hlimit : request.limit = claims.limits.get? request.key.2 := by
      rw [request_eq hrequest]
    have hfits : Fits claims s call ↔ request.Fits (s.postgres.usage.get? request.key) := by
      constructor
      · exact fun hfits => hfits request hrequest
      · intro hfits r hr
        rw [hrequest] at hr
        cases hr
        exact hfits
    have hadmits : Repository.memory.Accepts s.memory.usage request ↔
        request.admits ((s.postgres.usage.get? request.key).getD 0 + request.amount) = true := by
      show request.admits (s.memory.usage.used request.key + request.amount) = true ↔ _
      rw [used_eq h]
      rfl
    rw [hfits, ← upserts_iff_admits, ← hadmits]
    rcases consume_request hrequest .memory s.memory with
      ⟨hm, hmused, hmaccepted, hmanswers⟩ | ⟨hm, hmused, hmaccepted, _, hmanswers⟩ <;>
      rcases consume_request hrequest .postgres s.postgres with
        ⟨hp, hpused, hpaccepted, hpanswers⟩ | ⟨hp, hpused, hpaccepted, _, hpanswers⟩
    · refine iff_of_true ⟨?_, ?_, ?_⟩ (iff_of_true hp hm)
      · rw [hmaccepted]
        exact (kept_accept h.memory hlimit hmused).2 hm
      · rw [hpaccepted]
        exact (kept_accept h.postgres hlimit hpused).2 (hadmits.1 hm)
      · rw [hmanswers, hpanswers, List.map_append, List.map_append, h.alike]
    · refine iff_of_false (fun hagreed => ?_) fun hiff => hp (hiff.2 hm)
      have halike := hagreed.alike
      rw [hmanswers, hpanswers, List.map_append, List.map_append, h.alike] at halike
      simp [accepts] at halike
    · refine iff_of_false (fun hagreed => ?_) fun hiff => hm (hiff.1 hp)
      have halike := hagreed.alike
      rw [hmanswers, hpanswers, List.map_append, List.map_append, h.alike] at halike
      simp [accepts] at halike
    · refine iff_of_true ⟨?_, ?_, ?_⟩ (iff_of_false hp hm)
      · rw [hmaccepted, hmused]
        exact h.memory
      · rw [hpaccepted, hpused]
        exact h.postgres
      · rw [hmanswers, hpanswers, List.map_append, List.map_append, h.alike]
        rfl

end Scenara.Enterprise
