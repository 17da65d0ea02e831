import Scenara.Core.Parties
import Scenara.Core.Transition
import Scenara.ControlPlane.Billing

/-!
# Billing seats

Model of `assign_billing_seat` (`platform/control_plane.py`) over a store whose `get`, `list` and
`put` are the only atomic steps, for any number of calls at a time.
-/

namespace Scenara.ControlPlane.Seats

open Scenara.Core
open Release (Scope)
open ControlPlane.Billing (BillingAccount)

/-! ## Records -/

/-- `SeatAssignment`. -/
structure SeatAssignment where
  key : Key
  accountId : String
  userId : String
  status : String
  assignedBy : String
  createdAt : ℚ
  revokedAt : Option ℚ

/-- The account it is a seat of. -/
def SeatAssignment.account (seat : SeatAssignment) : Key := ⟨seat.key.scope, seat.accountId⟩

/-- `AssignSeatRequest`. -/
structure AssignSeatRequest where
  accountId : String
  userId : String

/-! ## The store -/

/-- The tables, and how many ids were drawn. -/
structure Shared where
  accounts : Table Key BillingAccount BillingAccount.key
  seats : Table Key SeatAssignment SeatAssignment.key
  drawn : Nat

/-- The rows that `list` returns for a scope; `"*"` stands for every tenant or project. -/
def inScope (scope : Scope) (row : Scope) : Bool :=
  (scope.tenantId = "*" || row.tenantId = scope.tenantId) &&
    (scope.projectId = "*" || row.projectId = scope.projectId)

/-- `list("seat_assignment", ...)`: seats have no `updated_at`, so the last id comes first. -/
def Shared.listSeats (s : Shared) (scope : Scope) : List SeatAssignment :=
  (s.seats.values.filter fun seat => inScope scope seat.key.scope).insertionSort
    fun a b => b.key.id ≤ a.key.id

/-- The active seats of an account. -/
def Shared.activeSeats (s : Shared) (account : Key) : List SeatAssignment :=
  s.seats.values.filter fun seat => seat.account = account ∧ seat.status = "active"

/-! ## A call -/

/-- A call of `assign_billing_seat`, at its next step. -/
inductive Call where
  | reading (scope : Scope) (principalId : String) (body : AssignSeatRequest)
  | listing (account : BillingAccount) (principalId : String) (body : AssignSeatRequest)
  | saving (seat : SeatAssignment)
  | returned (seat : SeatAssignment)
  | raised (message : String)

/-- The seat of a user that is there already. -/
def currentSeat (existing : List SeatAssignment) (account : BillingAccount) (userId : String) :
    Option SeatAssignment :=
  existing.find? fun seat =>
    seat.accountId = account.key.id ∧ seat.userId = userId ∧ seat.status = "active"

/-- `active_count`. -/
def activeCount (existing : List SeatAssignment) (account : BillingAccount) : Nat :=
  existing.countP fun seat => seat.accountId = account.key.id ∧ seat.status = "active"

/-- The new seat. -/
def newSeat (id : String) (account : BillingAccount) (userId principalId : String) (now : ℚ) :
    SeatAssignment where
  key := ⟨account.key.scope, "seat_" ++ id⟩
  accountId := account.key.id
  userId := userId
  status := "active"
  assignedBy := principalId
  createdAt := now
  revokedAt := none

/-- The next step of a call, at the time `now`. -/
def stepCall (ids : Fresh String) (now : ℚ) (s : Shared) : Call → Option (Shared × Call)
  | .reading scope principalId body =>
    match s.accounts.get? ⟨scope, body.accountId⟩ with
    | none => some (s, .raised "billing account is unavailable")
    | some account =>
      if account.status ≠ "active" then some (s, .raised "billing account is unavailable")
      else some (s, .listing account principalId body)
  | .listing account principalId body =>
    let existing := s.listSeats account.key.scope
    match currentSeat existing account body.userId with
    | some current => some (s, .returned current)
    | none =>
      if account.seatLimit ≤ activeCount existing account then
        some (s, .raised "billing seat limit exceeded")
      else
        some ({ s with drawn := s.drawn + 1 },
          .saving (newSeat (ids.draw s.drawn) account body.userId principalId now))
  | .saving seat => some ({ s with seats := s.seats.put seat }, .returned seat)
  | .returned _ | .raised _ => none

/-! ## The system -/

/-- The store and the calls that were made. -/
structure System where
  shared : Shared
  calls : List Call

/-- Any accounts, and no seats. -/
def System.start (accounts : Table Key BillingAccount BillingAccount.key) : System :=
  ⟨⟨accounts, .empty, 0⟩, []⟩

/-- One step. -/
inductive Act where
  | start (scope : Scope) (principalId : String) (body : AssignSeatRequest)
  | advance (i : Nat) (now : ℚ)

/-- One step. -/
def step (ids : Fresh String) (s : System) : Act → Option System
  | .start scope principalId body =>
    some { s with calls := s.calls ++ [.reading scope principalId body] }
  | .advance i now => do
    let call ← s.calls[i]?
    let (shared, call') ← stepCall ids now s.shared call
    return ⟨shared, s.calls.set i call'⟩

/-! ## What is promised -/

/-- No account has more active seats than its limit, and no user has two of one account. -/
def Within (s : Shared) : Prop :=
  ∀ k account, s.accounts.get? k = some account →
    (s.activeSeats k).length ≤ account.seatLimit ∧
      ((s.activeSeats k).map SeatAssignment.userId).Nodup

/-- There is room for the seat: the account is not full, and the user has none of it. -/
def Shared.Room (s : Shared) (seat : SeatAssignment) : Prop :=
  ∀ account ∈ s.accounts.get? seat.account, (s.activeSeats seat.account).length <
    account.seatLimit ∧ seat.userId ∉ (s.activeSeats seat.account).map SeatAssignment.userId

/-- The account whose seats a call has listed, to put one for it. -/
def Call.pending : Call → Option Key
  | .saving seat => some seat.account
  | _ => none

/-- Nobody puts a seat between the list and the put of another call for the account. -/
def Alone (x : System) : Act → Prop
  | .advance i _ => ∀ call ∈ x.calls[i]?, ∀ j < x.calls.length, ∀ other ∈ x.calls[j]?,
    call.pending.isSome → other.pending = call.pending → j = i
  | .start _ _ _ => True

instance (x : System) : DecidablePred (Alone x)
  | .start _ _ _ => isTrue trivial
  | .advance i _ => inferInstanceAs (Decidable (∀ call ∈ x.calls[i]?, ∀ j < x.calls.length,
      ∀ other ∈ x.calls[j]?, call.pending.isSome → other.pending = call.pending → j = i))

variable {ids : Fresh String} {s s' : Shared} {x x' : System} {call call' : Call} {now : ℚ}
  {k : Key} {seat : SeatAssignment} {accounts : Table Key BillingAccount BillingAccount.key}

/-! ## A new seat -/

theorem activeSeats_put (hnew : s.seats.get? seat.key = none) (hactive : seat.status = "active")
    (k : Key) : Shared.activeSeats { s with seats := s.seats.put seat } k =
      s.activeSeats k ++ if seat.account = k then [seat] else [] := by
  unfold Shared.activeSeats
  rw [Table.values_put seat hnew, List.filter_append]
  by_cases hk : seat.account = k
  · simp [hk, hactive]
  · simp [hk]

theorem within_put (h : Within s) (hnew : s.seats.get? seat.key = none)
    (hactive : seat.status = "active") (hroom : s.Room seat) :
    Within { s with seats := s.seats.put seat } := by
  intro k account haccount
  obtain ⟨hlimit, hnodup⟩ := h k account haccount
  rw [activeSeats_put hnew hactive]
  by_cases hk : seat.account = k
  · subst hk
    obtain ⟨hfree, huser⟩ := hroom account haccount
    rw [if_pos rfl, List.length_append, List.length_singleton, List.map_append, List.map_singleton,
      ← List.concat_eq_append, List.nodup_concat]
    exact ⟨hfree, huser, hnodup⟩
  · rw [if_neg hk, List.append_nil]
    exact ⟨hlimit, hnodup⟩

theorem account_eq (h : seat.account = k) : seat.key.scope = k.scope ∧ seat.accountId = k.id := by
  subst h
  exact ⟨rfl, rfl⟩

/-- **What the check finds is true when it is made**: the seat is one there is room for. -/
theorem room_of_listing {account : BillingAccount} {userId principalId id : String}
    (haccount : s.accounts.get? account.key = some account)
    (hcurrent : currentSeat (s.listSeats account.key.scope) account userId = none)
    (hcount : ¬account.seatLimit ≤ activeCount (s.listSeats account.key.scope) account) :
    s.Room (newSeat id account userId principalId now) := by
  have hlisted : ∀ held ∈ s.activeSeats account.key, held ∈ s.listSeats account.key.scope ∧
      held.accountId = account.key.id ∧ held.status = "active" := by
    intro _ hheld
    obtain ⟨hmem, hheld⟩ := List.mem_filter.1 hheld
    obtain ⟨hof, hactive⟩ := of_decide_eq_true hheld
    obtain ⟨hscope, hid⟩ := account_eq hof
    refine ⟨(List.perm_insertionSort _ _).mem_iff.2 (List.mem_filter.2 ⟨hmem, ?_⟩), hid, hactive⟩
    simp [inScope, hscope]
  intro account' haccount'
  obtain rfl : account = account' := Option.some.inj (haccount.symm.trans haccount')
  constructor
  · refine lt_of_le_of_lt ?_ (not_le.1 hcount)
    unfold activeCount Shared.listSeats
    rw [(List.perm_insertionSort _ _).countP_eq, List.countP_filter, Shared.activeSeats,
      ← List.countP_eq_length_filter]
    refine List.countP_mono_left fun held _ hheld => ?_
    obtain ⟨hof, hactive⟩ := of_decide_eq_true hheld
    obtain ⟨hscope, hid⟩ : held.key.scope = account.key.scope ∧ held.accountId = account.key.id :=
      account_eq hof
    simp [hid, hactive, inScope, hscope]
  · intro huser
    obtain ⟨held, hheld, huser⟩ := List.mem_map.1 huser
    obtain ⟨hmem, hof, hactive⟩ := hlisted held hheld
    exact List.find?_eq_none.1 hcurrent held hmem (decide_eq_true ⟨hof, huser, hactive⟩)

/-! ## Runs -/

/-- The id was drawn. -/
def Drawn (ids : Fresh String) (s : Shared) (k : Key) : Prop := ids.Drawn "seat_" s.drawn k.id

/-- What a call holds: a stored account; a seat of one, with a drawn id that is not stored. -/
def Call.Ok (ids : Fresh String) (s : Shared) : Call → Prop
  | .listing account _ _ => s.accounts.get? account.key = some account
  | .saving seat => Drawn ids s seat.key ∧ s.seats.get? seat.key = none ∧ seat.status = "active"
  | _ => True

/-- What every step keeps. -/
structure Inv (ids : Fresh String) (x : System) : Prop where
  within : Within x.shared
  seats : ∀ k seat, x.shared.seats.get? k = some seat → Drawn ids x.shared k
  calls : ∀ call ∈ x.calls, call.Ok ids x.shared
  /-- No two calls are to put a seat with the same id. -/
  distinct : ∀ (i j : Nat) (a b : SeatAssignment), x.calls[i]? = some (.saving a) →
    x.calls[j]? = some (.saving b) → a.key = b.key → i = j
  /-- What a call has checked is still true. -/
  rooms : ∀ seat, .saving seat ∈ x.calls → x.shared.Room seat

/-- What a step of a call does. -/
inductive Effect (ids : Fresh String) (s : Shared) : Call → Shared → Call → Prop where
  | quiet {call call' : Call} (hcall : ∀ seat, call ≠ .saving seat) (hok : call'.Ok ids s)
      (hcall' : ∀ seat, call' ≠ .saving seat) : Effect ids s call s call'
  | checked {call : Call} {seat : SeatAssignment} (hcall : ∀ seat, call ≠ .saving seat)
      (hid : seat.key.id = "seat_" ++ ids.draw s.drawn) (hactive : seat.status = "active")
      (hroom : s.Room seat) : Effect ids s call { s with drawn := s.drawn + 1 } (.saving seat)
  | put (seat : SeatAssignment) :
      Effect ids s (.saving seat) { s with seats := s.seats.put seat } (.returned seat)

theorem stepCall_effect (hok : call.Ok ids s) (h : stepCall ids now s call = some (s', call')) :
    Effect ids s call s' call' := by
  cases call with
  | reading =>
    unfold stepCall at h
    dsimp only at h
    split at h
    · cases h
      exact .quiet nofun trivial nofun
    · rename_i account hget
      split at h <;> cases h
      · exact .quiet nofun trivial nofun
      · refine .quiet nofun ?_ nofun
        show s.accounts.get? account.key = some account
        rwa [Table.key_of_get? hget]
  | listing =>
    unfold stepCall at h
    dsimp only at h
    split at h
    · cases h
      exact .quiet nofun trivial nofun
    · rename_i hcurrent
      split at h <;> cases h
      · exact .quiet nofun trivial nofun
      · rename_i hcount
        exact .checked nofun rfl rfl (room_of_listing hok hcurrent hcount)
  | saving seat =>
    cases h
    exact .put seat
  | returned | raised => cases h

theorem Call.Ok.effect {other other' : Call} (h : call.Ok ids s) (he : Effect ids s other s' other')
    (hne : ∀ a b, call = .saving a → other = .saving b → a.key ≠ b.key) : call.Ok ids s' := by
  cases call with
  | saving seat =>
    obtain ⟨hdrawn, hnew, hactive⟩ := h
    cases he with
    | quiet => exact ⟨hdrawn, hnew, hactive⟩
    | checked => exact ⟨Fresh.Drawn.mono hdrawn (Nat.le_succ _), hnew, hactive⟩
    | put other =>
      refine ⟨hdrawn, ?_, hactive⟩
      exact (Table.get?_put_of_ne _ _ (hne seat other rfl rfl)).trans hnew
  | listing => cases he <;> exact h
  | reading | returned | raised => trivial

theorem Effect.saving {a : SeatAssignment} (he : Effect ids s call s' call')
    (h : call' = .saving a) : a.key.id = "seat_" ++ ids.draw s.drawn := by
  cases he with
  | quiet _ _ hcall' => exact absurd h (hcall' a)
  | checked _ hid =>
    cases h
    exact hid
  | put => cases h

theorem Effect.ok (hinv : ∀ k seat, s.seats.get? k = some seat → Drawn ids s k)
    (he : Effect ids s call s' call') : call'.Ok ids s' := by
  cases he with
  | quiet _ hok => exact hok
  | checked _ hid hactive =>
    refine ⟨Fresh.Drawn.last hid, ?_, hactive⟩
    cases hget : s.seats.get? _ with
    | none => rfl
    | some => exact absurd hid (Fresh.Drawn.ne (hinv _ _ hget))
  | put => trivial

theorem Effect.seats (hinv : ∀ k seat, s.seats.get? k = some seat → Drawn ids s k)
    (hok : call.Ok ids s) (he : Effect ids s call s' call') :
    ∀ k seat, s'.seats.get? k = some seat → Drawn ids s' k := by
  cases he with
  | quiet => exact hinv
  | checked => exact fun k held hget => Fresh.Drawn.mono (hinv k held hget) (Nat.le_succ _)
  | put =>
    intro k held hget
    rcases Table.get?_put_eq_some.1 hget with ⟨rfl, -⟩ | ⟨-, hget⟩
    · exact hok.1
    · exact hinv k held hget

theorem Effect.within (h : Within s) (hok : call.Ok ids s) (he : Effect ids s call s' call')
    (hroom : ∀ seat, call = .saving seat → s.Room seat) : Within s' := by
  cases he with
  | quiet | checked => exact h
  | put seat => exact within_put h hok.2.1 hok.2.2 (hroom seat rfl)

theorem Room.effect {other other' : Call} (h : s.Room seat) (hok : other.Ok ids s)
    (he : Effect ids s other s' other') (hne : other.pending ≠ some seat.account) :
    s'.Room seat := by
  cases he with
  | quiet | checked => exact h
  | put held =>
    have haccount : held.account ≠ seat.account := fun heq => hne (congrArg some heq)
    unfold Shared.Room
    rw [activeSeats_put hok.2.1 hok.2.2, if_neg haccount, List.append_nil]
    exact h

theorem Effect.room (he : Effect ids s call s' (.saving seat)) : s'.Room seat := by
  cases he with
  | quiet _ _ hcall' => exact absurd rfl (hcall' seat)
  | checked _ _ _ hroom => exact hroom

theorem Inv.distinct_set (h : Inv ids x) {i : Nat} (hcall : x.calls[i]? = some call)
    (he : Effect ids x.shared call s' call') {j l : Nat} {a b : SeatAssignment}
    (ha : (x.calls.set i call')[j]? = some (.saving a))
    (hb : (x.calls.set i call')[l]? = some (.saving b)) (hkey : a.key = b.key) : j = l := by
  have hother : ∀ (j : Nat) (a b : SeatAssignment), x.calls[j]? = some (.saving a) →
      call' = .saving b → a.key ≠ b.key := by
    intro j a b ha hb hkey
    have hdrawn : Drawn ids x.shared a.key := (h.calls _ (List.mem_of_getElem? ha)).1
    exact Fresh.Drawn.ne hdrawn ((congrArg Key.id hkey).trans (he.saving hb))
  rcases Parties.getElem?_set_cases ha with ⟨rfl, ha'⟩ | ⟨-, ha'⟩ <;>
    rcases Parties.getElem?_set_cases hb with ⟨rfl, hb'⟩ | ⟨-, hb'⟩
  · rfl
  · exact absurd hkey.symm (hother l b a hb' ha'.symm)
  · exact absurd hkey (hother j a b ha' hb'.symm)
  · exact h.distinct j l a b ha' hb' hkey

theorem inv_step {act : Act} (h : Inv ids x) (halone : Alone x act)
    (hs : step ids x act = some x') : Inv ids x' := by
  cases act with
  | start scope principalId body =>
    cases hs
    have hold : ∀ call, call ∈ x.calls ++ [.reading scope principalId body] →
        call ∈ x.calls ∨ call = .reading scope principalId body := fun _ => Parties.mem_snoc.1
    refine ⟨h.within, h.seats, fun call hcall => ?_, fun i j a b ha hb hkey => ?_,
      fun seat hseat => ?_⟩
    · rcases hold call hcall with hcall | rfl
      · exact h.calls call hcall
      · trivial
    · have hold : ∀ (i : Nat) (a : SeatAssignment),
          (x.calls ++ [.reading scope principalId body])[i]? = some (.saving a) →
            x.calls[i]? = some (.saving a) := by
        intro i a ha
        exact (Parties.getElem?_append_cases ha).resolve_left fun hnew => by cases hnew.2
      exact h.distinct i j a b (hold i a ha) (hold j b hb) hkey
    · exact h.rooms seat ((hold _ hseat).resolve_right nofun)
  | advance i =>
    simp only [step, Option.bind_eq_bind, Option.bind_eq_some_iff, Option.pure_def,
      Option.some.injEq, Prod.exists] at hs
    obtain ⟨call, hcall, _, _, hcalled, rfl⟩ := hs
    have hmem := List.mem_of_getElem? hcall
    have hok := h.calls call hmem
    have he := stepCall_effect hok hcalled
    refine ⟨he.within h.within hok fun seat hseat => h.rooms seat (hseat ▸ hmem),
      he.seats h.seats hok, fun other hother => ?_, fun j l a b => h.distinct_set hcall he,
      fun seat hseat => ?_⟩
    · obtain ⟨j, hj⟩ := List.getElem?_of_mem hother
      rcases Parties.getElem?_set_cases hj with ⟨-, rfl⟩ | ⟨hij, hj⟩
      · exact he.ok h.seats
      · refine (h.calls other (List.mem_of_getElem? hj)).effect he fun a b ha hb hkey => hij ?_
        subst ha hb
        exact (h.distinct i j b a hcall hj hkey.symm).symm
    · obtain ⟨j, hj⟩ := List.getElem?_of_mem hseat
      rcases Parties.getElem?_set_cases hj with ⟨-, rfl⟩ | ⟨hij, hj⟩
      · exact he.room
      · refine Room.effect (h.rooms seat (List.mem_of_getElem? hj)) hok he fun hpending => hij ?_
        exact halone call hcall j (List.getElem?_eq_some_iff.1 hj).1 _ hj
          (by rw [hpending]; rfl) hpending.symm

theorem inv_start : Inv ids (System.start accounts) where
  within _ _ _ := ⟨Nat.zero_le _, List.nodup_nil⟩
  seats := by simp [System.start]
  calls := by simp [System.start]
  distinct := by simp [System.start]
  rooms := by simp [System.start]

/-- **Seats stay within the limit** in every run in which nobody puts a seat between the list and
the put of another call for the account. -/
theorem seats_within (ids : Fresh String) (accounts : Table Key BillingAccount BillingAccount.key)
    (acts : List Act) (h : Along (step ids) Alone (System.start accounts) acts) :
    ∀ x ∈ states (step ids) (System.start accounts) acts, Within x.shared :=
  fun x hx => (invariant_states (I := Inv ids) (fun _ _ _ h halone hs => inv_step h halone hs)
    inv_start h x hx).within

/-- An account with a number of seats. -/
def accountOf (seatLimit : Nat) : BillingAccount :=
  ⟨⟨⟨"t", "p"⟩, "a"⟩, "pro", "EUR", "active", seatLimit, 0, 1, 0, 0, by decide⟩

/-- Ann, Bob and, once more, Ann ask for a seat: Bob lists the seats when Ann has put hers. -/
def threeAsk : List Act :=
  [.start ⟨"t", "p"⟩ "admin" ⟨"a", "ann"⟩, .start ⟨"t", "p"⟩ "admin" ⟨"a", "bob"⟩, .advance 0 1,
    .advance 1 1, .advance 0 1, .start ⟨"t", "p"⟩ "admin" ⟨"a", "ann"⟩, .advance 0 2, .advance 1 2,
    .advance 2 3, .advance 1 3, .advance 2 4]

theorem seats_within_three : ∃ x,
    exec (step Fresh.counted) (System.start (Table.empty.put (accountOf 2))) threeAsk = some x ∧
      (x.shared.activeSeats (accountOf 2).key).map SeatAssignment.userId = ["ann", "bob"] ∧
        Within x.shared := by
  obtain ⟨x, hexec, hseats⟩ := Option.map_eq_some_iff.1
    (show (exec (step Fresh.counted) (System.start (Table.empty.put (accountOf 2))) threeAsk).map
      (fun x => (x.shared.activeSeats (accountOf 2).key).map SeatAssignment.userId) =
        some ["ann", "bob"] by decide +kernel)
  exact ⟨x, hexec, hseats, seats_within Fresh.counted (Table.empty.put (accountOf 2)) threeAsk
    (by decide +kernel) x (mem_states_of_exec hexec)⟩

/-- Two users are given the last seat. -/
theorem last_seat_twice : ∃ acts, ¬∀ x ∈ states (step Fresh.counted)
    (System.start (Table.empty.put (accountOf 1))) acts, Within x.shared := by
  refine ⟨[.start ⟨"t", "p"⟩ "admin" ⟨"a", "ann"⟩, .start ⟨"t", "p"⟩ "admin" ⟨"a", "bob"⟩,
    .advance 0 1,
    .advance 1 1, .advance 0 1, .advance 1 1, .advance 0 2, .advance 1 2], fun h => ?_⟩
  obtain ⟨hlimit, -⟩ := h _ (mem_states_of_exec rfl) (accountOf 1).key (accountOf 1)
    (Table.get?_put_self _ (accountOf 1))
  exact absurd hlimit (by decide)

end Scenara.ControlPlane.Seats
