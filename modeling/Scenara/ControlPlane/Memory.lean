import Mathlib.Algebra.Order.Field.Rat
import Scenara.Core.Dict
import Scenara.Core.Parties
import Scenara.Core.Transition

/-!
# Agent memory

Model of `put_agent_memory` and `get_agent_memory` (`platform/control_plane.py`) on
`MemoryControlPlaneStore`, for calls that `_check` lets pass; the audit is left out. Each access to
the store is a step.
-/

namespace Scenara.ControlPlane.Memory

open Scenara.Core

variable {V : Type}

/-- What a call is about. -/
structure Place where
  tenantId : String
  projectId : String
  nameSpace : String
  key : String
  deriving DecidableEq

/-- `body.namespace + ':' + body.key` -/
def Place.joined (place : Place) : String := place.nameSpace ++ ":" ++ place.key

/-- The key of a record; `sha256` is `_sha(…)[:32]`. -/
def Place.record (sha256 : String → String) (place : Place) : String × String × String :=
  (place.tenantId, place.projectId, "mem_" ++ sha256 place.joined)

/-- `PutAgentMemoryRequest`, without the names. -/
structure PutAgentMemoryRequest (V : Type) where
  value : V
  ttlSeconds : Option Nat
  ttlSeconds_ge : ∀ ttl ∈ ttlSeconds, 60 ≤ ttl

/-- `AgentMemoryEntry`. -/
structure AgentMemoryEntry (V : Type) where
  place : Place
  value : V
  expiresAt : Option ℚ
  updatedBy : String
  updatedAt : ℚ
  deriving DecidableEq

/-- The entry of a request. -/
def PutAgentMemoryRequest.entry (body : PutAgentMemoryRequest V) (place : Place)
    (principalId : String) (now : ℚ) : AgentMemoryEntry V :=
  ⟨place, body.value, body.ttlSeconds.map fun ttl => now + ttl, principalId, now⟩

/-- `record.expires_at is not None and record.expires_at <= time.time()` -/
def AgentMemoryEntry.expired (now : ℚ) (entry : AgentMemoryEntry V) :
    Bool := entry.expiresAt.any (· ≤ now)

/-- What has not expired. -/
def live (now : ℚ) (entry : Option (AgentMemoryEntry V)) : Option (AgentMemoryEntry V) :=
  entry.filter fun entry => !entry.expired now

/-! ## Steps -/

/-- Where a call stands. -/
inductive Phase (V : Type) where
  /-- `put_agent_memory`, at `store.put`. -/
  | saving (principalId : String) (body : PutAgentMemoryRequest V) (now : ℚ)
  /-- `get_agent_memory`, at `store.get`. -/
  | reading
  /-- `get_agent_memory`, at `store.delete`. -/
  | deleting
  | ended

/-- What a get returns; when it read, and what had been put by then, the last first. -/
structure Answer (V : Type) where
  place : Place
  result : Option (AgentMemoryEntry V)
  now : ℚ
  puts : List (AgentMemoryEntry V)

/-- The store, its calls and what came of them. -/
structure State (V : Type) where
  clock : ℚ
  records : Dict (String × String × String) (AgentMemoryEntry V)
  calls : List (Place × Phase V)
  /-- What was put, the last first. -/
  puts : List (AgentMemoryEntry V)
  answers : List (Answer V)

namespace State

/-- Nothing stored. -/
def empty : State V := ⟨0, .empty, [], [], []⟩

/-- The places of the calls. -/
def places (s : State V) : List Place := s.calls.map Prod.fst

end State

/-- One step. -/
inductive Act (V : Type) where
  | tick (seconds : ℚ)
  | put (place : Place) (principalId : String) (body : PutAgentMemoryRequest V)
  | get (place : Place)
  | go (i : Nat)

variable (sha256 : String → String)

/-- The next access to the store. -/
def stepCall (s : State V) (place : Place) : Phase V → Option (State V × Phase V)
  | .saving principalId body now =>
    let entry := body.entry place principalId now
    some ({ s with records := s.records.insert (place.record sha256) entry, puts :=
      entry :: s.puts }, .ended)
  | .reading =>
    let record := s.records.get? (place.record sha256)
    if record.any (·.expired s.clock) then
      some ({ s with answers := ⟨place, none, s.clock, s.puts⟩ :: s.answers }, .deleting)
    else some ({ s with answers := ⟨place, record, s.clock, s.puts⟩ :: s.answers }, .ended)
  | .deleting => some ({ s with records := s.records.erase (place.record sha256) }, .ended)
  | .ended => none

/-- The state after a step, if it may be taken. -/
def step (s : State V) : Act V → Option (State V)
  | .tick seconds => if 0 ≤ seconds then some { s with clock := s.clock + seconds } else none
  | .put place principalId body =>
    some { s with calls := s.calls ++ [(place, .saving principalId body s.clock)] }
  | .get place => some { s with calls := s.calls ++ [(place, .reading)] }
  | .go i => do
    let (place, phase) ← s.calls[i]?
    let (s', phase') ← stepCall sha256 s place phase
    some { s' with calls := s.calls.set i (place, phase') }

/-! ## What is stored -/

/-- What was put last. -/
def lastPut (puts : List (AgentMemoryEntry V)) (place : Place) : Option (AgentMemoryEntry V) :=
  puts.find? (·.place = place)

/-- Every get returned what was put last for its place, if that had not expired; what was put last
is stored. -/
def Right (s : State V) : Prop :=
  (∀ a ∈ s.answers, a.result = live a.now (lastPut a.puts a.place)) ∧
    ∀ place ∈ s.places, live s.clock (s.records.get? (place.record sha256)) =
      live s.clock (lastPut s.puts place)

/-- No other place has the record. -/
def Alone (s : State V) (place : Place) : Prop :=
  ∀ other ∈ s.places, other.tenantId = place.tenantId ∧ other.projectId = place.projectId ∧
    other.joined = place.joined → other = place

/-- No two places have one record, and what is deleted has expired. -/
def Distinct (s : State V) : Act V → Prop
  | .tick _ => True
  | .put place _ _ | .get place => Alone s place
  | .go i => ∀ c ∈ s.calls[i]?, c.2 matches .deleting →
      ∀ entry ∈ s.records.get? (c.1.record sha256), entry.expired s.clock = true

variable {sha256} {s s' : State V} {place : Place}

theorem live_eq (now : ℚ) (entry : Option (AgentMemoryEntry V)) :
    live now entry = if entry.any (·.expired now) then none else entry := by
  cases entry with
  | none => rfl
  | some entry => cases hexpired : entry.expired now <;> simp [live, hexpired]

theorem live_live {now later : ℚ} (h : now ≤ later) (entry : Option (AgentMemoryEntry V)) :
    live later (live now entry) = live later entry := by
  unfold live
  rw [Option.filter_filter]
  refine congrArg (Option.filter · entry) (funext fun entry => ?_)
  have hexpired : entry.expired now = true → entry.expired later = true := by
    unfold AgentMemoryEntry.expired
    cases entry.expiresAt with
    | none => exact id
    | some => simpa using (le_trans · h)
  cases hnow : entry.expired now with
  | true => rw [hexpired hnow]; rfl
  | false => exact Bool.true_and _

/-- What the steps keep. -/
structure Inv (sha256 : String → String) (s : State V) : Prop where
  apart : ∀ place ∈ s.places, ∀ other ∈ s.places, other.record sha256 = place.record sha256 →
    other = place
  stored : ∀ k entry, s.records.get? k = some entry → entry.place ∈ s.places ∧
    k = entry.place.record sha256
  placed : ∀ entry ∈ s.puts, entry.place ∈ s.places
  right : Right sha256 s

namespace Inv

theorem call (h : Inv sha256 s) (hsha256 : Function.Injective sha256) (halone : Alone s place)
    (phase : Phase V) : Inv sha256 { s with calls := s.calls ++ [(place, phase)] } := by
  have hplaces : ({ s with calls := s.calls ++ [(place, phase)] } : State V).places = s.places ++
      [place] :=
    List.map_append
  have hrecord : ∀ other ∈ s.places, other.record sha256 = place.record sha256 → other = place := by
    intro other hother heq
    simp only [Place.record, Prod.mk.injEq, String.append_right_inj, hsha256.eq_iff] at heq
    exact halone other hother heq
  constructor
  · rw [hplaces]
    simp only [List.mem_append, List.mem_singleton]
    rintro p (hp | rfl) q (hq | rfl) heq
    · exact h.apart p hp q hq heq
    · exact (hrecord p hp heq.symm).symm
    · exact hrecord q hq heq
    · rfl
  · intro k entry hget
    rw [hplaces]
    exact ⟨List.mem_append_left _ (h.stored k entry hget).1, (h.stored k entry hget).2⟩
  · intro entry hentry
    rw [hplaces]
    exact List.mem_append_left _ (h.placed entry hentry)
  · refine ⟨h.right.1, fun p hp => ?_⟩
    rw [hplaces, List.mem_append, List.mem_singleton] at hp
    by_cases hin : p ∈ s.places
    · exact h.right.2 p hin
    · obtain rfl := hp.resolve_left hin
      have hget : s.records.get? (p.record sha256) = none := by
        refine Option.eq_none_iff_forall_ne_some.2 fun entry hget => ?_
        obtain ⟨hentry, hk⟩ := h.stored _ entry hget
        exact hin (hrecord _ hentry hk.symm ▸ hentry)
      have hlast : lastPut s.puts p = none :=
        List.find?_eq_none.2 fun entry hentry => by
          simpa using fun heq : entry.place = p => hin (heq ▸ h.placed entry hentry)
      rw [hget, hlast]

theorem step (h : Inv sha256 s) (hsha256 : Function.Injective sha256) {act : Act V}
    (hdistinct : Distinct sha256 s act) (hs : step sha256 s act = some s') : Inv sha256 s' := by
  cases act with
  | tick seconds =>
    obtain ⟨hpos, hs⟩ := Option.ite_none_right_eq_some.1 hs
    cases hs
    have hle : s.clock ≤ s.clock + seconds := le_add_of_nonneg_right hpos
    refine ⟨h.apart, h.stored, h.placed, h.right.1, fun place hplace => ?_⟩
    have hlive := congrArg (live (s.clock + seconds)) (h.right.2 place hplace)
    rwa [live_live hle, live_live hle] at hlive
  | put | get =>
    cases hs
    exact h.call hsha256 hdistinct _
  | go i =>
    simp only [Memory.step, Option.bind_eq_bind, Option.bind_eq_some_iff, Option.some.injEq,
      Prod.exists] at hs
    obtain ⟨place, phase, hcall, s', phase', hphase, rfl⟩ := hs
    have hplace : place ∈ s.places := List.mem_map_of_mem (List.mem_of_getElem? hcall)
    have hset : (s.calls.set i (place, phase')).map Prod.fst = s.places := by
      obtain ⟨hi, hcall⟩ := List.getElem?_eq_some_iff.1 hcall
      have hself := List.set_getElem_self (by simpa using hi : i < (s.calls.map Prod.fst).length)
      rw [List.getElem_map, hcall] at hself
      exact List.map_set.trans hself
    have hother : ∀ q ∈ s.places, q ≠ place → q.record sha256 ≠ place.record sha256 :=
      fun q hq hne heq => hne (h.apart place hplace q hq heq)
    suffices hinv : Inv sha256 { s' with calls := s.calls } by
      obtain ⟨_, _⟩ := hinv
      constructor <;> simp only [State.places, Right] at * <;> rwa [hset]
    cases phase with
    | saving =>
      cases hphase
      refine ⟨h.apart, fun k entry hget => ?_, fun entry hentry => ?_, h.right.1, fun q hq => ?_⟩
      · rcases Dict.get?_insert_cases hget with ⟨rfl, rfl⟩ | ⟨-, hget⟩
        · exact ⟨hplace, rfl⟩
        · exact h.stored k entry hget
      · rcases List.mem_cons.1 hentry with rfl | hentry
        · exact hplace
        · exact h.placed entry hentry
      · by_cases hq' : q = place
        · subst hq'
          simp [lastPut, PutAgentMemoryRequest.entry]
        · have hlast := h.right.2 q hq
          unfold lastPut at hlast ⊢
          rwa [Dict.get?_insert_of_ne _ _ (hother q hq hq'),
            List.find?_cons_of_neg (by simpa [PutAgentMemoryRequest.entry] using Ne.symm hq')]
    | reading =>
      have hright := h.right.2 place hplace
      unfold stepCall at hphase
      dsimp only at hphase
      split at hphase
      all_goals
        rename_i hexpired
        cases hphase
        refine ⟨h.apart, h.stored, h.placed, fun a ha => ?_, h.right.2⟩
        rcases List.mem_cons.1 ha with rfl | ha
        · rw [← hright, live_eq]
          simp only [hexpired]
          rfl
        · exact h.right.1 a ha
    | deleting =>
      cases hphase
      refine ⟨h.apart, fun k entry hget => h.stored k entry (Dict.get?_erase_some hget).2, h.placed,
        h.right.1,
        fun q hq => ?_⟩
      by_cases hq' : q = place
      · subst hq'
        have hexpired := hdistinct _ hcall rfl
        rw [Dict.get?_erase_self, ← h.right.2 q hq]
        exact (Option.filter_eq_none_iff.2 fun entry hentry => by simp [hexpired entry hentry]).symm
      · rw [Dict.get?_erase_of_ne _ (hother q hq hq')]
        exact h.right.2 q hq
    | ended => cases hphase

end Inv

/-- **Agent memory is a map with expiry** along every run in which no two places have one record and
no get deletes what has not expired. -/
theorem right_of_distinct (sha256 : String → String) (hsha256 : Function.Injective sha256)
    (acts : List (Act V)) (h : Along (step sha256) (Distinct sha256) .empty acts) :
      ∀ s ∈ states (step sha256) .empty acts, Right sha256 s := by
  have hempty : Inv sha256 (.empty : State V) := by
    constructor <;> simp [State.empty, State.places, Right]
  exact fun s hs => (invariant_states (fun s act s' hinv hdistinct hs =>
    hinv.step hsha256 hdistinct hs) hempty h s hs).right

instance (s : State V) : ∀ act, Decidable (Distinct sha256 s act)
  | .tick _ => isTrue trivial
  | .put _ _ _ | .get _ => inferInstanceAs (Decidable (∀ _ ∈ _, _ → _))
  | .go _ => inferInstanceAs (Decidable (∀ _ ∈ _, _ → _))

instance [DecidableEq V] (s : State V) :
    Decidable (Right sha256 s) := inferInstanceAs (Decidable (_ ∧ _))

/-- A place. -/
def noted : Place := ⟨"acme", "gate", "shift", "a:b"⟩

/-- One minute. -/
def noting (value : Nat) : PutAgentMemoryRequest Nat := ⟨value, some 60, by simp⟩

/-- An entry is read in time and after it. -/
def notedActs : List (Act Nat) :=
  [.put noted "usr_1" (noting 1), .go 0, .get noted, .go 1, .tick 60, .get noted, .go 2, .go 2]

theorem noted_right : Along (step id) (Distinct id) .empty notedActs ∧
    ∀ s ∈ states (step id) .empty notedActs, Right id s :=
  ⟨by decide +kernel, right_of_distinct id Function.injective_id _ (by decide +kernel)⟩

/-- **A value of other names, and a value that was deleted.** A get reads the value put under names
that join to the same text; one that read an expired value deletes what was put before its
`store.delete`. -/
theorem memory_lost :
    (∃ s ∈ states (step id) .empty
        [.put noted "usr_1" (noting 1), .go 0, .get ⟨"acme", "gate", "shift:a", "b"⟩, .go 1],
        ¬Right id s) ∧
      ∃ s ∈ states (step id) .empty [.put noted "usr_1" (noting 1), .go 0, .tick 60,
        .get noted, .go 1,
        .put noted "usr_1" (noting 2), .go 2, .go 1, .get noted, .go 3], ¬Right id s :=
  ⟨states_decide (by decide +kernel), states_decide (by decide +kernel)⟩

end Scenara.ControlPlane.Memory
