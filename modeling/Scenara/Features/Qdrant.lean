import Scenara.Core.Parties
import Scenara.Core.Transition
import Scenara.Features.Model

/-!
# Creating a feature space in Qdrant

Model of `create_space` and `get_space` of `QdrantFeatureStore`
(`infrastructure/qdrant_features.py`) for one `feature_space_id`.

* The calls of all processes go request by request (`stepCall`). A request may fail (`Fault`),
  whether it took effect or not.
-/

namespace Scenara.Features.Qdrant

open Scenara.Core

/-! ## Requests -/

/-- A request that raised `FeatureStoreError`. -/
structure Fault where
  tookEffect : Bool
  /-- `"(404)" in str(exc)`. -/
  notFound : Bool
  /-- `"(409)" in str(exc)`. -/
  conflict : Bool
  message : String

/-- The collection, if there is one, with the payload of its metadata point; `_spaces` of each
process. -/
structure Stores where
  collection : Option (Option FeatureSpace)
  spaces : Nat → Option FeatureSpace

/-- The contract that Qdrant has. -/
def Stores.stored (q : Stores) : Option FeatureSpace := q.collection.join

/-- `self._spaces[space.feature_space_id] = space`. -/
def Stores.keep (q : Stores) (process : Nat) (space : FeatureSpace) : Stores :=
  { q with spaces := Function.update q.spaces process (some space) }

/-- The collection is put; one that exists stays. -/
def Stores.putCollection (q : Stores) :
    Stores := { q with collection := q.collection.or (some none) }

/-- The metadata point is put. -/
def Stores.putPoint (q : Stores) (space : FeatureSpace) : Stores :=
  { q with collection := q.collection.map fun _ => some space }

/-- `get_space`. -/
def getSpace (q : Stores) (process : Nat) (fault : Option Fault) :
    Except String (Option FeatureSpace) × Stores :=
  match q.spaces process with
  | some space => (.ok (some space), q)
  | none =>
    match fault with
    | some fault => (if fault.notFound then .ok none else .error fault.message, q)
    | none =>
      match q.stored with
      | none => (.ok none, q)
      | some space => (.ok (some space), q.keep process space)

/-! ## Calls -/

/-- Where a call of `create_space` is. -/
inductive Phase where
  | looking
  | creating
  | lookingAgain
  | pointing
  | returned (space : FeatureSpace)
  | raised (message : String)

/-- A `create_space`, in a process. -/
structure Call where
  process : Nat
  space : FeatureSpace
  phase : Phase

/-- What a call does after `get_space`. -/
def Call.look (call : Call) (q : Stores) (fault : Option Fault) (absent : Phase) : Stores × Phase :=
  match getSpace q call.process fault with
  | (.error message, q) => (q, .raised message)
  | (.ok none, q) => (q, absent)
  | (.ok (some existing), q) =>
    (q, if existing.contract ≠ call.space.contract then
      .raised "feature space already exists with a different contract" else .returned existing)

/-- `create_space`, one request. -/
def stepCall (q : Stores) (call : Call) (fault : Option Fault) : Option (Stores × Phase) :=
  match call.phase with
  | .looking => some (call.look q fault .creating)
  | .creating =>
    match fault with
    | some fault => some (if fault.tookEffect then q.putCollection else q,
        if fault.conflict then .lookingAgain else .raised fault.message)
    | none => some (q.putCollection, if q.collection.isSome then .lookingAgain else .pointing)
  | .lookingAgain =>
    some (call.look q fault (.raised "feature space collection exists without a Scenara contract"))
  | .pointing =>
    -- The call made the collection itself, so the vector of the point has its size.
    match fault with
    | some fault => some (if fault.tookEffect then q.putPoint call.space else q,
        .raised fault.message)
    | none => some ((q.putPoint call.space).keep call.process call.space, .returned call.space)
  | .returned _ | .raised _ => none

/-- A call that is alone, for `n` requests of which none fails. -/
def finish : Nat → Stores → Call → Stores × Phase
  | 0, q, call => (q, call.phase)
  | n + 1, q, call =>
    match stepCall q call none with
    | none => (q, call.phase)
    | some (q, phase) => finish n q { call with phase }

/-- `create_space`, alone and with no request failing. -/
def createSpace (q : Stores) (process : Nat) (space : FeatureSpace) : Stores × Phase :=
  finish 3 q ⟨process, space, .looking⟩

/-! ## Runs -/

/-- The stores and the calls. -/
structure State where
  stores : Stores
  calls : List Call

/-- One step; a request may fail. -/
inductive Act where
  | create (process : Nat) (space : FeatureSpace)
  | advance (i : Nat) (fault : Option Fault)

/-- The calls all name one `feature_space_id`. -/
def step (x : State) : Act → Option State
  | .create process space =>
    if x.calls.all (·.space.featureSpaceId = space.featureSpaceId) then
      some { x with calls := x.calls ++ [⟨process, space, .looking⟩] }
    else none
  | .advance i fault => do
    let call ← x.calls[i]?
    let (stores, phase) ← stepCall x.stores call fault
    some { stores, calls := x.calls.set i { call with phase } }

/-- Nothing is there. -/
def start : State := ⟨⟨none, fun _ => none⟩, []⟩

/-! ## What one request can do -/

/-- What a step of a call does. -/
inductive Goes (q : Stores) (call : Call) : Stores → Phase → Prop
  | still {phase} : phase ≠ .pointing → Goes q call q phase
  /-- `get_space` keeps what Qdrant has. -/
  | kept {space phase} : q.stored = some space → phase ≠ .pointing →
      Goes q call (q.keep call.process space) phase
  /-- There was no collection. -/
  | created {phase} : q.collection = none → Goes q call { q with collection := some none } phase
  /-- The metadata point is there, and the call may have kept its space. -/
  | pointed {q' phase} : call.phase = .pointing → phase ≠ .pointing →
      q' = q.putPoint call.space ∨ q' = (q.putPoint call.space).keep call.process call.space →
      Goes q call q' phase

variable {q q' : Stores} {call : Call} {fault : Option Fault} {phase : Phase} {space : FeatureSpace}
  {process : Nat} {x y : State}

theorem goes_look (q : Stores) (call : Call) (fault : Option Fault) (habsent : phase ≠ .pointing) :
    Goes q call (call.look q fault phase).1 (call.look q fault phase).2 := by
  have hfound : ∀ existing : FeatureSpace, (if existing.contract ≠ call.space.contract then
        .raised "feature space already exists with a different contract" else .returned existing) ≠
      Phase.pointing := by
    intro _
    split <;> simp
  unfold Call.look getSpace
  cases hspace : q.spaces call.process with
  | some existing => exact .still (hfound existing)
  | none =>
    cases fault with
    | some fault =>
      obtain ⟨_, notFound, _, message⟩ := fault
      cases notFound with
      | false => exact .still (show Phase.raised message ≠ _ by simp)
      | true => exact .still habsent
    | none =>
      cases hstored : q.stored with
      | none => exact .still habsent
      | some existing => exact .kept hstored (hfound existing)

theorem goes_putCollection (h : q.collection.isSome = true → phase ≠ .pointing) :
    Goes q call q.putCollection phase := by
  unfold Stores.putCollection
  cases hcollection : q.collection with
  | none => exact .created hcollection
  | some =>
    rw [Option.some_or, ← hcollection]
    exact .still (h (by rw [hcollection]; rfl))

theorem goes_of_stepCall (h : stepCall q call fault = some (q', phase)) : Goes q call q' phase := by
  unfold stepCall at h
  cases hphase : call.phase <;> simp only [hphase] at h
  case looking =>
    have hgoes := goes_look q call fault (show Phase.creating ≠ .pointing by simp)
    rwa [Option.some.inj h] at hgoes
  case lookingAgain =>
    have hgoes := goes_look q call fault
      (show Phase.raised "feature space collection exists without a Scenara contract" ≠
        .pointing by simp)
    rwa [Option.some.inj h] at hgoes
  case creating =>
    cases fault with
    | none =>
      cases h
      exact goes_putCollection fun hsome => by simp [hsome]
    | some fault =>
      cases h
      have hother : (if fault.conflict then Phase.lookingAgain else .raised fault.message) ≠
          .pointing := by
        split <;> simp
      split
      · exact goes_putCollection fun _ => hother
      · exact .still hother
  case pointing =>
    cases fault with
    | none =>
      cases h
      exact .pointed hphase (by simp) (.inr rfl)
    | some =>
      cases h
      split
      · exact .pointed hphase (by simp) (.inl rfl)
      · exact .still (by simp)
  all_goals cases h

/-! ## What holds of every state -/

/-- What a process has kept is what Qdrant has. -/
def Stores.Sound (q : Stores) : Prop := ∀ process space, q.spaces process = some space →
    q.stored = some space

/-- What every step keeps. -/
structure Inv (x : State) : Prop where
  sound : x.stores.Sound
  pointing : ∀ c ∈ x.calls, c.phase = .pointing → x.stores.collection = some none
  /-- Only one call puts the metadata point. -/
  apart : Parties.Apart (fun c d => c.phase = .pointing → d.phase ≠ .pointing) x.calls
  owned : ∀ space, x.stores.stored = some space → ∃ c ∈ x.calls, c.space = space

theorem Stores.Sound.keep (h : q.Sound) (process : Nat) (hstored : q.stored = some space) :
    (q.keep process space).Sound := by
  intro other kept hkept
  simp only [Stores.keep, Function.update_apply] at hkept
  split at hkept
  · exact hstored.trans hkept
  · exact h other kept hkept

theorem Stores.Sound.nothing (h : q.Sound) (hstored : q.stored = none) :
    ∀ other, q.spaces other = none := by
  intro other
  cases hother : q.spaces other with
  | none => rfl
  | some kept => rw [h other kept hother] at hstored; cases hstored

theorem Stores.Sound.putPoint (h : q.Sound) (space : FeatureSpace)
    (hcollection : q.collection = some none) :
    (q.putPoint space).Sound ∧ (q.putPoint space).stored = some space := by
  refine ⟨fun other kept hkept => ?_, by simp [Stores.putPoint, Stores.stored, hcollection]⟩
  have hnone := h.nothing (by rw [Stores.stored, hcollection]; rfl) other
  cases hnone.symm.trans hkept

theorem Goes.sound (h : Goes q call q' phase) (hsound : q.Sound)
    (hpointing : call.phase = .pointing → q.collection = some none) :
    q'.Sound ∧ (∀ space, q'.stored = some space → q.stored = some space ∨ call.space = space) ∧
      (q.collection = some none → q'.collection = some none ∨ call.phase = .pointing ∧
        phase ≠ .pointing) ∧
      (phase = .pointing → q.collection = none ∧ q'.collection = some none) ∧
      ∀ space, q.stored = some space → q'.stored = some space := by
  cases h with
  | still hphase => exact ⟨hsound, fun _ h => .inl h, .inl, fun h => absurd h hphase, fun _ h => h⟩
  | kept hstored hphase =>
    exact ⟨hsound.keep _ hstored, fun _ h => .inl h, .inl, fun h => absurd h hphase, fun _ h => h⟩
  | created hnone =>
    have hstored : q.stored = none := by rw [Stores.stored, hnone]; rfl
    refine ⟨fun other kept hkept => ?_, nofun, fun _ => .inl rfl, fun _ => ⟨hnone, rfl⟩, ?_⟩
    · cases (hsound.nothing hstored other).symm.trans hkept
    · intro _ h
      cases hstored.symm.trans h
  | pointed hcall hphase hq =>
    obtain ⟨hput, hstored⟩ := hsound.putPoint call.space (hpointing hcall)
    have hnone : ∀ space, q.stored ≠ some space := fun space h => by
      simp [Stores.stored, hpointing hcall] at h
    have hq' : q'.Sound ∧ q'.stored = some call.space := by
      rcases hq with rfl | rfl
      · exact ⟨hput, hstored⟩
      · exact ⟨hput.keep _ hstored, hstored⟩
    exact ⟨hq'.1, fun space h => .inr (Option.some.inj (hq'.2.symm.trans h)),
      fun _ => .inr ⟨hcall, hphase⟩,
      fun h => absurd h hphase, fun space h => absurd h (hnone space)⟩

theorem Inv.start : Inv start where
  sound := fun _ _ h => by cases h
  pointing := fun _ h => by cases h
  apart := .nil
  owned := nofun

theorem Inv.step {a : Act} (h : Inv x) (hstep : step x a = some y) :
    Inv y ∧ ∀ space, x.stores.stored = some space → y.stores.stored = some space := by
  cases a with
  | create _ space =>
    rw [Qdrant.step] at hstep
    split at hstep <;> cases hstep
    refine ⟨⟨h.sound, fun c hc hpointing => ?_, h.apart.append (fun a b hab hb ha => hab ha hb) ?_,
      ?_⟩, fun _ h => h⟩
    · rcases Parties.mem_snoc.1 hc with hc | rfl
      · exact h.pointing c hc hpointing
      · cases hpointing
    · intro c _ hlooking
      cases hlooking
    · intro space hstored
      obtain ⟨c, hc, hspace⟩ := h.owned space hstored
      exact ⟨c, List.mem_append_left _ hc, hspace⟩
  | advance i =>
    obtain ⟨call, hcall, hstep⟩ := Option.bind_eq_some_iff.1 hstep
    obtain ⟨⟨_, phase⟩, hgoes, hstep⟩ := Option.bind_eq_some_iff.1 hstep
    cases hstep
    obtain ⟨hsound, howned, hcollection, hmade, hstays⟩ :=
      (goes_of_stepCall hgoes).sound h.sound (h.pointing call (List.mem_of_getElem? hcall))
    -- A call that makes the collection finds no other one putting the metadata point.
    have hothers : ∀ j d, j ≠ i → x.calls[j]? = some d → phase = .pointing →
        d.phase ≠ .pointing := by
      intro j d _ hd hphase hpointing
      cases (hmade hphase).1.symm.trans (h.pointing d (List.mem_of_getElem? hd) hpointing)
    refine ⟨⟨hsound, fun c hc hpointing => ?_, h.apart.set (fun a b hab hb ha => hab ha hb) hothers,
      ?_⟩, hstays⟩
    · obtain ⟨j, hj⟩ := List.getElem?_of_mem hc
      rcases Parties.getElem?_set_cases hj with ⟨-, rfl⟩ | ⟨hji, hj⟩
      · exact (hmade hpointing).2
      · refine (hcollection (h.pointing c (List.mem_of_getElem? hj) hpointing)).resolve_right
          fun hput => ?_
        exact h.apart j i c call hj hcall hji hpointing hput.1
    · intro space hstored
      rcases howned space hstored with hstored | rfl
      · exact Parties.exists_set hcall id (h.owned space hstored)
      · exact ⟨_, List.mem_of_getElem? (Parties.getElem?_set_same hcall), rfl⟩

/-! ## The next call -/

theorem getSpace_of_stored (h : q.Sound) (hstored : q.stored = some space) :
    (getSpace q process none).1 = .ok (some space) := by
  unfold getSpace
  cases hspace : q.spaces process with
  | none => simp [hstored]
  | some kept => rw [← (h process kept hspace).symm.trans hstored]

theorem createSpace_stored {existing : FeatureSpace} (process : Nat) (h : q.Sound)
    (hstored : q.stored = some existing) (hsame : existing.contract = space.contract) :
    ∃ q', createSpace q process space = (q', .returned existing) ∧ q'.Sound ∧
      q'.stored = some existing := by
  cases hspace : q.spaces process with
  | none =>
    refine ⟨_, ?_, h.keep process hstored, hstored⟩
    simp [createSpace, finish, stepCall, Call.look, getSpace, hspace, hstored, hsame]
  | some kept =>
    obtain rfl := Option.some.inj ((h process kept hspace).symm.trans hstored)
    exact ⟨q, by simp [createSpace, finish, stepCall, Call.look, getSpace, hspace, hsame], h,
      hstored⟩

/-- **Recovery.** A stored contract stays. After calls that all name one contract, a call that
nothing fails in stores it for every process; it raises if the collection is there without its
metadata point. -/
theorem create_recovers {as : List Act} (h : exec step start as = some x) (process : Nat)
    (space : FeatureSpace) :
    (∀ a y stored, step x a = some y → x.stores.stored = some stored →
      y.stores.stored = some stored) ∧
    (x.stores.collection = some none → (createSpace x.stores process space).2 =
      .raised "feature space collection exists without a Scenara contract") ∧
    ((∀ c ∈ x.calls, c.space.contract = space.contract) → x.stores.collection ≠ some none →
      ∃ q' existing, createSpace x.stores process space = (q', .returned existing) ∧
        existing.contract = space.contract ∧ ∀ other, (getSpace q' other none).1 =
          .ok (some existing)) := by
  have hinv : Inv x := invariant_exec (I := Inv) (P := fun _ _ => True) (fun _ _ _ hI _ hs =>
    (hI.step hs).1) Inv.start (along_of_forall (fun _ _ => trivial) _ _) h
  refine ⟨fun a y stored hstep => (hinv.step hstep).2 stored, fun hcollection => ?_,
    fun hsame hcollection => ?_⟩
  · have hstored : x.stores.stored = none := by rw [Stores.stored, hcollection]; rfl
    simp [createSpace, finish, stepCall, Call.look, getSpace, hinv.sound.nothing hstored,
      Stores.putCollection, hcollection, Stores.stored]
  · cases hthere : x.stores.collection with
    | none =>
      have hstored : x.stores.stored = none := by rw [Stores.stored, hthere]; rfl
      have hmade : x.stores.putCollection.Sound := fun other kept hkept => by
        cases (hinv.sound.nothing hstored other).symm.trans hkept
      obtain ⟨hput, hpoint⟩ := hmade.putPoint space (by rw [Stores.putCollection, hthere]; rfl)
      refine ⟨_, space, ?_, rfl, fun other => getSpace_of_stored (hput.keep process hpoint) hpoint⟩
      simp [createSpace, finish, stepCall, Call.look, getSpace, hinv.sound.nothing hstored, hstored,
        hthere]
    | some point =>
      cases point with
      | none => exact absurd hthere hcollection
      | some existing =>
        have hstored : x.stores.stored = some existing := by rw [Stores.stored, hthere]; rfl
        obtain ⟨c, hc, rfl⟩ := hinv.owned existing hstored
        obtain ⟨q', hcall, hsound, hstored⟩ := createSpace_stored process hinv.sound hstored
          (hsame c hc)
        exact ⟨q', c.space, hcall, hsame c hc, fun other => getSpace_of_stored hsound hstored⟩

/-- A space of faces. -/
def faces : FeatureSpace := ⟨"faces", "portrait", "face", "arcface", "1.0.0", 512, .cosine, none, 0⟩

/-- Qdrant is away. -/
def unavailable : Fault := ⟨false, false, false, "Qdrant is unavailable"⟩

/-- A call that failed in its first request, and the next one. -/
theorem create_recovers_faces : ∃ x existing,
    exec step start [.create 0 faces, .advance 0 (some unavailable)] = some x ∧
      (createSpace x.stores 1 faces).2 = .returned existing := by
  have hrun : exec step start [.create 0 faces, .advance 0 (some unavailable)] =
      some ⟨⟨none, fun _ => none⟩, [⟨0, faces, .raised "Qdrant is unavailable"⟩]⟩ := rfl
  obtain ⟨_, existing, hcall, -⟩ := (create_recovers hrun 1 faces).2.2 (by simp) (by simp)
  exact ⟨_, existing, hrun, by rw [hcall]⟩

/-- The metadata point was not put: the same call raises from then on, in every process. -/
theorem create_stranded : ∃ as x, exec step start as = some x ∧
    x.calls = [⟨0, faces, .raised "Qdrant is unavailable"⟩] ∧
    ∀ process, createSpace x.stores process faces =
      (x.stores, .raised "feature space collection exists without a Scenara contract") :=
  ⟨[.create 0 faces, .advance 0 none, .advance 0 none, .advance 0 (some unavailable)],
    ⟨⟨some none, fun _ => none⟩, [⟨0, faces, .raised "Qdrant is unavailable"⟩]⟩, rfl, rfl,
    fun _ => rfl⟩

end Scenara.Features.Qdrant
