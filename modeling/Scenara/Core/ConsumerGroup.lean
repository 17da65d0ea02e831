import Scenara.Core.Parties
import Mathlib.Order.Nat

/-!
# A stream with a consumer group

A Redis stream that one group of consumers reads. Its ids count.

* `Lane.Ok`: ids in order. Every command keeps it.
* `Kept`: every entry that is not among `done` is in the stream, and unread or pending.
  `kept_xadd_iff`: a trim must take none but these; the other commands keep it, and `xack` the rest.
-/

namespace Scenara.Core

variable {F : Type*}

/-- An entry of a stream. -/
structure Entry (F : Type*) where
  id : Nat
  fields : F
  deriving DecidableEq

/-- An entry that was delivered and not acknowledged: to whom and when. -/
structure Pending where
  id : Nat
  consumer : String
  deliveredAt : Nat
  deriving DecidableEq

/-- A stream with one consumer group. -/
structure Lane (F : Type*) where
  entries : List (Entry F)
  lastId : Nat
  lastDelivered : Nat
  pending : List Pending
  deriving DecidableEq

namespace Lane

/-- A stream and a group that starts at `0`. -/
def empty : Lane F := ⟨[], 0, 0, []⟩

/-- The entry, if it is still there. -/
def stored (s : Lane F) (id : Nat) : Option (Entry F) := s.entries.find? fun e => e.id = id

/-- The entry is pending. -/
def isPending (s : Lane F) (id : Nat) : Bool := s.pending.any fun p => p.id = id

/-- The entry is dropped from the pending list. -/
def forget (s : Lane F) (id : Nat) : Lane F :=
  { s with pending := s.pending.filter fun p => p.id ≠ id }

/-- The entry is pending for this consumer, as of now. -/
def hold (s : Lane F) (consumer : String) (now id : Nat) : Lane F :=
  { s with pending := s.pending.map fun p => if p.id = id then ⟨id, consumer, now⟩ else p }

/-- The entries and a new one. -/
def appended (s : Lane F) (fields : F) : List (Entry F) := s.entries ++ [⟨s.lastId + 1, fields⟩]

/-- `XADD`, and the number of entries that its trim removes. -/
def xadd (s : Lane F) (fields : F) (trimmed : Nat) : Lane F :=
  { s with
    entries := (s.appended fields).drop trimmed
    lastId := s.lastId + 1 }

/-- `XREADGROUP ... COUNT 1 STREAMS ... >`. -/
def xreadgroup (s : Lane F) (consumer : String) (now : Nat) : Lane F × Option (Entry F) :=
  match s.entries.find? fun e => s.lastDelivered < e.id with
  | none => (s, none)
  | some e =>
    ({ s with lastDelivered := e.id, pending := s.pending ++ [⟨e.id, consumer, now⟩] }, some e)

/-- `XCLAIM ... 0 id JUSTID`; whether it returns the id. -/
def xclaim (s : Lane F) (consumer : String) (now id : Nat) : Lane F × Bool :=
  if s.isPending id then
    match s.stored id with
    | none => (s.forget id, false)
    | some _ => (s.hold consumer now id, true)
  else (s, false)

/-- `XAUTOCLAIM ... minIdle 0-0 COUNT 1`. -/
def xautoclaim (s : Lane F) (consumer : String) (minIdle now : Nat) : Lane F × Option (Entry F) :=
  match (s.pending.take 10).find? fun p =>
      (s.stored p.id).isNone || p.deliveredAt + minIdle ≤ now with
  | none => (s, none)
  | some p =>
    match s.stored p.id with
    | none => (s.forget p.id, none)
    | some e => (s.hold consumer now p.id, some e)

/-- `XACK`; whether it acknowledges anything. -/
def xack (s : Lane F) (id : Nat) : Lane F × Bool := (s.forget id, s.isPending id)

/-! ## Ids -/

variable {s s' : Lane F} {consumer : String} {now minIdle id other : Nat} {fields : F} {e : Entry F}
  {done : List Nat}

/-- Ids are in order, and what is pending was delivered. -/
structure Ok (s : Lane F) : Prop where
  sorted : s.entries.Pairwise fun a b => a.id < b.id
  bound : ∀ e ∈ s.entries, 0 < e.id ∧ e.id ≤ s.lastId
  delivered : s.lastDelivered ≤ s.lastId
  pending : ∀ p ∈ s.pending, 0 < p.id ∧ p.id ≤ s.lastDelivered

theorem Ok.empty : (empty : Lane F).Ok :=
  ⟨List.Pairwise.nil, fun _ he => (List.not_mem_nil he).elim, le_rfl,
    fun _ hp => (List.not_mem_nil hp).elim⟩

theorem isPending_iff : s.isPending id = true ↔ ∃ p ∈ s.pending, p.id = id := by
  simp [isPending]

@[simp] theorem isPending_forget : (s.forget id).isPending other = true ↔
    s.isPending other = true ∧ other ≠ id := by
  simp only [isPending_iff, forget, List.mem_filter, decide_eq_true_eq]
  constructor
  · rintro ⟨p, ⟨hp, hne⟩, rfl⟩
    exact ⟨⟨p, hp, rfl⟩, hne⟩
  · rintro ⟨⟨p, hp, rfl⟩, hne⟩
    exact ⟨p, ⟨hp, hne⟩, rfl⟩

@[simp] theorem isPending_hold : (s.hold consumer now id).isPending other = s.isPending other := by
  rw [Bool.eq_iff_iff, isPending_iff, isPending_iff]
  simp only [hold, List.mem_map]
  constructor
  · rintro ⟨_, ⟨p, hp, rfl⟩, rfl⟩
    refine ⟨p, hp, ?_⟩
    split <;> simp_all
  · rintro ⟨p, hp, rfl⟩
    refine ⟨_, ⟨p, hp, rfl⟩, ?_⟩
    split <;> simp_all

@[simp] theorem stored_hold : (s.hold consumer now id).stored other = s.stored other := rfl

theorem stored_isSome : (s.stored id).isSome = true ↔ ∃ e ∈ s.entries, e.id = id := by
  simp [stored, List.find?_isSome]

theorem id_of_stored (h : s.stored id = some e) : e.id = id := by
  have hid := List.find?_some h
  simpa using hid

theorem Ok.forget (h : s.Ok) (id : Nat) : (s.forget id).Ok :=
  ⟨h.sorted, h.bound, h.delivered, fun p hp => h.pending p (List.mem_of_mem_filter hp)⟩

theorem Ok.hold (h : s.Ok) (consumer : String) (now id : Nat) : (s.hold consumer now id).Ok := by
  refine ⟨h.sorted, h.bound, h.delivered, fun q hq => ?_⟩
  obtain ⟨p, hp, rfl⟩ := List.mem_map.1 hq
  have hid : (if p.id = id then (⟨id, consumer, now⟩ : Pending) else p).id = p.id := by
    split <;> simp_all
  rw [hid]
  exact h.pending p hp

theorem Ok.xadd (h : s.Ok) (fields : F) (trimmed : Nat) : (s.xadd fields trimmed).Ok where
  sorted := by
    refine List.Pairwise.sublist (List.drop_sublist _ _)
      (List.pairwise_append.2 ⟨h.sorted, List.pairwise_singleton _ _, fun a ha b hb => ?_⟩)
    rw [List.mem_singleton.1 hb]
    exact Nat.lt_succ_of_le (h.bound a ha).2
  bound e he := by
    rcases List.mem_append.1 (List.mem_of_mem_drop he) with he | he
    · exact ⟨(h.bound e he).1, (h.bound e he).2.trans (Nat.le_succ _)⟩
    · rw [List.mem_singleton.1 he]
      exact ⟨Nat.succ_pos _, le_rfl⟩
  delivered := h.delivered.trans (Nat.le_succ _)
  pending := h.pending

/-! ## What the commands do -/

theorem xreadgroup_cases (s : Lane F) (consumer : String) (now : Nat) :
    (∃ e ∈ s.entries, s.lastDelivered < e.id ∧
      (∀ a ∈ s.entries, s.lastDelivered < a.id → s.Ok → e.id ≤ a.id) ∧
      s.xreadgroup consumer now =
        ({ s with lastDelivered := e.id, pending := s.pending ++ [⟨e.id, consumer, now⟩] },
          some e)) ∨
    s.xreadgroup consumer now = (s, none) := by
  rw [xreadgroup]
  split
  · exact .inr rfl
  · rename_i e hfind
    have hlt := List.find?_some hfind
    refine .inl ⟨e, List.mem_of_find?_eq_some hfind, by simpa using hlt,
      fun a ha hdelivered hok => ?_, rfl⟩
    obtain ⟨_, _, hsplit, hbefore⟩ := (List.find?_eq_some_iff_append.1 hfind).2
    have hsorted := hok.sorted
    rw [hsplit] at ha hsorted
    rcases List.mem_append.1 ha with ha | ha
    · exact absurd (decide_eq_true hdelivered) (by simpa using hbefore a ha)
    · rcases List.mem_cons.1 ha with rfl | ha
      · exact le_rfl
      · exact ((List.pairwise_cons.1 (List.pairwise_append.1 hsorted).2.1).1 a ha).le

/-- `XAUTOCLAIM` takes an entry over, drops one that was trimmed, or finds nothing. -/
theorem xautoclaim_cases (s : Lane F) (consumer : String) (minIdle now : Nat) :
    (∃ e, s.isPending e.id = true ∧ s.stored e.id = some e ∧
      s.xautoclaim consumer minIdle now = (s.hold consumer now e.id, some e)) ∨
    (∃ id, s.isPending id = true ∧ s.stored id = none ∧
      s.xautoclaim consumer minIdle now = (s.forget id, none)) ∨
    s.xautoclaim consumer minIdle now = (s, none) := by
  rw [xautoclaim]
  split
  · exact .inr (.inr rfl)
  · rename_i p hfind
    have hpending : s.isPending p.id = true :=
      isPending_iff.2 ⟨p, List.mem_of_mem_take (List.mem_of_find?_eq_some hfind), rfl⟩
    cases hstored : s.stored p.id with
    | none => exact .inr (.inl ⟨p.id, hpending, hstored, rfl⟩)
    | some e =>
      have hid := id_of_stored hstored
      refine .inl ⟨e, ?_, ?_, ?_⟩ <;> rw [hid]
      · exact hpending
      · exact hstored

/-! ## What is kept -/

/-- Whoever is not done is in the stream, and unread or pending. -/
def Kept (done : List Nat) (s : Lane F) : Prop :=
  ∀ id, 0 < id → id ≤ s.lastId → id ∉ done →
    (s.stored id).isSome = true ∧ (s.lastDelivered < id ∨ s.isPending id = true)

theorem Kept.empty : Kept [] (empty : Lane F) := fun _ hpos hle => absurd hpos (Nat.not_lt.2 hle)

theorem kept_xadd_iff (h : Kept done s) (hok : s.Ok) (trimmed : Nat) :
    Kept done (s.xadd fields trimmed) ↔
      ∀ e ∈ (s.appended fields).take trimmed, e.id ∈ done := by
  have hsorted := (hok.xadd fields 0).sorted
  rw [xadd, List.drop_zero] at hsorted
  have hall : ∀ id, 0 < id → id ≤ s.lastId + 1 → id ∉ done →
      (∃ e ∈ s.appended fields, e.id = id) ∧
        (s.lastDelivered < id ∨ s.isPending id = true) := by
    intro id hpos hle hnot
    rcases Nat.lt_or_ge id (s.lastId + 1) with hlt | hge
    · obtain ⟨hstored, hopen⟩ := h id hpos (Nat.le_of_lt_succ hlt) hnot
      obtain ⟨e, he, hid⟩ := stored_isSome.1 hstored
      exact ⟨⟨e, List.mem_append_left _ he, hid⟩, hopen⟩
    · have hid : s.lastId + 1 = id := Nat.le_antisymm hge hle
      exact ⟨⟨_, List.mem_append_right _ (List.mem_singleton.2 rfl), hid⟩,
        .inl (hid ▸ Nat.lt_succ_of_le hok.delivered)⟩
  constructor
  · intro hkept e he
    by_contra hnot
    have hmem := List.mem_of_mem_take he
    have hbound := (hok.xadd fields 0).bound e (by rwa [xadd, List.drop_zero])
    obtain ⟨a, ha, hid⟩ := stored_isSome.1 (hkept e.id hbound.1 hbound.2 hnot).1
    rw [← List.take_append_drop trimmed (s.appended fields)] at hsorted
    have hlt := (List.pairwise_append.1 hsorted).2.2 e he a ha
    exact hlt.ne' hid
  · intro hlawful id hpos hle hnot
    obtain ⟨⟨e, he, hid⟩, hopen⟩ := hall id hpos hle hnot
    refine ⟨stored_isSome.2 ⟨e, ?_, hid⟩, hopen⟩
    rw [← List.take_append_drop trimmed (s.appended fields)] at he
    exact (List.mem_append.1 he).resolve_left fun htake => hnot (hid ▸ hlawful e htake)

theorem Kept.hold (h : Kept done s) (consumer : String) (now id : Nat) :
    Kept done (s.hold consumer now id) := by
  intro other hpos hle hnot
  rw [stored_hold, isPending_hold]
  exact h other hpos hle hnot

theorem Kept.forget (h : Kept done s) (hid : id ∈ done) : Kept done (s.forget id) := by
  intro other hpos hle hnot
  obtain ⟨hstored, hopen⟩ := h other hpos hle hnot
  refine ⟨hstored, hopen.imp_right fun hpending => isPending_forget.2 ⟨hpending, ?_⟩⟩
  rintro rfl
  exact hnot hid

theorem Kept.mono {more : List Nat} (h : Kept done s) (hmore : ∀ id ∈ done, id ∈ more) :
    Kept more s :=
  fun id hpos hle hnot => h id hpos hle fun hid => hnot (hmore id hid)

theorem Kept.xreadgroup (h : Kept done s) (hok : s.Ok) (consumer : String) (now : Nat) :
    Kept done (s.xreadgroup consumer now).1 := by
  rcases s.xreadgroup_cases consumer now with ⟨e, _, _, hfirst, heq⟩ | heq
  · rw [heq]
    intro id hpos hle hnot
    obtain ⟨hstored, hopen⟩ := h id hpos hle hnot
    refine ⟨hstored, ?_⟩
    simp only [isPending_iff, List.mem_append, List.mem_singleton]
    rcases Nat.lt_trichotomy id e.id with hid | hid | hid
    · rcases hopen with hunread | hpending
      · obtain ⟨a, ha, haid⟩ := stored_isSome.1 hstored
        have hle := hfirst a ha (haid ▸ hunread) hok
        omega
      · obtain ⟨p, hp, hpid⟩ := isPending_iff.1 hpending
        exact .inr ⟨p, .inl hp, hpid⟩
    · exact .inr ⟨_, .inr rfl, hid.symm⟩
    · exact .inl hid
  · rwa [heq]

theorem Ok.xreadgroup (h : s.Ok) (consumer : String) (now : Nat) :
    (s.xreadgroup consumer now).1.Ok := by
  rcases s.xreadgroup_cases consumer now with ⟨e, he, hlt, -, heq⟩ | heq
  · rw [heq]
    refine ⟨h.sorted, h.bound, (h.bound e he).2, fun p hp => ?_⟩
    rcases Parties.mem_snoc.1 hp with hp | rfl
    · exact ⟨(h.pending p hp).1, (h.pending p hp).2.trans hlt.le⟩
    · exact ⟨(h.bound e he).1, le_rfl⟩
  · rwa [heq]

theorem forget_of_not_pending (h : s.isPending id = false) : s.forget id = s := by
  have hall : ∀ p ∈ s.pending, p.id ≠ id := by
    rintro p hp rfl
    simp [isPending_iff.2 ⟨p, hp, rfl⟩] at h
  rw [forget, List.filter_eq_self.2 fun p hp => decide_eq_true (hall p hp)]

/-- Whatever is done was delivered and is not pending. -/
def Settled (done : List Nat) (s : Lane F) : Prop :=
  ∀ id ∈ done, id ≤ s.lastDelivered ∧ s.isPending id = false

theorem Settled.hold (h : Settled done s) (consumer : String) (now id : Nat) :
    Settled done (s.hold consumer now id) := by
  intro other hdone
  rw [isPending_hold]
  exact h other hdone

theorem Settled.forget (h : Settled done s) (id : Nat) : Settled done (s.forget id) := by
  intro other hdone
  refine ⟨(h other hdone).1, Bool.eq_false_iff.2 fun hpending => ?_⟩
  rw [isPending_forget, (h other hdone).2] at hpending
  cases hpending.1

theorem Settled.xack (h : Settled done s) (hok : s.Ok) (hpending : s.isPending id = true) :
    Settled (done ++ [id]) (s.forget id) := by
  intro other hdone
  rcases List.mem_append.1 hdone with hdone | hdone
  · exact h.forget id other hdone
  · obtain ⟨p, hp, rfl⟩ := isPending_iff.1 hpending
    rw [List.mem_singleton.1 hdone]
    refine ⟨(hok.pending p hp).2, Bool.eq_false_iff.2 fun hself => ?_⟩
    exact (isPending_forget.1 hself).2 rfl

theorem Settled.xreadgroup (h : Settled done s) (consumer : String) (now : Nat) :
    Settled done (s.xreadgroup consumer now).1 := by
  rcases s.xreadgroup_cases consumer now with ⟨e, -, hlt, -, heq⟩ | heq
  · rw [heq]
    intro other hdone
    obtain ⟨hle, hpending⟩ := h other hdone
    refine ⟨hle.trans hlt.le, Bool.eq_false_iff.2 fun hself => ?_⟩
    obtain ⟨p, hp, rfl⟩ := isPending_iff.1 hself
    rcases Parties.mem_snoc.1 hp with hp | rfl
    · simp [isPending_iff.2 ⟨p, hp, rfl⟩] at hpending
    · exact absurd hlt (Nat.not_lt.2 hle)
  · rwa [heq]

theorem Kept.stored_of_pending (h : Kept done s) (hok : s.Ok) (hsettled : Settled done s)
    (hpending : s.isPending id = true) : ∃ e, s.stored id = some e := by
  obtain ⟨p, hp, rfl⟩ := isPending_iff.1 hpending
  obtain ⟨hpos, hle⟩ := hok.pending p hp
  refine Option.isSome_iff_exists.1 (h p.id hpos (hle.trans hok.delivered) fun hdone => ?_).1
  simp [(hsettled p.id hdone).2] at hpending

end Lane

end Scenara.Core
