import Scenara.Result.Sound
import Scenara.Retention.Model

/-!
# A result reference is readable or gone

`_store_result` saves a reference when its objects are there, and the sweep drops it with the last
live row of the run. In between, a batch of the sweep may hold some objects of a reference and leave
a row of the run for later.
-/

namespace Scenara.Retention

open Scenara.Core Result

variable {U E B D : Type} {p : State B D} {s s' : Stores B D}

/-- The objects of the reference are there. -/
def PartReadable (p : State B D) : Prop :=
  ∀ r, p.reference = some r → ∀ key ∈ r.keys, p.objects.get? key ≠ none

/-- Every stored reference is readable. -/
def Readable (s : Stores B D) : Prop := ∀ directory, PartReadable (part s directory)

theorem readable_empty : Readable (.empty : Stores B D) := nofun

/-! ## Parts -/

theorem part_insert (s : Stores B D) (directory a : String) (p : State B D) :
    part (s.insert directory p) a = if a = directory then p else part s a := by
  unfold part
  rw [Dict.get?_insert]
  by_cases h : a = directory
  · rw [if_pos h, if_pos h, Option.getD_some]
  · rw [if_neg h, if_neg h]

theorem readable_insert {directory : String} (hs : Readable s) (hp : PartReadable p) :
    Readable (s.insert directory p) := by
  intro a
  rw [part_insert]
  by_cases h : a = directory
  · rwa [if_pos h]
  · rw [if_neg h]
    exact hs a

theorem partReadable_of_grows {p' : State B D} (hp : PartReadable p)
    (href : p'.reference = p.reference)
    (hobjects : ∀ key, p.objects.get? key ≠ none → p'.objects.get? key ≠ none) : PartReadable p' :=
  fun r hr key hkey => hobjects key (hp r (href ▸ hr) key hkey)

/-! ## Storing -/

section Store

variable [DecidableEq D] {c : Codec U E B D} {f : Faults} {v : Service E}
  {previous : Option (Reference D)} {call : Result.Call U E} {plan : Plan U E D}
  {a b : Attempt B D}

omit [DecidableEq D] in
theorem present_of_grows {own : ObjectKey → Prop} {p p' : State B D} (h : Grows own p p')
    {key : ObjectKey} (hkey : p.objects.get? key ≠ none) : p'.objects.get? key ≠ none := by
  obtain ⟨d, hd⟩ := Option.ne_none_iff_exists'.1 hkey
  rw [h.objects hd]
  exact Option.some_ne_none d

theorem present_put {key : ObjectKey} {document : B} {p' : State B D}
    (h : put c f key document p = .ok p') : p'.objects.get? key ≠ none := by
  rcases put_ok h with ⟨rfl, hkey⟩ | ⟨-, rfl⟩
  · exact hkey
  · rw [Dict.get?_insert_self]
    exact Option.some_ne_none document

theorem present_putShards {inPartial : Bool} (chunks : List (List U)) (i : Nat)
    (h : putShards c f inPartial i chunks a = .ok b) :
    ∀ key ∈ keysFrom inPartial i chunks.length, b.state.objects.get? (.shard key) ≠ none := by
  induction chunks generalizing i a with
  | nil => exact fun key hkey => absurd hkey List.not_mem_nil
  | cons _ _ ih =>
    obtain ⟨_, ha', hb⟩ := bind_eq_ok.1 h
    obtain ⟨_, hp', rfl⟩ := putShard_ok ha'
    rw [List.length_cons, keysFrom_succ, List.forall_mem_cons]
    exact ⟨present_of_grows (grows_putShards hb) (present_put hp'), ih (i + 1) hb⟩

theorem present_perform (h : perform c v previous call plan ⟨plan.toManifest, p, []⟩ = .ok b) :
    (∀ key ∈ plan.newKeys, b.state.objects.get? (.shard key) ≠ none) ∧
      b.state.objects.get? (.result (resultKey call)) ≠ none := by
  obtain ⟨b₁, h₁, h⟩ := bind_eq_ok.1 h
  obtain ⟨_, h₂, h⟩ := bind_eq_ok.1 h
  obtain ⟨_, h₃, h⟩ := bind_eq_ok.1 h
  obtain ⟨_, h₄, h₅⟩ := bind_eq_ok.1 h
  obtain rfl := readOwners_ok h₃
  obtain ⟨p₂, hp₂, rfl⟩ := putIndex_ok h₂
  have hobjects : b.state.objects = p₂.objects := by
    rw [(trackAll_ok _ h₅).2.2.1, (trackAll_ok _ h₄).2.2.1]
  have hgrows : Grows (fun _ => True) b₁.state p₂ := grows_put trivial hp₂
  rw [hobjects]
  exact ⟨fun key hkey => present_of_grows hgrows (present_putShards _ _ h₁ key hkey),
    present_put hp₂⟩

omit [DecidableEq D] in
theorem keys_not_superseded {index : Envelope U E} {m : Manifest D} {key : ObjectKey}
    (hkey : key ∈ (newReference c v call index m).keys) :
    key ∉ supersededKeys previous (newReference c v call index m) := by
  rcases List.mem_append.1 hkey with hkey | hkey
  · obtain ⟨k, hk, rfl⟩ := List.mem_map.1 hkey
    rw [Option.mem_toList] at hk
    injection hk with hk
    subst hk
    exact newReference_not_superseded
  · obtain ⟨k, hk, rfl⟩ := List.mem_map.1 hkey
    exact shard_not_superseded hk

theorem readable_storeResult {r : Reference D} (hp : PartReadable p)
    (h : (storeResult c v p call).2 = .ok r) : PartReadable (storeResult c v p call).1 := by
  obtain ⟨plan, b, hplan, hb, hr, hstate⟩ := storeResult_ok h
  obtain ⟨hshards, hindex⟩ := present_perform hb
  have hgrows := (perform_ok hb).grows
  intro r' hr' _ hkey
  rw [hstate] at hr' ⊢
  have hsame : r' = r := (Option.some.inj (discard_reference_sub hr')).symm
  rw [hsame, hr] at hkey
  rw [hr, discard_objects_of_not_mem (keys_not_superseded hkey)]
  rcases List.mem_append.1 hkey with hkey | hkey
  · obtain ⟨k, hk, rfl⟩ := List.mem_map.1 hkey
    rw [Option.mem_toList] at hk
    injection hk with hk
    subst hk
    exact hindex
  · obtain ⟨k, hk, rfl⟩ := List.mem_map.1 hkey
    rcases List.mem_append.1 (show k ∈ plan.shardKeys ++ plan.newKeys from hk) with hk | hk
    · -- carried over from the previous reference
      cases planned hplan with
      | carried q _ _ hq =>
        exact present_of_grows hgrows
          (hp q hq _ (List.mem_append_right _ (List.mem_map.2 ⟨k, hk, rfl⟩)))
      | fresh | sharded | inline => cases hk
    · exact hshards k hk

end Store

/-! ## The other calls -/

theorem trackObject_ok {f : Faults} {p p' : State B D} {entry : ObjectKey × RetentionRecord}
    (h : trackObject .memory f p entry = .ok p') :
    p'.objects = p.objects ∧ p'.reference = p.reference := by
  unfold trackObject at h
  split at h
  · cases h
  · split at h
    · cases h
      exact ⟨rfl, rfl⟩
    · split at h
      · cases h
      · cases h
        exact ⟨rfl, rfl⟩
    · cases h

theorem protectObjectForAlert_eq (p : State B D) (key : ObjectKey) (alertId : String)
    (expiresAt : ℚ) : (protectObjectForAlert p key alertId expiresAt).1.objects = p.objects ∧
      (protectObjectForAlert p key alertId expiresAt).1.reference = p.reference := by
  unfold protectObjectForAlert
  split
  · exact ⟨rfl, rfl⟩
  · split <;> exact ⟨rfl, rfl⟩

theorem partReadable_of_eq {p' : State B D} (hp : PartReadable p)
    (h : p'.objects = p.objects ∧ p'.reference = p.reference) : PartReadable p' :=
  partReadable_of_grows hp h.2 fun _ hkey => h.1 ▸ hkey

/-! ## Sweeping -/

/-- The batch holds a row of the run, and all of its rows that are left. -/
def LastRows (directory : String) (keys : List ObjectKey) (p : State B D) : Prop :=
  (∃ key ∈ keys, ∃ row, p.retention.get? key = some row ∧ row.ownedBy directory) ∧
    ∀ key row, p.retention.get? key = some row → row.ownedBy directory → row.deletedAt = none →
      key ∈ keys

/-- Of each reference the batch deletes nothing, or it holds the last rows of the run. -/
def Covers (s : Stores B D) (before : ℚ) (limit : Nat) : Prop :=
  ∀ directory r, (part s directory).reference = some r →
    (∀ key ∈ r.keys, key ∉ deletedIn s before limit directory) ∨
      LastRows directory (deletedIn s before limit directory) (part s directory)

theorem get?_eraseAll (keys : List ObjectKey) (objects : Dict ObjectKey B) (key : ObjectKey) :
    (keys.foldl (fun o k => o.erase k) objects).get? key =
      if key ∈ keys then none else objects.get? key := by
  induction keys generalizing objects with
  | nil => rfl
  | cons k keys ih =>
    rw [List.foldl_cons, ih, Dict.get?_erase]
    by_cases hkey : key ∈ keys
    · rw [if_pos hkey, if_pos (List.mem_cons_of_mem k hkey)]
    · rw [if_neg hkey]
      by_cases hk : key = k
      · rw [if_pos hk, if_pos (hk ▸ List.mem_cons_self)]
      · rw [if_neg hk, if_neg fun h => (List.mem_cons.1 h).elim hk hkey]

theorem sweepPart_objects (directory : String) (now : ℚ) (keys : List ObjectKey) (key : ObjectKey) :
    (sweepPart directory now keys p).objects.get? key =
      if key ∈ keys then none else p.objects.get? key :=
  get?_eraseAll keys p.objects key

variable {keys : List ObjectKey} {directory : String}

theorem marks_memory {key : ObjectKey} {row : RetentionRecord} :
    marks .memory keys key row = true ↔ key ∈ keys := by
  simp [marks]

theorem any_owned_iff :
    (p.retention.entries.any fun e => marks .memory keys e.1 e.2 && e.2.ownedBy directory) = true ↔
      ∃ key ∈ keys, ∃ row, p.retention.get? key = some row ∧ row.ownedBy directory := by
  rw [List.any_eq_true]
  constructor
  · rintro ⟨⟨key, row⟩, he, hrow⟩
    rw [Bool.and_eq_true] at hrow
    exact ⟨key, marks_memory.1 hrow.1, row, (Dict.mem_entries _ _ _).1 he, hrow.2⟩
  · rintro ⟨key, hkey, row, hrow, hown⟩
    exact ⟨(key, row), (Dict.mem_entries _ _ _).2 hrow,
      (Bool.and_eq_true _ _).mpr ⟨marks_memory.2 hkey, hown⟩⟩

theorem any_remaining_iff (now : ℚ) :
    ((p.retention.mapVals fun key row =>
        if marks .memory keys key row then { row with deletedAt := some now } else row).values.any
      fun row => row.ownedBy directory && row.deletedAt.isNone) = true ↔
      ∃ key row, p.retention.get? key = some row ∧ row.ownedBy directory ∧ row.deletedAt = none ∧
        key ∉ keys := by
  have hsame : ∀ {key} {row : RetentionRecord}, key ∉ keys →
      (if marks .memory keys key row then { row with deletedAt := some now } else row) = row :=
    fun hkey => if_neg fun h => hkey (marks_memory.1 h)
  rw [List.any_eq_true]
  constructor
  · rintro ⟨_, hmem, hrow⟩
    rw [Bool.and_eq_true] at hrow
    obtain ⟨key, hget⟩ := (Dict.mem_values _ _).1 hmem
    rw [Dict.get?_mapVals, Option.map_eq_some_iff] at hget
    obtain ⟨row, hget, rfl⟩ := hget
    by_cases hkey : key ∈ keys
    · simp [marks_memory.2 hkey] at hrow
    · rw [hsame hkey] at hrow
      exact ⟨key, row, hget, hrow.1, Option.isNone_iff_eq_none.1 hrow.2, hkey⟩
  · rintro ⟨key, row, hget, hown, hlive, hkey⟩
    refine ⟨row, (Dict.mem_values _ _).2 ⟨key, ?_⟩, ?_⟩
    · rw [Dict.get?_mapVals, hget, Option.map_some, hsame hkey]
    · rw [hown, hlive]
      rfl

theorem sweepPart_reference (directory : String) (now : ℚ) (keys : List ObjectKey)
    (r : Reference D) : (sweepPart directory now keys p).reference = some r ↔
      p.reference = some r ∧ ¬LastRows directory keys p := by
  have hlast : LastRows directory keys p ↔
      (∃ key ∈ keys, ∃ row, p.retention.get? key = some row ∧ row.ownedBy directory) ∧
      ¬∃ key row, p.retention.get? key = some row ∧ row.ownedBy directory ∧ row.deletedAt = none ∧
        key ∉ keys := by
    push Not
    rfl
  rw [hlast, ← any_owned_iff, ← any_remaining_iff now]
  unfold sweepPart markObjectsDeleted
  dsimp only
  split
  · next h =>
    rw [Bool.and_eq_true, Bool.not_eq_true'] at h
    simp [h.1, h.2]
  · next h =>
    rw [Bool.and_eq_true, Bool.not_eq_true'] at h
    refine ⟨fun hr => ⟨hr, fun hl => h ⟨hl.1, ?_⟩⟩, And.left⟩
    exact Bool.eq_false_iff.2 hl.2

theorem partReadable_sweepPart {now : ℚ}
    (hp : PartReadable p) :
    PartReadable (sweepPart directory now keys p) ↔
      ∀ r, p.reference = some r → (∀ key ∈ r.keys, key ∉ keys) ∨ LastRows directory keys p := by
  constructor
  · intro h r hr
    by_cases hlast : LastRows directory keys p
    · exact .inr hlast
    · refine .inl fun key hkey hin => ?_
      have hgone := h r ((sweepPart_reference directory now keys r).2 ⟨hr, hlast⟩) key hkey
      rw [sweepPart_objects, if_pos hin] at hgone
      exact hgone rfl
  · intro h r hr key hkey
    obtain ⟨hr, hlast⟩ := (sweepPart_reference directory now keys r).1 hr
    have hout := (h r hr).resolve_right hlast key hkey
    rw [sweepPart_objects, if_neg hout]
    exact hp r hr key hkey

theorem part_mapVals (f : String → State B D → State B D) (s : Stores B D) (directory : String) :
    part (s.mapVals f) directory =
      if s.get? directory = none then .empty else f directory (part s directory) := by
  unfold part
  rw [Dict.get?_mapVals]
  cases s.get? directory with
  | none | some => rfl

theorem readable_sweep {before now : ℚ} {limit count : Nat} (hs : Readable s)
    (h : sweep s before limit now = .ok (s', count)) : Readable s' ↔ Covers s before limit := by
  unfold sweep at h
  split at h
  · cases h
  · dsimp only at h
    split at h
    · next hnone =>
      cases h
      have hempty : ∀ directory, deletedIn s before limit directory = [] := fun directory => by
        unfold deletedIn
        rw [hnone]
        rfl
      refine ⟨fun _ directory r _ => .inl fun key _ hkey => ?_, fun _ => hs⟩
      simp [hempty] at hkey
    · cases h
      refine forall_congr' fun directory => ?_
      rw [part_mapVals]
      split
      · next hnone =>
        have hempty : part s directory = .empty := by
          unfold part
          rw [hnone]
          rfl
        rw [hempty]
        exact iff_of_true nofun nofun
      · exact partReadable_sweepPart (hs directory)

/-! ## Runs -/

section Runs

variable [DecidableEq D] {c : Codec U E B D}

/-- A sweep that is accepted covers the references it touches. -/
def SweepCovers (s : Stores B D) : Call U E B → Prop
  | .sweep before limit _ => 1 ≤ limit ∧ limit ≤ 10000 → Covers s before limit
  | _ => True

/-- One call from readable references leaves readable ones **iff** it is no sweep that leaves out a
row of a run it takes an object from. -/
theorem readable_step {call : Call U E B} (hs : Readable s) (h : step c s call = some s') :
    Readable s' ↔ SweepCovers s call := by
  cases call with
  | storeResult v =>
    refine iff_of_true ?_ trivial
    unfold step at h
    have hp := hs v.runId
    dsimp only at h
    split at h
    · next p r hr =>
      cases h
      have hpart := readable_storeResult hp (by rw [hr])
      rw [hr] at hpart
      exact readable_insert hs hpart
    · cases h
  | putArtifact directory =>
    refine iff_of_true ?_ trivial
    unfold step at h
    dsimp only at h
    split at h
    · next p hput =>
      cases h
      have hgrows : Grows (fun _ => True) (part s directory) p := grows_put trivial hput
      refine readable_insert hs (partReadable_of_grows (hs directory) ?_ fun _ =>
        present_of_grows hgrows)
      rcases put_ok hput with ⟨rfl, -⟩ | ⟨-, rfl⟩ <;> rfl
    · cases h
      exact hs
  | trackObject directory =>
    refine iff_of_true ?_ trivial
    unfold step at h
    dsimp only at h
    split at h
    · next p htrack =>
      cases h
      exact readable_insert hs (partReadable_of_eq (hs directory) (trackObject_ok htrack))
    · cases h
      exact hs
  | protectObjectForAlert directory =>
    refine iff_of_true ?_ trivial
    cases h
    exact readable_insert hs (partReadable_of_eq (hs directory) (protectObjectForAlert_eq _ _ _ _))
  | sweep _ limit =>
    unfold step at h
    dsimp only at h
    split at h
    · next _ _ hsweep =>
      cases h
      have hlimit : 1 ≤ limit ∧ limit ≤ 10000 := by
        by_contra hlimit
        unfold sweep at hsweep
        rw [if_pos hlimit] at hsweep
        cases hsweep
      exact (readable_sweep hs hsweep).trans ⟨fun hcovers _ => hcovers,
        fun hcovers => hcovers hlimit⟩
    · next _ hsweep =>
      cases h
      refine iff_of_true hs fun hlimit => ?_
      unfold sweep at hsweep
      rw [if_neg fun hn => hn hlimit] at hsweep
      dsimp only at hsweep
      split at hsweep <;> cases hsweep

/-- **A reference is readable or gone** in every state of a run of calls **iff** every sweep of it
that takes an object of a reference takes with it all rows of the run that are left. -/
theorem readable_iff (c : Codec U E B D) (calls : List (Call U E B)) :
    (∀ s ∈ states (step c) .empty calls, Readable s) ↔ Along (step c) SweepCovers .empty calls := by
  refine states_iff (fun s call h => ?_) (fun s call s' hs h => readable_step hs h) readable_empty
  cases call with
  | sweep =>
    unfold step at h
    dsimp only at h
    split at h <;> cases h
  | storeResult | putArtifact | trackObject | protectObjectForAlert => trivial

end Runs

/-! ## A batch of one object -/

/-- Results and previews stay for thirty days. -/
def monthlyPolicy : Policy := ⟨7, 30, 30, none, some 30⟩

/-- The final result of a run with two units, in two shards. -/
def monthlyStore : Call Nat Nat Document :=
  .storeResult { smallService .memory with
    structuredResultRetentionDays := monthlyPolicy.structuredResultDays
    previewRetentionDays := monthlyPolicy.previewDays } (smallCall [1, 2] 0 false "a" .none)

/-- The stores after a sweep of one object, a month later. -/
def halfSwept : Stores Document Document :=
  ((exec (step plainCodec) .empty [monthlyStore, .sweep (30 * 86400) 1 (30 * 86400)])).getD .empty

/-- **The sweep deletes `result.json` first**: its two shards wait for the next batch, and so does
the reference. -/
theorem sweep_halfDeleted :
    monthlyPolicy.validate = .ok () ∧
      halfSwept ∈ states (step plainCodec) .empty
        [monthlyStore, .sweep (30 * 86400) 1 (30 * 86400)] ∧
      ¬Readable halfSwept := by
  refine ⟨rfl, by decide +kernel, fun h => ?_⟩
  have hreference : (part halfSwept "run").reference = some
      { shardKeys := [⟨false, 0⟩, ⟨false, 1⟩]
        shardSha256 := [.units [1], .units [2]]
        shardUnitCounts := [1, 1]
        objectKey := some .final
        sha256 := .envelope ⟨[], 0⟩
        unitCount := 2
        indexStatus := .ready } := by decide +kernel
  refine h "run" _ hreference (.result .final) (by decide) ?_
  decide +kernel

end Scenara.Retention
