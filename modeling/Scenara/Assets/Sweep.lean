import Mathlib.Data.List.Count
import Mathlib.Data.List.Sort
import Scenara.Assets.Model
import Scenara.ObjectStore.Model

/-!
# The sweep over a local object store

Model of `RetentionScheduler.sweep` (`platform/retention.py`) over `expired_object_keys` and
`mark_objects_deleted` of `MemoryStateStore` and `delete` of `LocalObjectStore`
(`infrastructure/object_store.py`).

* `delete` returns `False` for an object that is not there. It raises for a key that is no path, for
  a directory in the place of the object, and, once the object is gone, for either in the place of
  its metadata (`Deletable`).
* What `delete` has raised, `sweep` raises: no object of the batch is marked then.
-/

namespace Scenara.Assets

open Scenara.Core
open Result (RetentionRecord)
open ObjectStore (metadataPath validateObjectKey)

variable {M α : Type}

/-! ## Deleting an object -/

/-- `object_key.split("/")`, as a path. -/
def fileName (objectKey : String) : FileName :=
  let parts := (objectKey.toList.splitOn '/').map String.ofList
  ⟨parts.dropLast, parts.getLast?.getD ""⟩

/-- `path.exists()`. -/
def present (d : Disk α) (p : FileName) : Bool := !d.blocked p.dir && (d.isFile p || d.isDir p)

/-- `LocalObjectStore.delete`: what it returns or raises, and what is left. -/
def deletePath (p : FileName) (d : Disk α) : Except ObjectStore.Error Bool × Disk α :=
  if !validateObjectKey p then (.error .invalidObjectKey, d)
  else if !present d p then (.ok false, d)
  else
    match d.unlink p with
    | .error e => (.error (.file e), d)
    | .ok d =>
      if !validateObjectKey (metadataPath p) then (.error .invalidObjectKey, d)
      else
        match d.unlink (metadataPath p) with
        | .ok d => (.ok true, d)
        | .error .fileNotFound => (.ok true, d)
        | .error e => (.error (.file e), d)

/-- The keys of a batch, in order: those whose `delete` returned `True`. -/
def deleteAll : List String → Disk α → Except ObjectStore.Error (List String) × Disk α
  | [], d => (.ok [], d)
  | objectKey :: objectKeys, d =>
    match deletePath (fileName objectKey) d with
    | (.error e, d) => (.error e, d)
    | (.ok gone, d) =>
      match deleteAll objectKeys d with
      | (.error e, d) => (.error e, d)
      | (.ok deleted, d) => (.ok (if gone then objectKey :: deleted else deleted), d)

/-! ## The sweep -/

/-- The state store and the files of the object store. -/
structure System (M α : Type) extends Store M where
  disk : Disk α

/-- `expired_object_keys`. -/
def Store.expiredObjectKeys (s : Store M) (before : ℚ) (limit : Nat) : List String :=
  let keys := (s.retention.entries.filter fun row => Store.expired before row.2).map fun row =>
      row.1.id
  (keys.insertionSort fun x y => x ≤ y).take limit

/-- What `sweep` raises. -/
inductive SweepError where
  | valueError (message : String)
  | delete (error : ObjectStore.Error)

/-- `RetentionScheduler.sweep`. -/
def sweep (before now : ℚ) (limit : Nat) (s : System M α) : Except SweepError Nat × System M α :=
  if ¬(1 ≤ limit ∧ limit ≤ 10000) then
    (.error (.valueError "retention sweep limit must be between 1 and 10000"), s)
  else
    match deleteAll (s.expiredObjectKeys before limit) s.disk with
    | (.error e, disk) => (.error (.delete e), { s with disk := disk })
    | (.ok deleted, disk) =>
      -- `if deleted:`
      let state := if deleted = [] then s.toStore else s.markObjectsDeleted .memory deleted now
      (.ok deleted.length, { state with disk := disk })

/-- The sweeps at the given times, one after the other. -/
def sweepAll (before : ℚ) (limit : Nat) (s : System M α) (times : List ℚ) : System M α :=
  times.foldl (fun s now => (sweep before now limit s).2) s

/-- How many rows have expired and are not marked. -/
def Store.pending (s : Store M) (before : ℚ) : Nat :=
  s.retention.entries.countP fun row => Store.expired before row.2

/-! ## When the keys can be deleted -/

/-- `delete` does not raise. -/
structure Deletable (d : Disk α) (p : FileName) : Prop where
  valid : validateObjectKey p = true
  file : present d p = true → d.isDir p = false
  metadata : present d p = true → validateObjectKey (metadataPath p) = true
  metadataFile : present d p = true → d.isDir (metadataPath p) = false

/-- The object and its metadata are gone. -/
def remove (d : Disk α) (p : FileName) : Disk α :=
  if present d p then (d.erase p).erase (metadataPath p) else d

/-- Each of the keys can be deleted when those before it are. -/
def DeletableAll : List String → Disk α → Prop
  | [], _ => True
  | objectKey :: objectKeys, d =>
    Deletable d (fileName objectKey) ∧ DeletableAll objectKeys (remove d (fileName objectKey))

/-- Every key of the batch can be deleted, and one of them is there. -/
def Moves (before : ℚ) (limit : Nat) (s : System M α) : Prop :=
  DeletableAll (s.expiredObjectKeys before limit) s.disk ∧
    ∃ objectKey ∈ s.expiredObjectKeys before limit, present s.disk (fileName objectKey) = true

variable {d : Disk α} {p : FileName} {s : System M α} {before now : ℚ} {limit : Nat}

instance : Decidable (Deletable d p) :=
  decidable_of_iff (validateObjectKey p = true ∧ (present d p = true → d.isDir p = false) ∧
    (present d p = true → validateObjectKey (metadataPath p) = true) ∧
    (present d p = true → d.isDir (metadataPath p) = false))
    ⟨fun h => ⟨h.1, h.2.1, h.2.2.1, h.2.2.2⟩,
      fun h => ⟨h.valid, h.file, h.metadata, h.metadataFile⟩⟩

/-- The batch is decided key by key. -/
def decideDeletableAll : ∀ (objectKeys : List String) (d : Disk α),
    Decidable (DeletableAll objectKeys d)
  | [], _ => isTrue trivial
  | objectKey :: objectKeys, d =>
    have := decideDeletableAll objectKeys (remove d (fileName objectKey))
    inferInstanceAs (Decidable (Deletable d (fileName objectKey) ∧
      DeletableAll objectKeys (remove d (fileName objectKey))))

instance (objectKeys : List String) (d : Disk α) : Decidable (DeletableAll objectKeys d) :=
  decideDeletableAll objectKeys d

instance : Decidable (Moves before limit s) := inferInstanceAs (Decidable (_ ∧ _))

theorem blocked_erase {dir : List String} (h : d.blocked dir = false) :
    (d.erase p).blocked dir = false := by
  unfold Disk.blocked at h ⊢
  rw [List.any_eq_false] at h ⊢
  exact fun e he => h e (List.mem_of_mem_filter he)

theorem deletePath_absent (hvalid : validateObjectKey p = true) (h : present d p = false) :
    deletePath p d = (.ok false, d) := by
  simp [deletePath, hvalid, h]

theorem deletePath_present (hvalid : validateObjectKey p = true) (h : present d p = true) :
    deletePath p d =
      if d.isDir p then (.error (.file .isADirectory), d)
      else if !validateObjectKey (metadataPath p) then (.error .invalidObjectKey, d.erase p)
      else if d.isDir (metadataPath p) then (.error (.file .isADirectory), d.erase p)
      else (.ok true, (d.erase p).erase (metadataPath p)) := by
  obtain ⟨hblocked, hthere⟩ := Bool.and_eq_true_iff.1 h
  have hblocked : d.blocked p.dir = false := by simpa using hblocked
  unfold deletePath
  simp only [hvalid, h, Bool.not_true, Bool.false_eq_true, if_false]
  by_cases hdir : d.isDir p = true
  · simp [Disk.unlink, hblocked, hdir]
  · have hfile : d.isFile p = true := by simpa [hdir] using hthere
    have hblocked' : (d.erase p).blocked (metadataPath p).dir = false := blocked_erase hblocked
    have hdir' : (d.erase p).isDir (metadataPath p) = d.isDir (metadataPath p) := rfl
    simp only [Disk.unlink, hblocked, hdir, hfile, Bool.false_eq_true, if_false, if_true,
      hblocked', hdir']
    by_cases hmeta : validateObjectKey (metadataPath p) = true
    · by_cases hmetaDir : d.isDir (metadataPath p) = true
      · simp [hmeta, hmetaDir]
      · by_cases hmetaFile : (d.erase p).isFile (metadataPath p) = true
        · simp [hmeta, hmetaDir, hmetaFile]
        · have hnone : (d.erase p).names.get? (metadataPath p) = none :=
            Disk.name_of_not_isFile (by simpa using hmetaFile)
          have herase : (d.erase p).erase (metadataPath p) = d.erase p := by
            unfold Disk.erase at hnone ⊢
            rw [Dict.erase_of_get?_none hnone]
          simp [hmeta, hmetaDir, hmetaFile, herase]
    · simp [hmeta]

theorem deletePath_deletable (h : Deletable d p) :
    deletePath p d = (.ok (present d p), remove d p) := by
  cases hthere : present d p with
  | false => rw [deletePath_absent h.valid hthere, remove, hthere]; rfl
  | true =>
    rw [deletePath_present h.valid hthere, h.file hthere, h.metadata hthere,
      h.metadataFile hthere, remove, hthere]
    rfl

theorem deletePath_stuck (h : ¬ Deletable d p) : ∃ e d', deletePath p d = (.error e, d') := by
  by_cases hvalid : validateObjectKey p = true
  · cases hthere : present d p with
    | false =>
      have hno : ∀ {q : Prop}, present d p = true → q :=
        fun hp => absurd (hthere.symm.trans hp) (by simp)
      exact absurd ⟨hvalid, hno, hno, hno⟩ h
    | true =>
      rw [deletePath_present hvalid hthere]
      split_ifs with hdir hmeta hmetaDir
      · exact ⟨_, _, rfl⟩
      · exact ⟨_, _, rfl⟩
      · exact ⟨_, _, rfl⟩
      · exact absurd ⟨hvalid, fun _ => by simpa using hdir, fun _ => by simpa using hmeta,
          fun _ => by simpa using hmetaDir⟩ h
  · exact ⟨.invalidObjectKey, d, by simp [deletePath, hvalid]⟩

variable {objectKeys : List String}

theorem deleteAll_deletable {d : Disk α}
    (h : DeletableAll objectKeys d) :
    ∃ deleted d', deleteAll objectKeys d = (.ok deleted, d') ∧ (∀ x ∈ deleted, x ∈ objectKeys) ∧
      (deleted = [] ↔ ∀ x ∈ objectKeys, present d (fileName x) = false) ∧
      (deleted = [] → d' = d) := by
  induction objectKeys generalizing d with
  | nil => exact ⟨[], d, rfl, fun _ hx => hx, by simp, fun _ => rfl⟩
  | cons objectKey _ ih =>
    obtain ⟨deleted, d', hall, hmem, hnil, hsame⟩ := ih h.2
    have hdelete := deletePath_deletable h.1
    cases hthere : present d (fileName objectKey) with
    | false =>
      rw [hthere, remove, hthere] at hdelete
      rw [remove, hthere] at hall hnil hsame
      refine ⟨deleted, d', ?_, fun x hx => List.mem_cons_of_mem _ (hmem x hx), ?_, hsame⟩
      · simp only [deleteAll, hdelete, Bool.false_eq_true, if_false] at hall ⊢
        rw [hall]
      · rw [hnil]
        simp [hthere]
    | true =>
      rw [hthere] at hdelete
      refine ⟨objectKey :: deleted, d', ?_, ?_, ?_, by simp⟩
      · simp only [deleteAll, hdelete, hall, if_true]
      · intro x hx
        rcases List.mem_cons.1 hx with rfl | hx
        · exact List.mem_cons_self
        · exact List.mem_cons_of_mem _ (hmem x hx)
      · simp [hthere]

theorem deleteAll_stuck {d : Disk α} (h : ¬ DeletableAll objectKeys d) :
    ∃ e d', deleteAll objectKeys d = (.error e, d') := by
  induction objectKeys generalizing d with
  | nil => exact absurd trivial h
  | cons objectKey _ ih =>
    by_cases hhead : Deletable d (fileName objectKey)
    · obtain ⟨e, d', hall⟩ := ih fun htail => h ⟨hhead, htail⟩
      exact ⟨e, d', by simp only [deleteAll, deletePath_deletable hhead, hall]⟩
    · obtain ⟨e, d', hdelete⟩ := deletePath_stuck hhead
      exact ⟨e, d', by simp only [deleteAll, hdelete]⟩

/-! ## Pending rows -/

theorem mem_expiredObjectKeys {s : Store M} {x : String}
    (h : x ∈ s.expiredObjectKeys before limit) :
    ∃ row ∈ s.retention.entries, Store.expired before row.2 = true ∧ row.1.id = x := by
  have hmem := (List.mem_insertionSort _).1 (List.mem_of_mem_take h)
  obtain ⟨row, hrow, rfl⟩ := List.mem_map.1 hmem
  obtain ⟨hentry, hexpired⟩ := List.mem_filter.1 hrow
  exact ⟨row, hentry, hexpired, rfl⟩

theorem pending_mark (s : Store M) (objectKeys : List String) :
    (s.markObjectsDeleted .memory objectKeys now).pending before =
      s.retention.entries.countP fun row =>
        Store.expired before row.2 && decide (row.1.id ∉ objectKeys) := by
  unfold Store.pending Store.markObjectsDeleted Store.mark Dict.mapVals
  rw [List.countP_map]
  refine List.countP_congr fun row _ => ?_
  by_cases hmem : row.1.id ∈ objectKeys <;> simp [Store.touches, Store.expired, hmem]

theorem pending_mark_lt {s : Store M} {x : String} (hx : x ∈ objectKeys)
    (hbatch : x ∈ s.expiredObjectKeys before limit) :
    (s.markObjectsDeleted .memory objectKeys now).pending before < s.pending before := by
  obtain ⟨row, hrow, hexpired, rfl⟩ := mem_expiredObjectKeys hbatch
  have hfilter : (s.retention.entries.countP fun row =>
      Store.expired before row.2 && decide (row.1.id ∉ objectKeys)) =
      (s.retention.entries.filter fun row => Store.expired before row.2).countP fun row =>
        decide (row.1.id ∉ objectKeys) := by
    rw [List.countP_filter]
    exact List.countP_congr fun row _ => by rw [Bool.and_comm]
  rw [pending_mark, hfilter, Store.pending, List.countP_eq_length_filter (p := fun row :
      Key × RetentionRecord => Store.expired before row.2),
    List.countP_lt_length_iff]
  exact ⟨row, List.mem_filter.2 ⟨hrow, hexpired⟩, by simpa using hx⟩

/-! ## Progress -/

theorem pending_sweep_lt_iff (hlimit : 1 ≤ limit ∧ limit ≤ 10000) (now : ℚ) :
    (sweep before now limit s).2.pending before < s.pending before ↔ Moves before limit s := by
  unfold sweep
  rw [if_neg (not_not.2 hlimit)]
  by_cases hall : DeletableAll (s.expiredObjectKeys before limit) s.disk
  · obtain ⟨deleted, d', hdelete, hmem, hnil, -⟩ := deleteAll_deletable hall
    rw [hdelete]
    cases deleted with
    | nil =>
      refine iff_of_false (lt_irrefl _) fun ⟨_, x, hx, hthere⟩ => ?_
      simp [hnil.1 rfl x hx] at hthere
    | cons x =>
      refine iff_of_true (pending_mark_lt List.mem_cons_self (hmem x List.mem_cons_self)) ⟨hall, ?_⟩
      by_contra hnone
      have := hnil.2 fun y hy => Bool.eq_false_iff.2 fun hthere => hnone ⟨y, hy, hthere⟩
      cases this
  · obtain ⟨e, _, hdelete⟩ := deleteAll_stuck hall
    rw [hdelete]
    exact iff_of_false (lt_irrefl _) fun h => hall h.1

theorem pending_sweep_le : (sweep before now limit s).2.pending before ≤ s.pending before := by
  unfold sweep
  by_cases hlimit : 1 ≤ limit ∧ limit ≤ 10000
  · rw [if_neg (not_not.2 hlimit)]
    rcases deleteAll (s.expiredObjectKeys before limit) s.disk with ⟨_ | deleted, _⟩
    · exact le_refl (s.pending before)
    · by_cases hnil : deleted = []
      · simp only [hnil, if_true]
        exact le_refl (s.pending before)
      · simp only [hnil, if_false]
        rw [pending_mark]
        exact List.countP_mono_left fun row _ h => (Bool.and_eq_true_iff.1 h).1
  · rw [if_pos hlimit]

theorem sweep_starved (hall : DeletableAll (s.expiredObjectKeys before limit) s.disk)
    (hnone : ∀ x ∈ s.expiredObjectKeys before limit, present s.disk (fileName x) = false)
    (now : ℚ) :
    (sweep before now limit s).2 = s := by
  obtain ⟨_, _, hdelete, -, hnil, hsame⟩ := deleteAll_deletable hall
  unfold sweep
  rw [hdelete, hnil.2 hnone, hsame (hnil.2 hnone)]
  split_ifs <;> rfl

theorem pending_sweepAll (hlimit : 1 ≤ limit ∧ limit ≤ 10000) {times : List ℚ}
    (hlength : s.pending before ≤ times.length)
    (hmoves : ∀ i < times.length, 0 < (sweepAll before limit s (times.take i)).pending before →
      Moves before limit (sweepAll before limit s (times.take i))) :
    (sweepAll before limit s times).pending before = 0 := by
  induction times generalizing s with
  | nil => exact Nat.le_zero.1 hlength
  | cons now _ ih =>
    refine ih (s := (sweep before now limit s).2) ?_ fun i hi =>
      hmoves (i + 1) (Nat.succ_lt_succ hi)
    rcases Nat.eq_zero_or_pos (s.pending before) with hzero | hpos
    · exact (pending_sweep_le.trans_eq hzero).trans (Nat.zero_le _)
    · have hlt := (pending_sweep_lt_iff hlimit now).2 (hmoves 0 (Nat.succ_pos _) hpos)
      exact Nat.le_of_lt_succ (hlt.trans_le hlength)

/-- **Sweeping makes progress** exactly when the batch can be deleted and some of it is there; when
that is so as long as expired rows are left, as many sweeps as there are rows leave none. -/
theorem sweep_progress (hlimit : 1 ≤ limit ∧ limit ≤ 10000) (now : ℚ) :
    ((0 < s.pending before → (sweep before now limit s).2.pending before < s.pending before) ↔
      (0 < s.pending before → Moves before limit s)) ∧
      ∀ times, s.pending before ≤ times.length →
        (∀ i < times.length, 0 < (sweepAll before limit s (times.take i)).pending before →
          Moves before limit (sweepAll before limit s (times.take i))) →
        (sweepAll before limit s times).pending before = 0 :=
  ⟨forall_congr' fun _ => pending_sweep_lt_iff hlimit now,
    fun _ hlength hmoves => pending_sweepAll hlimit hlength hmoves⟩

/-- Two expired rows, of objects in a directory, and the files that are there. -/
def twoRows (names : List String) : System Unit Nat where
  assets := Dict.empty
  retention := (Dict.empty.insert ⟨"t", "p", "d/a"⟩ ⟨.rawMedia, .mediaAsset, "x", 0, some 1,
    none⟩).insert ⟨"t", "p", "d/b"⟩ ⟨.preview, .mediaAsset, "x", 0, some 1, none⟩
  disk := names.foldl (fun d name => d.link ⟨["d"], name⟩) Disk.empty

/-- Both objects are there: one sweep for each. -/
theorem twoRows_progress : (sweepAll 2 1 (twoRows ["a", "b"]) [3, 4]).pending 2 = 0 := by
  exact (sweep_progress (by decide) 3).2 [3, 4] (by decide +kernel) (by decide +kernel)

/-- The first object is not there: no number of sweeps reaches the second. -/
theorem twoRows_starved : present (twoRows ["b"]).disk (fileName "d/b") = true ∧
    (twoRows ["b"]).pending 2 = 2 ∧ ∀ times, sweepAll 2 1 (twoRows ["b"]) times =
      twoRows ["b"] := by
  refine ⟨by decide +kernel, by decide +kernel, fun times => ?_⟩
  induction times with
  | nil => rfl
  | cons now times ih =>
    have hstarved : (sweep 2 now 1 (twoRows ["b"])).2 = twoRows ["b"] :=
      sweep_starved (by decide +kernel) (by decide +kernel) now
    exact (congrArg (fun s => sweepAll 2 1 s times) hstarved).trans ih

end Scenara.Assets
