import Scenara.Core.Raising
import Scenara.Core.Slices

/-!
# Uploads of files to S3

`S3ObjectStore.put_file`, once the key and the digest are checked, and its S3 requests, each of
which may be answered, or raise and be served all the same.
-/

namespace Scenara.ObjectStore.S3

open Scenara.Core

/-! ## The requests -/

/-- A `ClientError` with the code of a failed precondition, another exception, or
`CancelledError`. -/
inductive Exc where
  | preconditionFailed
  | exception
  | cancelledError

/-- How a request ends. -/
inductive Fate where
  | answered
  | raised (exc : Exc) (served : Bool)

/-- An object, with the digest that `stat` finds recorded for it. -/
structure Object (α D : Type) where
  data : List α
  sha256 : Option D

/-- The key, the multipart upload `created` for a digest, and the `parts` that the call lists. -/
structure Bucket (α D : Type) where
  object : Option (Object α D)
  created : Option D := none
  uploaded : List (Nat × List α) := []
  parts : List (Nat × D) := []
  completed : Bool := false
  abortRequested : Bool := false

/-- A call of `put_file` to a store, what is under the key, and how each request ends. -/
structure Upload (α D : Type) where
  sha256 : List α → D
  multipartThresholdBytes : Int
  multipartChunkBytes : Nat
  le_chunk : 5 * 1024 * 1024 ≤ multipartChunkBytes
  file : List α
  overwrite : Bool
  object : Option (Object α D)
  putObject : Fate
  createMultipartUpload : Fate
  uploadPart : Nat → Fate
  completeMultipartUpload : Fate
  headObject : Fate
  abortMultipartUpload : Fate

variable {α D : Type}

/-- A call that raises leaves the bucket as it is then. -/
abbrev Call (α D : Type) := Except (Exc × Bucket α D)

/-- A request, with what it does when it is served. -/
def request (serve : Bucket α D → Except Exc (Bucket α D)) (s : Bucket α D) :
    Fate → Call α D (Bucket α D)
  | .answered => (serve s).mapError (·, s)
  | .raised exc served => .error (exc, if served then (serve s).toOption.getD s else s)

namespace Upload

variable [DecidableEq D] (u : Upload α D)

/-- The digest of the file. -/
def digest : D := u.sha256 u.file

/-- `IfNoneMatch="*"` unless `overwrite`. -/
def write (o : Object α D) (s : Bucket α D) : Except Exc (Bucket α D) :=
  if u.overwrite = false ∧ s.object.isSome then .error .preconditionFailed
  else .ok { s with object := some o }

/-- The parts listed are put together, when they are those uploaded. -/
def complete (s : Bucket α D) : Except Exc (Bucket α D) :=
  if s.parts = s.uploaded.map (fun p => (p.1, u.sha256 p.2)) then
    u.write ⟨(s.uploaded.map Prod.snd).flatten, s.created⟩ { s with completed := true }
  else .error .exception

/-! ## The call -/

/-- `_existing_or_raise`; `stat` raises too where there is no object, or no digest. -/
def existingOrRaise (s : Bucket α D) : Call α D (Bucket α D) := do
  let s ← request .ok s u.headObject
  if s.object.bind Object.sha256 = some u.digest then .ok s else .error (.exception, s)

/-- `except ClientError`, in `put` and at the completion. -/
def orExisting : Call α D (Bucket α D) → Call α D (Bucket α D)
  | .error (.preconditionFailed, s) =>
    if u.overwrite then .error (.preconditionFailed, s) else u.existingOrRaise s
  | r => r

/-- `put`. -/
def put (s : Bucket α D) : Call α D (Bucket α D) :=
  u.orExisting (request (u.write ⟨u.file, some u.digest⟩) s u.putObject)

/-- The loop over the chunks of the file. -/
def uploadParts : List (List α) → Nat → Bucket α D → Call α D (Bucket α D)
  | [], _, s => .ok s
  | chunk :: chunks, n, s => do
    let s ← request (fun s => .ok { s with uploaded := s.uploaded ++ [(n, chunk)] }) s
        (u.uploadPart n)
    uploadParts chunks (n + 1) { s with parts := s.parts ++ [(n, u.sha256 chunk)] }

/-- `except Exception`: the upload is aborted, and the exception goes on. -/
def orAbort : Call α D (Bucket α D) → Call α D (Bucket α D)
  | .ok s => .ok s
  | .error (.cancelledError, s) => .error (.cancelledError, s)
  | .error (exc, s) =>
    match request (fun s => .ok { s with uploaded := [] }) { s with abortRequested := true }
      u.abortMultipartUpload with
    | .error (.cancelledError, s) => .error (.cancelledError, s)
    | r => .error (exc, reached r)

/-- `put_file`. -/
def putFile (s : Bucket α D) : Call α D (Bucket α D) :=
  if u.file.length < u.multipartThresholdBytes then u.put s
  else do
    let s ← request (fun s => .ok { s with created := some u.digest }) s u.createMultipartUpload
    u.orAbort do
      let s ← u.uploadParts (slices u.multipartChunkBytes u.file) 1 s
      u.orExisting (request u.complete s u.completeMultipartUpload)

/-! ## The claim and the condition -/

/-- **What is promised** of a call that ends with `r`. -/
@[mk_iff] structure Promised (r : Call α D (Bucket α D)) : Prop where
  stored : ∀ s, r = .ok s → s.object = some ⟨u.file, some u.digest⟩
  kept : u.overwrite = false → u.object.isSome → (reached r).object = u.object
  cleaned : (reached r).created.isSome → (reached r).completed ∨ (reached r).abortRequested

/-- How the loop ends: the fate of the first part that is not answered. -/
def partsFate : List (List α) → Nat → Fate
  | [], _ => .answered
  | _ :: chunks, n =>
    match u.uploadPart n with
    | .answered => partsFate chunks (n + 1)
    | fate => fate

/-- `_existing_or_raise` finds the digest of the file, or is cancelled. -/
def Met : Prop :=
  match u.headObject with
  | .answered => u.object.bind Object.sha256 = some u.digest
  | .raised exc _ => exc = .cancelledError

/-- A completion that writes nothing is aborted. -/
def Aborted : Exc → Prop
  | .cancelledError => False
  | .exception => True
  | .preconditionFailed => u.overwrite = true ∨ ¬u.Met

/-- An object that `put` may meet under the digest has the bytes. -/
def Genuine : Prop :=
  u.overwrite = false → (∀ exc served, u.putObject = .raised exc served →
    exc = .preconditionFailed) →
    u.headObject = .answered → ∀ o, u.object = some o → o.sha256 = some u.digest → o.data = u.file

/-- **The condition.** What `put` meets is genuine; a creation that raises creates nothing,
no `upload_part` is cancelled, and a completion writes the object or raises what is aborted. -/
def Cleans : Prop :=
  if u.file.length < u.multipartThresholdBytes then
    u.Genuine
  else match u.createMultipartUpload with
    | .raised _ served => served = false
    | .answered => match u.partsFate (slices u.multipartChunkBytes u.file) 1 with
      | .raised exc _ => exc ≠ .cancelledError
      | .answered => match u.completeMultipartUpload with
        | .answered => (u.overwrite = true ∨ u.object = none) ∨ u.Aborted .preconditionFailed
        | .raised exc served => (u.overwrite = true ∨ u.object = none) ∧ served ∨ u.Aborted exc

omit [DecidableEq D] in
theorem uploadParts_eq (chunks : List (List α)) (n : Nat) (s : Bucket α D)
    (hs : s.parts = s.uploaded.map fun p => (p.1, u.sha256 p.2)) :
    ∃ uploaded parts, u.uploadParts chunks n s = (match u.partsFate chunks n with
        | .answered => .ok { s with uploaded, parts }
        | .raised exc _ => .error (exc, { s with uploaded, parts })) ∧
      (u.partsFate chunks n = .answered → parts = uploaded.map (fun p => (p.1, u.sha256 p.2)) ∧
        (uploaded.map Prod.snd).flatten = (s.uploaded.map Prod.snd).flatten ++ chunks.flatten) := by
  induction chunks generalizing n s with
  | nil => exact ⟨s.uploaded, s.parts, rfl, fun _ => ⟨hs, by simp⟩⟩
  | cons chunk chunks ih =>
    unfold uploadParts partsFate
    cases hn : u.uploadPart n with
    | raised exc served => cases served <;> exact ⟨_, s.parts, rfl, nofun⟩
    | answered =>
      obtain ⟨uploaded, parts, heq, hall⟩ := ih (n + 1)
        { s with uploaded := s.uploaded ++ [(n, chunk)], parts := s.parts ++ [(n, u.sha256 chunk)] }
        (by simp [hs])
      exact ⟨uploaded, parts, heq, fun h => (hall h).imp id fun hflat => by simpa using hflat⟩

/-! ## The exits -/

variable {u}

theorem existingOrRaise_eq (s : Bucket α D) : u.existingOrRaise s =
    match u.headObject with
    | .answered => if s.object.bind Object.sha256 = some u.digest then .ok s
        else .error (.exception, s)
    | .raised exc _ => .error (exc, s) := by
  unfold existingOrRaise
  cases u.headObject with
  | answered => rfl
  | raised exc served => cases served <;> rfl

omit [DecidableEq D] in
theorem promised_orAbort (exc : Exc) {s : Bucket α D}
    (hkept : u.overwrite = false → u.object.isSome → s.object = u.object)
    (hs : s.created.isSome ∧ s.abortRequested = false) :
    u.Promised (u.orAbort (.error (exc, s))) ↔ s.completed ∨ exc ≠ .cancelledError := by
  cases exc with
  | cancelledError => simpa [promised_iff, orAbort, hs] using fun _ => hkept
  | preconditionFailed | exception =>
    unfold orAbort
    cases u.abortMultipartUpload with
    | answered => simpa [promised_iff, request, Except.mapError] using hkept
    | raised exc served =>
      cases exc <;> cases served <;> simpa [promised_iff, request, Except.toOption] using hkept

variable {uploaded : List (Nat × List α)} {parts : List (Nat × D)}

theorem promised_aborted (exc : Exc) :
    u.Promised (u.orAbort (u.orExisting
      (.error (exc, ⟨u.object, some u.digest, uploaded, parts, false, false⟩)))) ↔
      u.Aborted exc := by
  have hraised (exc : Exc) := promised_orAbort (u := u) exc
    (s := ⟨u.object, some u.digest, uploaded, parts, false, false⟩) (fun _ _ => rfl) ⟨rfl, rfl⟩
  unfold orExisting Aborted Met
  cases exc with
  | cancelledError => simpa using hraised .cancelledError
  | exception => simpa using hraised .exception
  | preconditionFailed =>
    cases hover : u.overwrite with
    | true => simpa using hraised .preconditionFailed
    | false =>
      simp only [Bool.false_eq_true, if_false, false_or, existingOrRaise_eq]
      cases u.headObject with
      | raised exc served => simpa using hraised exc
      | answered =>
        dsimp only
        split
        · next h => simp [promised_iff, orAbort, h]
        · next h => simpa [h] using hraised .exception

theorem promised_written (hfree : u.overwrite = true ∨ u.object = none) {r : Call α D (Bucket α D)}
    {s : Bucket α D} (hs : s = ⟨some ⟨u.file, some u.digest⟩, some u.digest, uploaded, parts,
      true, false⟩)
    (hr : r = .ok s ∨ ∃ exc, r = .error (exc, s)) : u.Promised (u.orAbort (u.orExisting r)) := by
  have hkept : u.overwrite = false → u.object.isSome → s.object = u.object := by
    intro h hsome
    simp_all
  have hok : u.Promised (u.orAbort (.ok s)) := by
    subst hs
    exact ⟨fun _ h => by cases h; rfl, hkept, fun _ => .inl rfl⟩
  have hraised (exc : Exc) :=
    (promised_orAbort exc hkept (hs ▸ ⟨rfl, rfl⟩)).2 (.inl (hs ▸ rfl))
  obtain rfl | ⟨exc, rfl⟩ := hr
  · exact hok
  unfold orExisting
  cases exc with
  | exception | cancelledError => exact hraised _
  | preconditionFailed =>
    dsimp only
    split
    · exact hraised _
    · rw [existingOrRaise_eq]
      cases u.headObject with
      | raised => exact hraised _
      | answered =>
        dsimp only
        split
        · exact hok
        · exact hraised _

/-! ## The claim -/

theorem promised_put : u.Promised (u.put { object := u.object }) ↔ u.Genuine := by
  unfold put Genuine
  cases u.putObject with
  | answered =>
    cases hover : u.overwrite <;> rcases hobject : u.object with _ | ⟨data, recorded⟩ <;>
      simp [promised_iff, request, write, orExisting, Except.mapError, existingOrRaise_eq, hover,
        hobject]
    cases u.headObject <;> simp
    split <;> simp_all
  | raised exc served =>
    cases exc <;> cases served <;> cases hover : u.overwrite <;>
      rcases hobject : u.object with _ | ⟨data, recorded⟩ <;>
      simp [promised_iff, request, write, orExisting, existingOrRaise_eq, Except.toOption, hover,
        hobject]
    all_goals cases u.headObject <;> simp
    all_goals split <;> simp_all

/-- **What is promised holds exactly under the condition.** -/
theorem promised_iff_cleans (u : Upload α D) : u.Promised (u.putFile { object := u.object }) ↔
    u.Cleans := by
  unfold putFile Cleans
  split
  · exact promised_put
  cases u.createMultipartUpload with
  | raised exc served =>
    cases served <;> simp [request, promised_iff, bind, Except.bind, Except.toOption]
  | answered =>
    obtain ⟨uploaded, parts, heq, hall⟩ := u.uploadParts_eq (slices u.multipartChunkBytes u.file) 1
      { object := u.object, created := some u.digest } rfl
    show u.Promised (u.orAbort (_ >>= _)) ↔ _
    rw [heq]
    cases hparts : u.partsFate (slices u.multipartChunkBytes u.file) 1 with
    | raised exc served =>
      refine Iff.trans (promised_orAbort _ (fun _ _ => rfl) ⟨rfl, rfl⟩) ?_
      exact ⟨fun h => h.resolve_left Bool.false_ne_true, .inr⟩
    | answered =>
      obtain ⟨rfl, hflat⟩ := hall hparts
      have hfile : (uploaded.map Prod.snd).flatten = u.file :=
        hflat.trans (flatten_slices (Nat.lt_of_lt_of_le (by decide) u.le_chunk) u.file)
      have hiff : (u.overwrite = false ∧ u.object.isSome) ↔
          ¬(u.overwrite = true ∨ u.object = none) := by
        cases u.overwrite <;> cases u.object <;> simp
      have hcomplete : u.complete ⟨u.object, some u.digest, uploaded,
          uploaded.map fun p => (p.1, u.sha256 p.2), false, false⟩ =
            if u.overwrite = true ∨ u.object = none then
              .ok ⟨some ⟨u.file, some u.digest⟩, some u.digest,
              uploaded, uploaded.map fun p => (p.1, u.sha256 p.2), true, false⟩
            else .error .preconditionFailed := by
        simp only [complete, write, hfile, hiff, ite_not, if_true]
      show u.Promised (u.orAbort (u.orExisting _)) ↔ _
      by_cases hfree : u.overwrite = true ∨ u.object = none
      · cases u.completeMultipartUpload with
        | answered =>
          simp only [request, hcomplete, hfree, if_true, true_or, iff_true]
          exact promised_written hfree rfl (.inl rfl)
        | raised exc served =>
          cases served with
          | false => simpa [request] using promised_aborted exc
          | true =>
            simp only [request, hcomplete, hfree, if_true, and_self, true_or, iff_true]
            exact promised_written hfree rfl (.inr ⟨exc, rfl⟩)
      · cases u.completeMultipartUpload with
        | answered =>
          simp only [request, hcomplete, hfree, if_false, false_or]
          exact promised_aborted .preconditionFailed
        | raised exc served =>
          cases served <;> simp only [request, hcomplete, hfree, if_false, false_and, false_or] <;>
            exact promised_aborted exc

/-- The only part of a file is cancelled. -/
def interrupted : Upload Nat Nat where
  sha256 := List.foldr Nat.add 0
  multipartThresholdBytes := 0
  multipartChunkBytes := 5 * 1024 * 1024
  le_chunk := Nat.le_refl _
  file := [7]
  overwrite := false
  object := none
  putObject := .answered
  createMultipartUpload := .answered
  uploadPart _ := .raised .cancelledError false
  completeMultipartUpload := .answered
  headObject := .answered
  abortMultipartUpload := .answered

/-- The upload is neither completed nor aborted. -/
theorem interrupted_left : ¬∀ u :
    Upload Nat Nat, u.Promised (u.putFile { object := u.object }) := by
  intro h
  exact absurd ((h interrupted).cleaned rfl) (by decide)

end Upload

end Scenara.ObjectStore.S3
