import Scenara.Core.Parties
import Scenara.ObjectStore.Model

/-!
# What a lawful step does

* `Lawful`: no key is the metadata file of another one or a directory of it; no file is read, and
  the process does not die, while an object is being written; an object is created only where no
  metadata is, and unlinked only while no `put` of it is under way.
-/

namespace Scenara.ObjectStore

open Scenara.Core

variable {α D : Type}
variable {phase : Phase α D} {disk : Disk α} {n : Nat}

/-! ## The claim -/

/-- A `put` of the bytes under the key was called. -/
def Put (x : State α D) (key : FileName) (data : List α) : Prop :=
  ∃ c ∈ x.calls, c.key = key ∧ ∃ upload, c.op = .put upload ∧ upload.data = data

/-- What `get` and `stat` find under the key: the bytes, and the digest and the size. -/
def yields (codec : Codec α D) (d : Disk α) (key : FileName) : Option (List α) × Option (D × Nat) :=
  (d.content key, match (d.content (metadataPath key)).bind codec.load with
    | some metadata => some (metadata.sha256, metadata.sizeBytes)
    | none => (d.content key).map fun data => (codec.sha256 data, data.length))

/-- The key is not the metadata file of the other one, and neither is a directory of the other
one. -/
def Apart (key other : FileName) : Prop :=
  other ≠ metadataPath key ∧ ¬key.full <+: other.dir ∧ ¬(metadataPath key).full <+: other.dir
  deriving Decidable

/-- **The call is served as by an immutable map**, when it goes on to `phase`. -/
structure Served (codec : Codec α D) (x y : State α D) (c : Call α D) (phase : Phase α D) :
    Prop where
  others : ∀ key, key ≠ c.key → Apart c.key key → Apart key c.key →
    yields codec y.disk key = yields codec x.disk key
  bytes : ∀ data, phase = .done (.bytes data) → Put x c.key data
  metadata : ∀ metadata, phase = .done (.metadata metadata) → ∃ data, Put x c.key data ∧
    metadata.sha256 = codec.sha256 data ∧ metadata.sizeBytes = data.length
  stored : ∀ upload metadata, c.op = .put upload → phase = .done (.stored metadata) →
    y.disk.content c.key = some upload.data
  refused : ∀ upload error, c.op = .put upload → phase = .done (.raised error) →
    error = .objectAlreadyExists ∧ y.disk = x.disk ∧
      ∃ data, Put x c.key data ∧ data ≠ upload.data ∧ x.disk.content c.key = some data

/-- **What is promised**, until a `delete`. -/
def Kept (x : State α D) : Prop :=
  ∀ key data, x.kept.get? key = some data → x.disk.content key = some data

/-! ## The condition -/

/-- The object of the call is created and not yet written. -/
def Phase.incomplete : Phase α D → Bool
  | .writing _ (_ :: _) => true
  | _ => false

/-- A `put` that has met or created its object, and has not returned. -/
def Call.engaged (c : Call α D) : Bool :=
  match c.op, c.phase with
  | .put _, .writing _ _ => true
  | .put _, .describing => true
  | .put _, .recording _ _ => true
  | .put _, .comparing => true
  | .put _, .hashing => true
  | _, _ => false

/-- No object is being written under the key. -/
def Complete (x : State α D) (key : FileName) : Prop :=
  ∀ c ∈ x.calls, c.key = key → c.phase.incomplete = false
  deriving Decidable

/-- The next system call of the call does no harm. -/
def Harmless (x : State α D) (c : Call α D) : Prop :=
  match c.phase with
  | .reading => Complete x c.key
  | .hashing => Complete x c.key
  | .opening => x.disk.isFile c.key = false → x.disk.isFile (metadataPath c.key) = false
  | .unlinking => ∀ c' ∈ x.calls, c'.key = c.key → c'.engaged = false
  | _ => True

/-- **The condition.** -/
def Lawful (x : State α D) : Act α → Prop
  | .call _ key => validateObjectKey (metadataPath key) = true ∧
      ∀ c ∈ x.calls, Apart key c.key ∧ Apart c.key key
  | .go i _ => ∀ c ∈ x.calls[i]?, Harmless x c
  | .crash => ∀ c ∈ x.calls, c.phase.incomplete = false

instance (x : State α D) : ∀ c, Decidable (Harmless x c)
  | ⟨_, key, .reading⟩ | ⟨_, key, .hashing⟩ => inferInstanceAs (Decidable (Complete x key))
  | ⟨_, key, .opening⟩ => inferInstanceAs (Decidable (_ → _))
  | ⟨_, key, .unlinking⟩ => inferInstanceAs (Decidable (∀ _ ∈ _, _ → _))
  | ⟨_, _, .preparing⟩ | ⟨_, _, .looking⟩ | ⟨_, _, .writing _ _⟩ | ⟨_, _, .describing⟩
  | ⟨_, _, .recording _ _⟩ | ⟨_, _, .comparing⟩ | ⟨_, _, .testing⟩ | ⟨_, _, .probing⟩
  | ⟨_, _, .unlinkingMetadata⟩ | ⟨_, _, .done _⟩ | ⟨_, _, .dead⟩ => inferInstanceAs (Decidable True)

instance (x : State α D) : ∀ act, Decidable (Lawful x act)
  | .call _ key => inferInstanceAs (Decidable (_ ∧ ∀ _ ∈ _, _ ∧ _))
  | .go i _ => inferInstanceAs (Decidable (∀ _ ∈ _, _))
  | .crash => inferInstanceAs (Decidable (∀ _ ∈ _, _))

/-! ## The invariant -/

/-- The call owns the object or the metadata file of its key. -/
def Phase.creates : Phase α D → Bool
  | .writing _ _ => true
  | .describing => true
  | .recording _ _ => true
  | _ => false

/-- The system calls of `put`. -/
def Phase.ofPut : Phase α D → Bool
  | .reading => false
  | .testing => false
  | .probing => false
  | .unlinking => false
  | .unlinkingMetadata => false
  | _ => true

/-- How far a call is. -/
structure Fits (codec : Codec α D) (d : Disk α) (kept : Dict FileName (List α)) (c : Call α D) :
    Prop where
  put : ∀ upload, c.op = .put upload → c.phase.ofPut = true
  writing : ∀ fd rest, c.phase = .writing fd rest → ∃ upload, c.op = .put upload ∧
    d.names.get? c.key = some fd ∧ d.Own c.key fd ∧
    (∃ w, d.content c.key = some w ∧ w ++ rest = upload.data) ∧
    d.names.get? (metadataPath c.key) = none ∧ (rest ≠ [] → kept.get? c.key = none)
  describing : c.phase = .describing → ∃ upload, c.op = .put upload ∧
    d.content c.key = some upload.data
  recording : ∀ fd rest, c.phase = .recording fd rest → ∃ upload, c.op = .put upload ∧
    d.content c.key = some upload.data ∧ d.Own (metadataPath c.key) fd ∧
    (d.names.get? (metadataPath c.key) = some fd → ∃ w, d.content (metadataPath c.key) = some w ∧
      w ++ rest = codec.dump (upload.metadata codec))
  comparing : ∀ upload, c.op = .put upload → c.phase = .comparing ∨ c.phase = .hashing →
    d.content c.key ≠ none

/-- What every lawful step keeps. -/
structure Inv (codec : Codec α D) (x : State α D) : Prop where
  bounded : x.disk.Bounded
  apart : ∀ c ∈ x.calls, ∀ c' ∈ x.calls, Apart c.key c'.key
  valid : ∀ c ∈ x.calls, validateObjectKey (metadataPath c.key) = true
  names : ∀ p, x.disk.isFile p = true → ∃ c ∈ x.calls, p = c.key ∨ p = metadataPath c.key
  dirs : ∀ dir ∈ x.disk.dirs, ∃ c ∈ x.calls, dir = c.key.dir
  fits : ∀ c ∈ x.calls, Fits codec x.disk x.kept c
  creators : Parties.Apart (fun c c' => c.phase.creates = true → c'.phase.creates = true →
    c.key ≠ c'.key) x.calls
  objects : ∀ key data, (∃ c ∈ x.calls, c.key = key) → x.disk.content key = some data →
    (∃ c ∈ x.calls, c.key = key ∧ c.phase.incomplete = true) ∨ Put x key data
  metadata : ∀ key w, (∃ c ∈ x.calls, c.key = key) → x.disk.content (metadataPath key) = some w →
    ∃ c ∈ x.calls, c.key = key ∧ ∃ upload, c.op = .put upload ∧
      w <+: codec.dump (upload.metadata codec) ∧
      ∀ data, x.disk.content key = some data → data = upload.data
  kept : Kept x
  known : ∀ key data, x.kept.get? key = some data → ∃ c ∈ x.calls, c.key = key

variable {codec : Codec α D} {x : State α D} {c c' : Call α D} {key : FileName} {i : Nat}

/-! ## Keys -/

theorem metadataPath_inj {key other : FileName} (h : metadataPath key = metadataPath other) :
    key = other := by
  obtain ⟨dir, name⟩ := key
  obtain ⟨dir', name'⟩ := other
  have hboth := FileName.mk.inj h
  have hdir : dir = dir' := hboth.1
  have hname : name = name' := (String.append_left_inj _).1 hboth.2
  rw [hdir, hname]

theorem Inv.key_ne (h : Inv codec x) (hc : c ∈ x.calls) (hc' : c' ∈ x.calls) :
    c'.key ≠ metadataPath c.key := (h.apart c hc c' hc').1

theorem Inv.clear (h : Inv codec x) (hc : c ∈ x.calls) :
    x.disk.Clear c.key ∧ x.disk.Clear (metadataPath c.key) := by
  have hblocked : x.disk.blocked c.key.dir = false := by
    rw [Disk.blocked, List.any_eq_false]
    intro e he
    rw [decide_eq_true_eq]
    have hfile : x.disk.isFile e.1 = true := by
      rw [Disk.isFile, (Dict.mem_entries _ e.1 e.2).1 he]
      rfl
    obtain ⟨c', hc', hkey | hkey⟩ := h.names e.1 hfile
    · rw [hkey]
      exact (h.apart c' hc' c hc).2.1
    · rw [hkey]
      exact (h.apart c' hc' c hc).2.2
  have hdir : ∀ p : FileName, (∀ c' ∈ x.calls, ¬p.full <+: c'.key.dir) →
      x.disk.isDir p = false := by
    intro p hp
    rw [Disk.isDir, List.any_eq_false]
    intro dir hmem
    rw [decide_eq_true_eq]
    obtain ⟨c', hc', rfl⟩ := h.dirs dir hmem
    exact hp c' hc'
  exact ⟨⟨hblocked, hdir _ fun c' hc' => (h.apart c hc c' hc').2.1⟩,
    ⟨hblocked, hdir _ fun c' hc' => (h.apart c hc c' hc').2.2⟩⟩

/-! ## System calls -/

/-- What a call answers, is so. -/
structure Answers (codec : Codec α D) (x : State α D) (c : Call α D) (phase : Phase α D) :
    Prop where
  bytes : ∀ data, phase = .done (.bytes data) → Put x c.key data
  metadata : ∀ metadata, phase = .done (.metadata metadata) → ∃ data, Put x c.key data ∧
    metadata.sha256 = codec.sha256 data ∧ metadata.sizeBytes = data.length
  stored : ∀ upload metadata, c.op = .put upload → phase = .done (.stored metadata) →
    x.disk.content c.key = some upload.data ∧ Complete x c.key
  refused : ∀ upload error, c.op = .put upload → phase = .done (.raised error) →
    error = .objectAlreadyExists ∧
      ∃ data, Put x c.key data ∧ data ≠ upload.data ∧ x.disk.content c.key = some data

/-- What a lawful call does next. -/
inductive Moves (codec : Codec α D) (x : State α D) (c : Call α D) : Disk α → Phase α D → Prop where
  /-- It reads, or has nothing to write. -/
  | same {phase : Phase α D} (hfits : Fits codec x.disk x.kept { c with phase })
      (hcreates : phase.creates = true → c.phase.creates = true)
      (hincomplete : c.phase.incomplete = false)
      (hunlinking : phase ≠ .unlinkingMetadata) (hanswers : Answers codec x c phase) :
      Moves codec x c x.disk phase
  | prepares (hphase : c.phase = .preparing) :
      Moves codec x c { x.disk with dirs := x.disk.dirs ++ [c.key.dir] } .looking
  | creates {upload : Upload α} (hop : c.op = .put upload) (hphase : c.phase = .opening)
      (hname : x.disk.names.get? c.key = none)
      (hmetadata : x.disk.names.get? (metadataPath c.key) = none) :
      Moves codec x c (x.disk.link c.key) (.writing x.disk.inodes.length upload.data)
  | writes {fd n : Nat} {a : α} {rest : List α} (hphase : c.phase = .writing fd (a :: rest)) :
      Moves codec x c (x.disk.append fd ((a :: rest).take n)) (.writing fd ((a :: rest).drop n))
  | describes {upload : Upload α} (hop : c.op = .put upload) (hphase : c.phase = .describing)
      (hname : x.disk.names.get? (metadataPath c.key) = none) :
      Moves codec x c (x.disk.link (metadataPath c.key))
        (.recording x.disk.inodes.length (codec.dump (upload.metadata codec)))
  | records {fd n : Nat} {a : α} {rest : List α} (hphase : c.phase = .recording fd (a :: rest)) :
      Moves codec x c (x.disk.append fd ((a :: rest).take n)) (.recording fd ((a :: rest).drop n))
  | unlinks (hphase : c.phase = .unlinking)
      (hquiet : ∀ c' ∈ x.calls, c'.key = c.key → c'.engaged = false) :
      Moves codec x c (x.disk.erase c.key) .unlinkingMetadata
  | unlinksMetadata (hphase : c.phase = .unlinkingMetadata) :
      Moves codec x c (x.disk.erase (metadataPath c.key)) (.done (.flag true))

/-- Nothing is known of a call in the phase. -/
def Phase.idle : Phase α D → Bool
  | .writing _ _ => false
  | .describing => false
  | .recording _ _ => false
  | .comparing => false
  | .hashing => false
  | _ => true

theorem fits_idle {d : Disk α} {kept : Dict FileName (List α)} (hidle : c.phase.idle = true)
    (hput : ∀ upload, c.op = .put upload → c.phase.ofPut = true) : Fits codec d kept c where
  put := hput
  writing fd rest h := by
    rw [h] at hidle
    cases hidle
  describing h := by
    rw [h] at hidle
    cases hidle
  recording fd rest h := by
    rw [h] at hidle
    cases hidle
  comparing upload _ h := by
    rcases h with h | h <;>
    · rw [h] at hidle
      cases hidle

theorem answers_running (h : ∀ outcome, phase ≠ .done outcome) : Answers codec x c phase :=
  ⟨fun _ hphase => absurd hphase (h _), fun _ hphase => absurd hphase (h _),
    fun _ _ _ hphase => absurd hphase (h _), fun _ _ _ hphase => absurd hphase (h _)⟩

theorem answers_flag {value : Bool} : Answers codec x c (.done (.flag value)) :=
  ⟨nofun, nofun, nofun, nofun⟩

theorem answers_raised {error : Error} (hop : ∀ upload, c.op ≠ .put upload) :
    Answers codec x c (.done (.raised error)) :=
  ⟨nofun, nofun, nofun, fun upload _ hput => absurd hput (hop upload)⟩

theorem Moves.quiet (hidle : phase.idle = true)
    (hput : ∀ upload, c.op = .put upload → phase.ofPut = true)
    (hincomplete : c.phase.incomplete = false)
    (hunlinking : phase ≠ .unlinkingMetadata) (hanswers : Answers codec x c phase) :
    Moves codec x c x.disk phase := by
  refine .same (fits_idle hidle hput) (fun hcreates => ?_) hincomplete hunlinking hanswers
  cases phase with
  | writing | describing | recording => cases hidle
  | _ => cases hcreates

theorem Inv.complete (h : Inv codec x) (hc : x.calls[i]? = some c)
    (hcreates : c.phase.creates = true) (hincomplete : c.phase.incomplete = false) :
    Complete x c.key := by
  intro c' hc' hkey
  obtain ⟨j, hj⟩ := List.getElem?_of_mem hc'
  by_cases hij : i = j
  · rw [hij, hj] at hc
    cases hc
    exact hincomplete
  · have hne := h.creators i j c c' hc hj hij hcreates
    cases hphase : c'.phase with
    | writing => exact absurd hkey.symm (hne (by rw [hphase]; rfl))
    | _ => rfl

theorem Inv.reads (h : Inv codec x) (hc : c ∈ x.calls) (hcomplete : Complete x c.key)
    {data : List α} (hdata : x.disk.content c.key = some data) : Put x c.key data := by
  refine (h.objects c.key data ⟨c, hc, rfl⟩ hdata).resolve_left ?_
  rintro ⟨c', hc', hkey, hincomplete⟩
  simp [hcomplete c' hc' hkey] at hincomplete

variable [DecidableEq D]

theorem answers_answer (hsha : Function.Injective codec.sha256) {metadata : Metadata D}
    {data : List α} (hput : Put x c.key data) (hsha256 : metadata.sha256 = codec.sha256 data)
    (hsize : metadata.sizeBytes = data.length) (hcomplete : Complete x c.key)
    (hcontent : ∀ upload, c.op = .put upload → x.disk.content c.key = some data) :
    Answers codec x c (c.answer codec metadata) := by
  unfold Call.answer
  split
  · rename_i upload hop
    split
    · rename_i heq
      refine ⟨nofun, nofun, fun upload' _ hop' _ => ?_, nofun⟩
      rw [hop] at hop'
      cases hop'
      rw [hsha256] at heq
      rw [← hsha heq]
      exact ⟨hcontent upload hop, hcomplete⟩
    · rename_i hne
      refine ⟨nofun, nofun, nofun, fun upload' error hop' h => ?_⟩
      rw [hop] at hop'
      cases hop'
      cases h
      refine ⟨rfl, data, hput, fun heq => hne ?_, hcontent upload hop⟩
      rw [hsha256, heq]
  · rename_i hop
    refine ⟨nofun, fun m h => ?_, nofun, fun upload _ hop' _ => absurd hop' (hop upload)⟩
    cases h
    exact ⟨data, hput, hsha256, hsize⟩

theorem answer_idle (codec : Codec α D) (c : Call α D) (metadata : Metadata D) :
    (c.answer codec metadata).idle = true ∧
    (c.answer codec metadata).ofPut = true ∧ c.answer codec metadata ≠ .unlinkingMetadata := by
  unfold Call.answer
  split
  · split <;> exact ⟨rfl, rfl, by simp⟩
  · exact ⟨rfl, rfl, by simp⟩

omit [DecidableEq D] in
theorem Inv.describes (h : Inv codec x) (hc : c ∈ x.calls) {w : List α} {metadata : Metadata D}
    (hw : x.disk.content (metadataPath c.key) = some w) (hload : codec.load w = some metadata) :
    ∃ data, Put x c.key data ∧ metadata.sha256 = codec.sha256 data ∧
      metadata.sizeBytes = data.length ∧
      ∀ data', x.disk.content c.key = some data' → data' = data := by
  obtain ⟨c', hc', hkey, upload, hop, hcut, hcontent⟩ := h.metadata c.key w ⟨c, hc, rfl⟩ hw
  have hdump : w = codec.dump (upload.metadata codec) := by
    by_contra hne
    rw [codec.load_cut _ _ hcut hne] at hload
    cases hload
  rw [hdump, codec.load_dump] at hload
  cases hload
  exact ⟨upload.data, ⟨c', hc', hkey, upload, hop, rfl⟩, rfl, rfl, hcontent⟩

omit [DecidableEq D] in
theorem Inv.complete_of_metadata (h : Inv codec x) {w : List α}
    (hw : x.disk.content (metadataPath key) = some w) : Complete x key := by
  intro c' hc' hkey
  cases hphase : c'.phase with
  | writing fd rest =>
    obtain ⟨_, -, -, -, -, hname, -⟩ := (h.fits c' hc').writing fd rest hphase
    rw [hkey] at hname
    simp [Disk.content_of_none hname] at hw
  | _ => rfl

theorem Inv.compares (h : Inv codec x) (hsha : Function.Injective codec.sha256) (hc : c ∈ x.calls)
    (hphase : c.phase = .comparing)
    (hgo : c.go codec x.disk n = some (disk, phase)) : Moves codec x c disk phase := by
  have hincomplete : c.phase.incomplete = false := by rw [hphase]; rfl
  have hhashing : Moves codec x c x.disk .hashing := by
    refine .same ⟨fun upload hop => rfl, nofun, nofun,
      nofun, fun upload hop _ => ?_⟩ nofun hincomplete
        (by simp)
      (answers_running (by simp))
    exact (h.fits c hc).comparing upload hop (.inl hphase)
  rw [Call.go, hphase] at hgo
  rw [if_pos (h.valid c hc), (h.clear hc).2.read] at hgo
  cases hw : x.disk.content (metadataPath c.key) with
  | none =>
    rw [hw] at hgo
    cases hgo
    exact hhashing
  | some w =>
    rw [hw] at hgo
    dsimp only at hgo
    cases hload : codec.load w with
    | none =>
      rw [hload] at hgo
      cases hgo
      exact hhashing
    | some metadata =>
      rw [hload] at hgo
      cases hgo
      obtain ⟨_, hput, hsha256, hsize, hcontent⟩ := h.describes hc hw hload
      have hidle := answer_idle codec c metadata
      refine .quiet hidle.1 (fun _ _ => hidle.2.1) hincomplete hidle.2.2
        (answers_answer hsha hput hsha256 hsize (h.complete_of_metadata hw) fun upload hop => ?_)
      obtain ⟨data', hdata'⟩ :=
        Option.ne_none_iff_exists'.1 ((h.fits c hc).comparing upload hop (.inl hphase))
      rw [hdata', hcontent data' hdata']

theorem Inv.hashes (h : Inv codec x) (hsha : Function.Injective codec.sha256) (hc : c ∈ x.calls)
    (hphase : c.phase = .hashing) (hcomplete : Complete x c.key)
    (hgo : c.go codec x.disk n = some (disk, phase)) : Moves codec x c disk phase := by
  have hincomplete : c.phase.incomplete = false := by rw [hphase]; rfl
  rw [Call.go, hphase] at hgo
  rw [(h.clear hc).1.read] at hgo
  cases hdata : x.disk.content c.key with
  | none =>
    rw [hdata] at hgo
    cases hgo
    have hop : ∀ upload, c.op ≠ .put upload := fun upload hop =>
      (h.fits c hc).comparing upload hop (.inr hphase) hdata
    exact .quiet rfl (fun _ _ => rfl) hincomplete (by simp [raised]) (answers_raised hop)
  | some data =>
    rw [hdata] at hgo
    cases hgo
    have hidle := answer_idle codec c
      ⟨data.length, codec.sha256 data, "application/octet-stream", none⟩
    exact .quiet hidle.1 (fun _ _ => hidle.2.1) hincomplete hidle.2.2
      (answers_answer hsha (h.reads hc hcomplete hdata) rfl rfl hcomplete fun _ _ => hdata)

omit [DecidableEq D] in
theorem Inv.present (h : Inv codec x) (hc : c ∈ x.calls)
    (hthere : x.disk.isFile c.key = true ∨ x.disk.isDir c.key = true) :
    x.disk.content c.key ≠ none := by
  rcases hthere with hfile | hdir
  · exact h.bounded.content_isSome hfile
  · simp [(h.clear hc).1.isDir] at hdir

omit [DecidableEq D] in
theorem Moves.existing (hcontent : x.disk.content c.key ≠ none)
    (hincomplete : c.phase.incomplete = false) : Moves codec x c x.disk .comparing :=
  .same ⟨fun _ _ => rfl, nofun, nofun, nofun,
    fun _ _ _ => hcontent⟩ nofun hincomplete (by simp) (answers_running (by simp))

theorem Inv.opens (h : Inv codec x) (hc : c ∈ x.calls) (hphase : c.phase = .opening)
    (hlawful : Harmless x c) (hgo : c.go codec x.disk n = some (disk, phase)) :
    Moves codec x c disk phase := by
  cases hop : c.op with
  | put =>
    rw [Call.go, hphase, hop] at hgo
    rw [(h.clear hc).1.create] at hgo
    cases hthere : x.disk.isFile c.key with
    | true =>
      rw [hthere] at hgo
      cases hgo
      exact .existing (h.present hc (.inl hthere)) (by rw [hphase]; rfl)
    | false =>
      rw [hthere] at hgo
      cases hgo
      rw [Harmless, hphase] at hlawful
      exact .creates hop hphase (Disk.name_of_not_isFile hthere)
        (Disk.name_of_not_isFile (hlawful hthere))
  | _ =>
    rw [Call.go, hphase, hop] at hgo
    cases hgo

theorem Inv.writes (h : Inv codec x) (hc : c ∈ x.calls) {fd : Nat} {rest : List α}
    (hphase : c.phase = .writing fd rest)
    (hgo : c.go codec x.disk n = some (disk, phase)) : Moves codec x c disk phase := by
  rw [Call.go, hphase] at hgo
  cases rest with
  | nil =>
    obtain ⟨upload, hop, -, -, ⟨w, hw, hdata⟩, -⟩ := (h.fits c hc).writing fd [] hphase
    rw [List.append_nil] at hdata
    cases hgo
    exact .same ⟨fun _ _ => rfl, nofun, fun _ => ⟨upload, hop, hdata ▸ hw⟩,
      nofun, fun _ _ h => (by simp at h)⟩ (fun _ => by rw [hphase]; rfl)
      (by rw [hphase]; rfl) (by simp) (answers_running (by simp))
  | cons a =>
    dsimp only at hgo
    split at hgo <;> cases hgo
    exact .writes hphase

omit [DecidableEq D] in
theorem Inv.returns (h : Inv codec x) (hi : x.calls[i]? = some c)
    (hcreates : c.phase.creates = true)
    (hincomplete : c.phase.incomplete = false) {upload : Upload α} (hop : c.op = .put upload)
    (hcontent : x.disk.content c.key = some upload.data) (metadata : Metadata D) :
    Moves codec x c x.disk (.done (.stored metadata)) := by
  refine .quiet rfl (fun _ _ => rfl) hincomplete (by simp) ⟨nofun, nofun,
    fun upload' _ hop' _ => ?_, nofun⟩
  rw [hop] at hop'
  cases hop'
  exact ⟨hcontent, h.complete hi hcreates hincomplete⟩

theorem Inv.recordsAt (h : Inv codec x) (hi : x.calls[i]? = some c) (hphase : c.phase = .describing)
    (hgo : c.go codec x.disk n = some (disk, phase)) : Moves codec x c disk phase := by
  have hc := List.mem_of_getElem? hi
  obtain ⟨_, hop, hcontent⟩ := (h.fits c hc).describing hphase
  rw [Call.go, hphase, hop] at hgo
  dsimp only at hgo
  rw [if_pos (h.valid c hc), (h.clear hc).2.create] at hgo
  cases hthere : x.disk.isFile (metadataPath c.key) with
  | true =>
    rw [hthere] at hgo
    cases hgo
    exact h.returns hi (by rw [hphase]; rfl) (by rw [hphase]; rfl) hop hcontent _
  | false =>
    rw [hthere] at hgo
    cases hgo
    exact .describes hop hphase (Disk.name_of_not_isFile hthere)

theorem Inv.records (h : Inv codec x) (hi : x.calls[i]? = some c) {fd : Nat} {rest : List α}
    (hphase : c.phase = .recording fd rest)
    (hgo : c.go codec x.disk n = some (disk, phase)) : Moves codec x c disk phase := by
  obtain ⟨_, hop, hcontent, -⟩ := (h.fits c (List.mem_of_getElem? hi)).recording fd rest hphase
  cases rest with
  | nil =>
    rw [Call.go, hphase, hop] at hgo
    cases hgo
    exact h.returns hi (by rw [hphase]; rfl) (by rw [hphase]; rfl) hop hcontent _
  | cons a =>
    rw [Call.go, hphase] at hgo
    dsimp only at hgo
    split at hgo <;> cases hgo
    exact .records hphase

omit [DecidableEq D] in
theorem Inv.not_put (h : Inv codec x) (hc : c ∈ x.calls) (hphase : c.phase.ofPut = false)
    (upload : Upload α) : c.op ≠ .put upload := by
  intro hop
  simp [(h.fits c hc).put upload hop] at hphase

theorem Inv.gets (h : Inv codec x) (hc : c ∈ x.calls) (hphase : c.phase = .reading)
    (hcomplete : Complete x c.key)
    (hgo : c.go codec x.disk n = some (disk, phase)) : Moves codec x c disk phase := by
  have hincomplete : c.phase.incomplete = false := by rw [hphase]; rfl
  rw [Call.go, hphase] at hgo
  rw [(h.clear hc).1.read] at hgo
  cases hdata : x.disk.content c.key with
  | none =>
    rw [hdata] at hgo
    cases hgo
    exact .quiet rfl (fun _ _ => rfl) hincomplete (by simp [raised])
      (answers_raised (h.not_put hc (by rw [hphase]; rfl)))
  | some =>
    rw [hdata] at hgo
    cases hgo
    refine .quiet rfl (fun _ _ => rfl) hincomplete (by simp)
      ⟨fun data' h' => ?_, nofun, nofun, nofun⟩
    cases h'
    exact h.reads hc hcomplete hdata

theorem Inv.deletes (h : Inv codec x) (hc : c ∈ x.calls) (hphase : c.phase = .unlinking)
    (hlawful : Harmless x c)
    (hgo : c.go codec x.disk n = some (disk, phase)) : Moves codec x c disk phase := by
  rw [Harmless, hphase] at hlawful
  rw [Call.go, hphase] at hgo
  rw [(h.clear hc).1.unlink] at hgo
  cases hthere : x.disk.isFile c.key with
  | true =>
    rw [hthere] at hgo
    cases hgo
    exact .unlinks hphase hlawful
  | false =>
    rw [hthere] at hgo
    cases hgo
    exact .quiet rfl (fun _ _ => rfl) (by rw [hphase]; rfl) (by simp [raised])
      (answers_raised (h.not_put hc (by rw [hphase]; rfl)))

theorem Inv.deletesMetadata (h : Inv codec x) (hc : c ∈ x.calls)
    (hphase : c.phase = .unlinkingMetadata) (hgo : c.go codec x.disk n = some (disk, phase)) :
    Moves codec x c disk phase := by
  rw [Call.go, hphase] at hgo
  dsimp only at hgo
  rw [if_pos (h.valid c hc), (h.clear hc).2.unlink] at hgo
  cases hthere : x.disk.isFile (metadataPath c.key) with
  | true =>
    rw [hthere] at hgo
    cases hgo
    exact .unlinksMetadata hphase
  | false =>
    rw [hthere] at hgo
    cases hgo
    exact .quiet rfl (fun _ _ => rfl) (by rw [hphase]; rfl) (by simp) answers_flag

theorem Inv.go_moves (h : Inv codec x) (hsha : Function.Injective codec.sha256)
    (hi : x.calls[i]? = some c) (hlawful : Harmless x c)
    (hgo : c.go codec x.disk n = some (disk, phase)) : Moves codec x c disk phase := by
  have hc := List.mem_of_getElem? hi
  cases hphase : c.phase with
  | preparing =>
    rw [Call.go, hphase] at hgo
    rw [Disk.mkdir, (h.clear hc).1.blocked] at hgo
    cases hgo
    exact .prepares hphase
  | looking =>
    rw [Call.go, hphase] at hgo
    dsimp only at hgo
    split at hgo <;> cases hgo
    · rename_i hthere
      rw [Bool.or_eq_true] at hthere
      exact .existing (h.present hc hthere) (by rw [hphase]; rfl)
    · exact .quiet rfl (fun _ _ => rfl) (by rw [hphase]; rfl) (by simp) (answers_running (by simp))
  | opening => exact h.opens hc hphase hlawful hgo
  | writing => exact h.writes hc hphase hgo
  | describing => exact h.recordsAt hi hphase hgo
  | recording => exact h.records hi hphase hgo
  | comparing => exact h.compares hsha hc hphase hgo
  | hashing =>
    rw [Harmless, hphase] at hlawful
    exact h.hashes hsha hc hphase hlawful hgo
  | reading =>
    rw [Harmless, hphase] at hlawful
    exact h.gets hc hphase hlawful hgo
  | testing =>
    rw [Call.go, hphase] at hgo
    cases hgo
    exact .quiet rfl (fun _ _ => rfl) (by rw [hphase]; rfl) (by simp) answers_flag
  | probing =>
    have hop := h.not_put hc (by rw [hphase]; rfl)
    rw [Call.go, hphase] at hgo
    dsimp only at hgo
    split at hgo <;> cases hgo
    · exact .quiet rfl (fun upload hput => absurd hput (hop upload)) (by rw [hphase]; rfl) (by simp)
        (answers_running (by simp))
    · exact .quiet rfl (fun _ _ => rfl) (by rw [hphase]; rfl) (by simp) answers_flag
  | unlinking => exact h.deletes hc hphase hlawful hgo
  | unlinkingMetadata => exact h.deletesMetadata hc hphase hgo
  | done | dead =>
    rw [Call.go, hphase] at hgo
    cases hgo

end Scenara.ObjectStore
