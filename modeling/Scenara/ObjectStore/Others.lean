import Scenara.ObjectStore.Moves

/-!
# What a move leaves of the other calls
-/

namespace Scenara.ObjectStore

open Scenara.Core

variable {α D : Type} {codec : Codec α D} {x : State α D} {c c' : Call α D} {key : FileName}
  {i : Nat} {d d' : Disk α} {phase : Phase α D} {kept kept' : Dict FileName (List α)}

/-! ## The calls of the next state -/

theorem origin (hi : x.calls[i]? = some c) (hc' : c' ∈ x.calls.set i { c with phase }) :
    ∃ b ∈ x.calls, b.key = c'.key ∧ b.op = c'.op := by
  rcases List.mem_or_eq_of_mem_set hc' with hc' | rfl
  · exact ⟨c', hc', rfl, rfl⟩
  · exact ⟨c, List.mem_of_getElem? hi, rfl, rfl⟩

theorem survives (hi : x.calls[i]? = some c) {P : Call α D → Prop}
    (hP : P c → P { c with phase }) (h : ∃ b ∈ x.calls, P b) :
    ∃ b ∈ x.calls.set i { c with phase }, P b :=
  Parties.exists_set hi hP h

theorem put_next (hi : x.calls[i]? = some c) {data : List α} (h : Put x key data) :
    Put (x.next i c d phase) key data :=
  survives hi id h

/-! ## The files of another call -/

/-- The files of the key are left as they are. -/
structure Spares (d d' : Disk α) (key : FileName) : Prop where
  name : d'.names.get? key = d.names.get? key
  metadataName : d'.names.get? (metadataPath key) = d.names.get? (metadataPath key)
  content : d'.content key = d.content key
  metadata : d'.content (metadataPath key) = d.content (metadataPath key)

theorem Spares.yields (h : Spares d d' key) : yields codec d' key = yields codec d key := by
  unfold ObjectStore.yields
  rw [h.content, h.metadata]

/-- Inodes stay whose they are. -/
def Owns (d d' : Disk α) : Prop := ∀ p fd, d.Own p fd → d'.Own p fd

theorem Fits.spared (h : Fits codec d kept c) (hs : Spares d d' c.key) (howns : Owns d d')
    (hkept : c.phase.incomplete = true → kept'.get? c.key = kept.get? c.key) :
    Fits codec d' kept' c where
  put := h.put
  writing fd rest hphase := by
    obtain ⟨upload, hop, hname, hown, hdata, hmetadata, hnone⟩ := h.writing fd rest hphase
    refine ⟨upload, hop, hs.name.trans hname, howns _ _ hown, hs.content ▸ hdata,
      hs.metadataName.trans hmetadata, fun hrest => ?_⟩
    cases rest with
    | nil => exact absurd rfl hrest
    | cons a => exact (hkept (by rw [hphase]; rfl)).trans (hnone hrest)
  describing hphase := by
    obtain ⟨upload, hop, hdata⟩ := h.describing hphase
    exact ⟨upload, hop, hs.content.trans hdata⟩
  recording fd rest hphase := by
    obtain ⟨upload, hop, hdata, hown, hcut⟩ := h.recording fd rest hphase
    refine ⟨upload, hop, hs.content.trans hdata, howns _ _ hown, fun hname => ?_⟩
    rw [hs.metadata]
    exact hcut (hs.metadataName ▸ hname)
  comparing upload hop hphase := by
    rw [hs.content]
    exact h.comparing upload hop hphase

variable {p : FileName}

theorem spares_link (hd : d.Bounded) (hkey : key ≠ p)
    (hmetadata : metadataPath key ≠ p) : Spares d (d.link p) key :=
  ⟨Disk.names_link_other hkey, Disk.names_link_other hmetadata, Disk.content_link_other hd hkey,
    Disk.content_link_other hd hmetadata⟩

theorem spares_append {fd : Nat} {bytes : List α} (hown : d.Own p fd)
    (hkey : key ≠ p) (hmetadata : metadataPath key ≠ p) : Spares d (d.append fd bytes) key :=
  ⟨rfl, rfl, Disk.content_append_other hown hkey, Disk.content_append_other hown hmetadata⟩

theorem spares_erase (hkey : key ≠ p) (hmetadata : metadataPath key ≠ p) :
    Spares d (d.erase p) key :=
  ⟨Disk.names_erase_other hkey, Disk.names_erase_other hmetadata, Disk.content_erase_other hkey,
    Disk.content_erase_other hmetadata⟩

theorem Moves.spares (h : Inv codec x) (hc : c ∈ x.calls) (hm : Moves codec x c d phase)
    (hne : key ≠ c.key)
    (hapart : Apart c.key key) (hapart' : Apart key c.key) : Spares x.disk d key := by
  have hmetadata : metadataPath key ≠ c.key := Ne.symm hapart'.1
  have hboth : metadataPath key ≠ metadataPath c.key := fun heq => hne (metadataPath_inj heq)
  cases hm with
  | same | prepares => exact ⟨rfl, rfl, rfl, rfl⟩
  | creates => exact spares_link h.bounded hne hmetadata
  | writes hphase =>
    obtain ⟨-, -, -, hown, -⟩ := (h.fits c hc).writing _ _ hphase
    exact spares_append hown hne hmetadata
  | describes => exact spares_link h.bounded hapart.1 hboth
  | records hphase =>
    obtain ⟨-, -, -, hown, -⟩ := (h.fits c hc).recording _ _ hphase
    exact spares_append hown hapart.1 hboth
  | unlinks => exact spares_erase hne hmetadata
  | unlinksMetadata => exact spares_erase hapart.1 hboth

theorem Moves.owns (hm : Moves codec x c d phase) : Owns x.disk d := by
  intro p _ hown
  cases hm with
  | same | prepares => exact hown
  | creates | describes => exact hown.link
  | writes | records => exact hown.append
  | unlinks | unlinksMetadata => exact hown.erase

theorem Moves.bounded (h : Inv codec x) (hm : Moves codec x c d phase) : d.Bounded := by
  cases hm with
  | same | prepares => exact h.bounded
  | creates | describes => exact h.bounded.link
  | writes | records => exact h.bounded.append
  | unlinks | unlinksMetadata => exact h.bounded.erase

theorem Moves.isFile (hm : Moves codec x c d phase) (hp : d.isFile p = true) :
    x.disk.isFile p = true ∨ p = c.key ∨ p = metadataPath c.key := by
  have hlink : ∀ q, (x.disk.link q).isFile p = true → x.disk.isFile p = true ∨ p = q := by
    intro q hq
    by_cases hpq : p = q
    · exact .inr hpq
    · rw [Disk.isFile, Disk.names_link_other hpq] at hq
      exact .inl hq
  have herase : ∀ q, (x.disk.erase q).isFile p = true → x.disk.isFile p = true := by
    intro q hq
    obtain ⟨_, hfd⟩ := Option.isSome_iff_exists.1 hq
    rw [Disk.isFile, Disk.name_of_erase hfd]
    rfl
  cases hm with
  | same | prepares | writes | records => exact .inl hp
  | creates => exact (hlink _ hp).imp_right .inl
  | describes => exact (hlink _ hp).imp_right .inr
  | unlinks | unlinksMetadata => exact .inl (herase _ hp)

theorem Moves.dirs (hm : Moves codec x c d phase) {dir : List String} (hdir : dir ∈ d.dirs) :
    dir ∈ x.disk.dirs ∨ dir = c.key.dir := by
  cases hm with
  | prepares =>
    rcases List.mem_append.1 hdir with hdir | hdir
    · exact .inl hdir
    · exact .inr (List.mem_singleton.1 hdir)
  | _ => exact .inl hdir

theorem Moves.creates_of (hm : Moves codec x c d phase) (hphase : phase.creates = true) :
    c.phase.creates = true ∨ c.phase = .opening ∧ x.disk.names.get? c.key = none := by
  cases hm with
  | same _ hcreates => exact .inl (hcreates hphase)
  | prepares | unlinks | unlinksMetadata => cases hphase
  | creates _ hopening hname => exact .inr ⟨hopening, hname⟩
  | writes h | describes _ h | records h => exact .inl (by rw [h]; rfl)

/-! ## What is kept -/

/-- What is promised changes when a `put` returns and when a `delete` has unlinked the object. -/
theorem keeps_cases (c : Call α D) (phase : Phase α D) (kept : Dict FileName (List α)) :
    (∃ upload metadata, c.op = .put upload ∧ phase = .done (.stored metadata) ∧
        c.keeps phase kept = kept.insert c.key upload.data) ∨
      phase = .unlinkingMetadata ∧ c.keeps phase kept = kept.erase c.key ∨
      phase ≠ .unlinkingMetadata ∧ c.keeps phase kept = kept := by
  unfold Call.keeps
  split
  · exact .inl ⟨_, _, ‹_›, rfl, rfl⟩
  · exact .inr (.inl ⟨rfl, rfl⟩)
  · rename_i hne _
    exact .inr (.inr ⟨fun heq => hne heq, rfl⟩)

theorem keeps_other (hkey : key ≠ c.key) : (c.keeps phase kept).get? key = kept.get? key := by
  rcases keeps_cases c phase kept with ⟨_, _, -, -, heq⟩ | ⟨-, heq⟩ | ⟨-, heq⟩
  · rw [heq]
    exact Dict.get?_insert_of_ne _ _ hkey
  · rw [heq]
    exact Dict.get?_erase_of_ne _ hkey
  · rw [heq]

theorem keeps_same (hstored : ∀ metadata, phase ≠ .done (.stored metadata))
    (hunlinking : phase ≠ .unlinkingMetadata) : c.keeps phase kept = kept := by
  rcases keeps_cases c phase kept with ⟨_, metadata, -, hphase, -⟩ | ⟨hphase, -⟩ | ⟨-, heq⟩
  · exact absurd hphase (hstored metadata)
  · exact absurd hphase hunlinking
  · exact heq

/-! ## The other calls -/

theorem Fits.bystander (h : Fits codec d kept c) (hcreates : c.phase.creates = false)
    (hcontent : d.content c.key ≠ none → d'.content c.key ≠ none) : Fits codec d' kept' c where
  put := h.put
  writing fd rest hphase := by
    rw [hphase] at hcreates
    cases hcreates
  describing hphase := by
    rw [hphase] at hcreates
    cases hcreates
  recording fd rest hphase := by
    rw [hphase] at hcreates
    cases hcreates
  comparing upload hop hphase := hcontent (h.comparing upload hop hphase)

theorem Fits.disengaged (h : Fits codec d kept c) (hquiet : c.engaged = false) :
    Fits codec d' kept' c := by
  have hphase : ∀ upload, c.op = .put upload → c.phase.idle = true := by
    intro _ hop
    unfold Call.engaged at hquiet
    rw [hop] at hquiet
    cases hp : c.phase with
    | writing | describing | recording | comparing | hashing =>
      rw [hp] at hquiet
      cases hquiet
    | _ => rfl
  refine ⟨h.put, fun fd rest hp => ?_, fun hp => ?_, fun fd rest hp => ?_, fun upload hop hp => ?_⟩
  · obtain ⟨upload, hop, -⟩ := h.writing fd rest hp
    have hidle := hphase upload hop
    rw [hp] at hidle
    cases hidle
  · obtain ⟨upload, hop, -⟩ := h.describing hp
    have hidle := hphase upload hop
    rw [hp] at hidle
    cases hidle
  · obtain ⟨upload, hop, -⟩ := h.recording fd rest hp
    have hidle := hphase upload hop
    rw [hp] at hidle
    cases hidle
  · have hidle := hphase upload hop
    rcases hp with hp | hp <;>
    · rw [hp] at hidle
      cases hidle

theorem Fits.content (h : Fits codec d kept c) (hcreates : c.phase.creates = true) :
    d.content c.key ≠ none := by
  cases hphase : c.phase with
  | writing fd rest =>
    obtain ⟨-, -, -, -, ⟨w, hw, -⟩, -⟩ := h.writing fd rest hphase
    rw [hw]
    exact Option.some_ne_none w
  | describing =>
    obtain ⟨_, -, hw⟩ := h.describing hphase
    rw [hw]
    exact Option.some_ne_none _
  | recording fd rest =>
    obtain ⟨_, -, hw, -⟩ := h.recording fd rest hphase
    rw [hw]
    exact Option.some_ne_none _
  | _ =>
    rw [hphase] at hcreates
    cases hcreates

theorem Inv.metadataPath_ne (h : Inv codec x) (hc : c ∈ x.calls) : c.key ≠ metadataPath c.key :=
  h.key_ne hc hc

theorem Inv.others (h : Inv codec x) (hi : x.calls[i]? = some c) (hm : Moves codec x c d phase)
    {j : Nat}
    (hj : x.calls[j]? = some c') (hij : j ≠ i) : Fits codec d (c.keeps phase x.kept) c' := by
  have hc := List.mem_of_getElem? hi
  have hc' := List.mem_of_getElem? hj
  have hfits := h.fits c' hc'
  by_cases hkey : c'.key = c.key
  · -- a creator of the object is the only one
    have hcreator : c.phase.creates = true → c'.phase.creates = false := by
      intro hcreates
      by_contra hcreates'
      exact h.creators i j c c' hi hj (Ne.symm hij) hcreates
        (Bool.eq_true_of_not_eq_false hcreates') hkey.symm
    have hnone : x.disk.names.get? c.key = none → c'.phase.creates = false := by
      intro hname
      by_contra hcreates'
      refine hfits.content (Bool.eq_true_of_not_eq_false hcreates') ?_
      rw [hkey]
      exact Disk.content_of_none hname
    cases hm with
    | same _ _ _ hunlinking hanswers =>
      refine hfits.spared ⟨rfl, rfl, rfl, rfl⟩ (fun _ _ h => h) fun hincomplete => ?_
      rcases keeps_cases c phase x.kept with ⟨upload, metadata, hop, hphase, -⟩ | ⟨hphase, -⟩ |
        ⟨-, heq⟩
      · simp [(hanswers.stored upload metadata hop hphase).2 c' hc' hkey] at hincomplete
      · exact absurd hphase hunlinking
      · rw [heq]
    | prepares =>
      exact hfits.spared ⟨rfl, rfl, rfl, rfl⟩ (fun _ _ h => h) fun _ => by
        rw [keeps_same (by simp) (by simp)]
    | creates _ _ hname =>
      refine hfits.bystander (hnone hname) fun _ => ?_
      rw [hkey, Disk.content_link]
      exact Option.some_ne_none _
    | writes hphase =>
      obtain ⟨-, -, hname, -, ⟨w, hw, -⟩, -⟩ := (h.fits c hc).writing _ _ hphase
      refine hfits.bystander (hcreator (by rw [hphase]; rfl)) fun _ => ?_
      rw [hkey, Disk.content_append hname hw]
      exact Option.some_ne_none _
    | describes _ hphase =>
      refine hfits.bystander (hcreator (by rw [hphase]; rfl)) fun hcontent => ?_
      rwa [hkey, Disk.content_link_other h.bounded (h.metadataPath_ne hc), ← hkey]
    | records hphase =>
      obtain ⟨-, -, -, hown, -⟩ := (h.fits c hc).recording _ _ hphase
      refine hfits.bystander (hcreator (by rw [hphase]; rfl)) fun hcontent => ?_
      rwa [hkey, Disk.content_append_other hown (h.metadataPath_ne hc), ← hkey]
    | unlinks _ hquiet => exact hfits.disengaged (hquiet c' hc' hkey)
    | unlinksMetadata =>
      have hne := h.metadataPath_ne hc'
      rw [← hkey]
      rw [keeps_same (by simp) (by simp)]
      refine ⟨hfits.put, fun fd rest hp => ?_, fun hp => ?_, fun fd rest hp => ?_,
        fun upload hop hp => ?_⟩
      · obtain ⟨upload, hop, hname, hown, hdata, -, hkept⟩ := hfits.writing fd rest hp
        exact ⟨upload, hop, (Disk.names_erase_other hne).trans hname, hown.erase,
          (Disk.content_erase_other hne).symm ▸ hdata, Disk.names_erase_self, hkept⟩
      · obtain ⟨upload, hop, hdata⟩ := hfits.describing hp
        exact ⟨upload, hop, (Disk.content_erase_other hne).trans hdata⟩
      · obtain ⟨upload, hop, hdata, hown, -⟩ := hfits.recording fd rest hp
        refine ⟨upload, hop, (Disk.content_erase_other hne).trans hdata, hown.erase,
          fun hname => ?_⟩
        simp [Disk.names_erase_self] at hname
      · rw [Disk.content_erase_other hne]
        exact hfits.comparing upload hop hp
  · exact hfits.spared (hm.spares h hc hkey (h.apart c hc c' hc') (h.apart c' hc' c hc)) hm.owns
      fun _ => keeps_other hkey

end Scenara.ObjectStore
