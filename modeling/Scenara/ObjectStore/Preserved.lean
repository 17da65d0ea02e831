import Scenara.ObjectStore.Others

/-!
# The invariant is preserved

Every move, every new call and every crash of a lawful run keeps `Inv`.
-/

namespace Scenara.ObjectStore

open Scenara.Core

variable {α D : Type} {codec : Codec α D} {x : State α D} {c c' : Call α D} {key : FileName}
  {i : Nat} {d d' : Disk α} {phase : Phase α D}

theorem Inv.kept_none (h : Inv codec x) (hname : x.disk.names.get? key = none) :
    x.kept.get? key = none := by
  cases hkept : x.kept.get? key with
  | none => rfl
  | some data =>
    have hdata := h.kept key data hkept
    simp [Disk.content_of_none hname] at hdata

theorem Inv.itself (h : Inv codec x) (hc : c ∈ x.calls) (hm : Moves codec x c d phase) :
    Fits codec d (c.keeps phase x.kept) { c with phase } := by
  have hfits := h.fits c hc
  have hne := h.metadataPath_ne hc
  cases hm with
  | same hfits' _ _ hunlinking =>
    refine hfits'.spared ⟨rfl, rfl, rfl, rfl⟩ (fun _ _ h => h) fun hincomplete => ?_
    rw [keeps_same (fun metadata hphase => ?_) hunlinking]
    rw [hphase] at hincomplete
    cases hincomplete
  | prepares | unlinksMetadata => exact fits_idle rfl fun _ _ => rfl
  | creates hop _ hname hmetadata =>
    rw [keeps_same (by simp) (by simp)]
    refine ⟨fun _ _ => rfl, fun fd rest hp => ?_, nofun, nofun, fun _ _ hp => (by simp at hp)⟩
    cases hp
    exact ⟨_, hop, Disk.names_link_self, h.bounded.own_link, ⟨[], Disk.content_link, rfl⟩,
      (Disk.names_link_other hne.symm).trans hmetadata, fun _ => h.kept_none hname⟩
  | @writes _ n a _ hphase =>
    obtain ⟨upload, hop, hname, hown, ⟨w, hw, hdata⟩, hmetadata, hkept⟩ := hfits.writing _ _ hphase
    rw [keeps_same (by simp) (by simp)]
    refine ⟨fun _ _ => rfl, fun fd rest' hp => ?_, nofun, nofun, fun _ _ hp => (by simp at hp)⟩
    cases hp
    refine ⟨upload, hop, hname, hown.append, ⟨_, Disk.content_append hname hw, ?_⟩, hmetadata,
      fun _ => hkept (List.cons_ne_nil _ _)⟩
    rw [List.append_assoc, List.take_append_drop, hdata]
  | describes hop hphase =>
    obtain ⟨_, hop', hdata⟩ := hfits.describing hphase
    rw [hop] at hop'
    cases hop'
    refine ⟨fun _ _ => rfl, nofun, nofun, fun fd rest hp => ?_, fun _ _ hp => (by simp at hp)⟩
    cases hp
    exact ⟨_, hop, (Disk.content_link_other h.bounded hne).trans hdata, h.bounded.own_link,
      fun _ => ⟨[], Disk.content_link, rfl⟩⟩
  | @records _ n a _ hphase =>
    obtain ⟨upload, hop, hdata, hown, hcut⟩ := hfits.recording _ _ hphase
    refine ⟨fun _ _ => rfl, nofun, nofun, fun fd rest' hp => ?_, fun _ _ hp => (by simp at hp)⟩
    cases hp
    refine ⟨upload, hop, (Disk.content_append_other hown hne).trans hdata, hown.append,
      fun hname => ?_⟩
    obtain ⟨w, hw, hdump⟩ := hcut hname
    refine ⟨_, Disk.content_append hname hw, ?_⟩
    rw [List.append_assoc, List.take_append_drop, hdump]
  | unlinks hphase =>
    exact fits_idle rfl fun upload hop => absurd hop (h.not_put hc (by rw [hphase]; rfl) upload)

/-! ## The files of the key -/

theorem incomplete_or_nil (fd : Nat) (rest : List α) :
    (Phase.writing fd rest : Phase α D).incomplete = true ∨ rest = [] := by
  cases rest with
  | nil => exact .inr rfl
  | cons a => exact .inl rfl

theorem Inv.object (h : Inv codec x) (hi : x.calls[i]? = some c) (hm : Moves codec x c d phase)
    {data : List α} (hdata : d.content c.key = some data) :
    (∃ c' ∈ x.calls.set i { c with phase }, c'.key = c.key ∧ c'.phase.incomplete = true) ∨
      Put (x.next i c d phase) c.key data := by
  have hc := List.mem_of_getElem? hi
  have hne := h.metadataPath_ne hc
  have hnew : { c with phase } ∈ x.calls.set i { c with phase } :=
    List.mem_of_getElem? (Parties.getElem?_set_same hi)
  -- the object is as it was, and the call is not writing it
  have hsame : x.disk.content c.key = some data → c.phase.incomplete = false →
      (∃ c' ∈ x.calls.set i { c with phase }, c'.key = c.key ∧ c'.phase.incomplete = true) ∨
        Put (x.next i c d phase) c.key data := by
    intro hold hincomplete
    rcases h.objects c.key data ⟨c, hc, rfl⟩ hold with hwriter | hput
    · refine .inl (survives hi (fun hself => ?_) hwriter)
      rw [hincomplete] at hself
      exact absurd hself.2 Bool.false_ne_true
    · exact .inr (put_next hi hput)
  cases hm with
  | same _ _ hincomplete => exact hsame hdata hincomplete
  | prepares hphase => exact hsame hdata (by rw [hphase]; rfl)
  | @creates upload hop =>
    rw [Disk.content_link] at hdata
    cases hdata
    rcases incomplete_or_nil x.disk.inodes.length upload.data with hincomplete | hnil
    · exact .inl ⟨_, hnew, rfl, hincomplete⟩
    · exact .inr ⟨_, hnew, rfl, upload, hop, hnil⟩
  | @writes fd n a rest hphase =>
    obtain ⟨upload, hop, hname, _, ⟨w, hw, hall⟩, -⟩ := (h.fits c hc).writing _ _ hphase
    rw [Disk.content_append hname hw] at hdata
    cases hdata
    rcases incomplete_or_nil fd ((a :: rest).drop n) with hincomplete | hnil
    · exact .inl ⟨_, hnew, rfl, hincomplete⟩
    · refine .inr ⟨_, hnew, rfl, upload, hop, ?_⟩
      have htake : (a :: rest).take n = a :: rest := by
        have hboth := List.take_append_drop n (a :: rest)
        rwa [hnil, List.append_nil] at hboth
      rw [htake, hall]
  | describes _ hphase =>
    rw [Disk.content_link_other h.bounded hne] at hdata
    exact hsame hdata (by rw [hphase]; rfl)
  | records hphase =>
    obtain ⟨-, -, -, hown, -⟩ := (h.fits c hc).recording _ _ hphase
    rw [Disk.content_append_other hown hne] at hdata
    exact hsame hdata (by rw [hphase]; rfl)
  | unlinks =>
    rw [Disk.content_erase] at hdata
    cases hdata
  | unlinksMetadata hphase =>
    rw [Disk.content_erase_other hne] at hdata
    exact hsame hdata (by rw [hphase]; rfl)

/-- The metadata file describes the object of the key, as far as it is written. -/
def Describes (codec : Codec α D) (d : Disk α) (calls : List (Call α D)) (key : FileName)
    (w : List α) : Prop :=
  ∃ c ∈ calls, c.key = key ∧ ∃ upload, c.op = .put upload ∧
    w <+: codec.dump (upload.metadata codec) ∧
    ∀ data, d.content key = some data → data = upload.data

theorem Describes.next (hi : x.calls[i]? = some c) {w : List α}
    (h : Describes codec x.disk x.calls key w)
    (hcontent : ∀ data, d.content key = some data → x.disk.content key = some data) :
    Describes codec d (x.calls.set i { c with phase }) key w := by
  refine survives hi (P := fun b => b.key = key ∧ ∃ upload, b.op = .put upload ∧
    w <+: codec.dump (upload.metadata codec) ∧ ∀ data, d.content key = some data →
    data = upload.data)
    (fun hself => hself) ?_
  obtain ⟨b, hb, hkey, upload, hop, hcut, hdata⟩ := h
  exact ⟨b, hb, hkey, upload, hop, hcut, fun data hnow => hdata data (hcontent data hnow)⟩

theorem Inv.described (h : Inv codec x) (hi : x.calls[i]? = some c) (hm : Moves codec x c d phase)
    {w : List α} (hw : d.content (metadataPath c.key) = some w) :
    Describes codec d (x.calls.set i { c with phase }) c.key w := by
  have hc := List.mem_of_getElem? hi
  have hne := h.metadataPath_ne hc
  have hsame : ∀ {d' : Disk α}, x.disk.content (metadataPath c.key) = some w →
      (∀ data, d'.content c.key = some data → x.disk.content c.key = some data) →
      Describes codec d' (x.calls.set i { c with phase }) c.key w := fun hold hcontent =>
    Describes.next hi (h.metadata c.key w ⟨c, hc, rfl⟩ hold) hcontent
  have hnew : { c with phase } ∈ x.calls.set i { c with phase } :=
    List.mem_of_getElem? (Parties.getElem?_set_same hi)
  cases hm with
  | same | prepares => exact hsame hw fun _ h => h
  | creates _ _ _ hmetadata =>
    rw [Disk.content_link_other h.bounded hne.symm, Disk.content_of_none hmetadata] at hw
    cases hw
  | writes hphase =>
    obtain ⟨-, -, -, hown, -, hmetadata, -⟩ := (h.fits c hc).writing _ _ hphase
    rw [Disk.content_append_other hown hne.symm, Disk.content_of_none hmetadata] at hw
    cases hw
  | describes hop hphase =>
    obtain ⟨_, hop', hdata⟩ := (h.fits c hc).describing hphase
    rw [hop] at hop'
    cases hop'
    rw [Disk.content_link] at hw
    cases hw
    refine ⟨_, hnew, rfl, _, hop, List.nil_prefix, fun data hnow => ?_⟩
    rw [Disk.content_link_other h.bounded hne, hdata] at hnow
    exact (Option.some.inj hnow).symm
  | @records fd n a rest hphase =>
    obtain ⟨upload, hop, hdata, hown, hcut⟩ := (h.fits c hc).recording _ _ hphase
    have hcontent : (x.disk.append fd ((a :: rest).take n)).content c.key = x.disk.content c.key :=
      Disk.content_append_other hown hne
    by_cases hname : x.disk.names.get? (metadataPath c.key) = some fd
    · obtain ⟨_, hw', hdump⟩ := hcut hname
      rw [Disk.content_append hname hw'] at hw
      cases hw
      refine ⟨_, hnew, rfl, upload, hop, ⟨(a :: rest).drop n, ?_⟩, fun data hnow => ?_⟩
      · rw [List.append_assoc, List.take_append_drop, hdump]
      · rw [hcontent, hdata] at hnow
        exact (Option.some.inj hnow).symm
    · -- the file has lost its name
      rw [Disk.content_append_of_ne hname] at hw
      exact hsame hw fun data hnow => hcontent.symm.trans hnow
  | unlinks =>
    rw [Disk.content_erase_other hne.symm] at hw
    refine hsame hw fun data hnow => ?_
    rw [Disk.content_erase] at hnow
    cases hnow
  | unlinksMetadata =>
    rw [Disk.content_erase] at hw
    cases hw

theorem Inv.keeps (h : Inv codec x) (hc : c ∈ x.calls) (hm : Moves codec x c d phase)
    {data : List α}
    (hkept : (c.keeps phase x.kept).get? c.key = some data) : d.content c.key = some data := by
  have hne := h.metadataPath_ne hc
  rcases keeps_cases c phase x.kept with ⟨upload, metadata, hop, hphase, heq⟩ | ⟨-, heq⟩ |
    ⟨hunlinking, heq⟩
  · rw [heq, Dict.get?_insert_self] at hkept
    cases hkept
    cases hm with
    | same _ _ _ _ hanswers => exact (hanswers.stored upload metadata hop hphase).1
    | _ => cases hphase
  · rw [heq, Dict.get?_erase_self] at hkept
    cases hkept
  · rw [heq] at hkept
    have hdata := h.kept c.key data hkept
    cases hm with
    | same | prepares => exact hdata
    | creates _ _ hname =>
      rw [Disk.content_of_none hname] at hdata
      cases hdata
    | writes hphase =>
      obtain ⟨-, -, -, -, -, -, hnone⟩ := (h.fits c hc).writing _ _ hphase
      rw [hnone (List.cons_ne_nil _ _)] at hkept
      cases hkept
    | describes => exact (Disk.content_link_other h.bounded hne).trans hdata
    | records hphase =>
      obtain ⟨-, -, -, hown, -⟩ := (h.fits c hc).recording _ _ hphase
      exact (Disk.content_append_other hown hne).trans hdata
    | unlinks => exact absurd rfl hunlinking
    | unlinksMetadata => exact (Disk.content_erase_other hne).trans hdata

/-! ## Every step -/

theorem Inv.moves (h : Inv codec x) (hi : x.calls[i]? = some c) (hm : Moves codec x c d phase) :
    Inv codec (x.next i c d phase) := by
  have hc := List.mem_of_getElem? hi
  have hkeys : ∀ key, (∃ b ∈ x.calls, b.key = key) → ∃ b ∈ x.calls.set i { c with phase },
      b.key = key :=
    fun key hkey => survives hi (fun hself => hself) hkey
  have hback : ∀ key, (∃ b ∈ x.calls.set i { c with phase }, b.key = key) →
      ∃ b ∈ x.calls, b.key = key := by
    rintro _ ⟨b, hb, rfl⟩
    obtain ⟨b', hb', hkey, -⟩ := origin hi hb
    exact ⟨b', hb', hkey⟩
  have hspares : ∀ key, (∃ b ∈ x.calls, b.key = key) → key ≠ c.key → Spares x.disk d key := by
    rintro _ ⟨b, hb, rfl⟩ hne
    exact hm.spares h hc hne (h.apart c hc b hb) (h.apart b hb c hc)
  refine ⟨hm.bounded h, fun b hb b' hb' => ?_, fun b hb => ?_, fun p hp => ?_, fun dir hdir => ?_,
    fun b hb => ?_, ?_, fun key data hkey hdata => ?_, fun key w hkey hw => ?_,
      fun key data hkept => ?_,
    fun key data hkept => ?_⟩
  · obtain ⟨e, he, hkey, -⟩ := origin hi hb
    obtain ⟨e', he', hkey', -⟩ := origin hi hb'
    rw [← hkey, ← hkey']
    exact h.apart e he e' he'
  · obtain ⟨e, he, hkey, -⟩ := origin hi hb
    rw [← hkey]
    exact h.valid e he
  · rcases hm.isFile hp with hold | hnew
    · exact survives hi (P := fun b => p = b.key ∨ p = metadataPath b.key) (fun hself => hself)
        (h.names p hold)
    · exact ⟨_, List.mem_of_getElem? (Parties.getElem?_set_same hi), hnew⟩
  · rcases hm.dirs hdir with hold | hnew
    · exact survives hi (P := fun b => dir = b.key.dir) (fun hself => hself) (h.dirs dir hold)
    · exact ⟨_, List.mem_of_getElem? (Parties.getElem?_set_same hi), hnew⟩
  · obtain ⟨j, hj⟩ := List.getElem?_of_mem hb
    rcases Parties.getElem?_set_cases hj with ⟨-, rfl⟩ | ⟨hij, hj⟩
    · exact h.itself hc hm
    · exact h.others hi hm hj hij
  · refine h.creators.set (fun a b hab ha hb heq => hab hb ha heq.symm)
      fun j b hij hj hcreates hcreates' => ?_
    rcases hm.creates_of hcreates with hbefore | ⟨-, hname⟩
    · exact h.creators i j c b hi hj (Ne.symm hij) hbefore hcreates'
    · intro heq
      refine (h.fits b (List.mem_of_getElem? hj)).content hcreates' ?_
      rw [← heq]
      exact Disk.content_of_none hname
  · by_cases hne : key = c.key
    · rw [hne] at hdata ⊢
      exact h.object hi hm hdata
    · have hold := (hspares key (hback key hkey) hne).content ▸ hdata
      rcases h.objects key data (hback key hkey) hold with hwriter | hput
      · exact .inl (survives hi (fun hself => absurd hself.1.symm hne) hwriter)
      · exact .inr (put_next hi hput)
  · by_cases hne : key = c.key
    · rw [hne] at hw ⊢
      exact h.described hi hm hw
    · have hspared := hspares key (hback key hkey) hne
      exact Describes.next hi (h.metadata key w (hback key hkey) (hspared.metadata ▸ hw))
        fun data hnow => hspared.content ▸ hnow
  · by_cases hne : key = c.key
    · rw [hne] at hkept ⊢
      exact h.keeps hc hm hkept
    · have hold := (keeps_other hne).symm.trans hkept
      exact (hspares key (h.known key data hold) hne).content.trans (h.kept key data hold)
  · by_cases hne : key = c.key
    · exact hkeys key ⟨c, hc, hne.symm⟩
    · exact hkeys key (h.known key data ((keeps_other hne).symm.trans hkept))

theorem apart_self (key : FileName) : Apart key key := by
  refine ⟨fun heq => ?_, fun hle => ?_, fun hle => ?_⟩
  · have hname : key.name = key.name ++ ".metadata.json" := congrArg FileName.name heq
    have hlength := congrArg String.length hname
    rw [String.length_append] at hlength
    have hsuffix : ".metadata.json".length = 14 := rfl
    omega
  · have hlength := hle.length_le
    rw [FileName.full, List.length_append] at hlength
    exact absurd hlength (by simp)
  · have hlength := hle.length_le
    rw [FileName.full, List.length_append] at hlength
    exact absurd hlength (by simp [metadataPath])

theorem Inv.called (h : Inv codec x) {op : Op α}
    (hvalid : validateObjectKey (metadataPath key) = true)
    (hapart : ∀ c ∈ x.calls, Apart key c.key ∧ Apart c.key key) :
    Inv codec { x with calls := x.calls ++ [⟨op, key, op.first⟩] } := by
  have hold : ∀ P : Call α D → Prop, (∃ c ∈ x.calls, P c) → ∃ c ∈ x.calls ++ [⟨op, key, op.first⟩],
      P c := by
    rintro P ⟨c, hc, hP⟩
    exact ⟨c, List.mem_append_left _ hc, hP⟩
  have hfirst : (op.first : Phase α D).creates = false := by cases op <;> rfl
  -- nothing is stored under a new key
  have hback : ∀ other, (∃ c ∈ x.calls ++ [(⟨op, key, op.first⟩ : Call α D)], c.key = other) →
      (∃ c ∈ x.calls, c.key = other) ∨ x.disk.content other = none ∧
        x.disk.content (metadataPath other) = none := by
    rintro _ ⟨c, hc, rfl⟩
    rcases Parties.mem_snoc.1 hc with hc | rfl
    · exact .inl ⟨c, hc, rfl⟩
    · by_cases hknown : ∃ c ∈ x.calls, c.key = key
      · exact .inl hknown
      · have hnone : ∀ p, p = key ∨ p = metadataPath key → x.disk.content p = none := by
          intro p hp
          refine Disk.content_of_none
            (Disk.name_of_not_isFile (Bool.eq_false_iff.2 fun hfile => ?_))
          obtain ⟨c, hc, hkey | hkey⟩ := h.names p hfile
          · rcases hp with hp | hp
            · exact hknown ⟨c, hc, hkey.symm.trans hp⟩
            · exact (hapart c hc).1.1 (hkey.symm.trans hp)
          · rcases hp with hp | hp
            · exact (hapart c hc).2.1 (hp.symm.trans hkey)
            · exact hknown ⟨c, hc, metadataPath_inj (hkey.symm.trans hp)⟩
        exact .inr ⟨hnone key (.inl rfl), hnone _ (.inr rfl)⟩
  refine ⟨h.bounded, fun c hc c' hc' => ?_, fun c hc => ?_, fun p hp => hold _ (h.names p hp),
    fun dir hdir => hold _ (h.dirs dir hdir), fun c hc => ?_, ?_, fun other data hkey hdata => ?_,
    fun other w hkey hw => ?_, h.kept, fun other data hkept => hold _ (h.known other data hkept)⟩
  · rcases List.mem_append.1 hc with hc | hc <;> rcases List.mem_append.1 hc' with hc' | hc'
    · exact h.apart c hc c' hc'
    · cases List.mem_singleton.1 hc'
      exact (hapart c hc).2
    · cases List.mem_singleton.1 hc
      exact (hapart c' hc').1
    · cases List.mem_singleton.1 hc
      cases List.mem_singleton.1 hc'
      exact apart_self key
  · rcases Parties.mem_snoc.1 hc with hc | rfl
    · exact h.valid c hc
    · exact hvalid
  · rcases Parties.mem_snoc.1 hc with hc | rfl
    · exact h.fits c hc
    · refine ⟨fun upload hop => ?_, fun fd rest hp => ?_, fun hp => ?_, fun fd rest hp => ?_,
        fun upload hop hp => ?_⟩
      · cases op <;> cases hop
        rfl
      · cases op <;> cases hp
      · cases op <;> cases hp
      · cases op <;> cases hp
      · cases op <;> cases hop
        rcases hp with hp | hp <;> cases hp
  · refine h.creators.append (fun a b hab ha hb heq => hab hb ha heq.symm) fun b _ hcreates => ?_
    simp [hfirst] at hcreates
  · rcases hback other hkey with hkey | ⟨hnone, -⟩
    · rcases h.objects other data hkey hdata with hwriter | hput
      · exact .inl (hold _ hwriter)
      · exact .inr (hold _ hput)
    · simp [hnone] at hdata
  · rcases hback other hkey with hkey | ⟨-, hnone⟩
    · exact hold _ (h.metadata other w hkey hw)
    · simp [hnone] at hw

theorem Inv.crashed (h : Inv codec x) (hcomplete : ∀ c ∈ x.calls, c.phase.incomplete = false) :
    Inv codec { x with calls := x.calls.map Call.crash } := by
  have hsame : ∀ c : Call α D, c.crash.key = c.key ∧ c.crash.op = c.op := by
    intro c
    unfold Call.crash
    split <;> exact ⟨rfl, rfl⟩
  have hidle : ∀ c : Call α D, c.crash.phase.idle = true ∧ c.crash.phase.ofPut = true ∧
      c.crash.phase.creates = false := by
    intro c
    unfold Call.crash
    split
    · rename_i hphase
      rw [hphase]
      exact ⟨rfl, rfl, rfl⟩
    · exact ⟨rfl, rfl, rfl⟩
  have hold : ∀ P : FileName → Op α → Prop, (∃ c ∈ x.calls, P c.key c.op) →
      ∃ c ∈ x.calls.map Call.crash, P c.key c.op := by
    rintro P ⟨c, hc, _⟩
    refine ⟨c.crash, List.mem_map_of_mem hc, ?_⟩
    rwa [(hsame c).1, (hsame c).2]
  have hback : ∀ c ∈ x.calls.map Call.crash, ∃ b ∈ x.calls, c = b.crash := by
    intro c hc
    obtain ⟨b, hb, rfl⟩ := List.mem_map.1 hc
    exact ⟨b, hb, rfl⟩
  have hkey : ∀ key, (∃ c ∈ x.calls.map Call.crash, c.key = key) → ∃ c ∈ x.calls, c.key = key := by
    rintro _ ⟨c, hc, rfl⟩
    obtain ⟨b, hb, rfl⟩ := hback c hc
    exact ⟨b, hb, (hsame b).1.symm⟩
  refine ⟨h.bounded, fun c hc c' hc' => ?_, fun c hc => ?_,
    fun p hp => hold (fun key _ => p = key ∨ p = metadataPath key) (h.names p hp),
    fun dir hdir => hold (fun key _ => dir = key.dir) (h.dirs dir hdir), fun c hc => ?_, ?_,
    fun key data hcalled hdata => ?_, fun key w hcalled hw => ?_, h.kept,
    fun key data hkept => hold (fun other _ => other = key) (h.known key data hkept)⟩
  · obtain ⟨b, hb, rfl⟩ := hback c hc
    obtain ⟨b', hb', rfl⟩ := hback c' hc'
    rw [(hsame b).1, (hsame b').1]
    exact h.apart b hb b' hb'
  · obtain ⟨b, hb, rfl⟩ := hback c hc
    rw [(hsame b).1]
    exact h.valid b hb
  · obtain ⟨b, hb, rfl⟩ := hback c hc
    exact fits_idle (hidle b).1 fun _ _ => (hidle b).2.1
  · intro j k c _ hj _ _ hcreates
    obtain ⟨b, _, rfl⟩ := hback c (List.mem_of_getElem? hj)
    simp [(hidle b).2.2] at hcreates
  · rcases h.objects key data (hkey key hcalled) hdata with ⟨c, hc, -, hincomplete⟩ | hput
    · simp [hcomplete c hc] at hincomplete
    · exact .inr (hold (fun other op => other = key ∧ ∃ upload, op = .put upload ∧
        upload.data = data) hput)
  · exact hold (fun other op => other = key ∧ ∃ upload, op = .put upload ∧
      w <+: codec.dump (upload.metadata codec) ∧ ∀ data, x.disk.content key = some data →
      data = upload.data)
      (h.metadata key w (hkey key hcalled) hw)

end Scenara.ObjectStore
