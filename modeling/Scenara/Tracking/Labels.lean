import Scenara.Tracking.Agreement
import Scenara.Tracking.Fragments

/-!
# Track labels are exclusive and accounted for

Each label the passes over a frame give is given to a person without one, and is new on the frame
(`Passing`).
-/

namespace Scenara.Tracking

open Scenara.Core

variable {math : VectorMath} {parameters : Parameters} {tracks : List TrackState}
  {detections : List (Nat × Person)} {frameIndex : Int} {minScore : ℚ} {maxExactSize : Int}
  {persons : List (Option Person)} {frames : List Frame}
variable {d : Nat × Person} {trackId : String}

/-! ## Ids -/

theorem trackIdOf_inj {a b : Nat} (h : trackIdOf a = trackIdOf b) : a = b := by
  have hchars := List.append_cancel_left (String.ofList_injective h)
  have hvalue := congrArg (Nat.ofDigitChars 10 · 0) hchars
  simpa [List.leftpad, Nat.ofDigitChars_append] using hvalue

theorem map_updateTrack_id (trackId : String) (f : TrackState → TrackState)
    (hf : ∀ t, (f t).trackId = t.trackId) (tracks : List TrackState) :
    (updateTrack trackId f tracks).map TrackState.trackId = tracks.map TrackState.trackId := by
  unfold updateTrack
  rw [List.map_map]
  refine List.map_congr_left fun t _ => ?_
  rw [Function.comp_apply]
  split
  · exact hf t
  · rfl

theorem account_updateTrack (trackId : String) (person : Person) (tracks : List TrackState) :
    (updateTrack trackId (·.update math frameIndex person) tracks).map TrackState.account =
      (tracks.map TrackState.account).map (Account.mark trackId frameIndex) := by
  unfold updateTrack
  rw [List.map_map, List.map_map]
  refine List.map_congr_left fun t _ => ?_
  rw [Function.comp_apply, Function.comp_apply]
  unfold Account.mark TrackState.account
  split <;> rfl

theorem map_mark_of_not_mem (h : trackId ∉ tracks.map TrackState.trackId) :
    (tracks.map TrackState.account).map (Account.mark trackId frameIndex) =
      tracks.map TrackState.account := by
  rw [List.map_map]
  refine List.map_congr_left fun t ht => ?_
  exact if_neg fun heq => h (List.mem_map.2 ⟨t, ht, heq⟩)

/-! ## Matches -/

/-- What the matches of one call say of tracks and persons. -/
structure Matching (tracks : List TrackState) (indexes : List Nat) (found : List Match) : Prop where
  tracksNodup : (found.map fun m => m.track.trackId).Nodup
  personsNodup : (found.map Match.personIndex).Nodup
  tracks : ∀ m ∈ found, m.track ∈ tracks
  persons : ∀ m ∈ found, m.personIndex ∈ indexes

theorem matching_nil (tracks : List TrackState) (indexes : List Nat) : Matching tracks indexes [] :=
  ⟨List.nodup_nil, List.nodup_nil, by simp, by simp⟩

theorem assignmentMatch_eq {details : Details} {p : Pair} {m : Match}
    (h : (match tracks[p.1]?, detections[p.2]?, details.get? p with
      | some track, some detection, some d => some (⟨track, detection.1, d⟩ : Match)
      | _, _, _ => none) = some m) :
    tracks[p.1]? = some m.track ∧ (detections.map Prod.fst)[p.2]? = some m.personIndex := by
  split at h
  · rename_i track detection d htrack hdetection _
    cases h
    exact ⟨htrack, by rw [List.getElem?_map, hdetection]; rfl⟩
  · cases h

theorem matching_assignmentMatches {details : Details} {P : List Pair} (hP : Assigns details P)
    (hids : (tracks.map TrackState.trackId).Nodup) (hindexes : (detections.map Prod.fst).Nodup) :
    Matching tracks (detections.map Prod.fst) (assignmentMatches tracks detections details P) := by
  have hid : ∀ {i : Nat} {t : TrackState}, tracks[i]? = some t →
      (tracks.map TrackState.trackId)[i]? = some t.trackId := fun h => by
    rw [List.getElem?_map, h]
    rfl
  refine ⟨?_, ?_, fun m hm => ?_, fun m hm => ?_⟩
  · refine List.pairwise_map.2 ((List.pairwise_map.1 hP.tracks).filterMap _ ?_)
    intro p q hpq m hm _ hm' heq
    have htrack := hid (assignmentMatch_eq hm).1
    have htrack' := hid (assignmentMatch_eq hm').1
    rw [← heq] at htrack'
    exact hpq ((List.getElem?_inj (List.getElem?_eq_some_iff.1 htrack).1 hids).1
      (htrack.trans htrack'.symm))
  · refine List.pairwise_map.2 ((List.pairwise_map.1 hP.detections).filterMap _ ?_)
    intro p q hpq m hm _ hm' heq
    have hindex := (assignmentMatch_eq hm).2
    have hindex' := (assignmentMatch_eq hm').2
    rw [← heq] at hindex'
    exact hpq ((List.getElem?_inj (List.getElem?_eq_some_iff.1 hindex).1 hindexes).1
      (hindex.trans hindex'.symm))
  · obtain ⟨p, -, hm⟩ := List.mem_filterMap.1 hm
    exact List.mem_of_getElem? (assignmentMatch_eq hm).1
  · obtain ⟨p, -, hm⟩ := List.mem_filterMap.1 hm
    exact List.mem_of_getElem? (assignmentMatch_eq hm).2

theorem globalMatch_spec {found : List Match}
    (h : globalMatch math tracks detections frameIndex minScore maxExactSize = some found)
    (hids : (tracks.map TrackState.trackId).Nodup) (hindexes : (detections.map Prod.fst).Nodup) :
    Matching tracks (detections.map Prod.fst) found := by
  unfold globalMatch at h
  split at h
  · cases h
    exact matching_nil _ _
  · obtain ⟨_, hdetails, h⟩ := Option.map_eq_some_iff.1 h
    split at h
    · cases h
      exact matching_nil _ _
    · cases h
      exact matching_assignmentMatches
        (assigns_solverPairs (scored_detailsByPair hdetails) maxExactSize) hids hindexes

/-! ## Persons -/

/-- The label of the person at a position. -/
def labelAt (persons : List (Option Person)) (index : Nat) : Option String :=
  persons[index]?.join.bind Person.trackId

/-- There is a person at the position. -/
def IsPerson (persons : List (Option Person)) (index : Nat) : Prop := persons[index]?.join ≠ none

theorem getElem?_labelPerson (persons : List (Option Person)) (index : Nat)
    (trackId : Option String) (j : Nat) :
    (labelPerson persons index trackId)[j]?.join =
      if index = j then persons[j]?.join.map fun person => { person with trackId }
      else persons[j]?.join := by
  unfold labelPerson
  rw [List.getElem?_modify]
  by_cases hj : index = j
  · simp only [if_pos hj]
    cases persons[j]? <;> rfl
  · simp [if_neg hj]

theorem labelAt_labelPerson_self {index : Nat} (h : IsPerson persons index) (trackId : String) :
    labelAt (labelPerson persons index (some trackId)) index = some trackId := by
  obtain ⟨_, hperson⟩ := Option.ne_none_iff_exists'.1 h
  unfold labelAt
  rw [getElem?_labelPerson, if_pos rfl, hperson]
  rfl

theorem labelAt_labelPerson_of_ne {index j : Nat} (h : index ≠ j) (trackId : Option String) :
    labelAt (labelPerson persons index trackId) j = labelAt persons j := by
  unfold labelAt
  rw [getElem?_labelPerson, if_neg h]

theorem isPerson_labelPerson {index j : Nat} {trackId : Option String} :
    IsPerson (labelPerson persons index trackId) j ↔ IsPerson persons j := by
  unfold IsPerson
  rw [getElem?_labelPerson]
  split <;> simp

theorem mem_labelsOf {index : Nat} (h : labelAt persons index = some trackId) :
    trackId ∈ labelsOf persons := by
  obtain ⟨person, hperson, hlabel⟩ := Option.bind_eq_some_iff.1 h
  obtain ⟨entry, hentry, hjoin⟩ : ∃ entry, persons[index]? = some entry ∧ entry = some person := by
    cases hentry : persons[index]? with
    | none => simp [hentry] at hperson
    | some entry => exact ⟨entry, rfl, by simpa [hentry] using hperson⟩
  exact List.mem_filterMap.2 ⟨entry, List.mem_of_getElem? hentry, by rw [hjoin]; exact hlabel⟩

theorem mem_detectionsOf : d ∈ detectionsOf persons ↔ persons[d.1]? = some (some d.2) := by
  unfold detectionsOf
  rw [List.mem_filterMap]
  constructor
  · rintro ⟨⟨entry, i⟩, hentry, hd⟩
    obtain ⟨person, hperson, rfl⟩ := Option.map_eq_some_iff.1 hd
    rw [← show entry = some person from hperson]
    exact List.mk_mem_zipIdx_iff_getElem?.1 hentry
  · intro h
    exact ⟨(some d.2, d.1), List.mk_mem_zipIdx_iff_getElem?.2 h, rfl⟩

theorem isPerson_of_detection (h : d ∈ detectionsOf persons) : IsPerson persons d.1 := by
  unfold IsPerson
  rw [mem_detectionsOf.1 h]
  simp

theorem nodup_detectionsOf (persons : List (Option Person)) :
    ((detectionsOf persons).map Prod.fst).Nodup := by
  have hzip : persons.zipIdx.Pairwise fun a b => a.2 ≠ b.2 := by
    rw [← List.pairwise_map (f := Prod.snd) (R := (· ≠ ·)), List.zipIdx_map_snd]
    exact List.nodup_range'
  refine List.pairwise_map.2 (hzip.filterMap _ ?_)
  intro a b hab d hd _ hd'
  obtain ⟨p, -, rfl⟩ := Option.map_eq_some_iff.1 hd
  obtain ⟨_, -, rfl⟩ := Option.map_eq_some_iff.1 hd'
  exact hab

/-! ## The passes over a frame -/

section Passes

variable {sheets : List (Sheet String Int)} {finished : List TrackState} {s : Pass}
  {given : List (Nat × String)}

/-- The labels given so far, with the positions of the persons that carry them: they are the matched
persons, and the labels are accounted for on the sheet of the frame. -/
structure Passing (sheets : List (Sheet String Int)) (finished : List TrackState)
    (frameIndex : Int) (persons : List (Option Person)) (s : Pass) (given : List (Nat × String)) :
    Prop where
  matched : given.map Prod.fst = s.matchedPersons
  nodup : s.matchedPersons.Nodup
  label : ∀ e ∈ given, labelAt s.persons e.1 = some e.2
  isPerson : ∀ i, IsPerson s.persons i ↔ IsPerson persons i
  balanced : Balanced (⟨frameIndex, given.map Prod.snd⟩ :: sheets)
    ((finished ++ s.activeTracks).map TrackState.account)
  fresh : ∀ t ∈ finished ++ s.activeTracks, ∃ n < s.nextTrackNumber, t.trackId = trackIdOf n

theorem Passing.label_cons (h : Passing sheets finished frameIndex persons s given) {index : Nat}
    (hperson : IsPerson s.persons index) (hindex : index ∉ s.matchedPersons) :
    ∀ e ∈ (index, trackId) :: given,
      labelAt (labelPerson s.persons index (some trackId)) e.1 = some e.2 := by
  refine List.forall_mem_cons.2 ⟨labelAt_labelPerson_self hperson trackId, fun e he => ?_⟩
  have hne : index ≠ e.1 := by
    rintro rfl
    exact hindex (h.matched ▸ List.mem_map.2 ⟨e, he, rfl⟩)
  rw [labelAt_labelPerson_of_ne hne]
  exact h.label e he

theorem Passing.ids (h : Passing sheets finished frameIndex persons s given) :
    ((finished ++ s.activeTracks).map TrackState.trackId).Nodup := by
  rw [← map_account_id]
  exact h.balanced.ids

theorem applyMatch_ids (m : Match) :
    (applyMatch math frameIndex s m).activeTracks.map TrackState.trackId =
      s.activeTracks.map TrackState.trackId := by
  unfold applyMatch
  split
  · rfl
  · rename_i person _
    exact map_updateTrack_id _ (·.update math frameIndex person) (fun _ => rfl) _

theorem passing_applyMatch (math : VectorMath)
    (h : Passing sheets finished frameIndex persons s given) {m : Match}
    (hperson : IsPerson persons m.personIndex) (hindex : m.personIndex ∉ s.matchedPersons)
    (htrack : m.track.trackId ∈ s.activeTracks.map TrackState.trackId)
    (hnew : m.track.trackId ∉ given.map Prod.snd) :
    Passing sheets finished frameIndex persons (applyMatch math frameIndex s m)
      ((m.personIndex, m.track.trackId) :: given) := by
  have hperson' := (h.isPerson _).2 hperson
  obtain ⟨person, hsome⟩ := Option.ne_none_iff_exists'.1 hperson'
  have hfinished : m.track.trackId ∉ finished.map TrackState.trackId := fun hin =>
    List.disjoint_of_nodup_append (List.map_append ▸ h.ids) hin htrack
  have hknown : m.track.trackId ∈
      ((finished ++ s.activeTracks).map TrackState.account).map Account.id := by
    rw [map_account_id, List.map_append]
    exact List.mem_append_right _ htrack
  have hmark := h.balanced.mark hknown hnew
  unfold applyMatch
  rw [hsome]
  refine ⟨?_, List.nodup_cons.2 ⟨hindex, h.nodup⟩, h.label_cons hperson' hindex,
    fun i => isPerson_labelPerson.trans (h.isPerson i), ?_, ?_⟩
  · rw [List.map_cons, h.matched]
  · rw [List.map_append, List.map_append, map_mark_of_not_mem hfinished] at hmark
    rwa [List.map_append, account_updateTrack]
  · intro t ht
    have hin : t.trackId ∈ (finished ++ s.activeTracks).map TrackState.trackId := by
      rw [List.map_append, ← map_updateTrack_id m.track.trackId
        (·.update math frameIndex person) (fun _ => rfl) s.activeTracks, ← List.map_append]
      exact List.mem_map.2 ⟨t, ht, rfl⟩
    obtain ⟨t', ht', heq⟩ := List.mem_map.1 hin
    obtain ⟨n, hn, hid⟩ := h.fresh t' ht'
    exact ⟨n, hn, heq ▸ hid⟩

theorem passing_matches (math : VectorMath) (found : List Match)
    (h : Passing sheets finished frameIndex persons s given)
    (htracks : (found.map fun m => m.track.trackId).Nodup)
    (hindexes : (found.map Match.personIndex).Nodup)
    (hfree : ∀ m ∈ found, IsPerson persons m.personIndex ∧ m.personIndex ∉ s.matchedPersons)
    (hactive : ∀ m ∈ found, m.track.trackId ∈ s.activeTracks.map TrackState.trackId ∧
      m.track.trackId ∉ given.map Prod.snd) :
    ∃ given', Passing sheets finished frameIndex persons
      (found.foldl (applyMatch math frameIndex) s) given' := by
  induction found generalizing s given with
  | nil => exact ⟨given, h⟩
  | cons m _ ih =>
    rw [List.forall_mem_cons] at hfree hactive
    rw [List.map_cons, List.nodup_cons] at htracks hindexes
    have hm := passing_applyMatch math h hfree.1.1 hfree.1.2 hactive.1.1 hactive.1.2
    refine ih hm htracks.2 hindexes.2 (fun m' hm' => ⟨(hfree.2 m' hm').1, ?_⟩) fun m' hm' =>
      ⟨?_, ?_⟩
    · rw [← hm.matched, List.map_cons, h.matched, List.mem_cons, not_or]
      exact ⟨fun heq => hindexes.1 (List.mem_map.2 ⟨m', hm', heq⟩), (hfree.2 m' hm').2⟩
    · rw [applyMatch_ids]
      exact (hactive.2 m' hm').1
    · rw [List.map_cons, List.mem_cons, not_or]
      exact ⟨fun heq => htracks.1 (List.mem_map.2 ⟨m', hm', heq⟩), (hactive.2 m' hm').2⟩

theorem passing_startTrack (h : Passing sheets finished frameIndex persons s given)
    (hd : IsPerson persons d.1) :
    ∃ given', Passing sheets finished frameIndex persons (startTrack frameIndex s d) given' := by
  unfold startTrack
  split
  · exact ⟨given, h⟩
  · rename_i hindex
    have hnew : trackIdOf s.nextTrackNumber ∉
        ((finished ++ s.activeTracks).map TrackState.account).map Account.id := by
      rw [map_account_id]
      intro hin
      obtain ⟨t, ht, hid⟩ := List.mem_map.1 hin
      obtain ⟨n, _, heq⟩ := h.fresh t ht
      have hnumber := trackIdOf_inj (hid.symm.trans heq)
      omega
    refine ⟨(d.1, trackIdOf s.nextTrackNumber) :: given, ?_, List.nodup_cons.2 ⟨hindex, h.nodup⟩,
      h.label_cons ((h.isPerson _).2 hd) hindex,
      fun i => isPerson_labelPerson.trans (h.isPerson i), ?_, ?_⟩
    · rw [List.map_cons, h.matched]
    · refine (h.balanced.openAccount hnew).perm ?_
      have hlast := List.perm_append_singleton
        (newTrack (trackIdOf s.nextTrackNumber) frameIndex d.2) (finished ++ s.activeTracks)
      rw [← List.append_assoc]
      exact (hlast.map TrackState.account).symm
    · intro t ht
      rw [← List.append_assoc, List.mem_append, List.mem_singleton] at ht
      rcases ht with ht | rfl
      · obtain ⟨n, hn, heq⟩ := h.fresh t ht
        exact ⟨n, Nat.lt_succ_of_lt hn, heq⟩
      · exact ⟨s.nextTrackNumber, Nat.lt_succ_self _, rfl⟩

theorem passing_startTracks (ds : List (Nat × Person))
    (h : Passing sheets finished frameIndex persons s given)
    (hds : ∀ d ∈ ds, IsPerson persons d.1) :
    ∃ given', Passing sheets finished frameIndex persons (ds.foldl (startTrack frameIndex) s)
      given' := by
  induction ds generalizing s given with
  | nil => exact ⟨given, h⟩
  | cons d _ ih =>
    rw [List.forall_mem_cons] at hds
    obtain ⟨_, h'⟩ := passing_startTrack h hds.1
    exact ih h' hds.2

theorem passing_associatePersons {t : Tracker} {pass : Pass}
    (haccounted : Balanced sheets ((t.finishedTracks ++ t.activeTracks).map TrackState.account))
    (hfresh : ∀ t' ∈ t.finishedTracks ++ t.activeTracks, ∃ n < t.nextTrackNumber,
      t'.trackId = trackIdOf n)
    (h : associatePersons math parameters frameIndex t persons = some pass) :
    ∃ given, Passing sheets t.finishedTracks frameIndex persons pass given := by
  obtain ⟨highMatches, hhigh, h⟩ := Option.bind_eq_some_iff.1 h
  obtain ⟨lowMatches, hlow, h⟩ := Option.bind_eq_some_iff.1 h
  cases h
  have hstart : Passing sheets t.finishedTracks frameIndex persons
      ⟨t.activeTracks, persons, [], t.nextTrackNumber⟩ [] :=
    ⟨rfl, List.nodup_nil, by simp, fun _ => .rfl, haccounted.newSheet frameIndex, hfresh⟩
  have hactive : (t.activeTracks.map TrackState.trackId).Nodup :=
    (List.nodup_append.1 (List.map_append ▸ hstart.ids)).2.1
  have hdetections := nodup_detectionsOf persons
  -- The first pass: nobody on the frame has a label yet.
  have hmatching := globalMatch_spec hhigh (hactive.sublist (List.filter_sublist.map _))
    (hdetections.sublist (List.filter_sublist.map _))
  obtain ⟨_, hgiven⟩ := passing_matches math highMatches hstart hmatching.tracksNodup
    hmatching.personsNodup
    (fun m hm => by
      obtain ⟨d, hd, heq⟩ := List.mem_map.1 (hmatching.persons m hm)
      exact ⟨heq ▸ isPerson_of_detection (List.mem_of_mem_filter hd), List.not_mem_nil⟩)
    (fun m hm => ⟨List.mem_map.2 ⟨m.track, List.mem_of_mem_filter (hmatching.tracks m hm), rfl⟩,
      List.not_mem_nil⟩)
  -- The second pass: its tracks have no label on the frame, its persons are not matched.
  have hmatching' := globalMatch_spec hlow
    (((List.nodup_append.1 (List.map_append ▸ hgiven.ids)).2.1).sublist (List.filter_sublist.map _))
    (hdetections.sublist ((List.filter_sublist.trans List.filter_sublist).map _))
  obtain ⟨_, hgiven'⟩ := passing_matches math lowMatches hgiven
    hmatching'.tracksNodup hmatching'.personsNodup
    (fun m hm => by
      obtain ⟨d, hd, heq⟩ := List.mem_map.1 (hmatching'.persons m hm)
      obtain ⟨hd, hfree⟩ := List.mem_filter.1 hd
      rw [← heq]
      exact ⟨isPerson_of_detection (List.mem_of_mem_filter hd), of_decide_eq_true hfree⟩)
    (fun m hm => by
      obtain ⟨hm, hremaining⟩ := List.mem_filter.1 (hmatching'.tracks m hm)
      refine ⟨List.mem_map.2 ⟨m.track, hm, rfl⟩, fun hin => ?_⟩
      obtain ⟨e, he, heq⟩ := List.mem_map.1 hin
      exact (of_decide_eq_true hremaining).2 (heq ▸ mem_labelsOf (hgiven.label e he)))
  exact passing_startTracks _ hgiven' fun d hd => isPerson_of_detection (List.mem_of_mem_filter hd)

theorem labelsOf_dropLabels (h : Passing sheets finished frameIndex persons s given) :
    (labelsOf (dropLabels s)).Perm (given.map Prod.snd) := by
  have hlabels : labelsOf (dropLabels s) = (List.range s.persons.length).filterMap fun i =>
      if decide (i ∈ s.matchedPersons) = true then labelAt s.persons i else none := by
    unfold labelsOf dropLabels
    have hrange : List.range s.persons.length = s.persons.zipIdx.map Prod.snd := by
      rw [List.zipIdx_map_snd, List.range_eq_range']
    rw [hrange, List.filterMap_map, List.filterMap_map]
    refine List.filterMap_congr fun e he => ?_
    have hperson : s.persons[e.2]? = some e.1 := List.mk_mem_zipIdx_iff_getElem?.1 he
    simp only [Function.comp_apply, labelAt, hperson, Option.join_some, decide_eq_true_eq]
    by_cases hmatched : e.2 ∈ s.matchedPersons
    · rw [if_pos hmatched, if_pos hmatched]
    · rw [if_neg hmatched, if_neg hmatched]
      cases e.1 <;> rfl
  have hin : ∀ i ∈ s.matchedPersons, i < s.persons.length := by
    intro i hi
    obtain ⟨e, he, rfl⟩ := List.mem_map.1 (h.matched ▸ hi)
    by_contra hlt
    have hlabel := h.label e he
    unfold labelAt at hlabel
    simp [List.getElem?_eq_none (not_lt.1 hlt)] at hlabel
  have hmatched : ((List.range s.persons.length).filter fun i => decide (i ∈ s.matchedPersons)).Perm
      s.matchedPersons := by
    rw [List.perm_ext_iff_of_nodup (List.nodup_range.filter _) h.nodup]
    intro i
    rw [List.mem_filter, List.mem_range, decide_eq_true_eq]
    exact ⟨And.right, fun hi => ⟨hin i hi, hi⟩⟩
  rw [hlabels, ← List.filterMap_filter]
  refine (hmatched.filterMap _).trans (.of_eq ?_)
  rw [← h.matched, List.filterMap_map, ← List.filterMap_eq_map]
  exact List.filterMap_congr h.label

end Passes

/-! ## The loop over the frames -/

/-- Between two frames: labels are accounted for, and the next number is new. -/
structure Tracked (s : Tracker) (frames : List Frame) : Prop where
  accounted : Accounted frames (s.finishedTracks ++ s.activeTracks)
  fresh : ∀ t ∈ s.finishedTracks ++ s.activeTracks, ∃ n < s.nextTrackNumber, t.trackId = trackIdOf n

theorem tracked_nil : Tracked ⟨[], [], 1⟩ [] := ⟨balanced_nil, by simp⟩

theorem accounted_concat (frame : Frame) {labels : List String}
    (h : Balanced (⟨frame.frameIndex, labels⟩ :: frames.map Frame.sheet)
      (tracks.map TrackState.account)) (hlabels : frame.listedLabels.Perm labels) :
    Accounted (frames ++ [frame]) tracks := by
  unfold Accounted
  rw [List.map_append]
  exact (h.perm_labels hlabels.symm).perm_sheets (List.perm_append_singleton _ _).symm

theorem tracked_associateFrame {s s' : Tracker} {frame frame' : Frame} (h : Tracked s frames)
    (hframe : associateFrame math parameters s frame = some (s', frame')) :
    Tracked s' (frames ++ [frame']) := by
  unfold associateFrame at hframe
  split at hframe
  · rename_i hpersons
    cases hframe
    refine ⟨accounted_concat _ (h.accounted.newSheet frame.frameIndex) ?_, h.fresh⟩
    unfold Frame.listedLabels
    rw [hpersons]
  · obtain ⟨pass, hpass, heq⟩ := Option.map_eq_some_iff.1 hframe
    cases heq
    obtain ⟨_, hgiven⟩ := passing_associatePersons h.accounted h.fresh hpass
    -- A track that is too old moves from the active tracks to the finished ones.
    have hperm : (s.finishedTracks ++ pass.activeTracks).Perm
        ((s.finishedTracks ++ pass.activeTracks.filter fun t =>
            parameters.maxAge < frame.frameIndex - t.lastFrameIndex) ++
          pass.activeTracks.filter fun t =>
            ¬parameters.maxAge < frame.frameIndex - t.lastFrameIndex) := by
      rw [List.append_assoc]
      refine List.Perm.append_left _ ?_
      simpa only [decide_not] using (List.filter_append_perm
        (fun t : TrackState => decide (parameters.maxAge < frame.frameIndex - t.lastFrameIndex))
        pass.activeTracks).symm
    refine ⟨?_, fun t ht => hgiven.fresh t (hperm.mem_iff.2 ht)⟩
    exact (accounted_concat { frame with persons := .list (dropLabels pass) }
      hgiven.balanced (labelsOf_dropLabels hgiven)).perm hperm

theorem tracked_associateFrames {s : Tracker} {frames' : List Frame}
    (h : associateFrames math parameters frames = some (s, frames')) : Tracked s frames' := by
  refine some_foldlM (I := fun r : Tracker × List Frame => Tracked r.1 r.2) frames ?_ tracked_nil h
  intro r _ _ hr _ hr'
  obtain ⟨_, hnext, rfl⟩ := Option.map_eq_some_iff.1 hr'
  exact tracked_associateFrame hr hnext

theorem skippedLabels_associateFrames {s : Tracker} {frames' : List Frame}
    (h : associateFrames math parameters frames = some (s, frames')) :
    frames'.map (fun f => f.skippedLabels.length) =
      frames.map fun f => f.skippedLabels.length := by
  unfold associateFrames at h
  suffices hfold : ∀ (start : Tracker × List Frame),
      frames.foldlM (fun s frame => (associateFrame math parameters s.1 frame).map fun next =>
        (next.1, s.2 ++ [next.2])) start = some (s, frames') →
      frames'.map (fun f => f.skippedLabels.length) =
        (start.2 ++ frames).map fun f => f.skippedLabels.length from hfold _ h
  clear h
  induction frames with
  | nil =>
    intro start h
    cases h
    rw [List.append_nil]
  | cons frame frames ih =>
    intro start h
    rw [List.foldlM_cons] at h
    obtain ⟨_, hstep, h⟩ := Option.bind_eq_some_iff.1 h
    obtain ⟨next, hframe, rfl⟩ := Option.map_eq_some_iff.1 hstep
    have hsame : next.2.skippedLabels = frame.skippedLabels := by
      unfold associateFrame at hframe
      split at hframe
      · cases hframe
        rfl
      · rename_i hpersons
        obtain ⟨_, _, rfl⟩ := Option.map_eq_some_iff.1 hframe
        unfold Frame.skippedLabels
        rw [hpersons]
    simp only [ih _ h, List.append_assoc, List.map_append, List.map_cons, hsame,
      List.singleton_append]

/-- No frame has a label twice, every label is the id of exactly one returned track, and the frame
count of a returned track is the number of persons that carry its id. -/
structure Labelled (frames : List Frame) (tracks : List PublicTrack) : Prop where
  exclusive : ∀ frame ∈ frames, frame.labels.Nodup
  known : ∀ frame ∈ frames, ∀ trackId ∈ frame.labels,
    (tracks.map PublicTrack.trackId).count trackId = 1
  count : ∀ track ∈ tracks, track.frameCount = (frames.flatMap Frame.labels).count track.trackId

theorem flatMap_labels_count (frames : List Frame) (trackId : String) :
    (frames.flatMap Frame.labels).count trackId =
      (frames.flatMap Frame.listedLabels).count trackId +
        (frames.flatMap Frame.skippedLabels).count trackId := by
  induction frames with
  | nil => rfl
  | cons frame _ ih =>
    simp only [List.flatMap_cons, List.count_append, ih, frame.labels_eq]
    omega

/-- **Track labels are exclusive and accounted for**, exactly when the persons that are no list come
without labels: nothing erases those. -/
theorem labelled_iff (math : VectorMath) (parameters : Parameters) (frames frames' : List Frame)
    (tracks : List PublicTrack)
    (h : associatePersonTracks math parameters frames = some (frames', tracks)) :
    Labelled frames' tracks ↔ ∀ frame ∈ frames, frame.skippedLabels = [] := by
  obtain ⟨⟨_, _⟩, hframes, h⟩ := Option.bind_eq_some_iff.1 h
  obtain ⟨⟨_, allTracks⟩, hmerge, h⟩ := Option.bind_eq_some_iff.1 h
  obtain ⟨_, _, h⟩ := Option.bind_eq_some_iff.1 h
  cases h
  have htracked := (tracked_associateFrames hframes).accounted
  have haccounted := accounted_mergeTrackFragments
    (htracked.perm (List.perm_insertionSort _ _).symm) hmerge
  have hids : (allTracks.map publicDict).map PublicTrack.trackId =
      allTracks.map TrackState.trackId := by
    rw [List.map_map]
    rfl
  have hcount : ∀ t ∈ allTracks,
      t.hits = (frames'.flatMap Frame.listedLabels).count t.trackId := fun t ht => by
    have hcount := haccounted.count t.account (List.mem_map.2 ⟨t, ht, rfl⟩)
    rwa [List.flatMap_map] at hcount
  -- The labels outside lists stay, under other names at most.
  have hlengths : frames'.map (fun f => f.skippedLabels.length) =
      frames.map fun f => f.skippedLabels.length :=
    (skippedLabels_mergeTrackFragments hmerge).trans (skippedLabels_associateFrames hframes)
  have hskipped : (∀ frame ∈ frames, frame.skippedLabels = []) ↔
      ∀ frame ∈ frames', frame.skippedLabels = [] := by
    have hnil : ∀ fs : List Frame, (∀ frame ∈ fs, frame.skippedLabels = []) ↔
        ∀ n ∈ fs.map fun f => f.skippedLabels.length, n = 0 := fun fs => by
      simp only [List.forall_mem_map, List.length_eq_zero_iff]
    rw [hnil, hnil, hlengths]
  rw [hskipped]
  constructor
  · intro hlabelled frame hframe
    -- A label outside a list would be that of a track, and be counted for it.
    refine List.eq_nil_iff_forall_not_mem.2 fun trackId hin => ?_
    have hlabel : trackId ∈ frame.labels := by
      rw [frame.labels_eq]
      exact List.mem_append_right _ hin
    have hone := hlabelled.known frame hframe trackId hlabel
    rw [hids] at hone
    obtain ⟨t, ht, rfl⟩ :=
      List.mem_map.1 (List.count_pos_iff.1 (Nat.lt_of_lt_of_eq one_pos hone.symm))
    have hall := hlabelled.count (publicDict t) (List.mem_map.2 ⟨t, ht, rfl⟩)
    rw [show (publicDict t).frameCount = t.hits from rfl, hcount t ht, flatMap_labels_count] at hall
    have hzero : (frames'.flatMap Frame.skippedLabels).count t.trackId = 0 :=
      Nat.add_eq_left.1 hall.symm
    exact List.count_eq_zero.1 hzero (List.mem_flatMap.2 ⟨frame, hframe, hin⟩)
  · intro hskipped
    have hlisted : ∀ frame ∈ frames', frame.labels = frame.listedLabels := fun frame hframe => by
      rw [frame.labels_eq, hskipped frame hframe, List.append_nil]
    refine ⟨fun frame hframe => ?_, fun frame hframe trackId hlabel => ?_, fun track htrack => ?_⟩
    · rw [hlisted frame hframe]
      exact haccounted.exclusive frame.sheet (List.mem_map.2 ⟨frame, hframe, rfl⟩)
    · rw [hids]
      refine List.count_eq_one_of_mem haccounted.ids ?_
      rw [← map_account_id]
      rw [hlisted frame hframe] at hlabel
      exact haccounted.known frame.sheet (List.mem_map.2 ⟨frame, hframe, rfl⟩) trackId hlabel
    · obtain ⟨t, ht, rfl⟩ := List.mem_map.1 htrack
      rw [List.flatMap_def, List.map_congr_left hlisted, ← List.flatMap_def]
      exact hcount t ht

/-- Every embedding is the same unit vector. -/
def sameLook : VectorMath := ⟨fun _ _ => 1, fun smoothed _ => smoothed⟩

/-- The default parameters. -/
def defaultParameters : Parameters where
  highConfidence := 45 / 100
  lowConfidence := 10 / 100
  minMatchScore := 28 / 100
  maxAge := 2
  maxFragmentMergeGap := 4
  maxGlobalAssociationSize := 10

/-- A person at `x`. -/
def personAtX (x score : ℚ) (trackId : Option String) : Option Person :=
  some ⟨score, some [x, 0, x + 10, 10], some [1, 0], trackId⟩

/-- Two persons; one is recovered in frame 1, and is back in frame 5 as a new track, which is merged
into the first one. The other person of frame 5 carries a label from outside and loses it. -/
theorem fragmented_labelled :
    let frames : List Frame :=
      [⟨0, .list [personAtX 0 (9 / 10) none, personAtX 99 (9 / 10) none]⟩,
        ⟨1, .list [none, personAtX 1 (2 / 10) none]⟩,
        ⟨2, .other (some [personAtX 0 (9 / 10) none])⟩,
        ⟨5, .list [personAtX 2 (8 / 10) none, personAtX 50 (2 / 10) (some "trk_0001")]⟩]
    let frames' : List Frame :=
      [⟨0, .list [personAtX 0 (9 / 10) (some "trk_0001"), personAtX 99 (9 / 10) (some "trk_0002")]⟩,
        ⟨1, .list [none, personAtX 1 (2 / 10) (some "trk_0001")]⟩,
        ⟨2, .other (some [personAtX 0 (9 / 10) none])⟩,
        ⟨5, .list [personAtX 2 (8 / 10) (some "trk_0001"), personAtX 50 (2 / 10) none]⟩]
    let tracks : List PublicTrack := [⟨"trk_0001", 3, 0, 5⟩, ⟨"trk_0002", 1, 0, 0⟩]
    associatePersonTracks sameLook defaultParameters frames = some (frames', tracks) ∧
      (Labelled frames' tracks ↔ ∀ frame ∈ frames, frame.skippedLabels = []) ∧
      ∀ frame ∈ frames, frame.skippedLabels = [] := by
  intro frames frames' tracks
  have hrun : associatePersonTracks sameLook defaultParameters frames = some (frames', tracks) := by
    decide +kernel
  exact ⟨hrun, labelled_iff sameLook defaultParameters frames frames' tracks hrun, by decide⟩

/-- A tuple of one person with an old label: no track is returned, and the label stays. -/
theorem tuple_keeps_label :
    let frames : List Frame := [⟨0, .other (some [personAtX 0 (9 / 10) (some "trk_0009")])⟩]
    associatePersonTracks sameLook defaultParameters frames = some (frames, []) ∧
      ¬Labelled frames [] := by
  refine ⟨by decide +kernel, fun h => ?_⟩
  have hone := h.known _ (List.mem_singleton_self _) "trk_0009" (by decide)
  cases hone

end Scenara.Tracking
