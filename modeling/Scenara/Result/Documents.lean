import Scenara.Result.Failure

/-!
# The other objects, and the index documents
-/

namespace Scenara.Result

open Scenara.Core

variable {U E B D : Type} {c : Codec U E B D} {rest : E} {s s' s₁ s₂ s₃ : State B D} {f : Faults}
  {v : Service E} {call : Call U E}

/-- `s'` has the other objects of `s`, and no index document that is neither of `s` nor with
`rest`. -/
structure Keeps (c : Codec U E B D) (rest : E) (s s' : State B D) : Prop where
  others : ∀ key, s'.objects.get? (.other key) = s.objects.get? (.other key)
  documents : ∀ key document, s'.objects.get? (.result key) = some document →
    s.objects.get? (.result key) = some document ∨
      ∃ index : Envelope U E, document = c.dumpEnvelope index ∧ index.rest = rest

theorem Keeps.of_objects (h : s'.objects = s.objects) : Keeps c rest s s' where
  others _ := by rw [h]
  documents key document hd := .inl (by rwa [h] at hd)

theorem Keeps.refl (s : State B D) : Keeps c rest s s := .of_objects rfl

theorem Keeps.trans (h : Keeps c rest s₁ s₂) (h' : Keeps c rest s₂ s₃) : Keeps c rest s₁ s₃ where
  others key := (h'.others key).trans (h.others key)
  documents key document hd := by
    rcases h'.documents key document hd with hd | hd
    · exact h.documents key document hd
    · exact .inr hd

theorem keeps_discard {store : StateStore} {runId : String} {now : ℚ} {keys : List ObjectKey}
    (hkeys : ∀ key, .other key ∉ keys) : Keeps c rest s (discard store runId f now keys s) where
  others key := discard_objects_of_not_mem (hkeys key)
  documents key document hd := by
    rw [discard_objects] at hd
    split at hd
    · cases hd
    · exact .inl hd

theorem objects_tracked {store : StateStore} (entries : List (ObjectKey × RetentionRecord))
    (a : Attempt B D) : (reached (trackAll store f entries a)).state.objects = a.state.objects := by
  induction entries generalizing a with
  | nil => rfl
  | cons entry _ ih =>
    unfold trackAll
    cases h : trackObject store f a.state entry with
    | error e => rfl
    | ok s =>
      obtain ⟨-, rfl⟩ := trackObject_ok h
      exact ih { a with state := { a.state with retention := _ } }

variable [DecidableEq D]

theorem keeps_putShard {key : ShardKey} {us : List U} (a : Attempt B D) :
    Keeps c rest a.state (reached (putShard c f key us a)).state := by
  cases h : putShard c f key us a with
  | error e =>
    unfold putShard at h
    split at h <;> cases h
    exact .refl a.state
  | ok b =>
    obtain ⟨s, hs, rfl⟩ := putShard_ok h
    rcases put_ok hs with ⟨rfl, -⟩ | ⟨-, rfl⟩
    · exact .refl a.state
    · have hne {k : ObjectKey} (hk : k ≠ .shard key) :
          (a.state.objects.insert (.shard key) (c.dumpUnits us)).get? k = a.state.objects.get? k :=
        Dict.get?_insert_of_ne _ _ hk
      exact ⟨fun k => hne (by simp), fun k document hd => .inl ((hne (by simp)).symm.trans hd)⟩

theorem keeps_putShards {inPartial : Bool} (chunks : List (List U)) (i : Nat) (a : Attempt B D) :
    Keeps c rest a.state (reached (putShards c f inPartial i chunks a)).state := by
  induction chunks generalizing i a with
  | nil => exact .refl a.state
  | cons _ _ ih =>
    refine reached_bind (R := fun a b => Keeps c rest a.state b.state) (fun _ _ _ => .trans)
      (keeps_putShard a) fun b _ => ih (i + 1) b

variable {previous : Option (Reference D)}

theorem keeps_putIndex {index : Envelope U E}
    (hindex : index.rest = rest) (a : Attempt B D) :
    Keeps c rest a.state (reached (putIndex c previous call index a)).state := by
  cases h : putIndex c previous call index a with
  | error e =>
    unfold putIndex at h
    split at h
    · cases h
      exact .refl a.state
    · split at h <;> cases h
  | ok b =>
    obtain ⟨s, hs, rfl⟩ := putIndex_ok h
    rcases put_ok hs with ⟨rfl, -⟩ | ⟨-, rfl⟩
    · exact .refl a.state
    · refine ⟨fun k => Dict.get?_insert_of_ne _ _ (by simp), fun k document hd => ?_⟩
      by_cases hk : (ObjectKey.result k) = .result (resultKey call)
      · rw [hk] at hd
        have hd := (Dict.get?_insert_self _ _ _).symm.trans hd
        exact .inr ⟨index, (Option.some.inj hd).symm, hindex⟩
      · exact .inl ((Dict.get?_insert_of_ne _ _ hk).symm.trans hd)

theorem keeps_perform {p : Plan U E D}
    (hindex : p.index.rest = rest) (a : Attempt B D) :
    Keeps c rest a.state (reached (perform c v previous call p a)).state := by
  have htrans : ∀ a b d : Attempt B D, Keeps c rest a.state b.state → Keeps c rest b.state d.state →
      Keeps c rest a.state d.state := fun _ _ _ => .trans
  refine reached_bind htrans (keeps_putShards p.chunks p.start a) fun b _ => ?_
  refine reached_bind htrans (keeps_putIndex hindex b) fun b _ => ?_
  refine reached_bind htrans ?_ fun b' hb => ?_
  · unfold readOwners
    split <;> exact .refl b.state
  · obtain rfl := readOwners_ok hb
    exact reached_bind htrans (.of_objects (objects_tracked _ b')) fun b _ =>
      .of_objects (objects_tracked _ b)

omit [DecidableEq D] in
theorem plan_rest {p : Plan U E D}
    (h : plan v previous call = .ok p) : p.index.rest = call.result.rest := by
  cases planned h <;> rfl

theorem keeps_tried : Keeps c call.result.rest s (tried c v s call).state := by
  unfold tried
  cases hp : plan v s.reference call with
  | error e => exact .refl s
  | ok p =>
    have h : Keeps c call.result.rest s
        (reached (perform c v s.reference call p ⟨p.toManifest, s, []⟩)).state :=
      keeps_perform (plan_rest hp) ⟨p.toManifest, s, []⟩
    exact h

theorem other_not_written (key : String) : .other key ∉ (tried c v s call).writtenKeys := by
  unfold tried
  cases hp : plan v s.reference call with
  | error e => simp
  | ok p =>
    intro hk
    rcases (reaches_perform s).writes _ hk with hk | ⟨i, -, hk⟩ | ⟨hk, -⟩ <;> cases hk

omit [DecidableEq D] in
theorem other_not_keys (r : Reference D) (key : String) : .other key ∉ r.keys := by
  simp [Reference.keys]

omit [DecidableEq D] in
theorem other_not_superseded (previous : Option (Reference D)) (r : Reference D) (key : String) :
    .other key ∉ supersededKeys previous r := by
  unfold supersededKeys
  split
  · simp
  · split <;> simp

theorem keeps_storeResult : Keeps c call.result.rest s (storeResult c v s call).1 := by
  cases h : (storeResult c v s call).2 with
  | error e =>
    rcases storeResult_error h with ⟨-, he⟩ | ⟨-, he⟩
    · rw [he]
      exact .refl s
    · rw [he]
      exact keeps_tried.trans (keeps_discard other_not_written)
  | ok r =>
    obtain ⟨p, b, hp, hb, -, he⟩ := storeResult_ok h
    have hkept : Keeps c call.result.rest s
        (reached (perform c v s.reference call p ⟨p.toManifest, s, []⟩)).state :=
      keeps_perform (plan_rest hp) ⟨p.toManifest, s, []⟩
    rw [hb] at hkept
    have hsaved : Keeps c call.result.rest s { b.state with reference := some r } :=
      hkept.trans (.of_objects rfl)
    rw [he]
    exact hsaved.trans (keeps_discard (other_not_superseded s.reference r))

end Scenara.Result
