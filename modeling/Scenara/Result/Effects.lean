import Scenara.Core.Raising
import Scenara.Result.Model

/-!
# What the `try` body of `_store_result` does to the two stores

* `Grows`: the body only adds. An object that is there keeps its content, a row that is there stays,
  and what is new lies under the keys of the call. `Reaches` adds the list of written keys, and
  `reaches_perform` has it for every outcome: whatever call raised, and wherever.
-/

namespace Scenara.Result

open Scenara.Core

variable {U E B D : Type} {own writes : ObjectKey → Prop} {s s' s₁ s₂ s₃ : State B D}
variable {inPartial : Bool} {store : StateStore} {document : B}
  {entry : ObjectKey × RetentionRecord} {index : Envelope U E}

/-! ## States that only gain -/

/-- `s'` has all that `s` has, and what it has more lies under keys in `own`. -/
structure Grows (own : ObjectKey → Prop) (s s' : State B D) : Prop where
  reference : s'.reference = s.reference
  objects : ∀ {k d}, s.objects.get? k = some d → s'.objects.get? k = some d
  otherObjects : ∀ {k}, ¬own k → s'.objects.get? k = s.objects.get? k
  rows : ∀ {k row}, s.retention.get? k = some row → s'.retention.get? k = some row
  otherRows : ∀ {k}, ¬own k → s'.retention.get? k = s.retention.get? k

theorem Grows.refl (own : ObjectKey → Prop) (s : State B D) : Grows own s s :=
  ⟨rfl, id, fun _ => rfl, id, fun _ => rfl⟩

theorem Grows.trans (h : Grows own s₁ s₂) (h' : Grows own s₂ s₃) : Grows own s₁ s₃ where
  reference := h'.reference.trans h.reference
  objects hd := h'.objects (h.objects hd)
  otherObjects hk := (h'.otherObjects hk).trans (h.otherObjects hk)
  rows hr := h'.rows (h.rows hr)
  otherRows hk := (h'.otherRows hk).trans (h.otherRows hk)

theorem Grows.mono {own' : ObjectKey → Prop} (hown : ∀ k, own k → own' k) (h : Grows own s s') :
    Grows own' s s' :=
  ⟨h.reference, h.objects, fun hk => h.otherObjects fun ho => hk (hown _ ho), h.rows,
    fun hk => h.otherRows fun ho => hk (hown _ ho)⟩

/-- `b` comes after `a` in one body: the state grew, and so did the written keys. -/
structure Reaches (own writes : ObjectKey → Prop) (a b : Attempt B D) : Prop where
  grows : Grows own a.state b.state
  written : ∀ k ∈ a.writtenKeys, k ∈ b.writtenKeys
  writes : ∀ k ∈ b.writtenKeys, k ∈ a.writtenKeys ∨ writes k

theorem Reaches.refl (own writes : ObjectKey → Prop) (a : Attempt B D) : Reaches own writes a a :=
  ⟨.refl _ _, fun _ h => h, fun _ h => .inl h⟩

theorem Reaches.trans (a₁ a₂ a₃ : Attempt B D) (h : Reaches own writes a₁ a₂)
    (h' : Reaches own writes a₂ a₃) : Reaches own writes a₁ a₃ where
  grows := h.grows.trans h'.grows
  written k hk := h'.written k (h.written k hk)
  writes k hk := by
    rcases h'.writes k hk with hk | hk
    · exact h.writes k hk
    · exact .inr hk

variable {c : Codec U E B D} {f : Faults} {v : Service E} {call : Call U E}
  {a b : Attempt B D} {p : Plan U E D} {previous : Option (Reference D)}

/-! ## Tracking -/

/-- `track_object` accepts the row. -/
def Free (store : StateStore) (rows : Dict ObjectKey RetentionRecord)
    (entry : ObjectKey × RetentionRecord) : Prop :=
  ∀ existing, rows.get? entry.1 = some existing → store = .memory ∧ existing = entry.2

theorem trackObject_ok_iff : (∃ s', trackObject store f s entry = .ok s') ↔
      f.track entry.1 = false ∧ Free store s.retention entry := by
  unfold trackObject Free
  by_cases hf : f.track entry.1
  · simp [hf]
  · cases hr : s.retention.get? entry.1 with
    | none => simp [hf]
    | some existing =>
      cases store with
      | postgres => simp [hf]
      | memory => by_cases he : existing = entry.2 <;> simp [hf, he]

theorem trackObject_ok (h : trackObject store f s entry = .ok s') : Free store s.retention entry ∧
      s' = { s with retention := s.retention.insert entry.1 entry.2 } := by
  refine ⟨(trackObject_ok_iff.1 ⟨s', h⟩).2, ?_⟩
  unfold trackObject at h
  split at h
  · cases h
  · split at h
    · injection h with h
      exact h.symm
    · split at h
      · cases h
      · injection h with h
        exact h.symm
    · cases h

theorem grows_trackObject
    (hown : own entry.1) (h : trackObject store f s entry = .ok s') : Grows own s s' := by
  obtain ⟨hfree, rfl⟩ := trackObject_ok h
  refine ⟨rfl, id, fun _ => rfl, ?_, ?_⟩
  · intro k row hr
    by_cases hk : k = entry.1
    · subst hk
      rw [(hfree row hr).2]
      exact Dict.get?_insert_self _ _ _
    · exact (Dict.get?_insert_of_ne _ _ hk).trans hr
  · intro k hno
    exact Dict.get?_insert_of_ne _ _ fun he => hno (he ▸ hown)

theorem reaches_trackAll (entries : List (ObjectKey × RetentionRecord))
    (hown : ∀ e ∈ entries, own e.1) (a : Attempt B D) :
    Reaches own writes a (reached (trackAll store f entries a)) := by
  induction entries generalizing a with
  | nil => exact .refl own writes a
  | cons entry _ ih =>
    unfold trackAll
    cases h : trackObject store f a.state entry with
    | error e => exact .refl own writes a
    | ok s =>
      have hstep : Reaches own writes a { a with state := s } :=
        ⟨grows_trackObject (hown entry (by simp)) h, fun _ hk => hk, fun _ hk => .inl hk⟩
      exact hstep.trans _ _ _ (ih (fun e he => hown e (by simp [he])) _)

theorem grows_trackAll {entries : List (ObjectKey × RetentionRecord)}
    (hown : ∀ e ∈ entries, own e.1) (h : trackAll store f entries a = .ok b) :
    Grows own a.state b.state := by
  have hr : Reaches own (fun _ => True) a (reached (trackAll store f entries a)) :=
    reaches_trackAll entries hown a
  rw [h] at hr
  exact hr.grows

variable {a b : Attempt B D} {key : ObjectKey}

theorem trackAll_ok (entries : List (ObjectKey × RetentionRecord))
    (h : trackAll store f entries a = .ok b) :
    b.toManifest = a.toManifest ∧ b.writtenKeys = a.writtenKeys ∧
      b.state.objects = a.state.objects ∧
      ∀ e ∈ entries, b.state.retention.get? e.1 = some e.2 := by
  induction entries generalizing a with
  | nil =>
    cases h
    simp
  | cons _ _ ih =>
    unfold trackAll at h
    split at h
    · cases h
    · rename_i s hs
      obtain ⟨hm, hw, ho, hrows⟩ := ih h
      obtain ⟨-, rfl⟩ := trackObject_ok hs
      refine ⟨hm, hw, ho, ?_⟩
      intro e he
      rcases List.mem_cons.1 he with rfl | he
      · have hg : Grows (fun _ => True) _ b.state := grows_trackAll (fun _ _ => trivial) h
        exact hg.rows (Dict.get?_insert_self _ _ _)
      · exact hrows e he

theorem trackAll_ok_iff (entries : List (ObjectKey × RetentionRecord))
    (hnodup : (entries.map Prod.fst).Nodup) (hf : ∀ k, f.track k = false) (a : Attempt B D) :
    (∃ b, trackAll store f entries a = .ok b) ↔
      ∀ e ∈ entries, Free store a.state.retention e := by
  induction entries generalizing a with
  | nil => simp [trackAll]
  | cons entry rest ih =>
    rw [List.map_cons, List.nodup_cons] at hnodup
    -- an earlier row is under another key
    have hfree : ∀ s, trackObject store f a.state entry = .ok s →
        ∀ e ∈ rest, (Free store s.retention e ↔ Free store a.state.retention e) := by
      intro s hs e he
      obtain ⟨-, rfl⟩ := trackObject_ok hs
      have hne : e.1 ≠ entry.1 := fun h => hnodup.1 (List.mem_map.2 ⟨e, he, h⟩)
      unfold Free
      rw [Dict.get?_insert_of_ne _ _ hne]
    rw [List.forall_mem_cons]
    unfold trackAll
    cases hs : trackObject store f a.state entry with
    | error e =>
      simp only [reduceCtorEq, exists_false, false_iff, not_and]
      intro hfree'
      obtain ⟨s, hs'⟩ := trackObject_ok_iff.2 ⟨hf entry.1, hfree'⟩
      rw [hs] at hs'
      cases hs'
    | ok s =>
      rw [ih hnodup.2]
      constructor
      · intro h
        exact ⟨(trackObject_ok hs).1, fun e he => (hfree s hs e he).1 (h e he)⟩
      · rintro ⟨-, h⟩ e he
        exact (hfree s hs e he).2 (h e he)

theorem readOwners_ok (h : readOwners v f a = .ok b) : b = a := by
  unfold readOwners at h
  split at h
  · cases h
  · injection h with h
    exact h.symm

/-! ## One put -/

/-- `put` accepts the document: nothing is there, or something with the same checksum. -/
def Accepts (c : Codec U E B D) (o : Dict ObjectKey B) (key : ObjectKey) (document : B) : Prop :=
  ∀ existing, o.get? key = some existing → c.sha256 existing = c.sha256 document

/-- Nothing else is there under the key. -/
def Exact (o : Dict ObjectKey B) (key : ObjectKey) (document : B) : Prop :=
  ∀ existing, o.get? key = some existing → existing = document

theorem Exact.accepts {o : Dict ObjectKey B}
    (h : Exact o key document) : Accepts c o key document := by
  intro existing he
  rw [h existing he]

theorem Accepts.exact {o : Dict ObjectKey B}
    (hc : Function.Injective c.sha256) (h : Accepts c o key document) : Exact o key document :=
  fun existing he => hc (h existing he)

variable [DecidableEq D]

theorem put_ok_iff : (∃ s', put c f key document s = .ok s') ↔
      f.put key = false ∧ Accepts c s.objects key document := by
  unfold put Accepts
  by_cases hf : f.put key
  · simp [hf]
  · cases ho : s.objects.get? key with
    | none => simp [hf]
    | some existing =>
      by_cases he : c.sha256 existing = c.sha256 document <;> simp [hf, he]

theorem put_ok (h : put c f key document s = .ok s') :
    s' = s ∧ s.objects.get? key ≠ none ∨
      s.objects.get? key = none ∧ s' = { s with objects := s.objects.insert key document } := by
  unfold put at h
  split at h
  · cases h
  · split at h
    · rename_i existing he
      split at h
      · exact .inl ⟨by injection h with h; exact h.symm, by simp [he]⟩
      · cases h
    · rename_i he
      exact .inr ⟨he, by injection h with h; exact h.symm⟩

theorem grows_put (hk : own key)
    (h : put c f key document s = .ok s') : Grows own s s' := by
  rcases put_ok h with ⟨rfl, -⟩ | ⟨hn, rfl⟩
  · exact .refl own s'
  · refine ⟨rfl, ?_, ?_, id, fun _ => rfl⟩
    · intro k d hd
      have hne : k ≠ key := by
        rintro rfl
        simp [hn] at hd
      exact (Dict.get?_insert_of_ne _ _ hne).trans hd
    · intro k hno
      exact Dict.get?_insert_of_ne _ _ fun he => hno (he ▸ hk)

theorem put_retention (h : put c f key document s = .ok s') :
    s'.retention = s.retention := by
  rcases put_ok h with ⟨rfl, -⟩ | ⟨-, rfl⟩ <;> rfl

theorem put_holds (he : Exact s.objects key document)
    (h : put c f key document s = .ok s') : s'.objects.get? key = some document := by
  rcases put_ok h with ⟨rfl, hs⟩ | ⟨-, rfl⟩
  · obtain ⟨d, hd⟩ := Option.ne_none_iff_exists'.1 hs
    rw [hd, he d hd]
  · exact Dict.get?_insert_self _ _ _

/-! ## The shards -/

/-- The keys of `n` shards from index `i` on. -/
def keysFrom (inPartial : Bool) (i n : Nat) : List ShardKey :=
  (List.range' i n).map fun j => ⟨inPartial, j⟩

theorem keysFrom_succ (inPartial : Bool) (i n : Nat) :
    keysFrom inPartial i (n + 1) = ⟨inPartial, i⟩ :: keysFrom inPartial (i + 1) n := by
  simp [keysFrom, List.range'_succ]

theorem mem_keysFrom {i n : Nat} {k : ShardKey} :
    k ∈ keysFrom inPartial i n ↔ k.isPartial = inPartial ∧ i ≤ k.index ∧ k.index < i + n := by
  obtain ⟨b, j⟩ := k
  unfold keysFrom
  rw [List.mem_map]
  constructor
  · rintro ⟨x, hx, he⟩
    rw [List.mem_range'_1] at hx
    cases he
    exact ⟨rfl, hx⟩
  · rintro ⟨rfl, h⟩
    exact ⟨j, List.mem_range'_1.2 h, rfl⟩

theorem nodup_keysFrom (inPartial : Bool) (i n : Nat) : (keysFrom inPartial i n).Nodup := by
  refine List.Nodup.map ?_ (List.nodup_range' 1)
  intro x y h
  injection h

theorem forall₂_put {P : Dict ObjectKey B → ObjectKey → B → Prop} {i : Nat}
    (hP : ∀ o o' k d, o'.get? k = o.get? k → (P o' k d ↔ P o k d))
    (h : put c f (.shard ⟨inPartial, i⟩) document s = .ok s') (chunks : List (List U)) :
    List.Forall₂ (fun k us => P s'.objects (.shard k) (c.dumpUnits us))
        (keysFrom inPartial (i + 1) chunks.length) chunks ↔
      List.Forall₂ (fun k us => P s.objects (.shard k) (c.dumpUnits us))
        (keysFrom inPartial (i + 1) chunks.length) chunks := by
  have hsame : ∀ k ∈ keysFrom inPartial (i + 1) chunks.length,
      s'.objects.get? (.shard k) = s.objects.get? (.shard k) := by
    intro k hk
    have hg : Grows (fun k => k = .shard ⟨inPartial, i⟩) s s' := grows_put rfl h
    refine hg.otherObjects fun he => ?_
    injection he with he
    have := (mem_keysFrom.1 hk).2.1
    simp [he] at this
  rw [List.forall₂_iff_zip, List.forall₂_iff_zip]
  refine and_congr_right fun _ => ?_
  constructor
  · intro hall k us hm
    exact (hP _ _ _ _ (hsame k (List.of_mem_zip hm).1)).1 (hall hm)
  · intro hall k _ hm
    exact (hP _ _ _ _ (hsame k (List.of_mem_zip hm).1)).2 (hall hm)

theorem putShard_ok_iff {key : ShardKey} {us : List U} :
    (∃ b, putShard c f key us a = .ok b) ↔
      f.put (.shard key) = false ∧ Accepts c a.state.objects (.shard key) (c.dumpUnits us) := by
  rw [← put_ok_iff]
  unfold putShard
  cases put c f (.shard key) (c.dumpUnits us) a.state <;> simp

theorem putShard_ok {key : ShardKey} {us : List U} (h : putShard c f key us a = .ok b) :
    ∃ s, put c f (.shard key) (c.dumpUnits us) a.state = .ok s ∧ b = a.enter c s key us := by
  unfold putShard at h
  split at h
  · cases h
  · rename_i s hs
    exact ⟨s, hs, by injection h with h; exact h.symm⟩

theorem reaches_putShard {key : ShardKey} {us : List U} (hown : own (.shard key))
    (hw : writes (.shard key)) : Reaches own writes a (reached (putShard c f key us a)) := by
  cases h : putShard c f key us a with
  | error e =>
    unfold putShard at h
    split at h
    · injection h with h
      subst h
      exact .refl own writes a
    · cases h
  | ok b =>
    obtain ⟨s, hs, rfl⟩ := putShard_ok h
    refine ⟨grows_put hown hs, fun k hk => List.mem_append_left _ hk, ?_⟩
    intro k hk
    rcases List.mem_append.1 hk with hk | hk
    · exact .inl hk
    · rw [List.mem_singleton.1 hk]
      exact .inr hw

theorem reaches_putShards (chunks : List (List U)) (i : Nat)
    (hown : ∀ k ∈ keysFrom inPartial i chunks.length, own (.shard k))
    (hw : ∀ k ∈ keysFrom inPartial i chunks.length, writes (.shard k)) (a : Attempt B D) :
    Reaches own writes a (reached (putShards c f inPartial i chunks a)) := by
  induction chunks generalizing i a with
  | nil => exact .refl own writes a
  | cons _ _ ih =>
    rw [List.length_cons, keysFrom_succ, List.forall_mem_cons] at hown hw
    refine reached_bind Reaches.trans (reaches_putShard hown.1 hw.1) fun b _ => ?_
    exact ih (i + 1) hown.2 hw.2 b

theorem grows_putShards {chunks : List (List U)} {i : Nat}
    (h : putShards c f inPartial i chunks a = .ok b) :
    Grows (fun k => ∃ j, k = .shard j) a.state b.state := by
  have hr : Reaches (fun k => ∃ j, k = .shard j) (fun _ => True) a
      (reached (putShards c f inPartial i chunks a)) :=
    reaches_putShards chunks i (fun k _ => ⟨k, rfl⟩) (fun _ _ => trivial) a
  rw [h] at hr
  exact hr.grows

theorem putShards_accepts (chunks : List (List U)) (i : Nat)
    (h : putShards c f inPartial i chunks a = .ok b) :
    List.Forall₂ (fun k us => Accepts c a.state.objects (.shard k) (c.dumpUnits us))
      (keysFrom inPartial i chunks.length) chunks := by
  induction chunks generalizing i a with
  | nil => exact .nil
  | cons _ rest ih =>
    rw [List.length_cons, keysFrom_succ, List.forall₂_cons]
    obtain ⟨_, ha', hb⟩ := bind_eq_ok.1 h
    obtain ⟨s, hs, rfl⟩ := putShard_ok ha'
    have hP : ∀ (o o' : Dict ObjectKey B) k d, o'.get? k = o.get? k →
        (Accepts c o' k d ↔ Accepts c o k d) := fun o o' k d h => by unfold Accepts; rw [h]
    exact ⟨(put_ok_iff.1 ⟨s, hs⟩).2, (forall₂_put hP hs rest).1 (ih (i + 1) hb)⟩

theorem putShards_ok_iff (chunks : List (List U)) (i : Nat) (a : Attempt B D)
    (hf : ∀ k, f.put k = false) :
    (∃ b, putShards c f inPartial i chunks a = .ok b) ↔
      List.Forall₂ (fun k us => Accepts c a.state.objects (.shard k) (c.dumpUnits us))
        (keysFrom inPartial i chunks.length) chunks := by
  refine ⟨fun ⟨b, hb⟩ => putShards_accepts chunks i hb, fun h => ?_⟩
  induction chunks generalizing i a with
  | nil => exact ⟨a, rfl⟩
  | cons us rest ih =>
    rw [List.length_cons, keysFrom_succ, List.forall₂_cons] at h
    obtain ⟨_, ha'⟩ := (putShard_ok_iff (f := f)).2 ⟨hf _, h.1⟩
    obtain ⟨s, hs, rfl⟩ := putShard_ok ha'
    have hP : ∀ (o o' : Dict ObjectKey B) k d, o'.get? k = o.get? k →
        (Accepts c o' k d ↔ Accepts c o k d) := fun o o' k d h => by unfold Accepts; rw [h]
    obtain ⟨b, hb⟩ := ih (i + 1) (a.enter c s ⟨inPartial, i⟩ us) ((forall₂_put hP hs rest).2 h.2)
    exact ⟨b, bind_eq_ok.2 ⟨_, ha', hb⟩⟩

theorem putShards_manifest (chunks : List (List U)) (i : Nat)
    (h : putShards c f inPartial i chunks a = .ok b) : b.toManifest =
        ⟨a.shardKeys ++ keysFrom inPartial i chunks.length,
          a.shardSha256 ++ chunks.map fun us => c.sha256 (c.dumpUnits us),
          a.shardUnitCounts ++ chunks.map List.length⟩ ∧
      b.writtenKeys = a.writtenKeys ++ (keysFrom inPartial i chunks.length).map .shard ∧
      b.state.retention = a.state.retention := by
  induction chunks generalizing i a with
  | nil =>
    cases h
    simp [keysFrom]
  | cons _ _ ih =>
    obtain ⟨_, ha', hb⟩ := bind_eq_ok.1 h
    obtain ⟨s, hs, rfl⟩ := putShard_ok ha'
    obtain ⟨hm, hw, hr⟩ := ih (i + 1) hb
    rw [List.length_cons, keysFrom_succ]
    refine ⟨?_, ?_, hr.trans (put_retention hs)⟩
    · rw [hm]
      simp [Attempt.enter]
    · rw [hw]
      simp [Attempt.enter]

theorem putShards_holds (chunks : List (List U)) (i : Nat)
    (he : List.Forall₂ (fun k us => Exact a.state.objects (.shard k) (c.dumpUnits us))
      (keysFrom inPartial i chunks.length) chunks)
    (h : putShards c f inPartial i chunks a = .ok b) :
    List.Forall₂ (fun k us => b.state.objects.get? (.shard k) = some (c.dumpUnits us))
      (keysFrom inPartial i chunks.length) chunks := by
  induction chunks generalizing i a with
  | nil => simp [keysFrom]
  | cons _ rest ih =>
    rw [List.length_cons, keysFrom_succ, List.forall₂_cons] at he ⊢
    obtain ⟨_, ha', hb⟩ := bind_eq_ok.1 h
    obtain ⟨s, hs, rfl⟩ := putShard_ok ha'
    have hP : ∀ (o o' : Dict ObjectKey B) k d, o'.get? k = o.get? k →
        (Exact o' k d ↔ Exact o k d) := fun o o' k d h => by unfold Exact; rw [h]
    refine ⟨?_, ih (i + 1) ((forall₂_put hP hs rest).2 he.2) hb⟩
    exact (grows_putShards hb).objects (put_holds he.1 hs)

theorem putShards_first (us : List U) (rest : List (List U)) (inPartial : Bool) (i : Nat)
    (a : Attempt B D) :
    (f.put (.shard ⟨inPartial, i⟩) = false ∧
        Accepts c a.state.objects (.shard ⟨inPartial, i⟩) (c.dumpUnits us) ∧
        .shard ⟨inPartial, i⟩ ∈ (reached (putShards c f inPartial i (us :: rest) a)).writtenKeys) ∨
      (¬(f.put (.shard ⟨inPartial, i⟩) = false ∧
          Accepts c a.state.objects (.shard ⟨inPartial, i⟩) (c.dumpUnits us)) ∧
        ∃ e, putShards c f inPartial i (us :: rest) a = .error (e, a)) := by
  by_cases h : ∃ b, putShard c f ⟨inPartial, i⟩ us a = .ok b
  · obtain ⟨b, hb⟩ := h
    obtain ⟨hf, hacc⟩ := putShard_ok_iff.1 ⟨b, hb⟩
    refine .inl ⟨hf, hacc, ?_⟩
    have heq : putShards c f inPartial i (us :: rest) a = putShards c f inPartial
        (i + 1) rest b := by
      rw [putShards, hb]
      rfl
    rw [heq]
    have hr : Reaches (fun _ => True) (fun _ => True) b
        (reached (putShards c f inPartial (i + 1) rest b)) :=
      reaches_putShards rest (i + 1) (fun _ _ => trivial) (fun _ _ => trivial) b
    obtain ⟨s, -, rfl⟩ := putShard_ok hb
    exact hr.written _ (by simp [Attempt.enter])
  · refine .inr ⟨fun hacc => h (putShard_ok_iff.2 hacc), ?_⟩
    unfold putShards
    cases hp : putShard c f ⟨inPartial, i⟩ us a with
    | ok b => exact absurd ⟨b, hp⟩ h
    | error e =>
      unfold putShard at hp
      split at hp
      · rename_i err _
        injection hp with hp
        subst hp
        exact ⟨err, rfl⟩
      · cases hp

/-! ## The index document -/

/-- The previous reference does not have the index document of the call. -/
def OwnsIndex (previous : Option (Reference D)) (call : Call U E) : Bool :=
  previous.all fun p => p.objectKey ≠ some (resultKey call)

theorem putIndex_ok_iff : (∃ b, putIndex c previous call index a = .ok b) ↔
      call.faults.put (.result (resultKey call)) = false ∧
        Accepts c a.state.objects (.result (resultKey call)) (c.dumpEnvelope index) := by
  rw [← put_ok_iff]
  unfold putIndex
  cases put c call.faults (.result (resultKey call)) (c.dumpEnvelope index) a.state with
  | error e => simp
  | ok s =>
    split_ifs <;> simp

theorem putIndex_ok (h : putIndex c previous call index a = .ok b) :
    ∃ s, put c call.faults (.result (resultKey call)) (c.dumpEnvelope index) a.state = .ok s ∧
      b = { a with
            state := s
            writtenKeys := a.writtenKeys ++
              if OwnsIndex previous call then [.result (resultKey call)] else [] } := by
  unfold putIndex at h
  split at h
  · cases h
  · rename_i s hs
    refine ⟨s, hs, ?_⟩
    unfold OwnsIndex
    split_ifs at h ⊢ <;> injection h with h <;> simp [← h]

theorem reaches_putIndex (hown : own (.result (resultKey call)))
    (hw : OwnsIndex previous call → writes (.result (resultKey call))) :
    Reaches own writes a (reached (putIndex c previous call index a)) := by
  cases h : putIndex c previous call index a with
  | error e =>
    unfold putIndex at h
    split at h
    · injection h with h
      subst h
      exact .refl own writes a
    · split_ifs at h
  | ok b =>
    obtain ⟨s, hs, rfl⟩ := putIndex_ok h
    refine ⟨grows_put hown hs, fun k hk => List.mem_append_left _ hk, ?_⟩
    intro k hk
    rcases List.mem_append.1 hk with hk | hk
    · exact .inl hk
    · split_ifs at hk with ho
      · rw [List.mem_singleton.1 hk]
        exact .inr (hw ho)
      · exact absurd hk (by simp)

/-! ## The whole body -/

/-- The keys of the new shards. -/
def Plan.newKeys (p : Plan U E D) : List ShardKey :=
  keysFrom p.inPartial p.start p.chunks.length

/-- The manifest the body ends with. -/
def Plan.manifest (c : Codec U E B D) (p : Plan U E D) : Manifest D where
  shardKeys := p.shardKeys ++ p.newKeys
  shardSha256 := p.shardSha256 ++ p.chunks.map fun us => c.sha256 (c.dumpUnits us)
  shardUnitCounts := p.shardUnitCounts ++ p.chunks.map List.length

/-- The keys the body has written when it ends. -/
def Plan.written (p : Plan U E D) (previous : Option (Reference D)) (call : Call U E) :
    List ObjectKey :=
  p.newKeys.map .shard ++ if OwnsIndex previous call then [.result (resultKey call)] else []

/-- The keys a call may write. -/
def Plan.Writes (p : Plan U E D) (previous : Option (Reference D)) (call : Call U E)
    (k : ObjectKey) : Prop :=
  (∃ key ∈ p.newKeys, k = .shard key) ∨
    k = .result (resultKey call) ∧ OwnsIndex previous call = true

/-- The keys under which a call may leave something. -/
def Plan.Touches (p : Plan U E D) (v : Service E) (call : Call U E) (k : ObjectKey) : Prop :=
  (∃ key ∈ p.newKeys, k = .shard key) ∨ k = .result (resultKey call) ∨
    ∃ e ∈ sinkRecords v call, k = e.1

theorem sinkRecords_other {e : ObjectKey × RetentionRecord} (h : e ∈ sinkRecords v call) :
    ∃ name, e.1 = .other name := by
  unfold sinkRecords at h
  split at h
  · cases h
  · cases hs : call.sink with
    | none =>
      simp [hs] at h
    | some =>
      rw [hs] at h
      obtain ⟨name, -, rfl⟩ := List.mem_map.1 h
      exact ⟨name, rfl⟩

theorem nodup_sinkRecords : ((sinkRecords v call).map Prod.fst).Nodup := by
  unfold sinkRecords
  split
  · exact List.nodup_nil
  · cases call.sink with
    | none => exact List.nodup_nil
    | some sink =>
      simp only [Option.elim_some, retentionRecords, List.map_map]
      exact sink.nodup.map fun x y h => by simpa using h

omit [DecidableEq D] in
theorem nodup_written : (p.written previous call).Nodup := by
  unfold Plan.written
  rw [List.nodup_append]
  refine ⟨(nodup_keysFrom _ _ _).map fun x y h => by injection h, ?_, ?_⟩
  · split <;> simp
  · intro x hx y hy he
    obtain ⟨k, -, rfl⟩ := List.mem_map.1 hx
    split_ifs at hy
    · simp [List.mem_singleton.1 hy] at he
    · cases hy

theorem reaches_publish (hindex : own (.result (resultKey call)))
    (hw : OwnsIndex previous call → writes (.result (resultKey call)))
    (hsink : ∀ e ∈ sinkRecords v call, own e.1) (hwrites : ∀ k, writes k → own k) (a : Attempt B D)
    (ha : ∀ k ∈ a.writtenKeys, own k) :
    Reaches own writes a (reached (publish c v previous call index a)) := by
  have htrans := @Reaches.trans B D own writes
  have h₂ : Reaches own writes a (reached (putIndex c previous call index a)) :=
    reaches_putIndex hindex hw
  refine reached_bind htrans h₂ fun b₂ hb₂ => ?_
  rw [hb₂] at h₂
  refine reached_bind htrans ?_ fun b₃ hb₃ => ?_
  · unfold readOwners
    split <;> exact .refl _ _ b₂
  obtain rfl := readOwners_ok hb₃
  refine reached_bind htrans (reaches_trackAll _ ?_ b₃) fun b₄ _ => reaches_trackAll _ hsink b₄
  intro e he
  obtain ⟨k, hk, rfl⟩ := List.mem_map.1 he
  rcases h₂.writes k hk with hk | hk
  · exact ha k hk
  · exact hwrites k hk

theorem reaches_perform (s : State B D) :
    Reaches (p.Touches v call) (p.Writes previous call) ⟨p.toManifest, s, []⟩
      (reached (perform c v previous call p ⟨p.toManifest, s, []⟩)) := by
  have hwrites : ∀ k, p.Writes previous call k → p.Touches v call k := by
    rintro k (h | ⟨rfl, -⟩)
    · exact .inl h
    · exact .inr (.inl rfl)
  have h₁ : Reaches (p.Touches v call) (p.Writes previous call) ⟨p.toManifest, s, []⟩
      (reached (putShards c call.faults p.inPartial p.start p.chunks ⟨p.toManifest, s, []⟩)) :=
    reaches_putShards p.chunks p.start (fun k hk => .inl ⟨k, hk, rfl⟩)
      (fun k hk => .inl ⟨k, hk, rfl⟩) _
  refine reached_bind (@Reaches.trans B D _ _) h₁ fun b₁ hb₁ => ?_
  rw [hb₁] at h₁
  refine reaches_publish (.inr (.inl rfl)) (fun ho => .inr ⟨rfl, ho⟩)
    (fun e he => .inr (.inr ⟨e, he, rfl⟩)) hwrites b₁ fun k hk => ?_
  rcases h₁.writes k hk with hk | hk
  · cases hk
  · exact hwrites k hk

theorem mem_written_perform {k : ObjectKey} {a : Attempt B D}
    (h : k ∈ (reached (putShards c call.faults p.inPartial p.start p.chunks a)).writtenKeys) :
    k ∈ (reached (perform c v previous call p a)).writtenKeys := by
  unfold perform
  cases hb : putShards c call.faults p.inPartial p.start p.chunks a with
  | error e => rwa [hb] at h
  | ok b =>
    rw [hb] at h
    have hr : Reaches (fun _ => True) (fun _ => True) b
        (reached (publish c v previous call p.index b)) :=
      reaches_publish trivial (fun _ => trivial) (fun _ _ => trivial) (fun _ _ => trivial) b
        fun _ _ => trivial
    exact hr.written k h

/-- What a body that ended has done. -/
structure Performed (c : Codec U E B D) (v : Service E) (previous : Option (Reference D))
    (call : Call U E) (p : Plan U E D) (s : State B D) (b : Attempt B D) : Prop where
  manifest : b.toManifest = p.manifest c
  written : b.writtenKeys = p.written previous call
  rows : ∀ k ∈ p.written previous call, b.state.retention.get? k = some (resultRecord v)
  grows : Grows (p.Touches v call) s b.state
  acceptsShards : List.Forall₂ (fun k us => Accepts c s.objects (.shard k) (c.dumpUnits us))
    p.newKeys p.chunks
  acceptsIndex : Accepts c s.objects (.result (resultKey call)) (c.dumpEnvelope p.index)
  /-- The shards are there, when nothing else was. -/
  shards : List.Forall₂ (fun k us => Exact s.objects (.shard k) (c.dumpUnits us))
      p.newKeys p.chunks →
    List.Forall₂ (fun k us => b.state.objects.get? (.shard k) = some (c.dumpUnits us))
      p.newKeys p.chunks
  /-- The index document is there, when nothing else was. -/
  index : Exact s.objects (.result (resultKey call)) (c.dumpEnvelope p.index) →
    b.state.objects.get? (.result (resultKey call)) = some (c.dumpEnvelope p.index)

theorem perform_ok (h : perform c v previous call p ⟨p.toManifest, s, []⟩ = .ok b) :
    Performed c v previous call p s b := by
  have hreach : Reaches (p.Touches v call) (p.Writes previous call) ⟨p.toManifest, s, []⟩
      (reached (perform c v previous call p ⟨p.toManifest, s, []⟩)) := reaches_perform s
  rw [h] at hreach
  have hgrows := hreach.grows
  obtain ⟨b₁, h₁, h⟩ := bind_eq_ok.1 h
  obtain ⟨_, h₂, h⟩ := bind_eq_ok.1 h
  obtain ⟨b₃, h₃, h⟩ := bind_eq_ok.1 h
  obtain ⟨b₄, h₄, h₅⟩ := bind_eq_ok.1 h
  obtain rfl := readOwners_ok h₃
  obtain ⟨_, hw₁, _⟩ := putShards_manifest p.chunks p.start h₁
  obtain ⟨s₂, hs₂, hb₂⟩ := putIndex_ok h₂
  obtain ⟨hm₄, hw₄, ho₄, hrow₄⟩ := trackAll_ok _ h₄
  obtain ⟨hm₅, hw₅, ho₅, -⟩ := trackAll_ok _ h₅
  have hw : b₃.writtenKeys = p.written previous call := by
    rw [hb₂, hw₁]
    rfl
  have hobj : b.state.objects = s₂.objects := by
    rw [ho₅, ho₄, hb₂]
  have hsame : b₁.state.objects.get? (.result (resultKey call)) =
      s.objects.get? (.result (resultKey call)) := (grows_putShards h₁).otherObjects (by simp)
  have hacc : Accepts c s.objects (.result (resultKey call)) (c.dumpEnvelope p.index) := by
    have := (put_ok_iff.1 ⟨s₂, hs₂⟩).2
    unfold Accepts at this ⊢
    rwa [hsame] at this
  refine ⟨?_, by rw [hw₅, hw₄, hw], ?_, hgrows, putShards_accepts p.chunks p.start h₁, hacc, ?_, ?_⟩
  · rwa [hm₅, hm₄, hb₂]
  · intro k hk
    have hg : Grows (fun _ => True) b₄.state b.state := grows_trackAll (fun _ _ => trivial) h₅
    exact hg.rows (hrow₄ (k, resultRecord v) (List.mem_map.2 ⟨k, hw ▸ hk, rfl⟩))
  · intro he
    have hput : Grows (fun _ => True) b₁.state s₂ := grows_put trivial hs₂
    refine (putShards_holds p.chunks p.start he h₁).imp fun k us hk => ?_
    rw [hobj]
    exact hput.objects hk
  · intro _
    rw [hobj]
    refine put_holds ?_ hs₂
    unfold Exact
    rwa [hsame]

/-- Every put and every `track_object` of the call will be accepted. -/
structure Writable (c : Codec U E B D) (v : Service E) (s : State B D)
    (previous : Option (Reference D)) (call : Call U E) (p : Plan U E D) : Prop where
  shards : List.Forall₂ (fun k us => Accepts c s.objects (.shard k) (c.dumpUnits us))
    p.newKeys p.chunks
  index : Accepts c s.objects (.result (resultKey call)) (c.dumpEnvelope p.index)
  rows : ∀ k ∈ p.written previous call, Free v.store s.retention (k, resultRecord v)
  sink : ∀ e ∈ sinkRecords v call, Free v.store s.retention e

/-- No backend call of the `try` body fails on its own; the index update may. -/
structure Faults.Quiet (f : Faults) : Prop where
  getReference : f.getReference = false
  put : ∀ k, f.put k = false
  getAsset : f.getAsset = false
  getSource : f.getSource = false
  track : ∀ k, f.track k = false
  save : f.save = false

omit [DecidableEq D] in
theorem readOwners_quiet (hq : call.faults.Quiet) (a : Attempt B D) :
    readOwners v call.faults a = .ok a := by
  simp [readOwners, hq.getAsset, hq.getSource]

omit [DecidableEq D] in
theorem nodup_writtenRows :
    (((p.written previous call).map fun key => (key, resultRecord v)).map Prod.fst).Nodup := by
  simpa [Function.comp_def] using nodup_written

theorem index_of_putShards {b : Attempt B D}
    (h : putShards c call.faults p.inPartial p.start p.chunks ⟨p.toManifest, s, []⟩ = .ok b) :
    b.state.objects.get? (.result (resultKey call)) = s.objects.get? (.result (resultKey call)) :=
  (grows_putShards h).otherObjects (by simp)

theorem written_of_putIndex {b₁ b₂ : Attempt B D}
    (h₁ : putShards c call.faults p.inPartial p.start p.chunks ⟨p.toManifest, s, []⟩ = .ok b₁)
    (h₂ : putIndex c previous call p.index b₁ = .ok b₂) :
    b₂.writtenKeys = p.written previous call ∧ b₂.state.retention = s.retention := by
  obtain ⟨-, hw, hr⟩ := putShards_manifest p.chunks p.start h₁
  obtain ⟨_, hs₂, hb₂⟩ := putIndex_ok h₂
  rw [hb₂, hw]
  exact ⟨rfl, (put_retention hs₂).trans hr⟩

omit [DecidableEq D] in
theorem sink_free_iff {b b' : Attempt B D}
    (h : trackAll v.store call.faults ((p.written previous call).map fun key =>
      (key, resultRecord v)) b = .ok b') :
    (∀ e ∈ sinkRecords v call, Free v.store b'.state.retention e) ↔
      ∀ e ∈ sinkRecords v call, Free v.store b.state.retention e := by
  have hg : Grows (fun k => ∀ name, k ≠ .other name) b.state b'.state := by
    refine grows_trackAll ?_ h
    intro e he _
    obtain ⟨k, hk, rfl⟩ := List.mem_map.1 he
    rintro rfl
    rcases List.mem_append.1 hk with hk | hk
    · simp at hk
    · split_ifs at hk <;> simp at hk
  have hsame : ∀ e ∈ sinkRecords v call,
      (Free v.store b'.state.retention e ↔ Free v.store b.state.retention e) := by
    intro e he
    obtain ⟨name, hname⟩ := sinkRecords_other he
    unfold Free
    rw [hg.otherRows fun h => h name hname]
  exact forall₂_congr hsame

theorem perform_ok_iff (hq : call.faults.Quiet) :
    (∃ b, perform c v previous call p ⟨p.toManifest, s, []⟩ = .ok b) ↔
      Writable c v s previous call p := by
  constructor
  · rintro ⟨b, h⟩
    have hperf := perform_ok h
    obtain ⟨_, h₁, h⟩ := bind_eq_ok.1 h
    obtain ⟨_, h₂, h⟩ := bind_eq_ok.1 h
    obtain ⟨b₃, h₃, h⟩ := bind_eq_ok.1 h
    obtain ⟨b₄, h₄, h₅⟩ := bind_eq_ok.1 h
    obtain rfl := readOwners_ok h₃
    obtain ⟨hw, hret⟩ := written_of_putIndex h₁ h₂
    rw [hw] at h₄
    have hrows := (trackAll_ok_iff _ nodup_writtenRows hq.track b₃).1 ⟨b₄, h₄⟩
    have hsinkrows := (trackAll_ok_iff _ nodup_sinkRecords hq.track b₄).1 ⟨b, h₅⟩
    rw [sink_free_iff h₄, hret] at hsinkrows
    rw [hret] at hrows
    exact ⟨hperf.acceptsShards, hperf.acceptsIndex,
      fun k hk => hrows _ (List.mem_map.2 ⟨k, hk, rfl⟩), hsinkrows⟩
  · rintro ⟨hshards, _, hrows, hsinkrows⟩
    obtain ⟨b₁, h₁⟩ := (putShards_ok_iff p.chunks p.start ⟨p.toManifest, s, []⟩ hq.put).2 hshards
    obtain ⟨b₂, h₂⟩ : ∃ b₂, putIndex c previous call p.index b₁ = .ok b₂ := by
      refine putIndex_ok_iff.2 ⟨hq.put _, ?_⟩
      unfold Accepts
      rwa [index_of_putShards h₁]
    obtain ⟨hw, hret⟩ := written_of_putIndex h₁ h₂
    obtain ⟨b₄, h₄⟩ := (trackAll_ok_iff _ nodup_writtenRows hq.track b₂).2 (by
      rw [hret]
      intro e he
      obtain ⟨k, hk, rfl⟩ := List.mem_map.1 he
      exact hrows k hk)
    obtain ⟨b₅, h₅⟩ := (trackAll_ok_iff _ nodup_sinkRecords hq.track b₄).2
      ((sink_free_iff h₄).2 (by rw [hret]; exact hsinkrows))
    refine ⟨b₅, bind_eq_ok.2 ⟨b₁, h₁, bind_eq_ok.2 ⟨b₂, h₂, bind_eq_ok.2
      ⟨b₂, readOwners_quiet hq b₂, ?_⟩⟩⟩⟩
    exact bind_eq_ok.2 ⟨b₄, by rw [hw]; exact h₄, h₅⟩

end Scenara.Result
