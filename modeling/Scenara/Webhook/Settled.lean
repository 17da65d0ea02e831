import Scenara.Core.Parties
import Scenara.Webhook.Model

/-!
# Deliveries settle once, under the last claim

* `Settles`: what a later state promises about each delivery.
* `Inv`: claims are distinct, and the row that the last claimant holds is the stored one.
-/

namespace Scenara.Webhook

open Scenara.Core

variable {ids : Fresh String} {s s' : System} {store store' : Store} {w w' : Worker} {i : Nat}

/-! ## What is promised -/

/-- What was settled stays so, no attempt is uncounted, and no outcome replaces that of a later
claim. -/
def Settles (s s' : System) : Prop :=
  ∀ k d d', s.store.deliveries.get? k = some d → s'.store.deliveries.get? k = some d' →
    (d.status.Settled → d'.status.Settled) ∧ d.attempts ≤ d'.attempts ∧ s.recorded k ≤ s'.recorded k

/-- An outcome is saved only while the worker's claim of the row is the last one. -/
def Current (s : System) : Act → Prop
  | .save i _ _ => ∀ w ∈ s.workers[i]?, ∀ row ∈ w.rows.head?, s.lastClaim row.key = w.claim
  | _ => True

instance (s : System) (act : Act) : Decidable (Current s act) := by
  cases act with
  | save i _ _ =>
    exact inferInstanceAs
      (Decidable (∀ w ∈ s.workers[i]?, ∀ row ∈ w.rows.head?, s.lastClaim row.key = w.claim))
  | _ => exact inferInstanceAs (Decidable True)

/-! ## What the store does -/

/-- The id was drawn. -/
def Store.Drawn (ids : Fresh String) (store : Store) (k : Key) : Prop :=
  ∃ n < store.drawn, k.id = ids.draw n

/-- A delivery is new, or stays as it is. -/
structure Extends (ids : Fresh String) (store store' : Store) : Prop where
  drawn : ∀ k, store.Drawn ids k → store'.Drawn ids k
  kept : ∀ k d', store'.deliveries.get? k = some d' →
    store.deliveries.get? k = some d' ∨ ¬store.Drawn ids k ∧ store'.Drawn ids k

theorem Extends.refl (store : Store) : Extends ids store store :=
  ⟨fun _ h => h, fun _ _ h => .inl h⟩

theorem Extends.trans {a b c : Store} (hab : Extends ids a b) (hbc : Extends ids b c) :
    Extends ids a c where
  drawn k h := hbc.drawn k (hab.drawn k h)
  kept k d h := by
    rcases hbc.kept k d h with h | ⟨hnew, hdrawn⟩
    · exact (hab.kept k d h).imp_right fun h => ⟨h.1, hbc.drawn k h.2⟩
    · exact .inr ⟨fun hk => hnew (hab.drawn k hk), hdrawn⟩

theorem Store.get?_put (d : WebhookDeliveryRecord) (k : Key) :
    (store.put d).deliveries.get? k = if k = d.key then some d else store.deliveries.get? k :=
  Dict.get?_insert _ _ _ _

theorem extends_enqueue (scope : Release.Scope) (eventType : String) (createdAt : ℚ) :
    Extends ids store (store.enqueueWebhookEvent ids scope eventType createdAt) := by
  refine List.foldlRecOn (motive := fun st => Extends ids store st) _ _ (.refl store)
    fun st hst endpoint _ => ?_
  split
  · refine hst.trans ⟨fun k ⟨n, hn, hk⟩ => ⟨n, Nat.lt_succ_of_lt hn, hk⟩, fun k d h => ?_⟩
    rw [show Dict.get? _ k = _ from Store.get?_put _ k] at h
    split at h
    · rename_i hk
      have hid : k.id = ids.draw st.drawn := congrArg Key.id hk
      refine .inr ⟨fun ⟨n, hn, hdraw⟩ => ?_, st.drawn, Nat.lt_succ_self _, hid⟩
      exact hn.ne (ids.injective (hdraw.symm.trans hid))
    · exact .inl h
  · exact hst

theorem extends_delete (k : Key) : Extends ids store (store.deleteWebhookSubscription k) where
  drawn _ h := h
  kept a d h := by
    unfold Store.deleteWebhookSubscription at h
    rw [Dict.get?_filter, Option.filter_eq_some_iff] at h
    exact .inl h.1

theorem extends_create (endpoint : WebhookSubscription) :
    Extends ids store (store.createWebhookSubscription endpoint) := by
  unfold Store.createWebhookSubscription
  split
  · exact .refl store
  · exact ⟨fun _ h => h, fun _ _ h => .inl h⟩

/-! ## Claims -/

theorem mem_claimed {now leaseUntil : ℚ} {limit : Nat} {locked : List Key}
    {row : WebhookDeliveryRecord} (h : row ∈ store.claimed now leaseUntil limit locked) :
    ∃ d, store.deliveries.get? d.key = some d ∧ d.status.Open ∧ row = d.leased now leaseUntil := by
  obtain ⟨d, hd, rfl⟩ := List.mem_map.1 h
  have hdue := (List.perm_insertionSort _ _).mem_iff.1 (List.mem_of_mem_take hd)
  obtain ⟨hmem, hopen⟩ := List.mem_filter.1 hdue
  obtain ⟨k, hk⟩ := (Dict.mem_values _ _).1 hmem
  refine ⟨d, ?_, (decide_eq_true_iff.1 hopen).1, rfl⟩
  rwa [store.keyed hk]

theorem nodup_keys (store : Store) : (store.deliveries.values.map (·.key)).Nodup := by
  have hkeys : store.deliveries.values.map (·.key) = store.deliveries.entries.map Prod.fst := by
    unfold Dict.values
    rw [List.map_map]
    exact List.map_congr_left fun e he => store.keyed ((Dict.mem_entries _ _ _).1 he)
  rw [hkeys]
  exact store.deliveries.nodup

theorem nodup_claimed (store : Store) (now leaseUntil : ℚ) (limit : Nat) (locked : List Key) :
    ((store.claimed now leaseUntil limit locked).map (·.key)).Nodup := by
  have hdue : ((store.due now locked).map (·.key)).Nodup :=
    ((List.perm_insertionSort _ _).map _).nodup_iff.2
      ((List.filter_sublist.map _).nodup (nodup_keys store))
  unfold Store.claimed
  rw [List.map_map]
  exact ((List.take_sublist _ _).map _).nodup hdue

theorem get?_foldl_put {rows : List WebhookDeliveryRecord} (hnodup : (rows.map (·.key)).Nodup)
    (store : Store) (k : Key) (d : WebhookDeliveryRecord) :
    (rows.foldl Store.put store).deliveries.get? k = some d ↔
      d ∈ rows ∧ d.key = k ∨ k ∉ rows.map (·.key) ∧ store.deliveries.get? k = some d := by
  induction rows generalizing store with
  | nil => simp
  | cons row rows ih =>
    rw [List.map_cons, List.nodup_cons] at hnodup
    rw [List.foldl_cons, ih hnodup.2, Store.get?_put, List.mem_cons, List.map_cons, List.mem_cons]
    by_cases hk : k = row.key
    · have hrows : d ∈ rows → d.key ≠ k := fun hd hdk =>
        hnodup.1 (List.mem_map.2 ⟨d, hd, hdk.trans hk⟩)
      rw [if_pos hk, Option.some.injEq]
      constructor
      · rintro (⟨hd, hdk⟩ | ⟨-, rfl⟩)
        · exact absurd hdk (hrows hd)
        · exact .inl ⟨.inl rfl, hk.symm⟩
      · rintro (⟨rfl | hd, hdk⟩ | ⟨hne, -⟩)
        · exact .inr ⟨hk ▸ hnodup.1, rfl⟩
        · exact absurd hdk (hrows hd)
        · exact absurd (.inl hk) hne
    · rw [if_neg hk]
      constructor
      · rintro (⟨hd, hdk⟩ | ⟨hne, hget⟩)
        · exact .inl ⟨.inr hd, hdk⟩
        · exact .inr ⟨not_or.2 ⟨hk, hne⟩, hget⟩
      · rintro (⟨rfl | hd, hdk⟩ | ⟨hne, hget⟩)
        · exact absurd hdk.symm hk
        · exact .inl ⟨hd, hdk⟩
        · exact .inr ⟨(not_or.1 hne).2, hget⟩

/-! ## Workers -/

theorem read_spec (h : w.read store = some w') : w'.claim = w.claim ∧ w'.rows = w.rows := by
  unfold Worker.read at h
  split at h
  · cases h
    exact ⟨rfl, rfl⟩
  · cases h

theorem send_spec {sent : Sent} (h : w.send sent = some w') :
    w'.claim = w.claim ∧ w'.rows = w.rows := by
  unfold Worker.send at h
  split at h <;> cases h <;> exact ⟨rfl, rfl⟩

theorem copyToSave_spec {row copy : WebhookDeliveryRecord} {retryFrom now : ℚ} {phase : Phase}
    (h : copyToSave row retryFrom now phase = some copy) :
    copy.key = row.key ∧ copy.attempts = row.attempts + 1 := by
  cases phase <;> cases h <;> exact ⟨rfl, rfl⟩

@[simp] theorem afterSave_claim (w : Worker) (stored : Bool) :
    (w.afterSave stored).claim = w.claim := by
  unfold Worker.afterSave
  split <;> rfl

theorem afterSave_rows (w : Worker) (stored : Bool) : (w.afterSave stored).rows.Sublist w.rows := by
  unfold Worker.afterSave
  split
  case h_1 | h_2 | h_3 => exact List.tail_sublist _
  all_goals exact List.Sublist.refl _

theorem afterSave_stored {row copy : WebhookDeliveryRecord} {retryFrom now : ℚ}
    (h : copyToSave row retryFrom now w.phase = some copy) :
    (w.afterSave true).rows = w.rows.tail := by
  unfold Worker.afterSave
  cases hphase : w.phase with
  | unavailable | succeeded | failed => rfl
  | reading | sending | raised =>
    rw [hphase] at h
    cases h

/-! ## The invariant -/

/-- What a worker holds: drawn, and the stored row while its claim is the last one. -/
def Held (ids : Fresh String) (s : System) (w : Worker) : Prop :=
  (w.rows.map (·.key)).Nodup ∧ ∀ row ∈ w.rows, s.store.Drawn ids row.key ∧
    (s.lastClaim row.key = w.claim →
      row.status = .delivering ∧ ∀ d, s.store.deliveries.get? row.key = some d → d = row)

/-- No two workers have the same claim. -/
def Distinct (workers : List Worker) : Prop :=
  ∀ (i j : Nat) (w w' : Worker), workers[i]? = some w → workers[j]? = some w' → w.claim = w'.claim →
    i = j

/-- What every `Current` step keeps. -/
structure Inv (ids : Fresh String) (s : System) : Prop where
  recorded : ∀ k, s.recorded k ≤ s.lastClaim k
  last : ∀ k, s.lastClaim k ≤ s.claims
  bound : ∀ w ∈ s.workers, w.claim ≤ s.claims
  distinct : Distinct s.workers
  held : ∀ w ∈ s.workers, Held ids s w
  drawn : ∀ k d, s.store.deliveries.get? k = some d → s.store.Drawn ids k

/-- What a later state keeps of an earlier one. -/
structure Later (ids : Fresh String) (s s' : System) : Prop where
  drawn : ∀ k, s.store.Drawn ids k → s'.store.Drawn ids k
  kept : ∀ k d', s.store.Drawn ids k → s'.store.deliveries.get? k = some d' →
    ∃ d, s.store.deliveries.get? k = some d ∧ (d.status.Settled → d'.status.Settled) ∧
      d.attempts ≤ d'.attempts
  recorded : ∀ k, s.recorded k ≤ s'.recorded k

theorem later_workers (s : System) (workers : List Worker) :
    Later ids s { s with workers := workers } :=
  ⟨fun _ h => h, fun _ d _ h => ⟨d, h, id, le_rfl⟩, fun _ => le_rfl⟩

theorem Later.trans {a b c : System} (hab : Later ids a b) (hbc : Later ids b c) :
    Later ids a c where
  drawn k h := hbc.drawn k (hab.drawn k h)
  kept k d'' hk hd'' := by
    obtain ⟨d', hd', hsettled', hattempts'⟩ := hbc.kept k d'' (hab.drawn k hk) hd''
    obtain ⟨d, hd, hsettled, hattempts⟩ := hab.kept k d' hk hd'
    exact ⟨d, hd, hsettled' ∘ hsettled, hattempts.trans hattempts'⟩
  recorded k := (hab.recorded k).trans (hbc.recorded k)

theorem Later.settles (hs : Inv ids s) (h : Later ids s s') : Settles s s' := by
  intro k d d' hd hd'
  obtain ⟨e, he, hsettled, hattempts⟩ := h.kept k d' (hs.drawn k d hd) hd'
  rw [hd] at he
  cases he
  exact ⟨hsettled, hattempts, h.recorded k⟩

theorem inv_extends (hs : Inv ids s) (h : Extends ids s.store store) :
    Inv ids { s with store := store } ∧ Later ids s { s with store := store } := by
  have hkept : ∀ k d, s.store.Drawn ids k → store.deliveries.get? k = some d →
      s.store.deliveries.get? k = some d := fun k d hk hd =>
    (h.kept k d hd).resolve_right fun hnew => hnew.1 hk
  constructor
  · refine ⟨hs.recorded, hs.last, hs.bound, hs.distinct, fun w hw => ?_, fun k d hd => ?_⟩
    · refine ⟨(hs.held w hw).1, fun row hrow => ?_⟩
      obtain ⟨hdrawn, hlast⟩ := (hs.held w hw).2 row hrow
      exact ⟨h.drawn _ hdrawn, fun hclaim => ⟨(hlast hclaim).1, fun d hd =>
        (hlast hclaim).2 d (hkept _ d hdrawn hd)⟩⟩
    · exact (h.kept k d hd).elim (fun hd => h.drawn k (hs.drawn k d hd)) And.right
  · exact ⟨h.drawn, fun k d hk hd => ⟨d, hkept k d hk hd, id, le_rfl⟩, fun _ => le_rfl⟩

theorem distinct_set {workers : List Worker} (hd : Distinct workers) (hw : workers[i]? = some w)
    (hclaim : w'.claim = w.claim) : Distinct (workers.set i w') := by
  have hold : ∀ (j : Nat) (v : Worker), (workers.set i w')[j]? = some v →
      ∃ u, workers[j]? = some u ∧ u.claim = v.claim := by
    intro j v hv
    rcases Parties.getElem?_set_cases hv with ⟨rfl, rfl⟩ | ⟨-, hv⟩
    · exact ⟨w, hw, hclaim.symm⟩
    · exact ⟨v, hv, rfl⟩
  intro j k v v' hv hv' heq
  obtain ⟨u, hu, huv⟩ := hold j v hv
  obtain ⟨u', hu', huv'⟩ := hold k v' hv'
  exact hd j k u u' hu hu' (huv.trans (heq.trans huv'.symm))

theorem distinct_append {workers : List Worker} (hd : Distinct workers)
    (hnew : ∀ v ∈ workers, v.claim ≠ w.claim) : Distinct (workers ++ [w]) := by
  intro j k v v' hv hv' heq
  rcases Parties.getElem?_append_cases hv with ⟨rfl, rfl⟩ | hold <;>
    rcases Parties.getElem?_append_cases hv' with ⟨rfl, rfl⟩ | hold'
  · rfl
  · exact absurd heq.symm (hnew v' (List.mem_of_getElem? hold'))
  · exact absurd heq (hnew v (List.mem_of_getElem? hold))
  · exact hd j k v v' hold hold' heq

theorem inv_worker (hs : Inv ids s) (hw : s.workers[i]? = some w) (hclaim : w'.claim = w.claim)
    (hrows : w'.rows.Sublist w.rows) : Inv ids { s with workers := s.workers.set i w' } := by
  have hmem := List.mem_of_getElem? hw
  refine ⟨hs.recorded, hs.last, fun v hv => ?_, distinct_set hs.distinct hw hclaim, fun v hv => ?_,
    hs.drawn⟩
  · rcases List.mem_or_eq_of_mem_set hv with hv | rfl
    · exact hs.bound v hv
    · exact hclaim ▸ hs.bound w hmem
  · rcases List.mem_or_eq_of_mem_set hv with hv | rfl
    · exact hs.held v hv
    · refine ⟨(hrows.map _).nodup (hs.held w hmem).1, fun row hrow => ?_⟩
      rw [hclaim]
      exact (hs.held w hmem).2 row (hrows.subset hrow)

/-! ## A claim -/

section Claim

variable {now leaseSeconds leaseUntil : ℚ} {limit : Nat} {locked : List Key}

theorem get?_claim {k : Key} {d : WebhookDeliveryRecord} :
    (store.claimWebhookDeliveries now leaseUntil limit locked).deliveries.get? k = some d ↔
      d ∈ store.claimed now leaseUntil limit locked ∧ d.key = k ∨
      k ∉ (store.claimed now leaseUntil limit locked).map (·.key) ∧
        store.deliveries.get? k = some d :=
  get?_foldl_put (nodup_claimed store now leaseUntil limit locked) store k d

theorem drawn_claim {k : Key} :
    (store.claimWebhookDeliveries now leaseUntil limit locked).Drawn ids k ↔ store.Drawn ids k := by
  have hdrawn : ∀ (rows : List WebhookDeliveryRecord) (store : Store),
      (rows.foldl Store.put store).drawn = store.drawn := by
    intro rows
    induction rows with
    | nil => exact fun _ => rfl
    | cons row _ ih => exact fun store => ih (store.put row)
  unfold Store.Drawn Store.claimWebhookDeliveries
  rw [hdrawn]

theorem Held.claim (h : Held ids s w) (hold : w.claim ≠ s.claims + 1) :
    Held ids (s.claim now leaseSeconds limit locked) w := by
  refine ⟨h.1, fun row hrow => ?_⟩
  obtain ⟨hdrawn, hlast⟩ := h.2 row hrow
  refine ⟨drawn_claim.2 hdrawn, fun hclaim => ?_⟩
  have hout : row.key ∉ (s.store.claimed now (now + leaseSeconds) limit locked).map (·.key) :=
    fun hin => by
      rw [show (s.claim now leaseSeconds limit locked).lastClaim row.key = _ from if_pos hin]
        at hclaim
      exact hold hclaim.symm
  rw [show (s.claim now leaseSeconds limit locked).lastClaim row.key = _ from if_neg hout]
    at hclaim
  refine ⟨(hlast hclaim).1, fun d hd => ?_⟩
  rcases get?_claim.1 hd with ⟨hd, hdk⟩ | ⟨-, hd⟩
  · exact absurd (List.mem_map.2 ⟨d, hd, hdk⟩) hout
  · exact (hlast hclaim).2 d hd

theorem held_claimed (hs : Inv ids s)
    (hrows : w.rows = s.store.claimed now (now + leaseSeconds) limit locked) :
    Held ids (s.claim now leaseSeconds limit locked) w := by
  rw [Held, hrows]
  refine ⟨nodup_claimed _ _ _ _ _, fun row hrow => ?_⟩
  obtain ⟨d, hd, -, rfl⟩ := mem_claimed hrow
  refine ⟨drawn_claim.2 (hs.drawn _ d hd), fun _ => ⟨rfl, fun e he => ?_⟩⟩
  rcases get?_claim.1 he with ⟨he, hek⟩ | ⟨hout, -⟩
  · exact List.inj_on_of_nodup_map (nodup_claimed _ _ _ _ _) he hrow hek
  · exact absurd (List.mem_map.2 ⟨_, hrow, rfl⟩) hout

theorem later_claim (s : System) : Later ids s (s.claim now leaseSeconds limit locked) := by
  refine ⟨fun k hk => drawn_claim.2 hk, fun k d' hk hd' => ?_, fun k => le_rfl⟩
  rcases get?_claim.1 hd' with ⟨hd, rfl⟩ | ⟨-, hd⟩
  · obtain ⟨d, hget, hopen, hleased⟩ := mem_claimed hd
    rw [hleased]
    exact ⟨d, hget, fun hsettled => absurd hsettled ((d.status.open_iff).1 hopen),
      (WebhookDeliveryRecord.leased_attempts _ _ _).ge⟩
  · exact ⟨d', hd, id, le_rfl⟩

theorem inv_claim (hs : Inv ids s) : Inv ids (s.claim now leaseSeconds limit locked) := by
  have hold : ∀ v ∈ s.workers, v.claim ≠ s.claims + 1 := fun v hv =>
    (Nat.lt_succ_of_le (hs.bound v hv)).ne
  refine ⟨fun k => ?_, fun k => ?_, fun v hv => ?_, distinct_append hs.distinct hold,
    fun v hv => ?_, fun k d hd => ?_⟩
  · show s.recorded k ≤ if _ then s.claims + 1 else s.lastClaim k
    split
    · exact ((hs.recorded k).trans (hs.last k)).trans (Nat.le_succ _)
    · exact hs.recorded k
  · show (if _ then s.claims + 1 else s.lastClaim k) ≤ s.claims + 1
    split
    · exact le_rfl
    · exact (hs.last k).trans (Nat.le_succ _)
  · rcases Parties.mem_snoc.1 hv with hv | rfl
    · exact (hs.bound v hv).trans (Nat.le_succ _)
    · exact le_rfl
  · rcases Parties.mem_snoc.1 hv with hv | rfl
    · exact (hs.held v hv).claim (hold v hv)
    · exact held_claimed hs rfl
  · rcases get?_claim.1 hd with ⟨hin, rfl⟩ | ⟨-, hd⟩
    · obtain ⟨e, he, -, rfl⟩ := mem_claimed hin
      exact drawn_claim.2 (hs.drawn _ e he)
    · exact drawn_claim.2 (hs.drawn k d hd)

end Claim

/-! ## An outcome -/

section Save

variable {row copy : WebhookDeliveryRecord} {retryFrom now : ℚ}

theorem get?_put_copy (hkey : copy.key = row.key) {k : Key} {e : WebhookDeliveryRecord}
    (he : (store.put copy).deliveries.get? k = some e) :
    k = row.key ∧ e = copy ∨ k ≠ row.key ∧ store.deliveries.get? k = some e := by
  rw [Store.get?_put, hkey] at he
  split at he
  · exact .inl ⟨‹_›, (Option.some.inj he).symm⟩
  · exact .inr ⟨‹_›, he⟩

theorem unheld_save (hs : Inv ids s) (hw : s.workers[i]? = some w) (hrow : w.rows.head? = some row)
    (hcopy : copyToSave row retryFrom now w.phase = some copy)
    (hcurrent : s.lastClaim row.key = w.claim) {v : Worker}
    (hv : v ∈ s.workers.set i (w.afterSave true)) :
    ∃ u ∈ s.workers, v.claim = u.claim ∧ v.rows.Sublist u.rows ∧
      ∀ r ∈ v.rows, s.lastClaim r.key = v.claim → r.key ≠ row.key := by
  have hmem := List.mem_of_getElem? hw
  obtain ⟨rest, hrows⟩ : ∃ rest, w.rows = row :: rest := List.head?_eq_some_iff.1 hrow
  obtain ⟨j, hj⟩ := List.mem_iff_getElem?.1 hv
  rcases Parties.getElem?_set_cases hj with ⟨-, rfl⟩ | ⟨hij, hj⟩
  · refine ⟨w, hmem, afterSave_claim w true, afterSave_rows w true, fun r hr _ hrk => ?_⟩
    have hnodup := (hs.held w hmem).1
    rw [afterSave_stored hcopy, hrows, List.tail_cons] at hr
    rw [hrows, List.map_cons, List.nodup_cons] at hnodup
    exact hnodup.1 (List.mem_map.2 ⟨r, hr, hrk⟩)
  · refine ⟨v, List.mem_of_getElem? hj, rfl, List.Sublist.refl _, fun r _ hclaim hrk => ?_⟩
    exact hij (hs.distinct i j w v hw hj (hcurrent.symm.trans (hrk ▸ hclaim))).symm

theorem later_save (hs : Inv ids s) (hcopy : copyToSave row retryFrom now w.phase = some copy)
    (hcurrent : s.lastClaim row.key = w.claim) (hstatus : row.status = .delivering)
    (hget : s.store.deliveries.get? row.key = some row) :
    Later ids s ⟨s.store.put copy, s.workers.set i (w.afterSave true), s.claims, s.lastClaim,
      fun k => if k = row.key then w.claim else s.recorded k⟩ := by
  obtain ⟨hkey, _⟩ := copyToSave_spec hcopy
  refine ⟨fun _ h => h, fun k e _ he => ?_, fun k => ?_⟩
  · rcases get?_put_copy hkey he with ⟨rfl, rfl⟩ | ⟨-, he⟩
    · refine ⟨row, hget, fun hsettled => ?_, by omega⟩
      rw [hstatus] at hsettled
      exact absurd hsettled (by decide)
    · exact ⟨e, he, id, le_rfl⟩
  · show s.recorded k ≤ if k = row.key then w.claim else s.recorded k
    split
    · rename_i hk
      rw [hk, ← hcurrent]
      exact hs.recorded row.key
    · exact le_rfl

theorem inv_save (hs : Inv ids s) (hw : s.workers[i]? = some w) (hrow : w.rows.head? = some row)
    (hcopy : copyToSave row retryFrom now w.phase = some copy)
    (hcurrent : s.lastClaim row.key = w.claim) :
    Inv ids (s.save i w copy) ∧ Later ids s (s.save i w copy) := by
  have hmem := List.mem_of_getElem? hw
  obtain ⟨hkey, -⟩ := copyToSave_spec hcopy
  obtain ⟨hdrawn, hlast⟩ := (hs.held w hmem).2 row (List.mem_of_mem_head? hrow)
  obtain ⟨hstatus, hstored⟩ := hlast hcurrent
  unfold System.save Store.saveWebhookDelivery
  rw [hkey]
  cases hget : s.store.deliveries.get? row.key with
  | none => exact ⟨inv_worker hs hw (afterSave_claim w false) (afterSave_rows w false),
      later_workers s _⟩
  | some d =>
    obtain rfl := hstored d hget
    refine ⟨⟨fun k => ?_, hs.last, fun v hv => ?_,
      distinct_set hs.distinct hw (afterSave_claim w true),
      fun v hv => ?_, fun k e he => ?_⟩, later_save hs hcopy hcurrent hstatus hget⟩
    · show (if k = d.key then w.claim else s.recorded k) ≤ s.lastClaim k
      split
      · rename_i hk
        rw [hk, hcurrent]
      · exact hs.recorded k
    · rcases List.mem_or_eq_of_mem_set hv with hv | rfl
      · exact hs.bound v hv
      · rw [afterSave_claim]
        exact hs.bound w hmem
    · obtain ⟨u, hu, hclaim, hsub, hne⟩ := unheld_save hs hw hrow hcopy hcurrent hv
      refine ⟨(hsub.map _).nodup (hs.held u hu).1, fun r hr => ?_⟩
      obtain ⟨hrdrawn, hrlast⟩ := (hs.held u hu).2 r (hsub.subset hr)
      refine ⟨hrdrawn, fun hrclaim => ?_⟩
      obtain ⟨hdelivering, hsame⟩ := hrlast (hrclaim.trans hclaim)
      refine ⟨hdelivering, fun e he => ?_⟩
      exact hsame e ((get?_put_copy hkey he).resolve_left fun h => hne r hr hrclaim h.1).2
    · rcases get?_put_copy hkey he with ⟨rfl, -⟩ | ⟨-, he⟩
      · exact hdrawn
      · exact hs.drawn k e he

end Save

theorem later_step (hs : Inv ids s) {act : Act} (hcurrent : Current s act)
    (h : step ids s act = some s') : Inv ids s' ∧ Later ids s s' := by
  have hquiet : ∀ {i : Nat} {w w' : Worker}, s.workers[i]? = some w → w'.claim = w.claim →
      w'.rows = w.rows → Inv ids { s with workers := s.workers.set i w' } ∧
        Later ids s { s with workers := s.workers.set i w' } := fun hw hclaim hrows =>
    ⟨inv_worker hs hw hclaim (hrows ▸ List.Sublist.refl _), later_workers s _⟩
  cases act with
  | emit scope eventType createdAt =>
    cases h
    exact inv_extends hs (extends_enqueue scope eventType createdAt)
  | subscribe endpoint =>
    cases h
    exact inv_extends hs (extends_create endpoint)
  | unsubscribe k =>
    cases h
    exact inv_extends hs (extends_delete k)
  | claim now leaseSeconds limit locked =>
    by_cases hlimit : 1 ≤ limit ∧ limit ≤ 1000
    · rw [show step ids s (.claim now leaseSeconds limit locked) = _ from if_pos hlimit] at h
      cases h
      exact ⟨inv_claim hs, later_claim s⟩
    · rw [show step ids s (.claim now leaseSeconds limit locked) = _ from if_neg hlimit] at h
      cases h
  | read i =>
    obtain ⟨w, hw, h⟩ := Option.bind_eq_some_iff.1 h
    obtain ⟨_, hread, h⟩ := Option.bind_eq_some_iff.1 h
    cases h
    exact hquiet hw (read_spec hread).1 (read_spec hread).2
  | send i =>
    obtain ⟨w, hw, h⟩ := Option.bind_eq_some_iff.1 h
    obtain ⟨_, hsend, h⟩ := Option.bind_eq_some_iff.1 h
    cases h
    exact hquiet hw (send_spec hsend).1 (send_spec hsend).2
  | save i =>
    obtain ⟨w, hw, h⟩ := Option.bind_eq_some_iff.1 h
    obtain ⟨row, hrow, h⟩ := Option.bind_eq_some_iff.1 h
    obtain ⟨_, hcopy, h⟩ := Option.bind_eq_some_iff.1 h
    cases h
    exact inv_save hs hw hrow hcopy (hcurrent w hw row hrow)
  | abandon i =>
    obtain ⟨w, hw, h⟩ := Option.bind_eq_some_iff.1 h
    cases h
    exact hquiet hw rfl rfl

theorem inv_empty : Inv ids .empty where
  recorded _ := le_rfl
  last _ := le_rfl
  bound w hw := by cases hw
  distinct i j w w' hw := by cases hw
  held w hw := by cases hw
  drawn k d hd := by cases hd

/-- **Deliveries settle once**, in a run in which no outcome is saved after another claim. -/
theorem settles_once (ids : Fresh String) (acts : List Act)
    (h : Along (step ids) Current .empty acts) :
    (states (step ids) .empty acts).Pairwise Settles := by
  have hpairwise := pairwise_states (I := Inv ids) (R := fun s s' => Inv ids s ∧ Later ids s s')
    (fun a b c hab hbc => ⟨hab.1, hab.2.trans hbc.2⟩)
    (fun s act s' hs hcurrent hstep =>
      let hlater := later_step hs hcurrent hstep
      ⟨hlater.1, hs, hlater.2⟩) inv_empty h
  exact hpairwise.imp fun hR => hR.2.settles hR.1

/-- A worker claims a delivery and sends for more than a minute; a second one claims it, too, and
delivers it; then the first one fails. -/
def overtaken : List Act :=
  [.subscribe ⟨⟨⟨"t", "p"⟩, "e"⟩, ["run.completed"], true⟩, .emit ⟨"t", "p"⟩ "run.completed" 0,
   .claim 0 60 100 [], .read 0,
   .claim 61 60 100 [], .read 1, .send 1 (.receipt 200), .save 1 62 62,
   .send 0 (.error "timed out"), .save 0 63 63]

/-- The status of the delivery in a state of that run. -/
def statusAt (n : Nat) : Option DeliveryStatus :=
  (states (step .counted) .empty overtaken)[n]?.bind fun s =>
    (s.store.deliveries.get? ⟨⟨"t", "p"⟩, Fresh.counted.draw 0⟩).map (·.status)

/-- **It was delivered, and is pending again.** -/
theorem settles_counterexample :
    ¬(states (step .counted) .empty overtaken).Pairwise Settles := by
  intro h
  obtain ⟨s, hs, hthen⟩ := Option.bind_eq_some_iff.1
    (show statusAt 8 = some .delivered by decide +kernel)
  obtain ⟨_, hs', hnow⟩ := Option.bind_eq_some_iff.1
    (show statusAt 10 = some .pending by decide +kernel)
  obtain ⟨d, hd, hdelivered⟩ := Option.map_eq_some_iff.1 hthen
  obtain ⟨d', hd', hpending⟩ := Option.map_eq_some_iff.1 hnow
  obtain ⟨hlt, rfl⟩ := List.getElem?_eq_some_iff.1 hs
  obtain ⟨hlt', rfl⟩ := List.getElem?_eq_some_iff.1 hs'
  have hsettled :=
    (List.pairwise_iff_getElem.1 h 8 10 hlt hlt' (by decide) _ d d' hd hd').1 (.inl hdelivered)
  rw [hpending] at hsettled
  exact absurd hsettled (by decide)

/-- One worker at a time. -/
theorem settles_once_alone :
    Along (step .counted) Current .empty (overtaken.take 4 ++ [.send 0 (.receipt 200),
      .save 0 5 5]) ∧ (states (step .counted) .empty
        (overtaken.take 4 ++ [.send 0 (.receipt 200), .save 0 5 5])).Pairwise Settles :=
  ⟨by decide +kernel, settles_once .counted _ (by decide +kernel)⟩

end Scenara.Webhook
