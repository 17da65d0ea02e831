import Scenara.Core.Parties
import Scenara.Webhook.Outbox

/-!
# The outbox is complete, and the same under both stores

PostgreSQL has a `UNIQUE` constraint on the event ids, `MemoryStateStore` none (`enqueued_twice`).
-/

namespace Scenara.Webhook.Outbox

open Scenara.Core
open Release (Scope)

/-! ## What is promised -/

/-- What a receiver is sent. -/
structure Message where
  endpoint : Key
  eventId : String
  eventType : String
  payload : Json

/-- What the delivery delivers. -/
def Delivery.message (d : Delivery) :
    Message := ⟨d.record.endpoint, d.eventId, d.eventType, d.payload⟩

/-- The message of an event to a subscription. -/
def WebhookEvent.messageTo (e : WebhookEvent) (endpoint : WebhookSubscription) : Message :=
  ⟨endpoint.key, e.eventId, e.eventType, .obj e.envelope.entries⟩

/-- One for every subscription that listens. -/
def WebhookEvent.messages (e : WebhookEvent) (endpoints : List WebhookSubscription) :
    List Message :=
  (endpoints.filter e.listens).map e.messageTo

/-- What PostgreSQL keeps of it. -/
def Columns.kept (columns : Columns) (message : Message) : Message :=
  { message with payload := columns.jsonb message.payload }

/-- The messages in memory. -/
def Memory.messages (m : Memory) : List Message := m.deliveries.values.map Delivery.message

/-- The messages in the table. -/
def Postgres.messages (p : Postgres) : List Message := p.deliveries.map Delivery.message

/-- The events of a run, in the order in which they were appended. -/
def Memory.eventsOf (m : Memory) (run : Key) : List RunEvent := (m.events.get? run).getD []

/-- The events of a run. -/
def Postgres.eventsOf (p : Postgres) (run : Key) : List RunEventRow :=
  p.runEvents.filter fun row => row.run = run

/-- The event that a call delivers, if it delivers one. -/
def Call.event (m : Memory) : Call → Option WebhookEvent
  | .appendEvent scope event =>
    (m.events.get? ⟨scope, event.runId⟩).map fun rows =>
      (event.numbered (rows.length + 1)).toDeliver scope
  | .enqueueWebhookEvent e => some e
  | .createWebhookSubscription _ | .deleteWebhookSubscription _ => none

/-- The two stores hold the same. -/
structure Agree (columns : Columns) (x : Stores) : Prop where
  subscriptions : x.postgres.subscriptions = x.memory.subscriptions.values
  events : ∀ run, x.postgres.eventsOf run = (x.memory.eventsOf run).map (columns.row run)
  numbered : ∀ run, (x.memory.eventsOf run).map RunEvent.eventId =
    List.range' 1 (x.memory.eventsOf run).length
  messages : x.postgres.messages.Perm (x.memory.messages.map columns.kept)

/-- What a call does: the replies are the same, and every subscription that listens to its event is
delivered one message. -/
structure Complete (setting : Setting) (x : Stores) (act : Act) (x' : Stores) : Prop where
  replies : (x.postgres.call setting.postgresIds setting.columns act.scan act.call).map Prod.snd =
    (x.memory.call setting.memoryIds act.call).map Prod.snd
  memory : ∀ e ∈ act.call.event x.memory,
    x'.memory.messages = x.memory.messages ++ e.messages x.memory.subscriptions.values
  postgres : ∀ e ∈ act.call.event x.memory, x'.postgres.messages.Perm
    (x.postgres.messages ++ (e.messages x.memory.subscriptions.values).map setting.columns.kept)

/-- The columns take the call, and its event id is new to the subscriptions that listen. -/
def Fits (setting : Setting) (x : Stores) (act : Act) : Prop :=
  setting.columns.take act.call ∧
    ∀ e ∈ act.call.event x.memory, ∀ endpoint ∈ x.memory.subscriptions.values, e.listens endpoint →
      ∀ d ∈ x.memory.deliveries.values, d.record.endpoint = endpoint.key → d.eventId ≠ e.eventId
  deriving Decidable

variable {setting : Setting} {ids : Fresh String} {columns : Columns} {scan : Scan} {m m' : Memory}
  {p p' : Postgres} {e : WebhookEvent} {endpoint : WebhookSubscription}
  {endpoints : List WebhookSubscription} {payload : Dict String Json} {scope : Scope}
    {event : RunEvent}
  {run : Key} {x x' : Stores}

theorem envelope_toDeliver (stored : RunEvent) (scope : Scope) :
    (stored.toDeliver scope).envelope = stored.modelDump := rfl

theorem map_message_filter (k : Key) (l : List Delivery) :
    (l.filter fun d => d.record.endpoint ≠ k).map Delivery.message =
      (l.map Delivery.message).filter fun message => message.endpoint ≠ k := by
  rw [List.filter_map]
  rfl

theorem map_kept_filter (columns : Columns) (k : Key) (l : List Message) :
    (l.filter fun message => message.endpoint ≠ k).map columns.kept =
      (l.map columns.kept).filter fun message => message.endpoint ≠ k := by
  rw [List.filter_map]
  rfl

/-! ## `MemoryStateStore` -/

/-- The ids of the deliveries were drawn. -/
def Memory.Drawn (ids : Fresh String) (m : Memory) : Prop :=
  ∀ d ∈ m.deliveries.values, ids.Drawn "whd_" m.drawn d.key.id

/-- More deliveries, and nothing else. -/
structure Memory.Fed (ids : Fresh String) (m m' : Memory) (added : List Message) : Prop where
  subscriptions : m'.subscriptions = m.subscriptions
  events : m'.events = m.events
  messages : m'.messages = m.messages ++ added
  drawn : m'.Drawn ids

namespace Memory

theorem enqueueTo_fed (h : m.Drawn ids) (e : WebhookEvent) (endpoint : WebhookSubscription) :
    Fed ids m (m.enqueueTo ids e endpoint) (e.messages [endpoint]) := by
  unfold enqueueTo
  by_cases hlistens : e.listens endpoint
  · let d := newDelivery (ids.draw m.drawn) endpoint e (.obj e.envelope.entries)
    have hnew : m.deliveries.get? d.key = none := by
      cases hget : m.deliveries.get? d.key with
      | none => rfl
      | some other =>
        have hkey : other.key = d.key := Table.key_of_get? hget
        exact absurd (congrArg Key.id hkey) (h other (Table.mem_values.2 (hkey ▸ hget))).ne
    have hvalues := Table.values_put d hnew
    rw [if_pos hlistens]
    refine ⟨rfl, rfl, ?_, fun other hother => ?_⟩
    · rw [messages, messages, hvalues, List.map_append]
      simp [WebhookEvent.messages, hlistens, Delivery.message, WebhookEvent.messageTo, d,
        newDelivery, Store.newDelivery, WebhookDeliveryRecord.endpoint]
    · change other ∈ (m.deliveries.put d).values at hother
      rw [hvalues, List.mem_append, List.mem_singleton] at hother
      rcases hother with hother | rfl
      · exact (h other hother).mono (Nat.le_succ _)
      · exact Fresh.Drawn.last rfl
  · rw [if_neg hlistens]
    exact ⟨rfl, rfl, by simp [WebhookEvent.messages, hlistens], h⟩

theorem foldl_enqueueTo_fed (e : WebhookEvent) (endpoints : List WebhookSubscription)
    (h : m.Drawn ids) : Fed ids m (endpoints.foldl (enqueueTo ids e) m) (e.messages endpoints) := by
  induction endpoints generalizing m with
  | nil => exact ⟨rfl, rfl, (List.append_nil _).symm, h⟩
  | cons endpoint _ ih =>
    have hone := enqueueTo_fed h e endpoint
    have hrest := ih hone.drawn
    refine ⟨hrest.subscriptions.trans hone.subscriptions, hrest.events.trans hone.events, ?_,
      hrest.drawn⟩
    rw [List.foldl_cons, hrest.messages, hone.messages, List.append_assoc]
    unfold WebhookEvent.messages
    rw [← List.map_append, ← List.filter_append, List.singleton_append]

theorem enqueue_fed (h : m.Drawn ids) (e : WebhookEvent) :
    Fed ids m (m.enqueue ids e) (e.messages m.subscriptions.values) :=
  foldl_enqueueTo_fed e _ h

end Memory

/-! ## `PostgresStateStore` -/

namespace Postgres

/-- What the deliveries of PostgreSQL are like: their ids were drawn, and they refer to
subscriptions. -/
structure Sound (ids : Fresh String) (p : Postgres) : Prop where
  drawn : ∀ d ∈ p.deliveries, ids.Drawn "whd_" p.drawn d.key.id
  refers : ∀ d ∈ p.deliveries, ∃ endpoint ∈ p.subscriptions, endpoint.key = d.record.endpoint

/-- More deliveries, and nothing else. -/
structure Fed (ids : Fresh String) (p p' : Postgres) (added : List Message) : Prop where
  runs : p'.runs = p.runs
  subscriptions : p'.subscriptions = p.subscriptions
  runEvents : p'.runEvents = p.runEvents
  messages : p'.messages = p.messages ++ added
  sound : p'.Sound ids

theorem Sound.deliveries_delete (h : p.Sound ids) (k : Key) :
    (p.deleteWebhookSubscription k).1.deliveries = p.deliveries.filter fun d =>
      d.record.endpoint ≠ k := by
  refine List.filter_congr fun d hd => ?_
  obtain ⟨endpoint, hendpoint, hkey⟩ := h.refers d hd
  rw [Bool.eq_iff_iff, List.all_eq_true, decide_eq_true_iff]
  constructor
  · intro hall hk
    have hdeleted : endpoint ∈ p.subscriptions.filter fun endpoint => endpoint.key = k :=
      List.mem_filter.2 ⟨hendpoint, decide_eq_true (hkey.trans hk)⟩
    exact of_decide_eq_true (hall endpoint hdeleted) hkey
  · intro hne other hother
    have hk : other.key = k := of_decide_eq_true (List.mem_filter.1 hother).2
    exact decide_eq_true fun heq => hne (heq.symm.trans hk)

/-- The event id is new to a subscription. -/
def New (p : Postgres) (e : WebhookEvent) (endpoint : WebhookSubscription) : Prop :=
  ∀ message ∈ p.messages, message.endpoint = endpoint.key → message.eventId ≠ e.eventId

/-- The message that is stored for a subscription. -/
def stored (columns : Columns) (e : WebhookEvent) (payload : Dict String Json)
    (endpoint : WebhookSubscription) : Message :=
  ⟨endpoint.key, e.eventId, e.eventType, columns.jsonb (.obj payload.entries)⟩

theorem deliverTo_fed (columns : Columns) (payload : Dict String Json) (h : p.Sound ids)
    (hmem : endpoint ∈ p.subscriptions) (hnew : p.New e endpoint) :
    ∃ p', p.deliverTo ids columns e payload endpoint = some p' ∧
      Fed ids p p' [stored columns e payload endpoint] := by
  let d := newDelivery (ids.draw p.drawn) endpoint e (columns.jsonb (.obj payload.entries))
  have hprimary : (p.deliveries.any fun other => other.key = d.key) = false := by
    refine List.any_eq_false.2 fun other hother hkey => ?_
    exact (h.drawn other hother).ne (congrArg Key.id (of_decide_eq_true hkey))
  have hunique : (p.deliveries.any fun other =>
      other.record.endpoint = d.record.endpoint ∧ other.eventId = d.eventId) = false := by
    refine List.any_eq_false.2 fun other hother hsame => ?_
    obtain ⟨hendpoint, hid⟩ := of_decide_eq_true hsame
    exact hnew other.message (List.mem_map_of_mem hother) hendpoint hid
  have hforeign : (p.subscriptions.all fun other => other.key ≠ d.record.endpoint) = false := by
    refine List.all_eq_false.2 ⟨endpoint, hmem, ?_⟩
    simp [d, newDelivery, Store.newDelivery, WebhookDeliveryRecord.endpoint]
  have hinsert : p.insertDelivery d = some { p with deliveries := p.deliveries ++ [d] } := by
    unfold insertDelivery
    rw [hprimary, hunique, hforeign]
    rfl
  refine ⟨{ p with deliveries := p.deliveries ++ [d], drawn := p.drawn + 1 }, ?_, rfl, rfl, rfl,
    ?_, ?_, ?_⟩
  · change (p.insertDelivery d).bind _ = _
    rw [hinsert]
    rfl
  · unfold messages
    rw [List.map_append]
    rfl
  · intro other hother
    rcases Parties.mem_snoc.1 hother with hother | rfl
    · exact (h.drawn other hother).mono (Nat.le_succ _)
    · exact Fresh.Drawn.last rfl
  · intro other hother
    rcases Parties.mem_snoc.1 hother with hother | rfl
    · exact h.refers other hother
    · exact ⟨endpoint, hmem, rfl⟩

theorem foldlM_deliverTo_fed (columns : Columns) (payload : Dict String Json) (h : p.Sound ids)
    (hmem : ∀ endpoint ∈ endpoints, endpoint ∈ p.subscriptions)
    (hnew : ∀ endpoint ∈ endpoints, p.New e endpoint)
    (hnodup : (endpoints.map WebhookSubscription.key).Nodup) :
    ∃ p', endpoints.foldlM (deliverTo ids columns e payload) p = some p' ∧
      Fed ids p p' (endpoints.map (stored columns e payload)) := by
  induction endpoints generalizing p with
  | nil => exact ⟨p, rfl, rfl, rfl, rfl, (List.append_nil _).symm, h⟩
  | cons endpoint endpoints ih =>
    rw [List.map_cons, List.nodup_cons] at hnodup
    obtain ⟨p₁, hp₁, hone⟩ := deliverTo_fed columns payload h
      (hmem endpoint List.mem_cons_self) (hnew endpoint List.mem_cons_self)
    have hmem₁ : ∀ other ∈ endpoints, other ∈ p₁.subscriptions := fun other hother => by
      rw [hone.subscriptions]
      exact hmem other (List.mem_cons_of_mem endpoint hother)
    have hnew₁ : ∀ other ∈ endpoints, p₁.New e other := by
      intro other hother message hmessage hendpoint
      rw [hone.messages, List.mem_append, List.mem_singleton] at hmessage
      rcases hmessage with hmessage | rfl
      · exact hnew other (List.mem_cons_of_mem endpoint hother) message hmessage hendpoint
      · exact absurd (List.mem_map.2 ⟨other, hother, hendpoint.symm⟩) hnodup.1
    obtain ⟨p', hp', hrest⟩ := ih hone.sound hmem₁ hnew₁ hnodup.2
    refine ⟨p', ?_, hrest.runs.trans hone.runs, hrest.subscriptions.trans hone.subscriptions,
      hrest.runEvents.trans hone.runEvents, ?_, hrest.sound⟩
    · rw [List.foldlM_cons, hp₁]
      exact hp'
    · rw [hrest.messages, hone.messages, List.append_assoc, List.map_cons, List.singleton_append]

theorem deliver_fed (columns : Columns) (scan : Scan) (h : p.Sound ids)
    (hnodup : (p.subscriptions.map WebhookSubscription.key).Nodup)
    (hnew : ∀ endpoint ∈ p.subscriptions, e.listens endpoint → p.New e endpoint)
    (hpayload : payload = e.envelope) :
    ∃ p' added, p.deliver ids columns scan e payload = some p' ∧ Fed ids p p' added ∧
      added.Perm ((e.messages p.subscriptions).map columns.kept) := by
  have hperm := scan.perm (p.subscriptions.filter e.listens)
  have hlisten : ∀ endpoint ∈ scan.rows (p.subscriptions.filter e.listens),
      endpoint ∈ p.subscriptions ∧ e.listens endpoint = true := fun endpoint hendpoint =>
    List.mem_filter.1 (hperm.mem_iff.1 hendpoint)
  obtain ⟨p', hp', hfed⟩ := foldlM_deliverTo_fed columns payload h
    (fun endpoint hendpoint => (hlisten endpoint hendpoint).1)
    (fun endpoint hendpoint => hnew endpoint (hlisten endpoint hendpoint).1
      (hlisten endpoint hendpoint).2)
    ((hperm.map _).nodup_iff.2 (hnodup.sublist (List.filter_sublist.map _)))
  refine ⟨p', _, hp', hfed, ?_⟩
  have hstored : (e.messages p.subscriptions).map columns.kept =
      (p.subscriptions.filter e.listens).map (stored columns e payload) := by
    unfold WebhookEvent.messages
    rw [List.map_map, hpayload]
    rfl
  rw [hstored]
  exact hperm.map _

end Postgres

/-! ## Both -/

/-- What every call that fits keeps. -/
structure Inv (setting : Setting) (x : Stores) : Prop extends Agree setting.columns x where
  drawn : x.memory.Drawn setting.memoryIds
  sound : x.postgres.Sound setting.postgresIds
  runs : ∀ run, run ∈ x.postgres.runs ↔ (x.memory.events.get? run).isSome

namespace Inv

theorem nodup (h : Inv setting x) : (x.postgres.subscriptions.map WebhookSubscription.key).Nodup :=
  h.subscriptions ▸ x.memory.subscriptions.nodup_keys

theorem new (h : Inv setting x) (hnew : ∀ d ∈ x.memory.deliveries.values,
    d.record.endpoint = endpoint.key → d.eventId ≠ e.eventId) : x.postgres.New e endpoint := by
  intro _ hmessage hendpoint
  obtain ⟨_, hmessage', rfl⟩ := List.mem_map.1 (h.messages.mem_iff.1 hmessage)
  obtain ⟨d, hd, rfl⟩ := List.mem_map.1 hmessage'
  exact hnew d hd hendpoint

theorem deliver (h : Inv setting x) (scan : Scan)
    (hnew : ∀ endpoint ∈ x.memory.subscriptions.values, e.listens endpoint →
      ∀ d ∈ x.memory.deliveries.values, d.record.endpoint = endpoint.key → d.eventId ≠ e.eventId) :
    ∃ p', x.postgres.deliver setting.postgresIds setting.columns scan e e.envelope = some p' ∧
      Inv setting ⟨x.memory.enqueue setting.memoryIds e, p'⟩ ∧
      (x.memory.enqueue setting.memoryIds e).messages =
        x.memory.messages ++ e.messages x.memory.subscriptions.values ∧
      p'.messages.Perm (x.postgres.messages ++
        (e.messages x.memory.subscriptions.values).map setting.columns.kept) := by
  have hmemory := Memory.enqueue_fed h.drawn e
  obtain ⟨p', _, hp', hfed, hadded⟩ :=
    Postgres.deliver_fed setting.columns scan h.sound h.nodup (fun endpoint hendpoint hlistens =>
      h.new (hnew endpoint (h.subscriptions ▸ hendpoint) hlistens)) rfl
  rw [h.subscriptions] at hadded
  have hpostgres : p'.messages.Perm (x.postgres.messages ++
      (e.messages x.memory.subscriptions.values).map setting.columns.kept) := by
    rw [hfed.messages]
    exact hadded.append_left _
  refine ⟨p', hp', ⟨⟨?_, fun run => ?_, fun run => ?_, ?_⟩, hmemory.drawn, hfed.sound,
    fun run => ?_⟩, hmemory.messages, hpostgres⟩
  · rw [hfed.subscriptions, hmemory.subscriptions]
    exact h.subscriptions
  · unfold Postgres.eventsOf Memory.eventsOf
    rw [hfed.runEvents, hmemory.events]
    exact h.events run
  · unfold Memory.eventsOf
    rw [hmemory.events]
    exact h.numbered run
  · rw [hmemory.messages, List.map_append]
    exact hpostgres.trans (h.messages.append_right _)
  · rw [hfed.runs, hmemory.events]
    exact h.runs run

theorem nextId (h : Inv setting x) (run : Key) :
    x.postgres.nextId run = (x.memory.eventsOf run).length + 1 := by
  have hids : (x.postgres.eventsOf run).map RunEventRow.eventId =
      List.range' 1 (x.memory.eventsOf run).length := by
    rw [h.events, List.map_map, ← h.numbered]
    rfl
  unfold Postgres.nextId
  rw [← Postgres.eventsOf, hids]
  cases hlength : (x.memory.eventsOf run).length with
  | zero => rfl
  | succ n =>
    have hmax : (List.range' 1 (n + 1)).max? = some (n + 1) := by
      refine List.max?_eq_some_iff.2 ⟨List.mem_range'_1.2 (by omega), fun i hi => ?_⟩
      rw [List.mem_range'_1] at hi
      omega
    rw [hmax]
    rfl

theorem record (h : Inv setting x) {rows : List RunEvent}
    (hrows : x.memory.events.get? run = some rows)
    {stored : RunEvent} (hstored : stored.eventId = rows.length + 1) :
    ∃ p', x.postgres.insertRunEvent (setting.columns.row run stored) = some p' ∧
      p'.messages = x.postgres.messages ∧
      Inv setting ⟨{ x.memory with events := x.memory.events.insert run (rows ++ [stored]) },
        p'⟩ := by
  have heventsOf : x.memory.eventsOf run = rows := by
    rw [Memory.eventsOf, hrows]
    rfl
  let row := setting.columns.row run stored
  have hprimary : (x.postgres.runEvents.any fun other =>
      other.run = row.run ∧ other.eventId = row.eventId) = false := by
    refine List.any_eq_false.2 fun other hother hsame => ?_
    obtain ⟨hrun, hid⟩ := of_decide_eq_true hsame
    have hmem : other ∈ x.postgres.eventsOf run :=
      List.mem_filter.2 ⟨hother, decide_eq_true hrun⟩
    rw [h.events] at hmem
    obtain ⟨event, hevent, rfl⟩ := List.mem_map.1 hmem
    have hnumber : event.eventId ∈ (x.memory.eventsOf run).map RunEvent.eventId :=
      List.mem_map_of_mem hevent
    rw [h.numbered, heventsOf, List.mem_range'_1] at hnumber
    change event.eventId = stored.eventId at hid
    omega
  have hforeign : row.run ∈ x.postgres.runs := by
    rw [h.runs, show row.run = run from rfl, hrows]
    rfl
  refine ⟨{ x.postgres with runEvents := x.postgres.runEvents ++ [row] }, ?_, rfl,
    ⟨⟨h.subscriptions, fun other => ?_, fun other => ?_, h.messages⟩, h.drawn,
      ⟨h.sound.drawn, h.sound.refers⟩,
      fun other => ?_⟩⟩
  · unfold Postgres.insertRunEvent
    rw [if_neg (Bool.eq_false_iff.1 hprimary), if_neg (not_not.2 hforeign)]
  · have hold := h.events other
    unfold Postgres.eventsOf Memory.eventsOf at hold ⊢
    rw [List.filter_append, hold, Dict.get?_insert]
    by_cases hother : other = run
    · subst hother
      simp [hrows, row, Columns.row]
    · simp [hother, Ne.symm hother, row, Columns.row]
  · have hold := h.numbered other
    unfold Memory.eventsOf at hold ⊢
    rw [Dict.get?_insert]
    by_cases hother : other = run
    · subst hother
      rw [hrows, Option.getD_some] at hold
      rw [if_pos rfl, Option.getD_some, List.map_append, hold, List.map_singleton, hstored,
        List.length_append, List.length_singleton, List.range'_1_concat, Nat.add_comm 1]
    · rwa [if_neg hother]
  · rw [Dict.get?_insert]
    by_cases hother : other = run
    · rw [hother]
      exact iff_of_true hforeign (by simp)
    · rw [if_neg hother]
      exact h.runs other

end Inv

/-- The stores agree about a call: it raises in both, or returns the same and delivers what is
promised. -/
def Joint (setting : Setting) (x : Stores) (act : Act) : Prop :=
  x.memory.call setting.memoryIds act.call = none ∧
      x.postgres.call setting.postgresIds setting.columns act.scan act.call = none ∧
      act.call.event x.memory = none ∨
    ∃ m' p' reply, x.memory.call setting.memoryIds act.call = some (m', reply) ∧
      x.postgres.call setting.postgresIds setting.columns act.scan act.call = some (p', reply) ∧
      Inv setting ⟨m', p'⟩ ∧
      ∀ e ∈ act.call.event x.memory,
        m'.messages = x.memory.messages ++ e.messages x.memory.subscriptions.values ∧
        p'.messages.Perm (x.postgres.messages ++
          (e.messages x.memory.subscriptions.values).map setting.columns.kept)

theorem joint_create (h : Inv setting x) (endpoint : WebhookSubscription)
    (htake : setting.columns.take (.createWebhookSubscription endpoint)) :
    Joint setting x ⟨.createWebhookSubscription endpoint, scan⟩ := by
  have hsame : (x.postgres.subscriptions.any fun other => other.key = endpoint.key) =
      (x.memory.subscriptions.get? endpoint.key).isSome := by
    rw [Bool.eq_iff_iff, List.any_eq_true, h.subscriptions, ← Table.find?_values, List.find?_isSome]
  unfold Joint Memory.call Postgres.call
  rw [if_pos htake]
  unfold Memory.createWebhookSubscription Postgres.createWebhookSubscription
  simp only [hsame]
  by_cases hget : (x.memory.subscriptions.get? endpoint.key).isSome
  · exact .inl ⟨by rw [if_pos hget]; rfl, by rw [if_pos hget]; rfl, rfl⟩
  · refine .inr ⟨_, _, _, by rw [if_neg hget]; rfl, by rw [if_neg hget]; rfl, ?_, nofun⟩
    refine ⟨⟨?_, h.events, h.numbered, h.messages⟩, h.drawn,
      ⟨h.sound.drawn, fun d hd => ?_⟩, h.runs⟩
    · rw [Table.values_put endpoint (Option.not_isSome_iff_eq_none.1 hget), h.subscriptions]
    · obtain ⟨other, hother, hkey⟩ := h.sound.refers d hd
      exact ⟨other, List.mem_append_left _ hother, hkey⟩

theorem joint_delete (h : Inv setting x) (k : Key)
    (htake : setting.columns.take (.deleteWebhookSubscription k)) :
    Joint setting x ⟨.deleteWebhookSubscription k, scan⟩ := by
  have hreply : (x.postgres.deleteWebhookSubscription k).2 = x.memory.subscriptions.get? k := by
    change List.head? _ = _
    rw [List.head?_filter, h.subscriptions, Table.find?_values]
  have hdeliveries := h.sound.deliveries_delete k
  refine .inr ⟨(x.memory.deleteWebhookSubscription k).1, (x.postgres.deleteWebhookSubscription k).1,
    .deleted (x.memory.subscriptions.get? k), rfl, ?_,
    ⟨⟨?_, h.events, h.numbered, ?_⟩, fun d hd => ?_, ⟨?_, ?_⟩, h.runs⟩, nofun⟩
  · unfold Postgres.call
    rw [if_pos htake, ← hreply]
  · change List.filter _ x.postgres.subscriptions = (Table.filter _ x.memory.subscriptions).values
    rw [Table.values_filter, h.subscriptions]
  · change ((x.postgres.deleteWebhookSubscription k).1.deliveries.map Delivery.message).Perm
      (((Table.filter _ x.memory.deliveries).values.map Delivery.message).map setting.columns.kept)
    rw [hdeliveries, Table.values_filter, map_message_filter, map_message_filter, map_kept_filter]
    exact h.messages.filter _
  · change d ∈ (Table.filter _ x.memory.deliveries).values at hd
    rw [Table.values_filter] at hd
    exact h.drawn d (List.mem_filter.1 hd).1
  · intro d hd
    exact h.sound.drawn d (List.mem_filter.1 hd).1
  · intro d hd
    rw [hdeliveries] at hd
    obtain ⟨hd, hne⟩ := List.mem_filter.1 hd
    obtain ⟨endpoint, hendpoint, hkey⟩ := h.sound.refers d hd
    refine ⟨endpoint, List.mem_filter.2 ⟨hendpoint, decide_eq_true ?_⟩, hkey⟩
    rw [hkey]
    exact of_decide_eq_true hne

theorem joint_append (h : Inv setting x) (scope : Scope) (event : RunEvent)
    (hfits : Fits setting x ⟨.appendEvent scope event, scan⟩) :
    Joint setting x ⟨.appendEvent scope event, scan⟩ := by
  obtain ⟨htake, hnew⟩ := hfits
  let run : Key := ⟨scope, event.runId⟩
  unfold Joint Memory.call Postgres.call
  rw [if_pos htake]
  cases hrows : x.memory.events.get? run with
  | none =>
    have hforeign : run ∉ x.postgres.runs := by
      rw [h.runs, hrows]
      exact Bool.false_ne_true
    have hinsert : x.postgres.insertRunEvent (setting.columns.row run
        (event.numbered (x.postgres.nextId run))) = none := by
      unfold Postgres.insertRunEvent
      split
      · rfl
      · exact if_pos hforeign
    refine .inl ⟨?_, ?_, ?_⟩
    · simp only [Memory.appendEvent, run] at hrows ⊢
      rw [hrows]
      rfl
    · simp only [Postgres.appendEvent, run] at hinsert ⊢
      rw [hinsert]
      rfl
    · change (x.memory.events.get? run).map _ = none
      rw [hrows]
      rfl
  | some rows =>
    let stored := event.numbered (rows.length + 1)
    have hevent : Call.event x.memory (.appendEvent scope event) =
        some (stored.toDeliver scope) := by
      change (x.memory.events.get? run).map _ = _
      rw [hrows]
      rfl
    have hnumber : event.numbered (x.postgres.nextId run) = stored := by
      rw [h.nextId, Memory.eventsOf, hrows]
      rfl
    obtain ⟨_, hp₁, hmessages, hinv⟩ :=
      h.record hrows (show stored.eventId = rows.length + 1 from rfl)
    obtain ⟨p', hp', hinv', hmemory, hpostgres⟩ := hinv.deliver scan (hnew _ hevent)
    refine .inr ⟨_, p', .appended stored, ?_, ?_, hinv', fun e he => ?_⟩
    · simp only [Memory.appendEvent, run] at hrows ⊢
      rw [hrows]
      rfl
    · simp only [Postgres.appendEvent]
      rw [hnumber, hp₁]
      change (Option.bind (Option.bind (Postgres.deliver _ _ _ _ _ _) _) _) = _
      rw [← envelope_toDeliver stored scope, hp']
      rfl
    · rw [hevent] at he
      cases he
      exact ⟨hmemory, hmessages ▸ hpostgres⟩

theorem joint_enqueue (h : Inv setting x) (e : WebhookEvent)
    (hfits : Fits setting x ⟨.enqueueWebhookEvent e, scan⟩) :
    Joint setting x ⟨.enqueueWebhookEvent e, scan⟩ := by
  obtain ⟨htake, hnew⟩ := hfits
  obtain ⟨p', hp', hinv', hmemory, hpostgres⟩ := h.deliver scan (hnew e rfl)
  unfold Joint Memory.call Postgres.call
  rw [if_pos htake]
  refine .inr ⟨_, p', .enqueued, rfl, ?_, hinv', fun e' he => ?_⟩
  · simp only [Postgres.enqueueWebhookEvent]
    rw [hp']
    rfl
  · cases he
    exact ⟨hmemory, hpostgres⟩

theorem joint_of_fits {act : Act} (h : Inv setting x) (hfits : Fits setting x act) :
    Joint setting x act := by
  obtain ⟨call, _⟩ := act
  cases call with
  | createWebhookSubscription endpoint => exact joint_create h endpoint hfits.1
  | deleteWebhookSubscription k => exact joint_delete h k hfits.1
  | appendEvent scope event => exact joint_append h scope event hfits
  | enqueueWebhookEvent e => exact joint_enqueue h e hfits

theorem inv_step {act : Act} (h : Inv setting x) (hfits : Fits setting x act)
    (hs : step setting x act = some x') : Inv setting x' ∧ Complete setting x act x' := by
  cases hs
  rcases joint_of_fits h hfits with ⟨hmemory, hpostgres, hevent⟩ |
    ⟨_, _, _, hmemory, hpostgres, hinv, hadded⟩
  · refine ⟨?_, by rw [hmemory, hpostgres]; rfl, fun e he => ?_, fun e he => ?_⟩
    · rwa [hmemory, hpostgres]
    all_goals
      simp [hevent] at he
  · refine ⟨?_, by rw [hmemory, hpostgres]; rfl, fun e he => ?_, fun e he => ?_⟩
    all_goals rw [hmemory, hpostgres]
    · exact hinv
    · exact (hadded e he).1
    · exact (hadded e he).2

theorem inv_start (setting : Setting) (runs : List Key) (hruns : runs.Nodup) :
    Inv setting (Stores.start runs hruns) := by
  have hget : ∀ run events, (Stores.start runs hruns).memory.events.get? run = some events →
      events = [] := by
    intro _ _ h
    obtain ⟨_, -, heq⟩ := List.mem_map.1 ((Dict.mem_entries _ _ _).2 h)
    exact (congrArg Prod.snd heq).symm
  have hevents : ∀ run, (Stores.start runs hruns).memory.eventsOf run = [] := by
    intro run
    unfold Memory.eventsOf
    cases h : (Stores.start runs hruns).memory.events.get? run with
    | none => rfl
    | some events => exact hget run events h
  refine ⟨⟨rfl, fun run => ?_, fun run => ?_, .nil⟩, fun d hd => absurd hd List.not_mem_nil,
    ⟨fun d hd => absurd hd List.not_mem_nil, fun d hd => absurd hd List.not_mem_nil⟩, fun run => ?_⟩
  · rw [hevents]
    rfl
  · rw [hevents]
    rfl
  · rw [Option.isSome_iff_ne_none, ← Dict.mem_keys]
    simp [Stores.start, Function.comp_def]

/-- **The outbox is complete, and the same under both stores**, in every run of calls that fit. -/
theorem outbox (setting : Setting) (runs : List Key) (hruns : runs.Nodup) (acts : List Act)
    (hfits : Along (step setting) (Fits setting) (Stores.start runs hruns) acts) :
    (∀ x ∈ states (step setting) (Stores.start runs hruns) acts, Agree setting.columns x) ∧
      Along (step setting) (fun x act => ∀ x', step setting x act = some x' →
        Complete setting x act x') (Stores.start runs hruns) acts := by
  have hkeep : ∀ x act x', Inv setting x → Fits setting x act → step setting x act = some x' →
      Inv setting x' := fun x act x' h hact hs => (inv_step h hact hs).1
  refine ⟨fun x hx => (invariant_states hkeep (inv_start setting runs hruns) hfits x hx).toAgree,
    ?_⟩
  exact along_mono hkeep (fun x act h hact x' hs => (inv_step h hact hs).2)
    (inv_start setting runs hruns) hfits

/-- A setting, for runs that are written out. -/
def plain : Setting := ⟨.counted, .counted, ⟨fun _ => true, id⟩⟩

/-- Rows as they were stored. -/
def inOrder : Scan := ⟨id, fun _ => .refl _⟩

theorem outbox_queued :
    let run : Key := ⟨⟨"t", "p"⟩, "r"⟩
    let event : RunEvent :=
      ⟨"r", 1, "run.queued", "1.0", none, "scenara", none, none, none, none, .queued, .empty, 5⟩
    let acts : List Act :=
      [⟨.createWebhookSubscription ⟨⟨⟨"t", "p"⟩, "w"⟩, ["run.queued"], true⟩, inOrder⟩,
        ⟨.appendEvent ⟨"t", "p"⟩ event, inOrder⟩, ⟨.appendEvent ⟨"t", "p"⟩ event, inOrder⟩,
        ⟨.enqueueWebhookEvent ⟨⟨"t", "p"⟩, "x", "run.queued", .empty, 6⟩, inOrder⟩]
    (∀ x ∈ states (step plain) (Stores.start [run] (List.nodup_singleton run)) acts,
        Agree plain.columns x) ∧
      Along (step plain) (fun x act => ∀ x', step plain x act = some x' → Complete plain x act x')
        (Stores.start [run] (List.nodup_singleton run)) acts :=
  outbox plain _ _ _ (by decide)

/-- An event id comes again: the memory store delivers it twice. -/
theorem enqueued_twice :
    let e : WebhookEvent := ⟨⟨"t", "p"⟩, "x", "alert.triggered", .empty, 6⟩
    let acts : List Act :=
      [⟨.createWebhookSubscription ⟨⟨⟨"t", "p"⟩, "w"⟩, ["alert.triggered"], true⟩, inOrder⟩,
        ⟨.enqueueWebhookEvent e, inOrder⟩, ⟨.enqueueWebhookEvent e, inOrder⟩]
    ¬∀ x ∈ states (step plain) (Stores.start [] List.nodup_nil) acts, Agree plain.columns x := by
  intro e _ h
  have hlength := (h _ (mem_states_of_exec rfl)).messages.length_eq
  exact absurd hlength (by decide)

end Scenara.Webhook.Outbox
