import Scenara.Core.Transition

/-!
# Progressive media

Model of `ProgressiveMediaStream` and of `iter_batches` over one (`platform/media_batch.py`): a
thread emits units into a bounded queue, an async generator takes them in batches.
-/

namespace Scenara.Media.Progressive

open Scenara.Core

/-- What decoding raises. -/
inductive Exception (E : Type*) where
  | pipelineError (message : String)
  | other (e : E)

variable (U M E : Type*)

/-- `none` is `_PROGRESSIVE_MEDIA_END`. -/
abbrev Queue := List (Option (U × Option Nat))

/-- The metadata and the termination reason, or the exception. -/
abbrev Outcome := Except (Exception E) (M × Option String)

/-- `_emit`, then the `finally` clause of `_produce`. -/
inductive Producer where
  | emit (rest : List (U × Option Nat))
  /-- `queue.Full`, before `cancelled` is read. -/
  | emitFull (rest : List (U × Option Nat))
  | ending (outcome : Outcome M E)
  | endFull (outcome : Outcome M E)
  /-- Before `get_nowait`. -/
  | dropping (outcome : Outcome M E)
  | done (outcome : Outcome M E)

/-- `iter_batches` -/
inductive Consumer where
  | getting (batch : List U) (expectedUnits : Option Nat)
  | yielded (expectedUnits : Option Nat)
  /-- The last batch is out. -/
  | lastYielded
  /-- In `stream.result()`. -/
  | awaiting
  | finished (outcome : Outcome M E)
  /-- No longer iterating; a thread may still be waiting in `queue.get`. -/
  | gone (waiting : Bool)

/-- Both ends of the queue. -/
structure State where
  cancelled : Bool
  queue : Queue U
  producer : Producer U M E
  consumer : Consumer U M E
  received : List (List U × Option Nat)

/-- A decoder, and how it is read. -/
structure Stream where
  units : List (U × Option Nat)
  outcome : Outcome M E
  queueSize : Nat
  queueSize_pos : 0 < queueSize
  batchSize : Nat
  batchSize_pos : 0 < batchSize

/-- One step. -/
inductive Act where
  | produce
  | consume
  | cancel
  /-- The consumer is closed, or cancelled. -/
  | leave
  deriving DecidableEq

variable {U M E} (stream : Stream U M E)

/-- Nothing decoded. -/
def start : State U M E := ⟨false, [], .emit stream.units, .getting [] none, []⟩

/-- A step of the thread; a `put` into a full queue times out. -/
def produce (cancelled : Bool) (queue : Queue U) :
    Producer U M E → Option (Queue U × Producer U M E)
  | .emit [] => some (queue, .ending stream.outcome)
  | .emit (item :: rest) =>
    if queue.length < stream.queueSize then some (queue ++ [some item], .emit rest)
    else some (queue, .emitFull (item :: rest))
  | .emitFull rest =>
    some (queue, if cancelled then .ending (.error (.pipelineError "media decoding cancelled"))
      else .emit rest)
  | .ending outcome =>
    if queue.length < stream.queueSize then some (queue ++ [none], .done outcome)
      else some (queue, .endFull outcome)
  | .endFull outcome => some (queue, if cancelled then .dropping outcome else .ending outcome)
  | .dropping outcome => some (queue.tail, .ending outcome)
  | .done _ => none

/-- A step of the generator, to where it waits or yields. -/
def State.consume (s : State U M E) : Option (State U M E) :=
  match s.consumer, s.queue with
  | .getting _ _, [] => none
  | .getting batch expectedUnits, none :: queue =>
    if batch.isEmpty then some { s with queue, consumer := .awaiting }
    else some { s with queue, consumer := .lastYielded, received :=
      s.received ++ [(batch, expectedUnits)] }
  | .getting batch _, some (unit, expectedUnits) :: queue =>
    if stream.batchSize ≤ (batch ++ [unit]).length then
      some { s with
        queue, consumer := .yielded expectedUnits, received :=
          s.received ++ [(batch ++ [unit], expectedUnits)] }
    else some { s with queue, consumer := .getting (batch ++ [unit]) expectedUnits }
  | .yielded expectedUnits, _ => some { s with consumer := .getting [] expectedUnits }
  | .lastYielded, _ => some { s with consumer := .awaiting }
  | .awaiting, _ =>
    match s.producer with
    | .done outcome => some { s with consumer := .finished outcome }
    | _ => none
  | .finished _, _ => none
  | .gone true, _ :: queue => some { s with queue, consumer := .gone false }
  | .gone _, _ => none

/-- The consumer stops where it is. -/
def Consumer.leave : Consumer U M E → Consumer U M E
  | .getting _ _ => .gone true
  | .finished outcome => .finished outcome
  | .gone waiting => .gone waiting
  | _ => .gone false

/-- The state after a step, if it may be taken. -/
def step (s : State U M E) : Act → Option (State U M E)
  | .produce => (produce stream s.cancelled s.queue s.producer).map fun (queue, producer) =>
      { s with queue, producer }
  | .consume => s.consume stream
  | .cancel => some { s with cancelled := true }
  | .leave => some { s with consumer := s.consumer.leave }

/-- The end marker has been taken. -/
def Consumer.over : Consumer U M E → Bool
  | .lastYielded | .awaiting | .finished _ => true
  | _ => false

/-- Batches of exactly so many, except a non-empty last one. -/
structure Batched (n : Nat) (batches : List (List U)) : Prop where
  full : ∀ batch ∈ batches.dropLast, batch.length = n
  last : ∀ batch ∈ batches, batch ≠ [] ∧ batch.length ≤ n

/-- The batches that were received. -/
def State.batches (s : State U M E) : List (List U) := s.received.map Prod.fst

/-- What is received while nobody cancels. -/
structure Delivered (s : State U M E) : Prop where
  order : s.batches.flatten <+: stream.units.map Prod.fst
  batched : Batched stream.batchSize s.batches
  whole : s.consumer.over → s.batches.flatten = stream.units.map Prod.fst
  result : ∀ outcome, s.consumer = .finished outcome → outcome = stream.outcome

/-- Some run of such actions leads there. -/
def Can (acts : List Act) (s : State U M E) (P : State U M E → Prop) : Prop :=
  ∃ run s', run ⊆ acts ∧ exec (step stream) s run = some s' ∧ P s'

/-- The producer has ended. -/
def Producer.isDone : Producer U M E → Bool
  | .done _ => true
  | _ => false

/-- The consumer has left. -/
def Consumer.isGone : Consumer U M E → Bool
  | .gone _ => true
  | _ => false

/-- The consumer has the outcome. -/
def Consumer.isFinished : Consumer U M E → Bool
  | .finished _ => true
  | _ => false

/-! ## What every step keeps -/

/-- What is still to be decoded. -/
def Producer.rest : Producer U M E → List (U × Option Nat)
  | .emit rest | .emitFull rest => rest
  | _ => []

/-- An end that is not due to cancellation is the stream's. -/
def Producer.Sound (cancelled : Bool) : Producer U M E → Prop
  | .emit _ | .emitFull _ => True
  | .ending outcome | .endFull outcome | .done outcome => cancelled = false →
      outcome = stream.outcome
  | .dropping _ => cancelled = true

/-- What is taken, queued and still to be emitted are the units; the end marker is last. -/
def Flows (cancelled : Bool) (taken : List U) (queue : Queue U) (producer : Producer U M E) :
    Prop :=
  ∃ items, queue = items.map some ++ (if producer.isDone then [none] else []) ∧
    (cancelled = false → taken ++ (items ++ producer.rest).map Prod.fst = stream.units.map Prod.fst)

/-- Before the end marker, with a batch under way. -/
structure Reading (s : State U M E) (batch : List U) : Prop where
  full : ∀ b ∈ s.batches, b.length = stream.batchSize
  short : batch.length < stream.batchSize
  flows : Flows stream s.cancelled (s.batches.flatten ++ batch) s.queue s.producer

/-- The end marker has been taken. -/
structure Over (s : State U M E) : Prop where
  done : s.producer.isDone = true
  whole : s.cancelled = false → s.batches.flatten = stream.units.map Prod.fst

/-- What has been read where the consumer stands. -/
def Consumer.Sound (s : State U M E) : Consumer U M E → Prop
  | .getting batch _ => Reading stream s batch
  | .yielded _ => Reading stream s []
  | .lastYielded | .awaiting => Over stream s
  | .finished outcome => Over stream s ∧ s.producer = .done outcome
  | .gone _ => True

/-- What every step keeps. -/
structure Inv (s : State U M E) : Prop where
  consumer : s.consumer.Sound stream s
  order : s.cancelled = false → s.batches.flatten <+: stream.units.map Prod.fst
  batched : Batched stream.batchSize s.batches
  producer : s.producer.Sound stream s.cancelled

variable {stream} {s s' : State U M E} {batch taken : List U} {n : Nat} {batches : List (List U)}
  {cancelled : Bool} {queue queue' : Queue U} {producer producer' : Producer U M E}

theorem Batched.snoc (hfull : ∀ b ∈ batches, b.length = n) (hpos : 0 < batch.length)
    (hle : batch.length ≤ n) : Batched n (batches ++ [batch]) where
  full := by rwa [List.dropLast_concat]
  last b hb := by
    rcases List.mem_append.1 hb with hb | hb
    · rw [← List.length_pos_iff, hfull b hb]
      exact ⟨hpos.trans_le hle, le_rfl⟩
    · rw [List.mem_singleton.1 hb]
      exact ⟨List.length_pos_iff.1 hpos, hle⟩

theorem produce_spec (hsound : producer.Sound stream cancelled)
    (hs : produce stream cancelled queue producer = some (queue', producer')) :
    producer.isDone = false ∧ producer'.Sound stream cancelled ∧
      ∀ taken, Flows stream cancelled taken queue producer →
      Flows stream cancelled taken queue' producer' := by
  cases producer with
  | emit rest =>
    cases rest with
    | nil =>
      cases hs
      exact ⟨rfl, fun _ => rfl, fun _ => id⟩
    | cons item rest =>
      dsimp only [produce] at hs
      split at hs <;> cases hs
      · refine ⟨rfl, trivial, fun _ ⟨items, hqueue, hunits⟩ => ⟨items ++ [item], ?_, ?_⟩⟩
        · simpa [Producer.isDone] using hqueue
        · simpa [Producer.rest] using hunits
      · exact ⟨rfl, trivial, fun _ => id⟩
  | emitFull =>
    cases hs
    cases cancelled with
    | false => exact ⟨rfl, trivial, fun _ => id⟩
    | true => exact ⟨rfl, Bool.noConfusion, fun _ ⟨items, hqueue, _⟩ => ⟨items, hqueue,
        Bool.noConfusion⟩⟩
  | ending =>
    dsimp only [produce] at hs
    split at hs <;> cases hs
    · refine ⟨rfl, hsound, fun _ ⟨items, hqueue, hunits⟩ => ⟨items, ?_, hunits⟩⟩
      simpa [Producer.isDone] using hqueue
    · exact ⟨rfl, hsound, fun _ => id⟩
  | endFull =>
    cases hs
    cases cancelled with
    | false => exact ⟨rfl, hsound, fun _ => id⟩
    | true => exact ⟨rfl, rfl, fun _ => id⟩
  | dropping =>
    cases hs
    obtain rfl : cancelled = true := hsound
    refine ⟨rfl, Bool.noConfusion, fun _ ⟨items, hqueue, _⟩ => ⟨items.tail, ?_, Bool.noConfusion⟩⟩
    simpa [Producer.isDone, List.map_tail] using congrArg List.tail hqueue
  | done => cases hs

theorem Flows.head_none (h : Flows stream cancelled taken (none :: queue) producer) :
    producer.isDone = true ∧ (cancelled = false → taken = stream.units.map Prod.fst) := by
  obtain ⟨items, hqueue, hunits⟩ := h
  cases items with
  | nil =>
    cases producer with
    | done => exact ⟨rfl, fun hnot => by simpa [Producer.rest] using hunits hnot⟩
    | _ => simp [Producer.isDone] at hqueue
  | cons => simp at hqueue

theorem Flows.head_some {item : U × Option Nat}
    (h : Flows stream cancelled taken (some item :: queue) producer) :
    Flows stream cancelled (taken ++ [item.1]) queue producer := by
  obtain ⟨items, hqueue, hunits⟩ := h
  cases items with
  | nil => split at hqueue <;> simp at hqueue
  | cons _ items =>
    simp only [List.map_cons, List.cons_append, List.cons.injEq, Option.some.injEq] at hqueue
    obtain ⟨rfl, hqueue⟩ := hqueue
    exact ⟨items, hqueue, fun hnot => by simpa using hunits hnot⟩

theorem Flows.prefix (h : Flows stream cancelled taken queue producer) (hnot : cancelled = false) :
    taken <+: stream.units.map Prod.fst := by
  obtain ⟨_, -, hunits⟩ := h
  exact ⟨_, hunits hnot⟩

theorem batches_append (batch : List U) (expectedUnits : Option Nat) (consumer : Consumer U M E) :
    { s with queue, consumer, received := s.received ++ [(batch, expectedUnits)] }.batches =
      s.batches ++ [batch] := by
  simp [State.batches]

namespace Inv

theorem start : Inv stream (start stream) where
  consumer := ⟨fun _ h => absurd h List.not_mem_nil, stream.batchSize_pos, [], rfl, fun _ => rfl⟩
  order _ := List.nil_prefix
  batched := ⟨fun _ h => absurd h List.not_mem_nil, fun _ h => absurd h List.not_mem_nil⟩
  producer := trivial

variable (h : Inv stream s)
include h

theorem produce (hs : produce stream s.cancelled s.queue s.producer = some (queue', producer')) :
    Inv stream { s with queue := queue', producer := producer' } := by
  obtain ⟨hrunning, hsound, hflows⟩ := produce_spec h.producer hs
  have hover : ¬Over stream s := fun hover => absurd hover.done (by simp [hrunning])
  have hold := h.consumer
  refine ⟨?_, h.order, h.batched, hsound⟩
  cases hcase : s.consumer <;> rw [hcase] at hold
  · exact ⟨hold.full, hold.short, hflows _ hold.flows⟩
  · exact ⟨hold.full, hold.short, hflows _ hold.flows⟩
  · exact absurd hold hover
  · exact absurd hold hover
  · exact absurd hold.1 hover
  · trivial

theorem consume (hs : s.consume stream = some s') : Inv stream s' := by
  have hold := h.consumer
  unfold State.consume at hs
  split at hs
  · cases hs
  · rename_i batch expectedUnits queue hconsumer hqueue
    rw [hconsumer] at hold
    obtain ⟨hdone, hwhole⟩ := Flows.head_none (hqueue ▸ hold.flows)
    split at hs <;> cases hs
    · rename_i hempty
      obtain rfl := List.isEmpty_iff.1 hempty
      exact ⟨⟨hdone, by rwa [List.append_nil] at hwhole⟩, h.order, h.batched, h.producer⟩
    · rename_i hne
      have hflat : s.cancelled = false →
          (s.batches ++ [batch]).flatten = stream.units.map Prod.fst := by
        simpa using hwhole
      refine ⟨⟨hdone, ?_⟩, ?_, ?_, h.producer⟩ <;> rw [batches_append]
      · exact hflat
      · exact fun hnot => ⟨[], by rw [hflat hnot, List.append_nil]⟩
      · exact .snoc hold.full (by simpa [List.length_pos_iff] using hne) hold.short.le
  · rename_i batch _ unit expectedUnits queue hconsumer hqueue
    rw [hconsumer] at hold
    have hflows := Flows.head_some (hqueue ▸ hold.flows)
    rw [List.append_assoc] at hflows
    split at hs <;> cases hs
    · rename_i hbatch
      have hlength : (batch ++ [unit]).length = stream.batchSize := by
        rw [List.length_append] at hbatch ⊢
        exact le_antisymm hold.short hbatch
      have hflat : (s.batches ++ [batch ++ [unit]]).flatten = s.batches.flatten ++
          (batch ++ [unit]) := by simp
      refine ⟨⟨?_, stream.batchSize_pos, ?_⟩, fun hnot => ?_, ?_, h.producer⟩ <;>
        rw [batches_append]
      · exact List.forall_mem_append.2 ⟨hold.full, List.forall_mem_singleton.2 hlength⟩
      · rwa [hflat, List.append_nil]
      · rw [hflat]
        exact hflows.prefix hnot
      · exact .snoc hold.full (hlength ▸ stream.batchSize_pos) hlength.le
    · exact ⟨⟨hold.full, not_le.1 ‹_›, hflows⟩, h.order, h.batched, h.producer⟩
  · rename_i hconsumer
    rw [hconsumer] at hold
    cases hs
    exact ⟨⟨hold.full, hold.short, hold.flows⟩, h.order, h.batched, h.producer⟩
  · rename_i hconsumer
    rw [hconsumer] at hold
    cases hs
    exact ⟨⟨hold.done, hold.whole⟩, h.order, h.batched, h.producer⟩
  · rename_i hconsumer
    rw [hconsumer] at hold
    split at hs <;> cases hs
    exact ⟨⟨⟨hold.done, hold.whole⟩, ‹_›⟩, h.order, h.batched, h.producer⟩
  · cases hs
  · cases hs
    exact ⟨trivial, h.order, h.batched, h.producer⟩
  · cases hs

theorem leave : Inv stream { s with consumer := s.consumer.leave } := by
  refine ⟨?_, h.order, h.batched, h.producer⟩
  have hold := h.consumer
  cases hconsumer : s.consumer with
  | finished =>
    rw [hconsumer] at hold
    exact ⟨⟨hold.1.done, hold.1.whole⟩, hold.2⟩
  | _ => trivial

theorem cancel : Inv stream { s with cancelled := true } := by
  obtain ⟨_, _, producer, consumer, _⟩ := s
  have hold := h.consumer
  refine ⟨?_, Bool.noConfusion, h.batched, ?_⟩
  · cases consumer with
    | getting | yielded =>
      obtain ⟨hfull, hshort, items, hqueue, -⟩ := hold
      exact ⟨hfull, hshort, items, hqueue, Bool.noConfusion⟩
    | lastYielded | awaiting => exact ⟨hold.done, Bool.noConfusion⟩
    | finished => exact ⟨⟨hold.1.done, Bool.noConfusion⟩, hold.2⟩
    | gone => trivial
  · cases producer with
    | emit | emitFull => trivial
    | dropping => rfl
    | _ => exact Bool.noConfusion

theorem step {act : Act} (hs : step stream s act = some s') : Inv stream s' := by
  cases act with
  | produce =>
    obtain ⟨⟨_, _⟩, hproduce, rfl⟩ := Option.map_eq_some_iff.1 hs
    exact h.produce hproduce
  | consume => exact h.consume hs
  | cancel =>
    cases hs
    exact h.cancel
  | leave =>
    cases hs
    exact h.leave

theorem delivered (hnot : s.cancelled = false) : Delivered stream s := by
  have hconsumer := h.consumer
  have hproducer := h.producer
  refine ⟨h.order hnot, h.batched, fun hover => ?_, fun outcome hfinished => ?_⟩
  · cases hcase : s.consumer <;> rw [hcase] at hover hconsumer
    iterate 2 cases hover
    · exact hconsumer.whole hnot
    · exact hconsumer.whole hnot
    · exact hconsumer.1.whole hnot
    · cases hover
  · rw [hfinished] at hconsumer
    rw [hconsumer.2] at hproducer
    exact hproducer hnot

end Inv

/-! ## Going on -/

namespace Can

variable {acts : List Act} {P Q : State U M E → Prop}

theorem refl (h : P s) : Can stream acts s P := ⟨[], s, List.nil_subset _, rfl, h⟩

theorem next {act : Act} (h : Can stream acts s' P) (hact : act ∈ acts)
    (hs : step stream s act = some s') : Can stream acts s P := by
  obtain ⟨run, t, hrun, hexec, ht⟩ := h
  exact ⟨act :: run, t, List.cons_subset.2 ⟨hact, hrun⟩, exec_cons.2 ⟨s', hs, hexec⟩, ht⟩

variable {consumer : Consumer U M E} {received : List (List U × Option Nat)}

theorem produce (hact : .produce ∈ acts)
    (hs : produce stream cancelled queue producer = some (queue', producer'))
    (h : Can stream acts ⟨cancelled, queue', producer', consumer, received⟩ P) :
    Can stream acts ⟨cancelled, queue, producer, consumer, received⟩ P :=
  h.next hact (Option.map_eq_some_iff.2 ⟨_, hs, rfl⟩)

end Can

section

variable (stream) (consumer : Consumer U M E) (received : List (List U × Option Nat))

theorem ends_of_ending (queue : Queue U) (outcome : Outcome M E) :
    Can stream [.produce] ⟨true, queue, .ending outcome, consumer,
      received⟩ (·.producer.isDone) := by
  have hact : Act.produce ∈ [Act.produce] := List.mem_singleton.2 rfl
  induction queue with
  | nil => exact .produce hact (if_pos stream.queueSize_pos) (.refl rfl)
  | cons item queue ih =>
    by_cases hroom : (item :: queue).length < stream.queueSize
    · exact .produce hact (if_pos hroom) (.refl rfl)
    · exact .produce hact (if_neg hroom) (.produce hact rfl (.produce hact rfl ih))

theorem ends_of_cancelled (queue : Queue U) (producer : Producer U M E) :
    Can stream [.produce] ⟨true, queue, producer, consumer, received⟩ (·.producer.isDone) := by
  have hact : Act.produce ∈ [Act.produce] := List.mem_singleton.2 rfl
  have hending := ends_of_ending stream consumer received
  cases producer with
  | emit rest =>
    induction rest generalizing queue with
    | nil => exact .produce hact rfl (hending _ _)
    | cons _ _ ih =>
      by_cases hroom : queue.length < stream.queueSize
      · exact .produce hact (if_pos hroom) (ih _)
      · exact .produce hact (if_neg hroom) (.produce hact rfl (hending _ _))
  | emitFull | dropping => exact .produce hact rfl (hending _ _)
  | ending => exact hending _ _
  | endFull => exact .produce hact rfl (.produce hact rfl (hending _ _))
  | done => exact .refl rfl

end

/-- How far the producer is from its end. -/
def Producer.left : Producer U M E → Nat
  | .emit rest => 3 * rest.length + 4
  | .emitFull rest => 3 * rest.length + 5
  | .ending _ => 3
  | .endFull _ => 5
  | .dropping _ => 4
  | .done _ => 0

/-- The steps that are left to the consumer, at least. -/
def Consumer.left : Consumer U M E → Nat
  | .getting _ _ => 3
  | .yielded _ => 4
  | .lastYielded => 2
  | .awaiting => 1
  | _ => 0

/-- The steps that are left. -/
def State.left (s : State U M E) : Nat := s.producer.left + 2 * s.queue.length + s.consumer.left

variable (stream cancelled) in
theorem produce_goes (h : producer.isDone = false) : ∃ queue' producer',
    produce stream cancelled [] producer = some (queue', producer') ∧
      producer'.left + 2 * queue'.length < producer.left := by
  have hroom := stream.queueSize_pos
  cases producer with
  | emit rest =>
    cases rest with
    | nil => exact ⟨_, _, rfl, Nat.lt_succ_self 3⟩
    | cons => exact ⟨_, _, if_pos hroom, by simp [Producer.left]; omega⟩
  | emitFull => cases cancelled <;> exact ⟨_, _, rfl, by simp [Producer.left]⟩
  | ending => exact ⟨_, _, if_pos hroom, Nat.lt_succ_self 2⟩
  | endFull => cases cancelled <;> exact ⟨_, _, rfl, by simp [Producer.left]⟩
  | dropping => exact ⟨_, _, rfl, Nat.lt_succ_self 3⟩
  | done => cases h

theorem goes (h : Inv stream s) (hhere : s.consumer.isGone = false)
    (hrunning : s.consumer.isFinished = false) :
    ∃ act ∈ [Act.produce, .consume], ∃ s', step stream s act = some s' ∧ s'.left < s.left ∧
      s'.consumer.isGone = false := by
  have hold := h.consumer
  obtain ⟨cancelled, queue, producer, consumer, _⟩ := s
  cases consumer with
  | getting batch =>
    cases queue with
    | nil =>
      obtain ⟨_, hqueue, -⟩ := hold.flows
      have hdone : producer.isDone = false := by
        by_contra hdone
        simp [hdone] at hqueue
      obtain ⟨_, _, hs, hlt⟩ := produce_goes stream cancelled hdone
      exact ⟨.produce, by decide, _, Option.map_eq_some_iff.2 ⟨_, hs, rfl⟩,
        Nat.add_lt_add_right hlt _, rfl⟩
    | cons item =>
      refine ⟨.consume, by decide, ?_⟩
      cases item with
      | none => cases batch <;> exact ⟨_, rfl, by simp [State.left, Consumer.left] <;> omega, rfl⟩
      | some item =>
        by_cases hfull : stream.batchSize ≤ (batch ++ [item.1]).length
        · exact ⟨_, if_pos hfull, by simp [State.left, Consumer.left]; omega, rfl⟩
        · exact ⟨_, if_neg hfull, by simp [State.left, Consumer.left], rfl⟩
  | yielded | lastYielded => exact ⟨.consume, by decide, _, rfl, Nat.lt_succ_self _, rfl⟩
  | awaiting =>
    obtain ⟨hdone, -⟩ := hold
    cases producer with
    | done => exact ⟨.consume, by decide, _, rfl, Nat.lt_succ_self _, rfl⟩
    | _ => cases hdone
  | finished => cases hrunning
  | gone => cases hhere

theorem finishes (h : Inv stream s) (hhere : s.consumer.isGone = false) :
    Can stream [.produce, .consume] s (·.consumer.isFinished) := by
  induction hleft : s.left using Nat.strong_induction_on generalizing s with
  | _ n ih =>
    cases hfinished : s.consumer.isFinished with
    | true => exact .refl hfinished
    | false =>
      obtain ⟨_, hact, _, hs, hlt, hhere'⟩ := goes h hhere hfinished
      exact (ih _ (hleft ▸ hlt) (h.step hs) hhere' rfl).next hact hs

/-- **Progressive delivery** loses and repeats nothing, and is never stuck. -/
theorem delivered_and_ends (stream : Stream U M E) (acts : List Act) :
    ∀ s ∈ states (step stream) (start stream) acts,
      (s.cancelled = false → Delivered stream s) ∧
      (s.cancelled = true → Can stream [.produce] s (·.producer.isDone)) ∧
      (s.consumer.isGone = false → Can stream [.produce, .consume] s (·.consumer.isFinished)) := by
  intro s hs
  have h : Inv stream s := invariant_states (fun _ _ _ h _ hs => h.step hs) .start
    (along_of_forall (fun _ _ => trivial) _ acts) s hs
  refine ⟨h.delivered, fun hcancelled => ?_, finishes h⟩
  obtain ⟨_, queue, producer, consumer, received⟩ := s
  cases hcancelled
  exact ends_of_cancelled stream consumer received queue producer

theorem three_delivered :
    let stream : Stream Nat Unit Unit := ⟨[(0, none), (1, none), (2, none)], .ok ((), none),
        1, by decide, 2, by decide⟩
    Delivered stream ⟨false, [], .done stream.outcome, .finished stream.outcome,
      [([0, 1], none), ([2], none)]⟩ := by
  intro stream
  exact (delivered_and_ends stream [.produce, .consume, .produce, .consume, .consume, .produce,
    .consume, .produce, .produce, .consume, .consume, .consume] _ (mem_states_of_exec rfl)).1 rfl

end Scenara.Media.Progressive
