import Mathlib.Algebra.Order.Field.Rat
import Scenara.Core.Dict
import Scenara.Core.Slices
import Scenara.Core.Transition

/-!
# Dynamic batching

Model of `InferenceScheduler` (`app/inference_scheduler.py`).

* `takeFairBatch`: the requests of a batch, in rounds over their scopes.

A call of the executor returns its outputs or raises. Its times, which are handed on with a result,
the metrics and the set of all schedulers are left out.
-/

namespace Scenara.Inference

open Scenara.Core

variable {Row Out : Type}

/-! ## Arrays -/

/-- A NumPy array: one with no axis, or the rows of the first one. -/
inductive NdArray (Row : Type) where
  | scalar (value : Row) (dtype : String)
  | rows (items : List Row) (shape : List Nat) (dtype : String)

namespace NdArray

/-- `int(array.shape[0]) if array.ndim > 0 else 1`. -/
def size : NdArray Row → Nat
  | scalar _ _ => 1
  | rows items _ _ => items.length

/-- `array.shape[1:] if array.ndim > 0 else ()`. -/
def shape : NdArray Row → List Nat
  | scalar _ _ => []
  | rows _ shape _ => shape

/-- `array.dtype`. -/
def dtype : NdArray Row → String
  | scalar _ dtype => dtype
  | rows _ _ dtype => dtype

/-- What can be concatenated. -/
def rowsOf (shape : List Nat) (dtype : String) : NdArray Row → Option (List Row)
  | scalar _ _ => none
  | rows items shape' dtype' => if shape' = shape ∧ dtype' = dtype then some items else none

/-- `array[start:end]`. -/
def slice (start stop : Nat) : NdArray Row → NdArray Row
  | scalar value dtype => scalar value dtype
  | rows items shape dtype => rows (Core.slice start stop items) shape dtype

end NdArray

/-- `np.concatenate(arrays, axis=0)`; `none` if it raises. The arrays of a batch have one dtype, by
its group key; those of several, which NumPy would convert, are not concatenated here. -/
def concatenate : List (NdArray Row) → Option (NdArray Row)
  | .rows first shape dtype :: arrays => do
    let rest ← arrays.mapM (NdArray.rowsOf shape dtype)
    some (.rows (first ++ rest.flatten) shape dtype)
  | _ => none

/-- `output.ndim == 0 or output.shape[0] != total`. -/
def misfit (total : Nat) : NdArray Row → Bool
  | .scalar _ _ => true
  | .rows items _ _ => items.length ≠ total

/-- `grouped` of `_split_outputs`. -/
def grouped (outputs : List (NdArray Row)) : Nat → List Nat → List (List (NdArray Row))
  | _, [] => []
  | start, size :: sizes =>
    outputs.map (NdArray.slice start (start + size)) :: grouped outputs (start + size) sizes

/-- `_split_outputs`; `none` if it raises. -/
def splitOutputs (outputs : List (NdArray Row)) (sizes : List Nat) :
    Option (List (List (NdArray Row))) :=
  if outputs.any (misfit sizes.sum) then none else some (grouped outputs 0 sizes)

/-- What the executor returns for an input, where it does not raise. -/
structure Executor (Row Out : Type) where
  count : Nat
  run : NdArray Row → Fin count → NdArray Out

/-- What `session.run` returns. -/
def Executor.outputs (executor : Executor Row Out) (input : NdArray Row) : List (NdArray Out) :=
  List.ofFn (executor.run input)

/-! ## Requests -/

/-- What the scheduler reads of its bundle. -/
structure Bundle where
  key : String
  contractVersion : String
  gpuDeviceId : Option ℤ
  executionProvider : Option String
  dynamicBatchMaxSize : ℤ
  dynamicBatchMaxWaitMs : ℚ
  dynamicBatchAsyncMaxWaitMs : Option ℚ
  dynamicBatchMaxQueueSize : ℤ

namespace Bundle

/-- `max_batch_size`. -/
def maxBatchSize (bundle : Bundle) : Nat := (max 1 bundle.dynamicBatchMaxSize).toNat

/-- `max_wait_ms`. -/
def maxWaitMs (bundle : Bundle) : ℚ := max 0 bundle.dynamicBatchMaxWaitMs

/-- `async_max_wait_ms`. -/
def asyncMaxWaitMs (bundle : Bundle) : ℚ :=
  max bundle.maxWaitMs (bundle.dynamicBatchAsyncMaxWaitMs.getD bundle.maxWaitMs)

/-- `max_queue_size`. -/
def maxQueueSize (bundle : Bundle) : Nat := (max 1 bundle.dynamicBatchMaxQueueSize).toNat

theorem maxBatchSize_pos (bundle : Bundle) : 0 < bundle.maxBatchSize := by
  unfold maxBatchSize
  omega

end Bundle

/-- What the requests of one batch share. -/
structure GroupKey where
  key : String
  shape : List Nat
  dtype : String
  contractVersion : String
  gpuDeviceId : Option ℤ
  executionProvider : Option String
  deriving DecidableEq

/-- `_group_key`. -/
def groupKeyOf (bundle : Bundle) (inputArray : NdArray Row) : GroupKey :=
  ⟨bundle.key, inputArray.shape, inputArray.dtype, bundle.contractVersion, bundle.gpuDeviceId,
    bundle.executionProvider⟩

/-- `ScheduledInference`. -/
structure ScheduledInference (Row : Type) where
  id : Nat
  inputArray : NdArray Row
  enqueuedAt : ℚ
  deadline : Option ℚ
  scope : String
  priority : Nat
  weight : Nat
  groupKey : GroupKey
  weight_pos : 0 < weight

namespace ScheduledInference

variable (item seed : ScheduledInference Row)

/-- The rows of a request. -/
def size : Nat := item.inputArray.size

/-- `item.priority == seed.priority and item.group_key == seed.group_key`. -/
def joins : Bool := item.priority = seed.priority ∧ item.groupKey = seed.groupKey

/-- `(item.priority, item.enqueued_at) < (seed.priority, seed.enqueued_at)`. -/
def before : Bool :=
  item.priority < seed.priority ∨ item.priority = seed.priority ∧ item.enqueuedAt < seed.enqueuedAt

end ScheduledInference

/-- `sum(item.size for item in items)`. -/
def totalSize (items : List (ScheduledInference Row)) :
    Nat := (items.map ScheduledInference.size).sum

/-! ## Fair batches -/

/-- `by_scope`. -/
def byScope (items : List (ScheduledInference Row)) : Dict String (List (ScheduledInference Row)) :=
  items.foldl (fun queues item => queues.insert item.scope ((queues.get? item.scope).getD [] ++
    [item])) .empty

/-- The state of the rounds. -/
structure Picked (Row : Type) where
  selected : List (ScheduledInference Row)
  selectedSize : Nat
  lastScope : Option String
  queues : Dict String (List (ScheduledInference Row))

/-- `by_scope[scope]`. -/
def Picked.queue (p : Picked Row) (scope : String) : List (ScheduledInference Row) :=
  (p.queues.get? scope).getD []

/-- `queue.popleft()`, and the item is selected. -/
def Picked.take (p : Picked Row) (scope : String) (item : ScheduledInference Row)
    (queue : List (ScheduledInference Row)) : Picked Row where
  selected := p.selected ++ [item]
  selectedSize := p.selectedSize + item.size
  lastScope := some scope
  queues := p.queues.insert scope queue

/-- `for _ in range(allowance): …` -/
def takeTurn (maxBatchSize : Nat) (scope : String) : Nat → Picked Row → Picked Row
  | 0, p => p
  | allowance + 1, p =>
    match p.queue scope with
    | [] => p
    | item :: queue =>
      if p.selected ≠ [] ∧ p.selectedSize + item.size > maxBatchSize then p
      else if (p.take scope item queue).selectedSize ≥ maxBatchSize then p.take scope item queue
      else takeTurn maxBatchSize scope allowance (p.take scope item queue)

/-- `queue[0].weight if queue else 1`. -/
def allowanceOf : List (ScheduledInference Row) → Nat
  | [] => 1
  | item :: _ => item.weight

/-- `for scope in scopes: …`, and `remaining_scopes`. -/
def takeRound (maxBatchSize : Nat) :
    List String → List String → Picked Row → Picked Row × List String
  | [], remaining, p => (p, remaining)
  | scope :: scopes, remaining, p =>
    let p := takeTurn maxBatchSize scope (allowanceOf (p.queue scope)) p
    let remaining := if p.queue scope = [] then remaining else remaining ++ [scope]
    if p.selectedSize ≥ maxBatchSize then (p, remaining)
      else takeRound maxBatchSize scopes remaining p

theorem le_takeTurn (maxBatchSize : Nat) (scope : String) (allowance : Nat) (p : Picked Row) :
    p.selectedSize ≤ (takeTurn maxBatchSize scope allowance p).selectedSize := by
  induction allowance generalizing p with
  | zero => exact le_rfl
  | succ _ ih =>
    unfold takeTurn
    split
    · exact le_rfl
    · rename_i item queue hqueue
      have hle : p.selectedSize ≤ (p.take scope item queue).selectedSize := Nat.le_add_right _ _
      split_ifs
      · exact le_rfl
      · exact hle
      · exact hle.trans (ih _)

theorem le_takeRound (maxBatchSize : Nat) (scopes remaining : List String) (p : Picked Row) :
    p.selectedSize ≤ (takeRound maxBatchSize scopes remaining p).1.selectedSize := by
  induction scopes generalizing remaining p with
  | nil => exact le_rfl
  | cons scope _ ih =>
    have hturn := le_takeTurn maxBatchSize scope (allowanceOf (p.queue scope)) p
    unfold takeRound
    dsimp only
    split
    · exact hturn
    · exact hturn.trans (ih _ _)

/-- `while scopes and selected_size < self.max_batch_size: …` -/
def takeRounds (maxBatchSize : Nat) (scopes : List String) (p : Picked Row) : Picked Row :=
  if scopes ≠ [] ∧ p.selectedSize < maxBatchSize then
    if (takeRound maxBatchSize scopes [] p).1.selectedSize = p.selectedSize then
      (takeRound maxBatchSize scopes [] p).1
    else
      takeRounds maxBatchSize (takeRound maxBatchSize scopes [] p).2
        (takeRound maxBatchSize scopes [] p).1
  else p
termination_by maxBatchSize - p.selectedSize
decreasing_by
  have hle := le_takeRound maxBatchSize scopes [] p
  omega

/-- `scopes`, after the one that was served last. -/
def rotate (lastScope : Option String) (scopes : List String) : List String :=
  match lastScope with
  | none => scopes
  | some lastScope =>
    if lastScope ∈ scopes ∧ 1 < scopes.length then
      let offset := (scopes.idxOf lastScope + 1) % scopes.length
      scopes.drop offset ++ scopes.take offset
    else scopes

/-- `_take_fair_batch`, up to the selection. -/
def select (maxBatchSize : Nat) (lastScope : Option String) (queue : List (ScheduledInference Row))
    (seed : ScheduledInference Row) : Picked Row :=
  let queues := byScope (queue.filter fun item => item.joins seed)
  takeRounds maxBatchSize (rotate lastScope (queues.entries.map Prod.fst)) ⟨[], 0,
    lastScope, queues⟩

/-- `if not selected: selected = [seed]`. -/
def batchOf (p : Picked Row) (seed : ScheduledInference Row) : List (ScheduledInference Row) :=
  if p.selected = [] then [seed] else p.selected

/-- The items that are not selected. -/
def leftOf (batch queue : List (ScheduledInference Row)) : List (ScheduledInference Row) :=
  queue.filter fun item => item.id ∉ batch.map ScheduledInference.id

/-! ## The scheduler -/

/-- How a future is resolved. -/
inductive Outcome (Out : Type) where
  | cancelled
  | timedOut
  | failed
  | result (outputs : List (NdArray Out))

/-- The request was cancelled. -/
def Outcome.isCancelled : Outcome Out → Bool
  | .cancelled => true
  | _ => false

/-- A call of `_execute_one`. -/
inductive Call where
  | ready | executing | over
  deriving DecidableEq

/-- The task of `_run`. -/
inductive Worker (Row : Type) where
  | none
  | running
  /-- `wait_for(self._wake.wait(), …)` -/
  | waiting
  /-- The executor has the concatenated input. -/
  | batch (active : List (ScheduledInference Row))
  /-- One item, or the fallback: each for itself. -/
  | items (calls : List (ScheduledInference Row × Call))

/-- What `_take_fair_batch` was given and made. -/
structure Dispatch (Row : Type) where
  queue : List (ScheduledInference Row)
  batch : List (ScheduledInference Row)
  left : List (ScheduledInference Row)

/-- The scheduler, its worker and what came of the requests. -/
structure System (Row Out : Type) where
  queue : List (ScheduledInference Row)
  lastScope : Option String
  worker : Worker Row
  /-- The calls that resolved a future, by the id of its request. -/
  futures : Nat → List (Outcome Out)
  /-- What was appended to the queue, and what was removed. -/
  submitted : List (ScheduledInference Row)
  removed : List (ScheduledInference Row)
  dispatched : List (Dispatch Row)

namespace System

/-- Nothing submitted. -/
def empty : System Row Out := ⟨[], none, .none, fun _ => [], [], [], []⟩

variable (s : System Row Out) (item : ScheduledInference Row)

/-- `item.future.done()`. -/
def done : Bool := (s.futures item.id).length ≠ 0

/-- `item.future.cancelled()`. -/
def cancelled : Bool := (s.futures item.id).any Outcome.isCancelled

/-- `set_result`, `set_exception`, or a cancellation. -/
def resolve (outcome : Outcome Out) : System Row Out :=
  { s with futures := Function.update s.futures item.id (s.futures item.id ++ [outcome]) }

/-- `if not item.future.done(): …` -/
def resolveIfPending (outcome : Outcome Out) : System Row Out :=
  if s.done item then s else s.resolve item outcome

end System

/-- `current >= item.deadline`. -/
def expired (current : ℚ) (item : ScheduledInference Row) : Bool :=
  match item.deadline with
  | none => false
  | some deadline => deadline ≤ current

/-- `while self._queue: …`, with `active` as the queue. -/
def discard (current : ℚ) : System Row Out → List (ScheduledInference Row) → System Row Out
  | s, [] => s
  | s, item :: queue =>
    if s.cancelled item then discard current { s with removed := s.removed ++ [item] } queue
    else if expired current item then
      discard current ({ s with removed := s.removed ++ [item] }.resolve item .timedOut) queue
    else discard current { s with queue := s.queue ++ [item] } queue

/-- `_discard_finished`. -/
def discardFinished (current : ℚ) (s : System Row Out) : System Row Out :=
  discard current { s with queue := [] } s.queue

/-- The caller: what `submit` does before it awaits the future. -/
def submit (bundle : Bundle) (s : System Row Out) (inputArray : NdArray Row)
    (scope priority : String)
    (weight : ℤ) (timeoutSeconds current enqueuedAt : ℚ) : System Row Out :=
  let s := discardFinished current s
  if bundle.maxQueueSize ≤ s.queue.length then s
  else
    let request : ScheduledInference Row :=
      { id := s.submitted.length
        inputArray
        enqueuedAt
        deadline := if 0 < timeoutSeconds then some (enqueuedAt + timeoutSeconds) else none
        scope := if scope = "" then "anonymous" else scope
        priority := if priority = "sync" then 0 else 1
        weight := (max 1 (min 100 weight)).toNat
        groupKey := groupKeyOf bundle inputArray
        weight_pos := by omega }
    { s with
      queue := s.queue ++ [request]
      submitted := s.submitted ++ [request]
      worker := match s.worker with
        | .none => .running
        | worker => worker }

/-- The caller is cancelled while it awaits the future. -/
def cancel (s : System Row Out) (item : ScheduledInference Row) : System Row Out :=
  s.resolveIfPending item .cancelled

/-- `min(self._queue, key=…)`. -/
def seedOf : List (ScheduledInference Row) → Option (ScheduledInference Row)
  | [] => none
  | item :: queue => some (queue.foldl (fun seed item => if item.before seed then item
      else seed) item)

/-- `_wait_seconds`. -/
def waitSeconds (bundle : Bundle) (seed : ScheduledInference Row) (now : ℚ) : ℚ :=
  let configuredMs := if seed.priority = 0 then bundle.maxWaitMs else bundle.asyncMaxWaitMs
  let dispatchAt := seed.enqueuedAt + configuredMs / 1000
  let dispatchAt := seed.deadline.elim dispatchAt fun deadline => min dispatchAt deadline
  max 0 (dispatchAt - now)

/-- `_batch_ready`. -/
def batchReady (bundle : Bundle) (queue : List (ScheduledInference Row))
    (seed : ScheduledInference Row) : Bool :=
  bundle.maxBatchSize ≤ totalSize (queue.filter fun item => item.joins seed)

/-- `_dispatch`, up to the first call of the executor. -/
def dispatch (s : System Row Out) (batch : List (ScheduledInference Row)) : System Row Out :=
  let active := batch.filter fun item => !s.cancelled item
  match active with
  | [] => { s with worker := .running }
  | [item] => { s with worker := if s.done item then .running else .items [(item, .executing)] }
  | _ =>
    if (concatenate (active.map ScheduledInference.inputArray)).isSome then
      { s with worker := .batch active }
    else { s with worker := .items (active.map fun item => (item, .ready)) }

/-- `_run`, from the top of its loop to the next `await`. -/
def work (bundle : Bundle) (s : System Row Out) (current now : ℚ) : System Row Out :=
  let s := discardFinished current s
  match seedOf s.queue with
  | none => { s with worker := .none }
  | some seed =>
    if 0 < waitSeconds bundle seed now ∧ ¬batchReady bundle s.queue seed then
      { s with worker := .waiting }
    else
      let picked := select bundle.maxBatchSize s.lastScope s.queue seed
      let batch := batchOf picked seed
      let left := leftOf batch s.queue
      dispatch
        { s with
          queue := left
          lastScope := picked.lastScope
          removed := s.removed ++ batch
          dispatched := s.dispatched ++ [⟨s.queue, batch, left⟩] } batch

/-- `for item, item_outputs in zip(active, split_outputs): …` -/
def deliver : System Row Out → List (ScheduledInference Row × List (NdArray Out)) → System Row Out
  | s, [] => s
  | s, e :: pairs => deliver (s.resolveIfPending e.1 (.result e.2)) pairs

/-- What the call of the executor for a batch returned, or `none` if it raised. -/
def executed (s : System Row Out) (active : List (ScheduledInference Row))
    (outputs : Option (List (NdArray Out))) : System Row Out :=
  match outputs.bind fun outputs => splitOutputs outputs (active.map ScheduledInference.size) with
  | some groups => { deliver s (active.zip groups) with worker := .running }
  | none => { s with worker := .items (active.map fun item => (item, .ready)) }

/-- One step. -/
inductive Act (Row : Type) where
  | submit (bundle : Bundle) (inputArray : NdArray Row) (scope priority : String) (weight : ℤ)
      (timeoutSeconds current enqueuedAt : ℚ)
  | cancel (i : Nat)
  | work (current now : ℚ)
  | wake
  /-- The executor returns the outputs of a batch, or raises. -/
  | executed (ok : Bool)
  /-- The `i`-th call of `_execute_one` starts, or ends. -/
  | start (i : Nat)
  | finished (i : Nat) (ok : Bool)
  | gathered

/-- One step. The bundle's size and waits are read when the scheduler is made, what goes into the
group key at each `submit`. -/
def step (executor : Executor Row Out) (bundle : Bundle) (s : System Row Out) :
    Act Row → Option (System Row Out)
  | .submit read inputArray scope priority weight timeoutSeconds current enqueuedAt =>
    some (submit { read with dynamicBatchMaxQueueSize := bundle.dynamicBatchMaxQueueSize } s
      inputArray scope priority weight timeoutSeconds current enqueuedAt)
  | .cancel i => s.submitted[i]?.map (cancel s)
  | .work current now =>
    match s.worker with
    | .running => some (work bundle s current now)
    | _ => none
  | .wake =>
    match s.worker with
    | .waiting => some { s with worker := .running }
    | _ => none
  | .executed ok =>
    match s.worker with
    | .batch active => do
      let combined ← concatenate (active.map ScheduledInference.inputArray)
      some (executed s active (if ok then some (executor.outputs combined) else none))
    | _ => none
  | .start i =>
    match s.worker with
    | .items calls => do
      let (item, call) ← calls[i]?
      if call = .ready then
        some { s with
          worker := .items (calls.set i (item, if s.done item then .over else .executing)) }
      else none
    | _ => none
  | .finished i ok =>
    match s.worker with
    | .items calls => do
      let (item, call) ← calls[i]?
      if call = .executing then
        some { s.resolveIfPending item (if ok then .result (executor.outputs item.inputArray)
          else .failed) with
          worker := .items (calls.set i (item, .over)) }
      else none
    | _ => none
  | .gathered =>
    match s.worker with
    | .items calls => if calls.all fun e => e.2 = .over then some { s with worker := .running }
        else none
    | _ => none

end Scenara.Inference
