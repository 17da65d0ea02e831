import Mathlib.Data.List.MinMax
import Scenara.Core.Dict

/-!
# The models that are loaded

Model of `app/runtime_registry.py`: `release_model_bundle`, `get_model_load_lock`,
`evict_lru_if_needed`, `unload_model_by_key`, `touch_model`, `replace_model_bundle`,
`retire_model_bundle`, `get_or_load_model`, and of `_run_model_bundle_direct`
(`app/runtime_execution.py`), the dynamic batching off.

* A bundle is known by its place in the order in which sessions were created, a load lock by its
  place in the order of the lock objects. `REGISTRY_LOCK` is never held across an `await`, so that
  what it guards is one step.
* `Choice.go` goes on; `fail` and `late` are exceptions (`late`: after the session was created and
  before it is anywhere); `cancel` cancels the task: a native run goes on without it (`orphans`).
* The order in which waiters get a lock or a semaphore is left open.
* For the statements a state has, besides: every `release_model_bundle`, and whether a native run
  was in progress; the tasks that found no session in a bundle they had; the registrations.
-/

namespace Scenara.Runtime

open Scenara.Core

/-! ## Bundles and tasks -/

/-- `ModelBundle`, as far as its life goes. -/
structure Bundle where
  key : String
  session : Bool
  inUse : Nat
  lastUsedAt : Nat

/-- `get_or_load_model` or `replace_model_bundle`. -/
inductive Call where
  | load
  | swap
  deriving DecidableEq

/-- Where a task is. A `started` is how many registrations there were when the load started. -/
inductive Task where
  /-- `get_or_load_model`, at its beginning. -/
  | lookup (key : String)
  /-- A cache hit: in `touch_model`. -/
  | touch (key : String) (bundle : Nat)
  /-- In `get_model_load_lock`. -/
  | locking (call : Call) (key : String)
  /-- At `async with load_lock`. -/
  | waiting (call : Call) (key : String) (lock : Nat)
  /-- A cache hit under the lock: in `touch_model`. -/
  | touchLocked (key : String) (lock bundle : Nat)
  /-- In `asyncio.to_thread(model_hash, ...)`. -/
  | hashing (call : Call) (key : String) (lock started : Nat)
  /-- In `asyncio.to_thread(create_session, ...)`. -/
  | creating (call : Call) (key : String) (lock started : Nat)
  /-- The new bundle is registered: in `touch_model`. -/
  | touchNew (key : String) (lock bundle : Nat)
  /-- In `evict_lru_if_needed`, under the lock. -/
  | evicting (key : String) (lock bundle : Nat)
  /-- In `prewarm_model_bundle`: a native run on the candidate. -/
  | prewarming (key : String) (lock started candidate : Nat)
  /-- The candidate is about to be registered. -/
  | registering (key : String) (lock started candidate : Nat)
  /-- `replace_model_bundle`, in `evict_lru_if_needed`. -/
  | evictingSwapped (key : String) (candidate : Nat) (previous : Option Nat)
  /-- `replace_model_bundle` has returned. -/
  | swapped (candidate : Nat) (previous : Option Nat)
  | unloading (key : String)
  | draining (bundle : Nat)
  | evict (exceptKey : Option String)
  | holding (bundle : Nat)
  /-- `_run_model_bundle_direct`, waiting for the semaphores. -/
  | queued (bundle : Nat)
  /-- In `asyncio.to_thread(run_session, ...)`. -/
  | running (bundle : Nat)
  | ended
  deriving DecidableEq

namespace Task

/-- The load lock that the task holds. -/
def lock? : Task → Option Nat
  | .touchLocked _ lock _ | .hashing _ _ lock _ | .creating _ _ lock _ | .touchNew _ lock _
  | .evicting _ lock _ | .prewarming _ lock _ _ | .registering _ lock _ _ => some lock
  | _ => none

/-- The key of the load that is in progress. -/
def loading? : Task → Option String
  | .hashing _ key _ _ | .creating _ key _ _ | .prewarming key _ _ _ | .registering key _ _ _ =>
      some key
  | _ => none

/-- The key and the lock of a load in progress, or of a task that waits to load. -/
def contends? : Task → Option (String × Nat)
  | .waiting _ key lock | .hashing _ key lock _ | .creating _ key lock _ | .prewarming key lock _ _
  | .registering key lock _ _ => some (key, lock)
  | _ => none

/-- How many registrations there were when the load started. -/
def started? : Task → Option Nat
  | .hashing _ _ _ started | .creating _ _ _ started | .prewarming _ _ started _
  | .registering _ _ started _ => some started
  | _ => none

/-- The bundle that only this task can register, release or return. -/
def owns? : Task → Option Nat
  | .prewarming _ _ _ candidate | .registering _ _ _ candidate => some candidate
  | .evictingSwapped _ _ previous | .swapped _ previous => previous
  | .draining bundle => some bundle
  | _ => none

/-- The candidate of a swap, and its key. -/
def candidate? : Task → Option (String × Nat)
  | .prewarming key _ _ candidate | .registering key _ _ candidate => some (key, candidate)
  | _ => none

/-- The bundle that the task has obtained, or is about to return, from `get_or_load_model`. -/
def obtained? : Task → Option Nat
  | .touch _ bundle | .touchLocked _ _ bundle | .touchNew _ _ bundle | .evicting _ _ bundle
  | .holding bundle | .queued bundle | .running bundle => some bundle
  | _ => none

/-- The bundle whose `in_use` the task has raised. -/
def uses? : Task → Option Nat
  | .queued bundle | .running bundle | .prewarming _ _ _ bundle => some bundle
  | _ => none

/-- The bundle that a native run of the task is on. -/
def runs? : Task → Option Nat
  | .running bundle | .prewarming _ _ _ bundle => some bundle
  | _ => none

end Task

/-! ## The state -/

/-- An application of `release_model_bundle`. -/
structure Release where
  bundle : Nat
  /-- A native run on its session was in progress. -/
  busy : Bool
  deriving DecidableEq

/-- An assignment to `MODEL_REGISTRY[key]`. -/
structure Registration where
  call : Call
  bundle : Nat
  /-- How many registrations there were when its load started. -/
  started : Nat
  replaced : Option Nat
  deriving DecidableEq

/-- The registry, the bundles, the locks and the tasks. -/
structure State where
  clock : Nat
  created : Nat
  bundles : Nat → Bundle
  registry : Dict String Nat
  lockOf : String → Option Nat
  locks : Nat
  holder : Nat → Option Nat
  retryAfter : String → Nat
  tasks : List Task
  orphans : List Nat
  releases : List Release
  missing : List Nat
  registrations : List Registration

namespace State

/-- The task is elsewhere. -/
def go (x : State) (i : Nat) (task : Task) : State := { x with tasks := x.tasks.set i task }

/-- A bundle changes. -/
def setBundle (x : State) (b : Nat) (f : Bundle → Bundle) : State :=
  { x with bundles := fun n => if n = b then f (x.bundles n) else x.bundles n }

/-- `bundle["last_used_at"] = wall_time()`. -/
def touched (x : State) (b : Nat) : State :=
  x.setBundle b fun bundle => { bundle with lastUsedAt := x.clock }

/-- `bundle["in_use"] = bundle.get("in_use", 0) + 1`. -/
def use (x : State) (b : Nat) : State :=
  x.setBundle b fun bundle => { bundle with inUse := bundle.inUse + 1 }

/-- The `finally` of `_run_model_bundle_direct`. -/
def leave (x : State) (b : Nat) : State :=
  x.setBundle b fun bundle => { bundle with inUse := bundle.inUse - 1, lastUsedAt := x.clock }

/-- A native run on the session of the bundle is in progress. -/
def busy (x : State) (b : Nat) : Bool :=
  x.tasks.any (fun task => task.runs? = some b) || x.orphans.any (· = b)

/-- `release_model_bundle`. -/
def release (x : State) (b : Nat) : State :=
  { x.setBundle b fun bundle => { bundle with session := false } with
    releases := x.releases ++ [⟨b, x.busy b⟩] }

/-- `MODEL_REGISTRY.move_to_end(key)`, if the key is there. -/
def moveToEnd (x : State) (key : String) : State :=
  match x.registry.get? key with
  | some b => { x with registry := (x.registry.erase key).insert key b }
  | none => x

/-- A task takes a lock. -/
def acquire (x : State) (i lock : Nat) : State :=
  { x with holder := fun l => if l = lock then some i else x.holder l }

/-- A lock is released. -/
def unlock (x : State) (lock : Nat) : State :=
  { x with holder := fun l => if l = lock then none else x.holder l }

/-- `MODEL_REGISTRY.pop(key, None)` and `MODEL_LOAD_LOCKS.pop(key, None)`. -/
def pop (x : State) (key : String) : State :=
  { x with
    registry := x.registry.erase key
    lockOf := fun k => if k = key then none else x.lockOf k }

/-- `model_load_cooldown_active`. -/
def coolingDown (x : State) (key : String) : Bool := x.clock < x.retryAfter key

/-- A failed load is put off. -/
def setRetry (x : State) (key : String) (until' : Nat) : State :=
  { x with retryAfter := fun k => if k = key then until' else x.retryAfter k }

/-- `mark_model_load_failed`. -/
def markFailed (cooldown : Nat) (x : State) (key : String) : State :=
  if 0 < cooldown then x.setRetry key (x.clock + cooldown) else x

/-- A session is created, in a bundle of its own. -/
def create (x : State) (key : String) (inUse : Nat) : State :=
  { x with
    created := x.created + 1
    bundles := fun n => if n = x.created then ⟨key, true, inUse, x.clock⟩ else x.bundles n }

/-- `MODEL_REGISTRY[key] = bundle`. -/
def register (x : State) (call : Call) (key : String) (started b : Nat) : State :=
  { x with
    registry := x.registry.insert key b
    registrations := x.registrations ++ [⟨call, b, started, x.registry.get? key⟩] }

/-! ## Eviction -/

/-- `key != except_key and not bundle.get("in_use", 0)`. -/
def evictable (x : State) (exceptKey : Option String) : List (String × Nat) :=
  x.registry.entries.filter fun e => some e.1 ≠ exceptKey && (x.bundles e.2).inUse = 0

/-- The loop of `evict_lru_if_needed`; `n` is more than there is to evict. -/
def evictLoop (maxLoaded : Nat) (exceptKey : Option String) : Nat → State → State
  | 0, x => x
  | n + 1, x =>
    if x.registry.entries.length ≤ maxLoaded then x
    else
      match (x.evictable exceptKey).argmin fun e => (x.bundles e.2).lastUsedAt with
      | none => x
      | some (key, b) => evictLoop maxLoaded exceptKey n ((x.pop key).release b)

/-- `evict_lru_if_needed`; a `MAX_LOADED_MODELS` of zero or less is 0. -/
def evictLru (maxLoaded : Nat) (x : State) (exceptKey : Option String) : State :=
  if maxLoaded = 0 then x else evictLoop maxLoaded exceptKey x.registry.entries.length x

end State

/-! ## Steps -/

/-- What a task does next. -/
inductive Choice where
  | go
  | fail
  /-- An exception once the session is created; whether it is caught by the clause that marks the
  key. -/
  | late (marked : Bool)
  | run
  /-- The request reads `bundle["session"]`. -/
  | look
  | finish
  /-- The caller of `replace_model_bundle` calls `retire_model_bundle` on the previous bundle. -/
  | retire
  | cancel
  deriving DecidableEq

/-- `MAX_LOADED_MODELS`, and `MODEL_LOAD_RETRY_COOLDOWN_SECONDS`. -/
structure Setting where
  maxLoaded : Nat
  cooldown : Nat

/-- The load lock is acquired. -/
def acquired (x : State) (i : Nat) (call : Call) (key : String) (lock : Nat) : State :=
  match call with
  | .swap => (x.acquire i lock).go i (.hashing .swap key lock x.registrations.length)
  | .load =>
    match x.registry.get? key with
    | some b => ((x.acquire i lock).touched b).go i (.touchLocked key lock b)
    | none =>
      if x.coolingDown key then x.go i .ended
      else (x.acquire i lock).go i (.hashing .load key lock x.registrations.length)

/-- The session is created, and what follows before the next `await`. -/
def createdStep (x : State) (i : Nat) (call : Call) (key : String) (lock started : Nat) : State :=
  match call with
  | .load =>
    (((x.create key 0).setRetry key 0).register .load key started x.created).go i
      (.touchNew key lock x.created)
  | .swap => (x.create key 1).go i (.prewarming key lock started x.created)

/-- The task found no session. -/
def noSession (x : State) (i : Nat) : State := { x.go i .ended with missing := x.missing ++ [i] }

/-- A cancelled task: its `finally` clauses, and a native run that goes on. -/
def cancelled (x : State) (i : Nat) (task : Task) : State :=
  let freed := match task.lock? with
    | some lock => x.unlock lock
    | none => x
  let left := match task.uses? with
    | some b => freed.leave b
    | none => freed
  { left.go i .ended with orphans := x.orphans ++ task.runs?.toList }

/-- A step of a task. -/
def stepTask (setting : Setting) (x : State) (i : Nat) (task : Task) (choice : Choice) :
    Option State :=
  match task, choice with
  | .lookup key, .go =>
    match x.registry.get? key with
    | some b => some ((x.touched b).go i (.touch key b))
    | none => some (x.go i (if x.coolingDown key then .ended else .locking .load key))
  | .touch key b, .go => some ((x.moveToEnd key).go i (.holding b))
  | .locking call key, .go =>
    match x.lockOf key with
    | some lock => some (x.go i (.waiting call key lock))
    | none =>
      some { x.go i (.waiting call key x.locks) with
        lockOf := fun k => if k = key then some x.locks else x.lockOf k
        locks := x.locks + 1 }
  | .waiting call key lock, .go =>
    if (x.holder lock).isSome then none else some (acquired x i call key lock)
  | .touchLocked key lock b, .go => some (((x.moveToEnd key).unlock lock).go i (.holding b))
  | .hashing call key lock started, .go => some (x.go i (.creating call key lock started))
  | .hashing _ key lock _, .fail =>
    some (((x.markFailed setting.cooldown key).unlock lock).go i .ended)
  | .creating call key lock started, .go => some (createdStep x i call key lock started)
  | .creating _ key lock _, .fail =>
    some (((x.markFailed setting.cooldown key).unlock lock).go i .ended)
  | .creating _ key lock _, .late marked =>
    let lost := x.create key 0
    some (((if marked then lost.markFailed setting.cooldown key else lost).unlock lock).go i .ended)
  | .touchNew key lock b, .go => some ((x.moveToEnd key).go i (.evicting key lock b))
  | .evicting key lock b, .go =>
    some (((x.evictLru setting.maxLoaded (some key)).unlock lock).go i (.holding b))
  | .prewarming key lock started candidate, .go =>
    some ((x.leave candidate).go i (.registering key lock started candidate))
  | .prewarming _ lock _ candidate, .fail =>
    some ((((x.leave candidate).go i .ended).release candidate).unlock lock)
  | .registering key lock started candidate, .go =>
    let swapped := (x.register .swap key started candidate).go i
      (.evictingSwapped key candidate (x.registry.get? key))
    some (((swapped.moveToEnd key).setRetry key 0).unlock lock)
  | .evictingSwapped key candidate previous, .go =>
    some ((x.evictLru setting.maxLoaded (some key)).go i (.swapped candidate previous))
  | .swapped _ (some previous), .retire => some (x.go i (.draining previous))
  | .unloading key, .go =>
    match x.registry.get? key with
    | none => some ((x.pop key).go i .ended)
    | some b =>
      if (x.bundles b).inUse = 0 then some (((x.pop key).release b).go i .ended)
      else some ((x.pop key).go i (.draining b))
  | .draining b, .go =>
    if (x.bundles b).inUse = 0 then some ((x.release b).go i .ended) else none
  | .evict exceptKey, .go => some ((x.evictLru setting.maxLoaded exceptKey).go i .ended)
  | .holding b, .run =>
    if (x.bundles b).session then some ((x.use b).go i (.queued b)) else some (noSession x i)
  | .holding b, .look => if (x.bundles b).session then some x else some (noSession x i)
  | .holding _, .finish => some (x.go i .ended)
  | .queued b, .go => some (x.go i (.running b))
  | .queued b, .fail => some ((x.leave b).go i .ended)
  | .running b, .go => some ((x.leave b).go i (.holding b))
  | .running b, .fail => some ((x.leave b).go i .ended)
  | task, .cancel => some (cancelled x i task)
  | _, _ => none

/-- A new call. -/
inductive Request where
  | getOrLoad (key : String)
  | replace (key : String)
  | unload (key : String)
  | evict (exceptKey : Option String)

/-- The task of a request. -/
def Request.task : Request → Task
  | .getOrLoad key => .lookup key
  | .replace key => .locking .swap key
  | .unload key => .unloading key
  | .evict exceptKey => .evict exceptKey

/-- One step. -/
inductive Act where
  | tick (time : Nat)
  | request (request : Request)
  | task (i : Nat) (choice : Choice)
  /-- A native run whose task was cancelled ends. -/
  | nativeEnds (k : Nat)

/-- One step. -/
def step (setting : Setting) (x : State) : Act → Option State
  | .tick time => some { x with clock := x.clock + time }
  | .request request => some { x with tasks := x.tasks ++ [request.task] }
  | .task i choice => (x.tasks[i]?).bind fun task => stepTask setting x i task choice
  | .nativeEnds k => some { x with orphans := x.orphans.eraseIdx k }

/-- Nothing is loaded. -/
def init : State where
  clock := 0
  created := 0
  bundles _ := ⟨"", false, 0, 0⟩
  registry := Dict.empty
  lockOf _ := none
  locks := 0
  holder _ := none
  retryAfter _ := 0
  tasks := []
  orphans := []
  releases := []
  missing := []
  registrations := []

end Scenara.Runtime
