import Asgiref.Bridge.World

/-! # Threads, loops and tasks

The state of a process in which any number of threads and tasks use the two bridges at once. A
thread holds a stack of sync frames; a loop runs tasks; a `SyncToAsync` call is an item that some
thread runs and a task awaits; an `AsyncToSync` call parks a sync frame and has a task run
`main_wrap`.

* **`Loop`**, **`Task`**, **`Item`**, **`Call`** — what is fixed when a loop, a task or a call is
  made. An `AsyncToSync` call and the `CurrentThreadExecutor` that it makes have the same number.
* **`State`** — these, and all that changes.
* **`init`** — a process in which nothing has run yet. -/

namespace Asgiref

namespace Runtime

abbrev TaskId := Nat
abbrev ItemId := Nat
abbrev CallId := Nat

/-- A frame of sync code: the function of an item, or the code that a thread started with; and the
`AsyncToSync` call in which it is parked. -/
structure SyncFrame where
  item : Option ItemId
  call : Option CallId
  deriving DecidableEq, Repr

/-- An event loop. -/
structure Loop where
  thread : ThreadId
  /-- The `AsyncToSync` call that has started it with `asyncio.run`; none for a loop of the user. -/
  call : Option CallId
  deriving DecidableEq, Repr

/-- A task. -/
structure Task where
  loop : LoopId
  /-- The call whose `main_wrap` it runs. -/
  call : Option CallId
  /-- A record for the proofs: the call below which it was spawned, its own for that of a
  `main_wrap`. -/
  spawnedBelow : Option CallId
  deriving DecidableEq, Repr

/-- Where a task stands. -/
inductive TaskStatus
  /-- `create_task` is a callback that the loop has not run yet. -/
  | queued
  | created (cancelRequested : Bool)
  | running
  /-- It is in `SyncToAsync.__call__`, or in the `await` of another task. -/
  | awaitingItem (x : ItemId)
  | awaitingTask (k : TaskId)
  | done (cancelled : Bool)
  deriving DecidableEq, Repr

namespace TaskStatus

/-- Whether the task has taken its first step and not its last. -/
def underWay : TaskStatus → Bool
  | .running | .awaitingItem _ | .awaitingTask _ => true
  | _ => false

/-- Whether the task is done. -/
def isDone : TaskStatus → Bool
  | .done _ => true
  | _ => false

/-- What `Task.cancel` does to a task by itself. -/
def cancel : TaskStatus → TaskStatus
  | .created _ => .created true
  | status => status

end TaskStatus

/-- A `SyncToAsync` call that an executor has accepted. -/
structure Item where
  /-- The task that makes the call, and its loop. -/
  task : TaskId
  loop : LoopId
  /-- The executor that has taken the item. -/
  executor : ExecutorRef
  /-- Whether the call came with a context of its own. -/
  custom : Bool
  deriving DecidableEq, Repr

/-- The function of an item, and the future that `submit` returned for it. -/
inductive Phase
  | queued
  | cancelled
  | running (t : ThreadId)
  | returned (r : Result)
  deriving DecidableEq

/-- `exec_coro`, the loop's future for the item. -/
inductive ExecCoro
  | pending
  | done (r : Result)
  | cancelled
  deriving DecidableEq

/-- What `await exec_coro` gives, once `exec_coro` is done. -/
def ExecCoro.result : ExecCoro → Option Result
  | .pending => none
  | .done r => some r
  | .cancelled => some (.error .cancelledError)

/-- Where `SyncToAsync.__call__` stands, from its `try` on. -/
inductive Await
  /-- `await asyncio.shield(exec_coro)`. -/
  | shielded
  /-- The same, with a `CancelledError` to come. -/
  | interrupted
  /-- `await task`, for the task found in `task_context`. -/
  | awaitingTask (k : TaskId)
  /-- `await exec_coro`. -/
  | awaitingExec
  | over (r : Result)
  deriving DecidableEq

/-- An `AsyncToSync` call. -/
structure Call where
  /-- The thread and the function that make the call. -/
  thread : ThreadId
  item : Option ItemId
  forceNewLoop : Bool
  /-- `old_executor`, and the chain of executors from it on. -/
  oldExecutor : Obj
  oldExecutors : List CallId
  /-- The loop that runs the awaitable, and whether it was started for that. -/
  loop : LoopId
  newLoop : Bool
  /-- The list `task_context` that the call has found in its thread's slot. -/
  taskContext : Option ItemId
  /-- The task of `main_wrap`. -/
  main : TaskId
  /-- A record for the proofs: whether the loop from which the function was called was running. -/
  parentRunning : Bool
  deriving DecidableEq, Repr

/-- The process. -/
structure State where
  /-- The frames of a thread, innermost first; every one but the first is parked. -/
  stack : ThreadId → List SyncFrame
  /-- The context of the code that a thread started with. -/
  baseContext : ThreadId → Context
  /-- `SyncToAsync.threadlocal`: `main_event_loop` and `main_event_loop_pid`. -/
  mainEventLoop : ThreadId → Option (LoopId × Nat)
  /-- `SyncToAsync.threadlocal.task_context`: the list of this item. -/
  taskContext : ThreadId → Option ItemId
  /-- The queue of the `ThreadPoolExecutor` whose one worker the thread is. -/
  workerItems : ThreadId → List ItemId
  loop : LoopId → Loop
  loopRunning : LoopId → Bool
  /-- `AsyncToSync.loop_thread_executors`. -/
  loopExecutor : LoopId → Option CallId
  task : TaskId → Task
  status : TaskId → TaskStatus
  context : TaskId → Context
  item : ItemId → Item
  /-- The context that the function of an item is to run in, runs in, or has run in. -/
  itemContext : ItemId → Context
  /-- The list `task_context` of an item. -/
  tasks : ItemId → List TaskId
  phase : ItemId → Phase
  execCoro : ItemId → ExecCoro
  await : ItemId → Await
  call : CallId → Call
  /-- `context[0]`. -/
  captured : CallId → Context
  callResult : CallId → Option Result
  /-- The `CurrentThreadExecutor` of a call. -/
  broken : CallId → Bool
  workItems : CallId → List ItemId
  /-- `SyncToAsync.context_to_thread_executor`: the worker of the executor of a
  `ThreadSensitiveContext`. -/
  contextToThreadExecutor : Value → Option ThreadId
  nextThread : ThreadId
  nextLoop : LoopId
  nextTask : TaskId
  nextItem : ItemId
  nextCall : CallId
  /-- Records for the proofs: the thread that has run the function of an item, and the number of
  `AsyncToSync` calls made before it started. -/
  ranOn : ItemId → Option ThreadId
  startedAt : ItemId → CallId
  /-- Records for the proofs: when the `SyncToAsync` call was cancelled with its function parked in
  an `AsyncToSync` call whose `main_wrap` was under way, the task of that; and the tasks to which
  the cancellation was passed on. -/
  target : ItemId → Option TaskId
  delivered : ItemId → List TaskId

/-- A process in which nothing has run yet, with sync code on threads 1, 2, ..., each in its
context. Thread 0 is the worker of the single-thread executor. -/
def init (contexts : List Context) : State where
  stack t := if 0 < t ∧ t ≤ contexts.length then [⟨none, none⟩] else []
  baseContext t := contexts.getD (t - 1) ∅
  mainEventLoop _ := none
  taskContext _ := none
  workerItems _ := []
  loop _ := ⟨0, none⟩
  loopRunning _ := false
  loopExecutor _ := none
  task _ := ⟨0, none, none⟩
  status _ := .done false
  context _ := ∅
  item _ := ⟨0, 0, .pool, false⟩
  itemContext _ := ∅
  tasks _ := []
  phase _ := .cancelled
  execCoro _ := .pending
  await _ := .over (.ok .none)
  call _ := ⟨0, none, false, .none, [], 0, false, none, 0, false⟩
  captured _ := ∅
  callResult _ := none
  broken _ := true
  workItems _ := []
  contextToThreadExecutor _ := none
  nextThread := contexts.length + 1
  nextLoop := 0
  nextTask := 0
  nextItem := 0
  nextCall := 0
  ranOn _ := none
  startedAt _ := 0
  target _ := none
  delivered _ := []

namespace State

/-- The loop of a task runs, so the task may take a step. -/
def live (s : State) (k : TaskId) : Bool := s.loopRunning (s.task k).loop

/-- The thread of a task's loop. -/
def taskThread (s : State) (k : TaskId) : ThreadId := (s.loop (s.task k).loop).thread

/-- The context of a frame of thread `t`. -/
def frameContext (s : State) (t : ThreadId) : SyncFrame → Context
  | ⟨some x, _⟩ => s.itemContext x
  | ⟨none, _⟩ => s.baseContext t

end State

end Runtime

end Asgiref
