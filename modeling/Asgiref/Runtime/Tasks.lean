import Asgiref.Runtime.Threads

/-! # The steps of tasks and loops

What a task does next, and what its loop does for it. User code is free here, too: a task may work
on its context, spawn and await tasks, await sync functions, cancel any task, return or raise.

* **`startTask`**, **`finish`** — a task, with the two halves of `main_wrap` where it runs one.
* **`syncToAsync`** — `SyncToAsync.__call__` up to its `try`, with **`selectExecutor`** and
  **`submit`**.
* **`settle`**, **`complete`** — the way out of the `try` without a cancellation.
* **`cancel`**, **`deliver`**, **`resumeItem`**, **`dropItem`** — the ways with one. -/

namespace Asgiref

namespace Runtime

/-- A task comes to this point. -/
def setStatus (k : TaskId) (status : TaskStatus) (s : State) : State :=
  { s with status := Function.update s.status k status }

/-! ## Tasks -/

/-- The loop runs the queued `create_task`. -/
def create (k : TaskId) (s : State) : Option State :=
  if s.status k = .queued ∧ s.live k = true then some (setStatus k (.created false) s) else none

/-- `task_context.append(current_task)`. -/
def appendTask (list : Option ItemId) (k : TaskId) (s : State) : ItemId → List TaskId :=
  match list with
  | some x => Function.update s.tasks x (s.tasks x ++ [k])
  | none => s.tasks

/-- `task_context.remove(current_task)`. -/
def removeTask (list : Option ItemId) (k : TaskId) (s : State) : ItemId → List TaskId :=
  match list with
  | some x => Function.update s.tasks x ((s.tasks x).erase k)
  | none => s.tasks

/-- `loop_thread_executors[loop] = current_executor`, in the first step of `new_loop_wrap`. -/
def registerExecutor (c : CallId) (s : State) : LoopId → Option CallId :=
  if (s.call c).newLoop then Function.update s.loopExecutor (s.call c).loop (some c)
  else s.loopExecutor

/-- `del loop_thread_executors[loop]`, in the `finally` block of `new_loop_wrap`. -/
def removeExecutor (c : CallId) (s : State) : LoopId → Option CallId :=
  if (s.call c).newLoop then Function.update s.loopExecutor (s.call c).loop none
  else s.loopExecutor

/-- `main_wrap` up to its `await`, in the task's context as it is after restoring the caller's. On a
new loop the task is that of `new_loop_wrap`, which awaits `main_wrap`. -/
def startMain (k : TaskId) (c : CallId) (context : Context) (s : State) : State :=
  { s with
    context := Function.update s.context k context
    status := Function.update s.status k .running
    loopExecutor := registerExecutor c s
    tasks := appendTask (s.call c).taskContext k s }

/-- Restoring the context raises, which it does before the `try` of `main_wrap`; an entry that
`new_loop_wrap` has made is gone by the end of the step. -/
def failMain (k : TaskId) (context : Context) (s : State) : State :=
  { s with
    context := Function.update s.context k context
    status := Function.update s.status k (.done false) }

/-- The first step of a task. One that was cancelled before never enters its coroutine. -/
def startTask (env : Env) (k : TaskId) (s : State) : Option State :=
  if s.live k = true then
    match s.status k with
    -- asyncio throws the `CancelledError` in before the first line runs
    | .created true => some (setStatus k (.done true) s)
    | .created false =>
        match (s.task k).call with
        | some c =>
            match restoreContext env.ne (env.getIdent (s.taskThread k)) (s.context k)
                (s.captured c) with
            | (context, none) => some (startMain k c context s)
            | (context, some _) => some (failMain k context s)
        | none => some (setStatus k .running s)
    | _ => none
  else none

/-- The task works on its context, asgiref's own `Local` apart. -/
def taskWork (k : TaskId) (context : Context) (s : State) : Option State :=
  if s.status k = .running ∧ s.live k = true ∧
      Local.storage context executors = Local.storage (s.context k) executors then
    some { s with context := Function.update s.context k context }
  else none

/-- The task creates another one on its loop, in a copy of its context or in another context. -/
def spawn (k : TaskId) (custom : Option Context) (s : State) : Option State :=
  if s.status k = .running ∧ s.live k = true then
    some (addTask ⟨(s.task k).loop, none, (s.task k).spawnedBelow⟩ (.created false)
      (custom.getD (s.context k)) s)
  else none

/-- The task awaits another task of its loop. -/
def awaitTask (k k' : TaskId) (s : State) : Option State :=
  if s.status k = .running ∧ s.live k = true ∧ k' < s.nextTask ∧
      (s.task k').loop = (s.task k).loop then
    some (setStatus k (.awaitingTask k') s)
  else none

/-- The task goes on after the task it awaited. -/
def resumeTask (k : TaskId) (s : State) : Option State :=
  match s.status k with
  | .awaitingTask k' =>
      if (s.status k').isDone = true ∧ s.live k = true then some (setStatus k .running s) else none
  | _ => none

/-- The second half of `main_wrap`, which resolves the future of the caller: the list, `context[0]`
and `call_result`. The caller on a parent loop waits for this future, whose done callback breaks the
executor. -/
def finishMain (k : TaskId) (c : CallId) (r : Result) (mustCancel : Bool) (s : State) : State :=
  { s with
    tasks := removeTask (s.call c).taskContext k s
    captured := Function.update s.captured c (s.context k)
    callResult := Function.update s.callResult c (some r)
    broken := Function.update s.broken c (s.broken c || !(s.call c).newLoop)
    loopExecutor := removeExecutor c s
    status := Function.update s.status k (.done mustCancel) }

/-- The last step of a task: it ends as cancelled if that was asked for in this very step. -/
def finish (k : TaskId) (r : Result) (mustCancel : Bool) (s : State) : Option State :=
  if s.status k = .running ∧ s.live k = true then
    match (s.task k).call with
    | some c => some (finishMain k c r mustCancel s)
    | none => some (setStatus k (.done mustCancel) s)
  else none

/-! ## `SyncToAsync.__call__` up to its `try` -/

/-- The choice of an executor: where to submit, the context of the task after it, and whether that
takes a new thread. -/
structure Selection where
  executor : ExecutorRef
  context : Context
  newThread : Bool

/-- The worker of the executor of a `ThreadSensitiveContext`, which is made on first use. -/
def sensitiveWorker (v : Value) (context : Context) (s : State) : Selection :=
  match s.contextToThreadExecutor v with
  | some t => ⟨.worker t, context, false⟩
  | none => ⟨.worker s.nextThread, context, true⟩

/-- The `ThreadSensitiveContext` of a context. -/
def sensitiveContext (context : Context) : Option Value :=
  (context.lookup threadSensitiveContext).filter Value.truthy

/-- The choice of an executor for task `k`, or `none` for the `RuntimeError` of the deadlock guard.
The executor passed in, or the loop's default one, has an idle worker. -/
def selectExecutor (env : Env) (threadSensitive : Bool) (k : TaskId) (s : State) :
    Option Selection :=
  if threadSensitive then
    match currentExecutor (env.getIdent (s.taskThread k)) (s.context k) with
    -- a parent sync thread above somewhere
    | .executor e => some ⟨.currentThread e, s.context k, false⟩
    | _ =>
        match sensitiveContext (s.context k) with
        -- a pool of the current `ThreadSensitiveContext`
        | some v => some (sensitiveWorker v (s.context k) s)
        | none =>
            match s.loopExecutor (s.task k).loop with
            -- the caller of the running loop
            | some e => some ⟨.currentThread e, s.context k, false⟩
            | none =>
                if deadlockFlag (s.context k) then none
                else some ⟨.worker SyncToAsync.singleThread, setDeadlock (s.context k) true, false⟩
  else some ⟨.worker s.nextThread, s.context k, true⟩

/-- The thread that the choice takes is there, and known to the `ThreadSensitiveContext`. -/
def addWorker (threadSensitive : Bool) (selection : Selection) (s : State) : State :=
  { s with
    nextThread := if selection.newThread then s.nextThread + 1 else s.nextThread
    contextToThreadExecutor :=
      match selection.newThread, threadSensitive, sensitiveContext selection.context with
      | true, true, some v => Function.update s.contextToThreadExecutor v (some s.nextThread)
      | _, _, _ => s.contextToThreadExecutor }

/-- The executor that takes what is submitted to executor `e`: the first one on the chain that is
still running. -/
def State.closest (s : State) (e : CallId) : Option CallId :=
  (e :: (s.call e).oldExecutors).find? fun e' => !s.broken e'

/-- `executor.submit` from thread `t`: the executor that takes the item, or `none` for a
`RuntimeError`. -/
def submit (t : ThreadId) (s : State) : ExecutorRef → Option ExecutorRef
  | .currentThread e => if t = (s.call e).thread then none else (s.closest e).map .currentThread
  | .worker t' => some (.worker t')
  | .pool => none

/-- The item goes to the end of the executor's queue, if that is one of this kind. -/
def enqueueWorker (x : ItemId) (executor : ExecutorRef) (s : State) : ThreadId → List ItemId :=
  match executor with
  | .worker t => Function.update s.workerItems t (s.workerItems t ++ [x])
  | _ => s.workerItems

/-- The item goes to the end of the executor's queue, if that is one of this kind. -/
def enqueueCall (x : ItemId) (executor : ExecutorRef) (s : State) : CallId → List ItemId :=
  match executor with
  | .currentThread e => Function.update s.workItems e (s.workItems e ++ [x])
  | _ => s.workItems

/-- The task awaits an item that this executor has accepted. -/
def awaitItem (k : TaskId) (executor : ExecutorRef) (custom : Option Context) (context : Context)
    (s : State) : State :=
  let x := s.nextItem
  { s with
    workerItems := enqueueWorker x executor s
    workItems := enqueueCall x executor s
    item := Function.update s.item x ⟨k, (s.task k).loop, executor, custom.isSome⟩
    itemContext := Function.update s.itemContext x (custom.getD context)
    tasks := Function.update s.tasks x []
    phase := Function.update s.phase x .queued
    execCoro := Function.update s.execCoro x .pending
    await := Function.update s.await x .shielded
    ranOn := Function.update s.ranOn x none
    target := Function.update s.target x none
    delivered := Function.update s.delivered x []
    nextItem := x + 1
    context := Function.update s.context k context
    status := Function.update s.status k (.awaitingItem x) }

/-- Task `k` awaits a sync function: either an executor takes the item, or the call raises
`RuntimeError` and the task goes on. -/
def syncToAsync (env : Env) (k : TaskId) (threadSensitive : Bool) (custom : Option Context)
    (s : State) : Option State :=
  if s.status k = .running ∧ s.live k = true then
    match selectExecutor env threadSensitive k s with
    | none => some s
    | some selection =>
        match submit (s.taskThread k) s selection.executor with
        | none => some s
        | some executor =>
            some (addWorker threadSensitive selection
              (awaitItem k executor custom selection.context s))
  else none

/-! ## The ways out of the `try` -/

/-- The `finally` block, for a `try` that ends with `r`: the context of the awaiting task after it,
and what the call returns or raises. -/
def finallyContext (env : Env) (x : ItemId) (r : Result) (s : State) : Context × Result :=
  -- the copy-back is skipped for a context that was passed in
  if (s.item x).custom then (setDeadlock (s.context (s.item x).task) false, r)
  else
    match restoreContext env.ne (env.getIdent (s.taskThread (s.item x).task))
        (s.context (s.item x).task) (s.itemContext x) with
    | (context, none) => (setDeadlock context false, r)
    -- raising in a `finally` block replaces the outcome, and the flag stays
    | (context, some e) => (context, .error e)

/-- The call ends, and the task goes on. -/
def endItem (env : Env) (x : ItemId) (r : Result) (s : State) : State :=
  { s with
    await := Function.update s.await x (.over (finallyContext env x r s).2)
    context := Function.update s.context (s.item x).task (finallyContext env x r s).1
    status := Function.update s.status (s.item x).task .running }

/-- The loop learns that the function has returned: `exec_coro` gets the result. -/
def settle (x : ItemId) (s : State) : Option State :=
  match s.phase x, s.execCoro x with
  | .returned r, .pending =>
      if s.loopRunning (s.item x).loop = true then
        some { s with execCoro := Function.update s.execCoro x (.done r) }
      else none
  | _, _ => none

/-- `exec_coro` is done, and the call that awaits it ends. -/
def complete (env : Env) (x : ItemId) (s : State) : Option State :=
  if s.live (s.item x).task = true ∧ (s.await x = .shielded ∨ s.await x = .awaitingExec) then
    match (s.execCoro x).result with
    | some r => some (endItem env x r s)
    | none => none
  else none

/-- The task of the `main_wrap` for which the function of an item is parked, if it is under way. -/
def State.ownMain (s : State) (x : ItemId) : Option TaskId :=
  match s.phase x with
  | .running t =>
      match ((s.stack t).find? fun frame => frame.item = some x).bind SyncFrame.call with
      | some c => if (s.status (s.call c).main).underWay then some (s.call c).main else none
      | none => none
  | _ => none

/-- The `SyncToAsync` call in which a task is, if that stands at this point. -/
def State.callAt (s : State) (point : Await) (k : TaskId) : Option ItemId :=
  match s.status k with
  | .awaitingItem x => if s.await x = point then some x else none
  | _ => none

/-- A change for an item, if there is one. -/
def setAt {α : Type} (f : ItemId → α) (v : ItemId → α) : Option ItemId → ItemId → α
  | some x => Function.update f x (v x)
  | none => f

/-- `Task.cancel`. In user code a started task does as it likes with it, and where it awaits a task,
cancelling that one is a step of its own. In `SyncToAsync.__call__` the `shield` keeps it from
`exec_coro`; a bare `await exec_coro` does not. -/
def cancelTask (k : TaskId) (s : State) : State :=
  { s with
    status := Function.update s.status k (s.status k).cancel
    await := setAt s.await (fun _ => .interrupted) (s.callAt .shielded k)
    target := setAt s.target s.ownMain (s.callAt .shielded k)
    execCoro := setAt s.execCoro (fun _ => .cancelled) (s.callAt .awaitingExec k) }

/-- Any code cancels task `k`: user code, or `asyncio.run` as it shuts down. -/
def cancel (k : TaskId) (s : State) : Option State := some (cancelTask k s)

/-- The exception for a task that awaits one of another loop. -/
def otherLoop : PyError := .runtimeError "attached to a different loop"

/-- The call has cancelled a task, and awaits it. -/
def setDelivered (x : ItemId) (k : TaskId) (s : State) : State :=
  { s with
    await := Function.update s.await x (.awaitingTask k)
    delivered := Function.update s.delivered x (s.delivered x ++ [k]) }

/-- `task.cancel()`, and the `await` of the task. -/
def passOn (env : Env) (x : ItemId) (k : TaskId) (s : State) : State :=
  if (s.task k).loop = (s.item x).loop then setDelivered x k (cancelTask k s)
  else endItem env x (.error otherLoop) (setDelivered x k (cancelTask k s))

/-- `exec_coro.cancel()`, and the `await` of it. -/
def abandon (x : ItemId) (s : State) : State :=
  { s with
    await := Function.update s.await x .awaitingExec
    execCoro := Function.update s.execCoro x .cancelled }

/-- The `CancelledError` arrives: `task_context[0]` is cancelled and awaited; without one, the call
gives up on `exec_coro`. -/
def deliver (env : Env) (x : ItemId) (s : State) : Option State :=
  if s.await x = .interrupted ∧ s.live (s.item x).task = true then
    match s.tasks x with
    | k :: _ => some (passOn env x k s)
    -- the `IndexError` of `task_context[0]`
    | [] =>
        if (s.execCoro x).result.isSome then some (endItem env x (.error .cancelledError) s)
        else some (abandon x s)
  else none

/-- The awaited task is done: unless it was cancelled itself, the call awaits `exec_coro`. -/
def resumeItem (env : Env) (x : ItemId) (s : State) : Option State :=
  match s.await x with
  | .awaitingTask k =>
      match s.status k with
      | .done cancelled =>
          if s.live (s.item x).task = true then
            -- `if exec_coro.done(): raise`, with the `CancelledError` at hand
            if (s.execCoro x).result.isSome then some (endItem env x (.error .cancelledError) s)
            else if cancelled then some (abandon x s)
            else some { s with await := Function.update s.await x .awaitingExec }
          else none
      | _ => none
  | _ => none

/-- The cancellation of `exec_coro` reaches the future of an item that has not started. -/
def dropItem (x : ItemId) (s : State) : Option State :=
  if s.execCoro x = .cancelled ∧ s.phase x = .queued then
    some { s with phase := Function.update s.phase x .cancelled }
  else none

/-! ## Loops -/

/-- `asyncio.run` on this loop, which belongs to call `c`, is done with its main task: it cancels
the tasks that are left, runs on until they are done, and closes the asynchronous generators. -/
def State.shuttingDown (s : State) (l : LoopId) (c : CallId) : Prop :=
  l < s.nextLoop ∧ (s.loop l).call = some c ∧ s.loopRunning l = true ∧
    (s.status (s.call c).main).isDone = true

instance (s : State) (l : LoopId) (c : CallId) : Decidable (s.shuttingDown l c) :=
  inferInstanceAs (Decidable (_ ∧ _ ∧ _ ∧ _))

/-- `loop.shutdown_asyncgens()`: a task for the closing of a generator, in a context of its own. -/
def closeGenerator (l : LoopId) (c : CallId) (context : Context) (s : State) : Option State :=
  if s.shuttingDown l c then some (addTask ⟨l, none, none⟩ (.created false) context s) else none

/-- `asyncio.run` closes the loop and returns; the caller waits for this, and the done callback
breaks the executor. -/
def closeLoop (l : LoopId) (c : CallId) (s : State) : Option State :=
  if s.shuttingDown l c then
    some { s with
      loopRunning := Function.update s.loopRunning l false
      broken := Function.update s.broken c true }
  else none

/-- A loop of the user's own stops, or runs again. -/
def toggleLoop (l : LoopId) (s : State) : Option State :=
  if l < s.nextLoop ∧ (s.loop l).call = none then
    some { s with loopRunning := Function.update s.loopRunning l (!s.loopRunning l) }
  else none

end Runtime

end Asgiref
