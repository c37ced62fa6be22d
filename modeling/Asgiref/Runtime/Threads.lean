import Asgiref.Runtime.State

/-! # The steps of threads

What a thread does next. User code is free: a frame may work on its context, call `async_to_sync`,
have tasks created, return or raise at any time.

* **`call`**, **`leave`** — `AsyncToSync.__call__`, up to `run_until_future` and after it.
* **`take`**, **`ret`** — a thread runs an item: `thread_handler` up to the function and after it.
* **`work`**, **`spawnThreadsafe`**, **`startLoop`** — user code. -/

namespace Asgiref

namespace Runtime

/-- A change of a frame's context, where that is one of the contexts of items. -/
def setItemContext (frame : SyncFrame) (context : Context) (s : State) : ItemId → Context :=
  match frame.item with
  | some x => Function.update s.itemContext x context
  | none => s.itemContext

/-- A change of a frame's context, where that is the one the thread started with. -/
def setBaseContext (t : ThreadId) (frame : SyncFrame) (context : Context) (s : State) :
    ThreadId → Context :=
  match frame.item with
  | some _ => s.baseContext
  | none => Function.update s.baseContext t context

theorem setItemContext_apply (frame : SyncFrame) (context : Context) (s : State) (x : ItemId) :
    setItemContext frame context s x
      = if frame.item = some x then context else s.itemContext x := by
  unfold setItemContext
  cases hitem : frame.item with
  | none => simp
  | some y =>
      by_cases heq : x = y
      · subst heq
        simp
      · simp [Function.update_of_ne heq, Ne.symm heq]

theorem setBaseContext_apply (t : ThreadId) (frame : SyncFrame) (context : Context) (s : State)
    (t' : ThreadId) : setBaseContext t frame context s t'
      = if frame.item = none ∧ t' = t then context else s.baseContext t' := by
  unfold setBaseContext
  cases hitem : frame.item with
  | none =>
      by_cases heq : t' = t
      · subst heq
        simp
      · simp [heq]
  | some y => simp

/-- The context of a function's frame. -/
theorem State.frameContext_item (s : State) (t : ThreadId) {frame : SyncFrame} {x : ItemId}
    (h : frame.item = some x) : s.frameContext t frame = s.itemContext x := by
  obtain ⟨item, call⟩ := frame
  cases h
  rfl

/-- The context of the frame that a thread started with. -/
theorem State.frameContext_base (s : State) (t : ThreadId) {frame : SyncFrame}
    (h : frame.item = none) : s.frameContext t frame = s.baseContext t := by
  obtain ⟨item, call⟩ := frame
  cases h
  rfl

/-! ## `AsyncToSync.__call__` -/

/-- The loop that `call_soon_threadsafe` goes to: the one in the thread's slot, if it was filled in
this process and the loop is running. -/
def parentLoop (env : Env) (forceNewLoop : Bool) (t : ThreadId) (s : State) : Option LoopId :=
  if forceNewLoop then none
  else match s.mainEventLoop t with
    -- `is_running()` keeps the caller from parking on a loop that has stopped
    | some (l, pid) => if pid = env.getpid ∧ s.loopRunning l = true then some l else none
    | none => none

/-- The chain of executors that an `old_executor` stands at the head of. -/
def State.chain (s : State) : Obj → List CallId
  | .executor e => e :: (s.call e).oldExecutors
  | _ => []

/-- Whether the loop from which a function was called is running. -/
def State.parentRunning (s : State) : Option ItemId → Bool
  | some x => s.loopRunning (s.item x).loop
  | none => false

/-- The call that a frame of thread `t` makes, with its awaitable on this loop. -/
def newCall (env : Env) (t : ThreadId) (frame : SyncFrame) (forceNewLoop : Bool) (loop : LoopId)
    (newLoop : Bool) (s : State) : Call where
  thread := t
  item := frame.item
  forceNewLoop := forceNewLoop
  oldExecutor := currentExecutor (env.getIdent t) (s.frameContext t frame)
  oldExecutors := s.chain (currentExecutor (env.getIdent t) (s.frameContext t frame))
  loop := loop
  newLoop := newLoop
  taskContext := s.taskContext t
  main := s.nextTask
  parentRunning := s.parentRunning frame.item

/-- The caller's context in the call: its own executor is the current one. -/
def callContext (env : Env) (t : ThreadId) (frame : SyncFrame) (s : State) : Context :=
  Local.setattr (env.getIdent t) (s.frameContext t frame) executors "current"
    (.executor s.nextCall)

/-- The frame parks in the call, whose task starts in the context `base`. -/
def park (env : Env) (t : ThreadId) (frame : SyncFrame) (rest : List SyncFrame) (made : Call)
    (base : Context) (status : TaskStatus) (s : State) : State :=
  let context := callContext env t frame s
  { s with
    stack := Function.update s.stack t (⟨frame.item, some s.nextCall⟩ :: rest)
    itemContext := setItemContext frame context s
    baseContext := setBaseContext t frame context s
    call := Function.update s.call s.nextCall made
    captured := Function.update s.captured s.nextCall context
    callResult := Function.update s.callResult s.nextCall none
    broken := Function.update s.broken s.nextCall false
    workItems := Function.update s.workItems s.nextCall []
    nextCall := s.nextCall + 1
    task := Function.update s.task s.nextTask ⟨made.loop, some s.nextCall, some s.nextCall⟩
    status := Function.update s.status s.nextTask status
    context := Function.update s.context s.nextTask base
    nextTask := s.nextTask + 1 }

/-- On the parent loop the task is scheduled in a copy of the caller's context. -/
def callParent (env : Env) (t : ThreadId) (frame : SyncFrame) (rest : List SyncFrame)
    (forceNewLoop : Bool) (l : LoopId) (s : State) : State :=
  park env t frame rest (newCall env t frame forceNewLoop l false s) (callContext env t frame s)
    .queued s

/-- A new loop runs the task on a thread of its own. Threads start with an empty context unless they
inherit theirs. -/
def callNewLoop (env : Env) (t : ThreadId) (frame : SyncFrame) (rest : List SyncFrame)
    (forceNewLoop : Bool) (s : State) : State :=
  let base := if env.threadInheritContext then callContext env t frame s else ∅
  { park env t frame rest (newCall env t frame forceNewLoop s.nextLoop true s) base
      (.created false) s with
    loop := Function.update s.loop s.nextLoop ⟨s.nextThread, some s.nextCall⟩
    loopRunning := Function.update s.loopRunning s.nextLoop true
    nextThread := s.nextThread + 1
    nextLoop := s.nextLoop + 1 }

/-- The innermost frame of thread `t` calls `async_to_sync`. -/
def call (env : Env) (t : ThreadId) (forceNewLoop : Bool) (s : State) : Option State :=
  match s.stack t with
  | [] => none
  | frame :: rest =>
      -- a parked frame calls nothing
      if frame.call = none then
        match parentLoop env forceNewLoop t s with
        | some l => some (callParent env t frame rest forceNewLoop l s)
        | none => some (callNewLoop env t frame rest forceNewLoop s)
      else none

/-- The context of the calling frame after the `finally` block. If restoring raises, the executor of
the call stays the current one. -/
def leaveContext (env : Env) (t : ThreadId) (frame : SyncFrame) (c : CallId) (s : State) :
    Context :=
  match restoreContext env.ne (env.getIdent t) (s.frameContext t frame) (s.captured c) with
  | (context, none) =>
      Local.setattr (env.getIdent t) context executors "current" (s.call c).oldExecutor
  | (context, some _) => context

/-- The frame goes on after the call. -/
def unpark (env : Env) (t : ThreadId) (frame : SyncFrame) (rest : List SyncFrame) (c : CallId)
    (s : State) : State :=
  let context := leaveContext env t frame c s
  { s with
    stack := Function.update s.stack t (⟨frame.item, none⟩ :: rest)
    itemContext := setItemContext frame context s
    baseContext := setBaseContext t frame context s }

/-- `run_until_future` returns on thread `t`, and the call ends. -/
def leave (env : Env) (t : ThreadId) (s : State) : Option State :=
  match s.stack t with
  | [] => none
  | frame :: rest =>
      match frame.call with
      | some c =>
          -- the queue is drained before `run_until_future` returns
          if s.broken c = true ∧ s.workItems c = [] then some (unpark env t frame rest c s)
          else none
      | none => none

/-! ## Items on threads -/

/-- The next item for the thread: from the executor in whose `run_until_future` it is, or, for an
idle worker, from its own queue; with the queues after that. -/
def dequeue (t : ThreadId) (s : State) :
    Option (ItemId × (ThreadId → List ItemId) × (CallId → List ItemId)) :=
  match s.stack t with
  -- a thread without a frame can only be the worker of a pool
  | [] =>
      match s.workerItems t with
      | [] => none
      | x :: queue => some (x, Function.update s.workerItems t queue, s.workItems)
  | frame :: _ =>
      match frame.call with
      | some c =>
          match s.workItems c with
          | [] => none
          | x :: queue => some (x, s.workerItems, Function.update s.workItems c queue)
      | none => none

/-- The function of an item starts, in its context as it is after restoring it there. -/
def enterItem (env : Env) (t : ThreadId) (x : ItemId) (context : Context) (s : State) : State :=
  { s with
    mainEventLoop := Function.update s.mainEventLoop t (some ((s.item x).loop, env.getpid))
    taskContext := Function.update s.taskContext t (some x)
    stack := Function.update s.stack t (⟨some x, none⟩ :: s.stack t)
    itemContext := Function.update s.itemContext x context
    phase := Function.update s.phase x (.running t)
    ranOn := Function.update s.ranOn x (some t)
    startedAt := Function.update s.startedAt x s.nextCall }

/-- Restoring the context raises, and the function is not called. -/
def failItem (env : Env) (t : ThreadId) (x : ItemId) (context : Context) (e : PyError)
    (s : State) : State :=
  { s with
    mainEventLoop := Function.update s.mainEventLoop t (some ((s.item x).loop, env.getpid))
    taskContext := Function.update s.taskContext t (some x)
    itemContext := Function.update s.itemContext x context
    phase := Function.update s.phase x (.returned (.error e)) }

/-- `thread_handler` on thread `t`: it fills the thread's slots, and `context.run` enters the
context of the item and restores it there. -/
def threadHandler (env : Env) (t : ThreadId) (x : ItemId) (s : State) : State :=
  match restoreContext env.ne (env.getIdent t) (s.itemContext x) (s.itemContext x) with
  | (context, none) => enterItem env t x context s
  | (context, some e) => failItem env t x context e s

/-- The queues after a thread has taken an item. -/
def setQueues (workerItems : ThreadId → List ItemId) (workItems : CallId → List ItemId)
    (s : State) : State :=
  { s with workerItems := workerItems, workItems := workItems }

/-- Thread `t` takes an item and runs it, unless its future was cancelled. -/
def take (env : Env) (t : ThreadId) (s : State) : Option State :=
  match dequeue t s with
  | some (x, workerItems, workItems) =>
      -- `set_running_or_notify_cancel`
      if s.phase x = .queued then
        some (threadHandler env t x (setQueues workerItems workItems s))
      else some (setQueues workerItems workItems s)
  | none => none

/-- The innermost frame of thread `t` is gone, with this result. -/
def returnItem (t : ThreadId) (rest : List SyncFrame) (x : ItemId) (r : Result) (s : State) :
    State :=
  { s with
    stack := Function.update s.stack t rest
    phase := Function.update s.phase x (.returned r) }

/-- The function that thread `t` runs returns or raises. -/
def ret (t : ThreadId) (r : Result) (s : State) : Option State :=
  match s.stack t with
  | [] => none
  | frame :: rest =>
      match frame.item, frame.call with
      | some x, none => some (returnItem t rest x r s)
      | _, _ => none

/-! ## User code -/

/-- The innermost frame of thread `t` works on its context, asgiref's own `Local` apart. -/
def work (t : ThreadId) (context : Context) (s : State) : Option State :=
  match s.stack t with
  | [] => none
  | frame :: _ =>
      if frame.call = none ∧
          Local.storage context executors = Local.storage (s.frameContext t frame) executors then
        some { s with
          itemContext := setItemContext frame context s
          baseContext := setBaseContext t frame context s }
      else none

/-- A new task, in this context. -/
def addTask (task : Task) (status : TaskStatus) (context : Context) (s : State) : State :=
  { s with
    task := Function.update s.task s.nextTask task
    status := Function.update s.status s.nextTask status
    context := Function.update s.context s.nextTask context
    nextTask := s.nextTask + 1 }

/-- The innermost frame of thread `t` has a loop create a task, which starts in a copy of the
frame's context. -/
def spawnThreadsafe (t : ThreadId) (l : LoopId) (s : State) : Option State :=
  match s.stack t with
  | [] => none
  | frame :: _ =>
      if frame.call = none ∧ l < s.nextLoop then
        some (addTask ⟨l, none, none⟩ .queued (s.frameContext t frame) s)
      else none

/-- A loop of the user's own starts, on a thread of its own and with a first task. -/
def startLoop (context : Context) (s : State) : Option State :=
  some { addTask ⟨s.nextLoop, none, none⟩ .running context s with
    loop := Function.update s.loop s.nextLoop ⟨s.nextThread, none⟩
    loopRunning := Function.update s.loopRunning s.nextLoop true
    nextThread := s.nextThread + 1
    nextLoop := s.nextLoop + 1 }

end Runtime

end Asgiref
