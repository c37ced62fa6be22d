import Mathlib.Logic.Function.Basic
import Asgiref.Bridge.Program
import Asgiref.Crossing

/-! # The two bridges

The calls that move a frame's program across threads, for programs in which one frame runs at a time
and every other one waits for it. The state outside the frames is a `World`: the threads' slots, the
event loops, and the executors.

* **`AsyncToSync.call`** — `AsyncToSync.__call__`, with **`mainWrap`** around the awaitable.
* **`SyncToAsync.call`** — `SyncToAsync.__call__`, with **`selectExecutor`** for its choice of an
  executor and **`threadHandler`** around the function.
* **`asyncioRun`** and **`task`** — the standard library's `asyncio.run` and a task awaited at once.

A call can fail to return: the item it queued waits for a thread that itself waits for the call, or
the task of `main_wrap` ends before its `try`. Such a run is `stuck`, and its world is the one it is
stuck in. A custom context is given by what it holds when the call is made.
`AsyncSingleThreadContext` is not part of this file: a new loop gets a thread of its own. -/

namespace Asgiref

abbrev ThreadId := Nat
abbrev LoopId := Nat
abbrev ExecId := Nat

/-- What the process provides: `threading.get_ident()` of each thread, `os.getpid()`, the comparison
of values, and `sys.flags.thread_inherit_context`. -/
structure Env where
  getIdent : ThreadId → Nat
  getpid : Nat
  ne : Comparison
  threadInheritContext : Bool

/-- An environment for fixed programs: threads start with empty contexts. -/
def plainEnv : Env := ⟨id, 1, .plain, false⟩

/-- A `CurrentThreadExecutor`, as the calls see it. Its `_old_executor` links are given by the chain
they lead along. -/
structure ParkedExecutor where
  workThread : ThreadId
  broken : Bool
  oldExecutors : List ExecId

/-- The executor that a `SyncToAsync` call submits to. -/
inductive ExecutorRef
  | currentThread (e : ExecId)
  /-- A `ThreadPoolExecutor` with one worker, known by that worker. -/
  | worker (t : ThreadId)
  /-- The executor passed in, or the loop's default one. It has an idle worker. -/
  | pool
  deriving DecidableEq, Repr

/-- A `SyncToAsync` call that came to ask `deadlock_context`: whether its context is clean (see
`Frame`), and whether it raised. -/
structure Guard where
  clean : Bool
  raised : Bool
  deriving DecidableEq, Repr

/-- A frame: its thread, its context and tokens, and two records for the proofs. -/
structure Frame extends Scope where
  thread : ThreadId
  /-- The context came down from a function that occupies the single-thread executor, by copies and
  merges, and no `sync_to_async` call has reset its flag since. -/
  clean : Bool
  /-- The context came down from the outermost frame, by copies and merges. -/
  inherited : Bool

/-- What there is besides the frames. -/
structure World where
  nextThread : ThreadId
  nextLoop : LoopId
  nextExecutor : ExecId
  /-- The loop running on a thread. -/
  runningLoop : ThreadId → Option LoopId
  loopThread : LoopId → ThreadId
  /-- `SyncToAsync.threadlocal`: `main_event_loop` and `main_event_loop_pid`. -/
  mainEventLoop : ThreadId → Option (LoopId × Nat)
  /-- `AsyncToSync.loop_thread_executors`. -/
  loopThreadExecutors : LoopId → Option ExecId
  executor : ExecId → ParkedExecutor
  /-- The executor in whose `run_until_future` a thread is waiting. -/
  waitingIn : ThreadId → Option ExecId
  /-- `SyncToAsync.context_to_thread_executor`: the worker of the executor of a
  `ThreadSensitiveContext`. -/
  contextToThreadExecutor : Value → Option ThreadId
  /-- Whether a worker is running an item. -/
  busy : ThreadId → Bool
  /-- The answers to all operations so far. -/
  replies : List Reply
  /-- The frame that runs, as it stands, at every point so far. -/
  points : List Frame
  /-- The calls that asked `deadlock_context` so far. -/
  guards : List Guard
  /-- The contexts that were restored so far. -/
  crossings : List Crossing

/-- A frame comes to a point of its program. -/
def World.visit (fr : Frame) (w : World) : World := { w with points := w.points ++ [fr] }

/-- A context is restored in another. -/
def World.cross (moved current : Context) (w : World) : World :=
  { w with crossings := w.crossings ++ [⟨moved, current⟩] }

/-- A process in which nothing has run yet. Thread 0 is the worker of the single-thread executor. -/
def World.start : World where
  nextThread := 2
  nextLoop := 0
  nextExecutor := 0
  runningLoop _ := none
  loopThread _ := 0
  mainEventLoop _ := none
  loopThreadExecutors _ := none
  executor _ := ⟨0, true, []⟩
  waitingIn _ := none
  contextToThreadExecutor _ := none
  busy _ := false
  replies := []
  points := []
  guards := []
  crossings := []

/-- The thread that the process starts with. -/
def mainThread : ThreadId := 1

/-- A frame that starts on a thread in this context. -/
def Frame.root (t : ThreadId) (context : Context) : Frame := ⟨⟨context, []⟩, t, false, true⟩

/-- Why a run does not go on. -/
inductive Stuck
  /-- An item was queued on an executor whose thread waits for it. -/
  | deadlock (executor : ExecutorRef)
  /-- The task of `main_wrap` ended with this exception of `_restore_context`, and the caller waits
  for a result that no one will set. -/
  | restoreRaised (e : PyError)
  deriving DecidableEq

/-- How a call ends: it is done, or the run is stuck. -/
inductive Outcome
  | done (r : Result) (fr : Frame) (w : World)
  | stuck (why : Stuck) (w : World)

/-- The world that a run ends in. -/
def Outcome.world : Outcome → World
  | .done _ _ w | .stuck _ w => w

/-- A program that is ready to run in a frame. -/
abbrev Body := Frame → World → Outcome

/-- Go on with the result of a call; a stuck run stays stuck. -/
def Outcome.bind : Outcome → (Result → Body) → Outcome
  | .done r fr w, next => next r fr w
  | .stuck why w, _ => .stuck why w

@[simp] theorem Outcome.bind_done (r : Result) (fr : Frame) (w : World) (next : Result → Body) :
    (Outcome.done r fr w).bind next = next r fr w := rfl

@[simp] theorem Outcome.bind_stuck (why : Stuck) (w : World) (next : Result → Body) :
    (Outcome.stuck why w).bind next = .stuck why w := rfl

/-! ## asgiref's own variables -/

/-- The `Local` `AsyncToSync.executors`. -/
def executors : Nat := 0

/-- `SyncToAsync.deadlock_context`. -/
abbrev deadlockContext : ContextVar := .user "deadlock_context" ⟨0, none⟩

/-- `SyncToAsync.thread_sensitive_context`. -/
abbrev threadSensitiveContext : ContextVar := .user "thread_sensitive_context" ⟨1, none⟩

/-- `self.deadlock_context.get(False)`, as an `if` takes it. -/
def deadlockFlag (c : Context) : Bool :=
  match c.lookup deadlockContext with
  | some v => Value.truthy v
  | none => false

/-- `self.deadlock_context.set(b)`. -/
def setDeadlock (c : Context) (b : Bool) : Context :=
  c.insert deadlockContext (Value.obj (.bool b))

/-- `getattr(AsyncToSync.executors, "current", None)`. -/
def currentExecutor (getIdent : Nat) (c : Context) : Obj :=
  match Local.getattr getIdent c executors "current" with
  | .ok o => o
  | .error _ => .none

/-- What a thread has set as the current executor it sees. -/
theorem currentExecutor_setattr (i : Nat) (c : Context) (o : Obj) :
    currentExecutor i (Local.setattr i c executors "current" o) = o := by
  unfold currentExecutor
  rw [Local.getattr_eq, Local.setattr_eq,
    Local.view_of_owner (Local.storage_setStorage_self _ _ _), AList.lookup_insert]

/-- The chain of executors that an `old_executor` stands at the head of. -/
def World.chain (w : World) : Obj → List ExecId
  | .executor e => e :: (w.executor e).oldExecutors
  | _ => []

/-! ## `AsyncToSync` -/

namespace AsyncToSync

/-- The parent loop: the one in the thread's slot, unless a new one is forced or the slot was filled
in another process. -/
def mainEventLoop (env : Env) (forceNewLoop : Bool) (t : ThreadId) (w : World) : Option LoopId :=
  if forceNewLoop then none
  else match w.mainEventLoop t with
    -- a slot that was filled before a fork names a loop of the other process
    | some (loop, pid) => if pid = env.getpid then some loop else none
    | none => none

/-- `main_event_loop is not None and main_event_loop.is_running()`. -/
def parentLoop (env : Env) (forceNewLoop : Bool) (t : ThreadId) (w : World) : Option LoopId :=
  match mainEventLoop env forceNewLoop t w with
  | some loop => if w.runningLoop (w.loopThread loop) = some loop then some loop else none
  | none => none

/-- `main_wrap` on thread `t`, in a task whose context is `base`: it restores the context of the
caller there, awaits the awaitable, and hands over the context at its end, here as that of the
frame. The restoring stands outside the `try`: if it raises, so does the task. -/
def mainWrap (env : Env) (awaitable : Body) (base : Context) (caller : Frame) (t : ThreadId)
    (raised : PyError → World → Outcome) (w : World) : Outcome :=
  let w := w.cross caller.context base
  match restoreContext env.ne (env.getIdent t) base caller.context with
  | (c, none) => awaitable { caller with context := c, tokens := [], thread := t } w
  | (_, some e) => raised e w

/-- Make the executor of a call and wait in it. -/
def enter (t : ThreadId) (oldExecutor : Obj) (w : World) : World :=
  { w with
    nextExecutor := w.nextExecutor + 1
    executor := Function.update w.executor w.nextExecutor ⟨t, false, w.chain oldExecutor⟩
    waitingIn := Function.update w.waitingIn t (some w.nextExecutor) }

/-- Start a loop on a thread of its own, registered with the executor of the call. -/
def startLoop (e : ExecId) (w : World) : World :=
  { w with
    nextThread := w.nextThread + 1
    nextLoop := w.nextLoop + 1
    runningLoop := Function.update w.runningLoop w.nextThread (some w.nextLoop)
    loopThread := Function.update w.loopThread w.nextLoop w.nextThread
    loopThreadExecutors := Function.update w.loopThreadExecutors w.nextLoop (some e) }

/-- The end of that loop. -/
def stopLoop (t : ThreadId) (loop : LoopId) (w : World) : World :=
  { w with
    runningLoop := Function.update w.runningLoop t none
    loopThreadExecutors := Function.update w.loopThreadExecutors loop none }

/-- Run the awaitable: on the parent loop, in a task whose context is a copy of the caller's, or on
a new loop, in a thread that starts with an empty context unless threads inherit theirs. If the task
raises, the caller on the parent loop is never told; on a new loop the exception comes out of
`loop_future`, and the context is as the caller left it. -/
def dispatch (env : Env) (forceNewLoop : Bool) (awaitable : Body) (e : ExecId) (caller : Frame)
    (w : World) : Outcome :=
  match parentLoop env forceNewLoop caller.thread w with
  -- `call_soon_threadsafe`, and `run_until_future(call_result)`
  | some loop =>
      mainWrap env awaitable caller.context caller (w.loopThread loop)
        (fun error w' => .stuck (.restoreRaised error) w') w
  -- `asyncio.run` in a worker, and `run_until_future(loop_future)`
  | none =>
      let base := if env.threadInheritContext then caller.context else ∅
      (mainWrap env awaitable base caller w.nextThread
          (fun error w' => .done (.error error) caller w') (startLoop e w)).bind
        fun r captured w' => .done r captured (stopLoop w.nextThread w.nextLoop w')

/-- The end of the wait: `run_until_future` leaves a broken executor behind. -/
def quit (e : ExecId) (t : ThreadId) (w : World) : World :=
  { w with
    executor := Function.update w.executor e { w.executor e with broken := true }
    waitingIn := Function.update w.waitingIn t none }

/-- The end of a call: the context that `main_wrap` captured is restored, and the caller's old
executor is the current one again. Both come in a `finally`; if restoring raises, the executor
stays. -/
def leave (env : Env) (e : ExecId) (oldExecutor : Obj) (r : Result) (captured caller : Frame)
    (w : World) : Outcome :=
  let i := env.getIdent caller.thread
  let w := w.cross captured.context caller.context
  match restoreContext env.ne i caller.context captured.context with
  | (c, none) =>
      .done r { caller with
        context := Local.setattr i c executors "current" oldExecutor
        clean := captured.clean } (quit e caller.thread w)
  | (c, some error) =>
      .done (.error error) { caller with
        context := c
        clean := caller.clean && captured.clean } (quit e caller.thread w)

/-- The caller's frame while it waits: its own executor is the current one. -/
def callerFrame (env : Env) (e : ExecId) (fr : Frame) : Frame :=
  { fr with
    context := Local.setattr (env.getIdent fr.thread) fr.context executors "current" (.executor e) }

/-- `AsyncToSync.__call__`. -/
def call (env : Env) (forceNewLoop : Bool) (awaitable : Body) : Body := fun fr w =>
  match w.runningLoop fr.thread with
  | some _ =>
      .done (.error (.runtimeError ("You cannot use AsyncToSync in the same thread as an async "
        ++ "event loop - just await the async function directly."))) fr w
  -- every sync frame makes an executor, even one below another on the same thread
  | none =>
      let oldExecutor := currentExecutor (env.getIdent fr.thread) fr.context
      let e := w.nextExecutor
      let caller := callerFrame env e fr
      (dispatch env forceNewLoop awaitable e caller (enter fr.thread oldExecutor w)).bind
        fun r captured w' => leave env e oldExecutor r captured caller w'

end AsyncToSync

/-! ## `SyncToAsync` -/

namespace SyncToAsync

/-- The worker of `SyncToAsync.single_thread_executor`. -/
def singleThread : ThreadId := 0

/-- The worker of the executor of a `ThreadSensitiveContext`, made on first use. -/
def sensitiveWorker (context : Value) (w : World) : ThreadId × World :=
  match w.contextToThreadExecutor context with
  | some t => (t, w)
  | none => (w.nextThread, { w with
      nextThread := w.nextThread + 1
      contextToThreadExecutor :=
        Function.update w.contextToThreadExecutor context (some w.nextThread) })

/-- The choice of an executor for a thread-sensitive call that finds no current one: that of the
`ThreadSensitiveContext`, that of the running loop, or the single-thread executor, which
`deadlock_context` guards. -/
def selectOutermost (loop : LoopId) (fr : Frame) (w : World) :
    Except PyError ExecutorRef × Frame × World :=
  match (fr.context.lookup threadSensitiveContext).filter Value.truthy with
  | some context =>
      (.ok (.worker (sensitiveWorker context w).1), fr, (sensitiveWorker context w).2)
  | none =>
      match w.loopThreadExecutors loop with
      -- a task of a new loop: the call that has started the loop serves it
      | some e => (.ok (.currentThread e), fr, w)
      | none =>
          if deadlockFlag fr.context then
            (.error (.runtimeError "Single thread executor already being used, would deadlock"),
              fr, { w with guards := w.guards ++ [⟨fr.clean, true⟩] })
          else
            (.ok (.worker singleThread), { fr with context := setDeadlock fr.context true },
              { w with guards := w.guards ++ [⟨fr.clean, false⟩] })

/-- The choice of an executor for a thread-sensitive call: the current one of the closest sync
frame, if there is one. -/
def selectThreadSensitive (env : Env) (loop : LoopId) (fr : Frame) (w : World) :
    Except PyError ExecutorRef × Frame × World :=
  match currentExecutor (env.getIdent fr.thread) fr.context with
  | .executor e => (.ok (.currentThread e), fr, w)
  | _ => selectOutermost loop fr w

/-- The choice of an executor. -/
def selectExecutor (env : Env) (threadSensitive : Bool) (loop : LoopId) (fr : Frame) (w : World) :
    Except PyError ExecutorRef × Frame × World :=
  if threadSensitive then selectThreadSensitive env loop fr w else (.ok .pool, fr, w)

/-- `executor.submit` from thread `caller`: the executor that takes the item and the thread that is
to run it. A `CurrentThreadExecutor` passes the item on to the closest older one still running. -/
def submit (caller : ThreadId) (w : World) : ExecutorRef → Except PyError (ExecutorRef × ThreadId)
  | .currentThread e =>
      if caller = (w.executor e).workThread then
        .error (.runtimeError "You cannot submit onto CurrentThreadExecutor from its own thread")
      else
        -- the walk along the `_old_executor` links
        match (e :: (w.executor e).oldExecutors).find? fun e' => !(w.executor e').broken with
        | some e' => .ok (.currentThread e', (w.executor e').workThread)
        | none => .error (.runtimeError "CurrentThreadExecutor already quit or is broken")
  | .worker t => .ok (.worker t, t)
  -- a worker that no frame has been on
  | .pool => .ok (.pool, w.nextThread)

/-- Whether the thread takes the item: it waits in that executor's `run_until_future`, or is an idle
worker. Every other thread runs a frame that waits for the item. -/
def serves (ref : ExecutorRef) (t : ThreadId) (w : World) : Bool :=
  match ref with
  | .currentThread e => w.waitingIn t = some e
  | .worker _ => !w.busy t
  | .pool => true

/-- The thread takes the item; `thread_handler` fills the slots of the thread. -/
def startItem (env : Env) (loop : LoopId) (ref : ExecutorRef) (t : ThreadId) (w : World) : World :=
  let w := { w with mainEventLoop := Function.update w.mainEventLoop t (some (loop, env.getpid)) }
  match ref with
  | .currentThread _ => { w with waitingIn := Function.update w.waitingIn t none }
  | .worker _ => { w with busy := Function.update w.busy t true }
  | .pool => { w with nextThread := w.nextThread + 1 }

/-- The thread is done with the item and waits for the next. -/
def endItem (ref : ExecutorRef) (t : ThreadId) (w : World) : World :=
  match ref with
  | .currentThread e => { w with waitingIn := Function.update w.waitingIn t (some e) }
  | .worker _ => { w with busy := Function.update w.busy t false }
  | .pool => w

/-- Whether the function starts in a clean context: it has just taken the single-thread executor, or
its caller's context was clean; a custom context has to bring the flag along. -/
def childClean (custom : Option Context) (ref : ExecutorRef) (fr : Frame) : Bool :=
  match custom with
  | none => fr.clean || ref = .worker singleThread
  | some c => deadlockFlag c

/-- The frame of the function on thread `t`, as `context.run` enters it. -/
def childFrame (custom : Option Context) (ref : ExecutorRef) (t : ThreadId) (fr : Frame) :
    Frame where
  context := custom.getD fr.context
  tokens := []
  thread := t
  clean := childClean custom ref fr
  inherited := fr.inherited && custom.isNone

/-- `thread_handler`, with the function that re-homes the entered context and runs the child. -/
def threadHandler (env : Env) (child : Body) (start : Frame) (w : World) : Outcome :=
  let w := w.cross start.context start.context
  match restoreContext env.ne (env.getIdent start.thread) start.context start.context with
  | (c, none) => child { start with context := c } w
  | (c, some e) => .done (.error e) { start with context := c } w

/-- The `finally` of `SyncToAsync.__call__`: unless the context was the caller's to give, its
changes are restored; then `deadlock_context` is reset, unless restoring raised. -/
def leave (env : Env) (custom : Option Context) (r : Result) (child : Frame) (fr : Frame)
    (w : World) : Outcome :=
  match custom with
  -- nothing is restored from a context that was passed in
  | some _ =>
      .done r { fr with context := setDeadlock fr.context false, clean := false } w
  | none =>
      let w := w.cross child.context fr.context
      match restoreContext env.ne (env.getIdent fr.thread) fr.context child.context with
      | (c, none) => .done r { fr with context := setDeadlock c false, clean := false } w
      | (c, some e) =>
          .done (.error e) { fr with context := c, clean := fr.clean && child.clean } w

/-- `SyncToAsync.__call__`. -/
def call (env : Env) (threadSensitive : Bool) (custom : Option Context) (func : Body) : Body :=
  fun fr w =>
    match w.runningLoop fr.thread with
    | none => .done (.error (.runtimeError "no running event loop")) fr w
    | some loop =>
        match selectExecutor env threadSensitive loop fr w with
        | (.error e, fr, w) => .done (.error e) fr w
        | (.ok selected, fr, w) =>
            match submit fr.thread w selected with
            | .error e => .done (.error e) fr w
            | .ok (ref, t) =>
                if serves ref t w then
                  (threadHandler env func (childFrame custom ref t fr)
                      (startItem env loop ref t w)).bind
                    fun r child w' => leave env custom r child fr (endItem ref t w')
                -- the thread that is to run the item waits for this call
                else .stuck (.deadlock ref) w

end SyncToAsync

/-! ## The standard library -/

/-- `asyncio.run`: a new loop on the current thread, whose main task runs in a copy of the current
context. -/
def asyncioRun (main : Body) : Body := fun fr w =>
  match w.runningLoop fr.thread with
  | some _ =>
      .done (.error (.runtimeError "asyncio.run() cannot be called from a running event loop"))
        fr w
  | none =>
      let w' := { w with
        nextLoop := w.nextLoop + 1
        runningLoop := Function.update w.runningLoop fr.thread (some w.nextLoop)
        loopThread := Function.update w.loopThread w.nextLoop fr.thread }
      (main { fr with tokens := [] } w').bind fun r _ w'' =>
        .done r fr { w'' with runningLoop := Function.update w''.runningLoop fr.thread none }

/-- A task that the frame awaits: it runs in a copy of the frame's context. -/
def task (coro : Body) : Body := fun fr w =>
  (coro { fr with tokens := [] } w).bind fun r _ w' => .done r fr w'

/-- An operation of a frame on its context. -/
def opStep (env : Env) (o : Op) (fr : Frame) (w : World) : Reply × Frame × World :=
  let (reply, scope) := o.apply (env.getIdent fr.thread) fr.toScope
  (reply, { fr with toScope := scope }, { w with replies := w.replies ++ [reply] })

/-! ## Running programs -/

/-- **The bridged run** of a program in a frame. -/
def Prog.run (env : Env) : {side : Side} → Prog side → Body
  | _, .finish r => fun fr w => .done r fr (w.visit fr)
  | _, .op o next => fun fr w =>
      let (reply, fr', w') := opStep env o fr (w.visit fr)
      (next reply).run env fr' w'
  | _, .asyncToSync forceNewLoop awaitable next => fun fr w =>
      (AsyncToSync.call env forceNewLoop (awaitable.run env) fr (w.visit fr)).bind
        fun r => (next r).run env
  | _, .asyncioRun main next => fun fr w =>
      (Asgiref.asyncioRun (main.run env) fr (w.visit fr)).bind fun r => (next r).run env
  | _, .syncToAsync threadSensitive context func next => fun fr w =>
      (SyncToAsync.call env threadSensitive context (func.run env) fr (w.visit fr)).bind
        fun r => (next r).run env
  | _, .task coro next => fun fr w =>
      (Asgiref.task (coro.run env) fr (w.visit fr)).bind fun r => (next r).run env

end Asgiref
