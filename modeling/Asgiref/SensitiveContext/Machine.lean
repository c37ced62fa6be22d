import Mathlib.Logic.Function.Basic
import Asgiref.Lib.Machine
import Asgiref.Lib.Worker

/-! # Exits of a `ThreadSensitiveContext`

The tasks of one event loop enter blocks `async with ThreadSensitiveContext()`, start further tasks,
which get copies of their context, and await thread-sensitive functions. Those of one context object
share an executor with one worker. The outermost exit has the executor shut down and waits for that;
but the worker may itself wait for the loop, in a call of `async_to_sync`, so it is joined in a
thread of its own, and the exit awaits a future of that.

* **`Pool`** — the executors, the calls that were submitted to them, and the exits, with what
  **`Pool.submit`** and **`Pool.retire`** do.
* **`State`** — the tasks with their context variable and their blocks, and the pool.
* **`machine`** — tasks, workers and joining threads, in any order.

The tasks are those that were not started in a call of `async_to_sync`. One that was has a current
thread executor, `SyncToAsync.__call__` puts its calls there and never into an executor of a
context, and so it does nothing to these; when what a parked function awaits comes to its end is
left open. Each block makes an object of its own, as `async with ThreadSensitiveContext()` does, and
nothing is cancelled but exits. -/

namespace Asgiref.SensitiveContext

/-- A call of a thread-sensitive function. -/
structure Call where
  task : Nat
  /-- The context object in whose executor it is. -/
  object : Nat
  executor : Nat
  /-- The function is in a call of `async_to_sync`, and waits for the loop. -/
  parked : Bool
  done : Bool
  deriving DecidableEq, Repr

/-- What an exit awaits: the executor is being joined, `join` has set the result of the future, the
exit has returned, or it was cancelled. -/
inductive Await
  | joining
  | joined
  | returned
  | cancelled
  deriving DecidableEq, Repr

/-- An exit that has found an executor. -/
structure Exit where
  task : Nat
  object : Nat
  executor : Nat
  await : Await
  /-- The thread that runs `join` has not ended. -/
  thread : Bool
  deriving DecidableEq, Repr

/-! ## The pool -/

/-- The executors, the calls and the exits, all of them numbered. -/
structure Pool where
  contextToThreadExecutor : Nat → Option Nat
  executor : Nat → Worker Nat
  /-- The number of executors made so far, and those of calls and exits. -/
  made : Nat
  call : Nat → Option Call
  calls : Nat
  exit : Nat → Option Exit
  exits : Nat

namespace Pool

def init : Pool where
  contextToThreadExecutor _ := none
  executor _ := .new Nat
  made := 0
  call _ := none
  calls := 0
  exit _ := none
  exits := 0

def setExecutor (e : Nat) (worker : Worker Nat) (p : Pool) : Pool :=
  { p with executor := Function.update p.executor e worker }

def setCall (c : Nat) (call : Call) (p : Pool) : Pool :=
  { p with call := Function.update p.call c (some call) }

def setExit (x : Nat) (exit : Exit) (p : Pool) : Pool :=
  { p with exit := Function.update p.exit x (some exit) }

/-- `SyncToAsync.__call__` looks up the executor of its context object, or makes one. -/
def executorOf (o : Nat) (p : Pool) : Nat × Pool :=
  match p.contextToThreadExecutor o with
  | some e => (e, p)
  | none =>
      (p.made, { p with
        contextToThreadExecutor := Function.update p.contextToThreadExecutor o (some p.made)
        made := p.made + 1 })

/-- Task `t` submits its call; `none` where that raises. -/
def submit (t o : Nat) (p : Pool) : Option Pool :=
  let (e, p) := p.executorOf o
  ((p.executor e).submit p.calls).map fun worker =>
    { (p.setExecutor e worker).setCall p.calls ⟨t, o, e, false, false⟩ with calls := p.calls + 1 }

/-- `context_to_thread_executor.pop(self, None)`, and what comes of it: an exit that waits for the
executor, if there is one. -/
def retire (t o : Nat) (p : Pool) : Pool :=
  match p.contextToThreadExecutor o with
  | none => p
  | some e =>
      { p.setExit p.exits ⟨t, o, e, .joining, true⟩ with
        contextToThreadExecutor := Function.update p.contextToThreadExecutor o none
        exits := p.exits + 1 }

end Pool

/-! ## The machine -/

/-- What a task does. -/
inductive Point
  | ready
  | calling (c : Nat)
  | exiting (x : Nat)
  deriving DecidableEq, Repr

/-- The tasks and the pool. -/
structure State where
  /-- `thread_sensitive_context` in the context of each task. -/
  var : Nat → Option Nat
  /-- The objects of the blocks that each task is in, innermost first. -/
  blocks : Nat → List Nat
  point : Nat → Point
  /-- The number of tasks so far. -/
  tasks : Nat
  /-- The objects that have a token: their blocks are outermost. -/
  token : Nat → Bool
  objects : Nat
  pool : Pool

/-- One task, in no context. -/
def init : State where
  var _ := none
  blocks _ := []
  point _ := .ready
  tasks := 1
  token _ := false
  objects := 0
  pool := .init

/-- What happens. -/
inductive Action
  /-- A task starts another one. -/
  | spawn (t : Nat)
  | enter (t : Nat)
  | exit (t : Nat)
  | call (t : Nat)
  /-- The worker of an executor takes its next call. -/
  | take (e : Nat)
  /-- A function calls `async_to_sync`. -/
  | park (c : Nat)
  /-- What it awaits there has ended on the loop. -/
  | serve (c : Nat)
  /-- A function ends. -/
  | finish (c : Nat)
  /-- The joining thread of an exit calls `executor.shutdown()`, which does not return yet. -/
  | shutdown (x : Nat)
  /-- Now it returns, and the thread ends. -/
  | join (x : Nat)
  /-- An exit returns. -/
  | resume (x : Nat)
  /-- An exit is cancelled. -/
  | cancel (x : Nat)
  deriving DecidableEq, Repr

/-- The task runs. -/
def State.ready (s : State) (t : Nat) : Bool := t < s.tasks && s.point t == .ready

/-- `__aenter__`. -/
def aenter (t : Nat) (s : State) : State :=
  let s' := { s with
    blocks := Function.update s.blocks t (s.objects :: s.blocks t)
    objects := s.objects + 1 }
  match s.var t with
  | some _ => s'
  | none =>
      { s' with
        var := Function.update s.var t (some s.objects)
        token := Function.update s.token s.objects true }

/-- `__aexit__`, up to where it suspends, if it does. -/
def aexit (t : Nat) (s : State) : Option State :=
  match s.blocks t with
  | [] => none
  | o :: rest =>
      let s := { s with blocks := Function.update s.blocks t rest }
      if s.token o then
        some { s with
          pool := s.pool.retire t o
          var := Function.update s.var t none
          point :=
            if (s.pool.contextToThreadExecutor o).isSome then
              Function.update s.point t (.exiting s.pool.exits)
            else s.point }
      else some s

/-- `await sync_to_async(function)()` in a context, by a task without a current thread executor. -/
def callSync (t : Nat) (s : State) : Option State :=
  (s.var t).bind fun o =>
    (s.pool.submit t o).map fun pool =>
      { s with pool := pool, point := Function.update s.point t (.calling s.pool.calls) }

/-- The call that the worker of its executor runs. -/
def State.running (s : State) (c : Nat) : Option Call :=
  (s.pool.call c).filter fun call => (s.pool.executor call.executor).running = some c

/-- The tasks of one loop, the workers and the joining threads. -/
def machine : Machine State Action where
  step s
    | .spawn t =>
        if s.ready t then
          some { s with var := Function.update s.var s.tasks (s.var t), tasks := s.tasks + 1 }
        else none
    | .enter t => if s.ready t then some (aenter t s) else none
    | .exit t => if s.ready t then aexit t s else none
    | .call t => if s.ready t then callSync t s else none
    | .take e =>
        (s.pool.executor e).take.map fun worker => { s with pool := s.pool.setExecutor e worker }
    | .park c =>
        (s.running c).bind fun call =>
          if call.parked then none
          else some { s with pool := s.pool.setCall c { call with parked := true } }
    | .serve c =>
        (s.running c).bind fun call =>
          if call.parked then
            some { s with pool := s.pool.setCall c { call with parked := false } }
          else none
    | .finish c =>
        (s.running c).bind fun call =>
          if call.parked then none
          else
            some { s with
              pool :=
                (s.pool.setExecutor call.executor (s.pool.executor call.executor).finish).setCall c
                  { call with done := true }
              point := Function.update s.point call.task .ready }
    | .shutdown x =>
        (s.pool.exit x).bind fun exit =>
          if (s.pool.executor exit.executor).shutdown then none
          else
            some { s with
              pool := s.pool.setExecutor exit.executor (s.pool.executor exit.executor).close }
    | .join x =>
        (s.pool.exit x).bind fun exit =>
          if exit.thread ∧ (s.pool.executor exit.executor).shutdown ∧
              (s.pool.executor exit.executor).items = [] then
            some { s with
              pool := s.pool.setExit x { exit with
                thread := false
                -- where the exit was cancelled, an `InvalidStateError` is passed over
                await := if exit.await = .joining then .joined else exit.await } }
          else none
    | .resume x =>
        (s.pool.exit x).bind fun exit =>
          match exit.await with
          | .joined =>
              some { s with
                pool := s.pool.setExit x { exit with await := .returned }
                point := Function.update s.point exit.task .ready }
          | _ => none
    | .cancel x =>
        (s.pool.exit x).bind fun exit =>
          match exit.await with
          | .joining | .joined =>
              some { s with
                pool := s.pool.setExit x { exit with await := .cancelled }
                point := Function.update s.point exit.task .ready }
          | _ => none

end Asgiref.SensitiveContext
