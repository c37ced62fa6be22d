import Asgiref.Bridge.World
import Asgiref.Executor.Machine

/-! # The frames of `AsyncToSync` calls

Threads call `AsyncToSync`. In the frame of a call its thread first runs the callable, and then, in
`run_until_future`, the items of the call's executor; both may call `AsyncToSync` again. Other
threads submit items, and loops run the coroutines of the calls, at any time.

* **`Call`**, **`State`** — what a call keeps, the frames and contexts of each thread, all executors
  with their items, and `loop_thread_executors`.
* **`begin`**, **`schedule`**, **`leave`** — `AsyncToSync.__call__` up to its `try`, the choice of
  the loop, and the `finally` block.
* **`enterItem`**, **`leaveItem`** — the function of an item begins and ends.
* **`startCoroutine`**, **`capture`**, **`finishCoroutine`** — `new_loop_wrap` and `main_wrap`.
* **`machine`** — all steps, with **`Step`** and **`step_inv`**.

A call, the executor that it makes and the loop that it starts have the same number. -/

namespace Asgiref

namespace Calls

open CurrentThreadExecutor (Chain)

abbrev CallId := Nat

/-- Where a call has scheduled its awaitable. -/
inductive Path
  | parentLoop
  | newLoop
  deriving DecidableEq, Repr

/-- The coroutine of a call: `main_wrap`, and on a new loop `new_loop_wrap` around it. -/
inductive Coroutine
  | notStarted
  | underWay
  /-- `context[0]` has been set. -/
  | captured
  | ended
  deriving DecidableEq, Repr

/-- It has begun and not ended. -/
def Coroutine.active : Coroutine → Bool
  | .underWay | .captured => true
  | .notStarted | .ended => false

/-- What a call of `AsyncToSync` keeps. -/
structure Call where
  oldExecutor : Obj
  /-- `context[0]`. -/
  context : Context
  /-- `none` as long as nothing has been scheduled. -/
  path : Option Path
  coroutine : Coroutine

/-- The threads with their calls, and the executors. -/
structure State where
  executors : CurrentThreadExecutor.State
  /-- The calls in whose frames a thread is, innermost first. -/
  stack : ThreadId → List CallId
  /-- The contexts that a thread is in, the current one first. -/
  entered : ThreadId → List Context
  call : CallId → Call
  /-- `AsyncToSync.loop_thread_executors`. -/
  loopThreadExecutors : LoopId → Option CallId
  next : CallId

/-- No call has been made; each thread is in a context. -/
def init (context : ThreadId → Context) : State where
  executors := CurrentThreadExecutor.init
  stack _ := []
  entered t := [context t]
  call _ := ⟨.none, ∅, none, .notStarted⟩
  loopThreadExecutors _ := none
  next := 0

/-- The executor that `old_executor` is. -/
def executorOf : Obj → Option CallId
  | .executor e => some e
  | _ => none

namespace State

variable (s : State)

/-- The current context of a thread. -/
def context (t : ThreadId) : Context := (s.entered t).headD ∅

/-- Where `run_until_future` of a call stands. -/
def loop (c : CallId) : CurrentThreadExecutor.Loop := (s.executors.executor c).loop

/-- `getattr(AsyncToSync.executors, "current", None)` on a thread. -/
def current (env : Env) (t : ThreadId) : Obj := currentExecutor (env.getIdent t) (s.context t)

/-- The thread runs code that is not asgiref's: outside of all calls, the callable of a call, or
the function of an item. -/
def free (t : ThreadId) : Bool :=
  match s.stack t with
  | [] => true
  | c :: _ =>
      match s.loop c, (s.call c).path with
      | .notCalled, none => true
      | .running _, _ => true
      | _, _ => false

/-- The current context of a thread becomes this one. -/
def setContext (t : ThreadId) (context : Context) : State :=
  { s with entered := Function.update s.entered t (context :: (s.entered t).tail) }

def setCall (c : CallId) (call : Call) : State :=
  { s with call := Function.update s.call c call }

end State

/-! ## `AsyncToSync.__call__` -/

/-- The call makes its executor, and copies the context in which that is the current one. -/
def begin (env : Env) (t : ThreadId) (s : State) : State :=
  let context :=
    Local.setattr (env.getIdent t) (s.context t) executors "current" (.executor s.next)
  { (s.setContext t context).setCall s.next ⟨s.current env t, context, none, .notStarted⟩ with
    stack := Function.update s.stack t (s.next :: s.stack t)
    next := s.next + 1 }

/-- A thread calls `AsyncToSync`. -/
def call (env : Env) (chain : Chain) (t : ThreadId) (s : State) : Option State :=
  if s.free t = true ∧ chain.workThread s.next = t ∧
      chain.oldExecutor s.next = executorOf (s.current env t) ∧
      -- an object is made before a context can hold it
      (∀ e ∈ executorOf (s.current env t), e < s.next) then
    some (begin env t s)
  else none

/-- The callable has returned an awaitable, which the parent loop accepts or which goes to a new
loop. -/
def schedule (t : ThreadId) (path : Path) (s : State) : Option State :=
  match s.stack t with
  | c :: _ =>
      match s.loop c, (s.call c).path with
      | .notCalled, none => some (s.setCall c { s.call c with path := some path })
      | _, _ => none
  | [] => none

/-- The `finally` block: `_restore_context(context[0])`, and `self.executors.current =
old_executor`, which is not reached where the first raises. -/
def leaveContext (env : Env) (t : ThreadId) (c : CallId) (s : State) : Context :=
  match restoreContext env.ne (env.getIdent t) (s.context t) (s.call c).context with
  | (context, none) =>
      Local.setattr (env.getIdent t) context executors "current" (s.call c).oldExecutor
  | (context, some _) => context

/-- A call ends. Either nothing was scheduled, since the callable, `call_soon_threadsafe` or the
start of the new loop has raised, or `run_until_future` has returned; the result is a value or an
exception. -/
def leave (env : Env) (t : ThreadId) (s : State) : Option State :=
  match s.stack t with
  | c :: rest =>
      if s.loop c = .notCalled ∧ (s.call c).path = none ∨ s.loop c = .returned then
        some { s.setContext t (leaveContext env t c s) with
          stack := Function.update s.stack t rest }
      else none
  | [] => none

/-! ## Items -/

/-- `thread_handler` calls the function of an item in the item's context. A cancelled item is
dropped. -/
def enterItem (chain : Chain) (t : ThreadId) (context : Context) (s : State) : Option State :=
  match s.stack t with
  | c :: _ =>
      match (CurrentThreadExecutor.machine chain).step s.executors (.start c) with
      | some executors =>
          match (executors.executor c).loop with
          | .running _ => some { s with
              executors := executors
              entered := Function.update s.entered t (context :: s.entered t) }
          | _ => some { s with executors := executors }
      | none => none
  | [] => none

/-- The function has returned or raised. -/
def leaveItem (chain : Chain) (t : ThreadId) (s : State) : Option State :=
  match s.stack t with
  | c :: _ =>
      match (CurrentThreadExecutor.machine chain).step s.executors (.finish c) with
      | some executors => some { s with
          executors := executors
          entered := Function.update s.entered t (s.entered t).tail }
      | none => none
  | [] => none

/-! ## Coroutines -/

/-- The first step of the coroutine, as long as the future that the caller waits for is not done. A
new loop is entered in the table. -/
def startCoroutine (c : CallId) (s : State) : Option State :=
  match (s.call c).path, (s.call c).coroutine, (s.executors.executor c).futureDone with
  | some .parentLoop, .notStarted, false =>
      some (s.setCall c { s.call c with coroutine := .underWay })
  | some .newLoop, .notStarted, false =>
      some { s.setCall c { s.call c with coroutine := .underWay } with
        loopThreadExecutors := Function.update s.loopThreadExecutors c (some c) }
  | _, _, _ => none

/-- The awaitable has returned or raised, or was cancelled, and has left this context:
`context[0] = contextvars.copy_context()`. -/
def capture (c : CallId) (context : Context) (s : State) : Option State :=
  match (s.call c).coroutine with
  | .underWay => some (s.setCall c { s.call c with context := context, coroutine := .captured })
  | _ => none

/-- The last step of the coroutine; `new_loop_wrap` deletes the loop from the table. A `main_wrap`
whose `_restore_context` raises ends without `context[0]` being set. -/
def finishCoroutine (c : CallId) (s : State) : Option State :=
  if (s.call c).coroutine.active then
    match (s.call c).path with
    | some .newLoop =>
        some { s.setCall c { s.call c with coroutine := .ended } with
          loopThreadExecutors := Function.update s.loopThreadExecutors c none }
    | _ => some (s.setCall c { s.call c with coroutine := .ended })
  else none

/-! ## The machine -/

/-- The steps of the threads and the coroutines. -/
inductive Action
  | call (t : ThreadId)
  /-- A thread runs code that is not asgiref's, and its current context is this one then. -/
  | work (t : ThreadId) (context : Context)
  | schedule (t : ThreadId) (path : Path)
  | leave (t : ThreadId)
  | enterItem (t : ThreadId) (context : Context)
  | leaveItem (t : ThreadId)
  | startCoroutine (c : CallId)
  | capture (c : CallId) (context : Context)
  | finishCoroutine (c : CallId)
  /-- All other steps of the executors. -/
  | executor (a : CurrentThreadExecutor.Action)

/-- Which steps of the executors may be taken: `run_until_future` goes on only in the innermost
frame of its thread, `call_result` is resolved after `context[0]` has been set, and the future of a
new loop at any time. -/
def allows (chain : Chain) (s : State) : CurrentThreadExecutor.Action → Bool
  | .submit _ _ e => decide (e < s.next)
  | .walk _ | .cancel _ | .done _ => true
  | .resolve c =>
      match (s.call c).path with
      | some .parentLoop => (s.call c).coroutine = .captured
      | some .newLoop => true
      | none => false
  | .enter c _ => (s.stack (chain.workThread c)).head? = some c && (s.call c).path.isSome
  | .check c => (s.stack (chain.workThread c)).head? = some c
  | .start _ | .finish _ => false

/-- The machine of the calls. -/
def machine (env : Env) (chain : Chain) : Machine State Action where
  step s
    | .call t => call env chain t s
    | .work t context => if s.free t then some (s.setContext t context) else none
    | .schedule t path => schedule t path s
    | .leave t => leave env t s
    | .enterItem t context => enterItem chain t context s
    | .leaveItem t => leaveItem chain t s
    | .startCoroutine c => startCoroutine c s
    | .capture c context => capture c context s
    | .finishCoroutine c => finishCoroutine c s
    | .executor a =>
        if allows chain s a then
          match (CurrentThreadExecutor.machine chain).step s.executors a with
          | some executors => some { s with executors := executors }
          | none => none
        else none

/-- What each action needs, and the state that it leads to. -/
inductive Step (env : Env) (chain : Chain) (s : State) : Action → State → Prop
  | call {t : ThreadId} : s.free t = true → chain.workThread s.next = t →
      chain.oldExecutor s.next = executorOf (s.current env t) →
      (∀ e ∈ executorOf (s.current env t), e < s.next) →
      Step env chain s (.call t) (begin env t s)
  | work {t : ThreadId} (context : Context) : s.free t = true →
      Step env chain s (.work t context) (s.setContext t context)
  | schedule {t : ThreadId} {c : CallId} {rest : List CallId} (path : Path) :
      s.stack t = c :: rest → (s.call c).path = none →
      Step env chain s (.schedule t path) (s.setCall c { s.call c with path := some path })
  | leave {t : ThreadId} {c : CallId} {rest : List CallId} : s.stack t = c :: rest →
      s.loop c = .notCalled ∧ (s.call c).path = none ∨ s.loop c = .returned →
      Step env chain s (.leave t) { s.setContext t (leaveContext env t c s) with
        stack := Function.update s.stack t rest }
  | enterItem {t : ThreadId} {c : CallId} {rest : List CallId} {executors : _} {x : Nat}
      (context : Context) : s.stack t = c :: rest →
      (CurrentThreadExecutor.machine chain).step s.executors (.start c) = some executors →
      (executors.executor c).loop = .running x →
      Step env chain s (.enterItem t context) { s with
        executors := executors
        entered := Function.update s.entered t (context :: s.entered t) }
  | dropItem {t : ThreadId} {c : CallId} {rest : List CallId} {executors : _}
      (context : Context) : s.stack t = c :: rest →
      (CurrentThreadExecutor.machine chain).step s.executors (.start c) = some executors →
      (∀ x, (executors.executor c).loop ≠ .running x) →
      Step env chain s (.enterItem t context) { s with executors := executors }
  | leaveItem {t : ThreadId} {c : CallId} {rest : List CallId} {executors : _} :
      s.stack t = c :: rest →
      (CurrentThreadExecutor.machine chain).step s.executors (.finish c) = some executors →
      Step env chain s (.leaveItem t) { s with
        executors := executors
        entered := Function.update s.entered t (s.entered t).tail }
  | startOnParent {c : CallId} : (s.call c).path = some .parentLoop →
      (s.call c).coroutine = .notStarted →
      Step env chain s (.startCoroutine c) (s.setCall c { s.call c with coroutine := .underWay })
  | startOnNew {c : CallId} : (s.call c).path = some .newLoop →
      (s.call c).coroutine = .notStarted → (s.executors.executor c).futureDone = false →
      Step env chain s (.startCoroutine c)
        { s.setCall c { s.call c with coroutine := .underWay } with
          loopThreadExecutors := Function.update s.loopThreadExecutors c (some c) }
  | capture {c : CallId} (context : Context) : (s.call c).coroutine = .underWay →
      Step env chain s (.capture c context)
        (s.setCall c { s.call c with context := context, coroutine := .captured })
  | finishOnNew {c : CallId} : (s.call c).path = some .newLoop →
      (s.call c).coroutine.active = true →
      Step env chain s (.finishCoroutine c)
        { s.setCall c { s.call c with coroutine := .ended } with
          loopThreadExecutors := Function.update s.loopThreadExecutors c none }
  | finish {c : CallId} : (s.call c).path ≠ some .newLoop → (s.call c).coroutine.active = true →
      Step env chain s (.finishCoroutine c) (s.setCall c { s.call c with coroutine := .ended })
  | executor {a : CurrentThreadExecutor.Action} {executors : _} : allows chain s a = true →
      (CurrentThreadExecutor.machine chain).step s.executors a = some executors →
      Step env chain s (.executor a) { s with executors := executors }

variable {env : Env} {chain : Chain} {s s' : State}

/-- **What a step can do.** -/
theorem step_inv {a : Action} (hs : (machine env chain).step s a = some s') :
    Step env chain s a s' := by
  cases a with
  | call t =>
      simp only [machine, call] at hs
      split at hs
      · rename_i hguard
        cases hs
        exact .call hguard.1 hguard.2.1 hguard.2.2.1 hguard.2.2.2
      · cases hs
  | work t context =>
      simp only [machine] at hs
      split at hs
      · rename_i hfree
        cases hs
        exact .work context hfree
      · cases hs
  | schedule t path =>
      simp only [machine, schedule] at hs
      split at hs
      · rename_i c rest hstack
        split at hs
        · rename_i hpath
          cases hs
          exact .schedule path hstack hpath
        · cases hs
      · cases hs
  | leave t =>
      simp only [machine, leave] at hs
      split at hs
      · rename_i c rest hstack
        split at hs
        · rename_i hover
          cases hs
          exact .leave hstack hover
        · cases hs
      · cases hs
  | enterItem t context =>
      simp only [machine, enterItem] at hs
      split at hs
      · rename_i c rest hstack
        split at hs
        · rename_i executors hstart
          split at hs
          · rename_i x hrunning
            cases hs
            exact .enterItem context hstack hstart hrunning
          · rename_i hnot
            cases hs
            exact .dropItem context hstack hstart hnot
        · cases hs
      · cases hs
  | leaveItem t =>
      simp only [machine, leaveItem] at hs
      split at hs
      · rename_i c rest hstack
        split at hs
        · rename_i executors hfinish
          cases hs
          exact .leaveItem hstack hfinish
        · cases hs
      · cases hs
  | startCoroutine c =>
      simp only [machine, startCoroutine] at hs
      split at hs
      · rename_i hpath hcoroutine _
        cases hs
        exact .startOnParent hpath hcoroutine
      · rename_i hpath hcoroutine hdone
        cases hs
        exact .startOnNew hpath hcoroutine hdone
      · cases hs
  | capture c context =>
      simp only [machine, capture] at hs
      split at hs
      · rename_i hcoroutine
        cases hs
        exact .capture context hcoroutine
      · cases hs
  | finishCoroutine c =>
      simp only [machine, finishCoroutine] at hs
      split at hs
      · rename_i hactive
        split at hs
        · rename_i hpath
          cases hs
          exact .finishOnNew hpath hactive
        · rename_i hpath
          cases hs
          exact .finish hpath hactive
      · cases hs
  | executor a =>
      simp only [machine] at hs
      split at hs
      · rename_i hallows
        split at hs
        · rename_i executors hstep
          cases hs
          exact .executor hallows hstep
        · cases hs
      · cases hs

end Calls

end Asgiref
