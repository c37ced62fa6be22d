import Mathlib.Logic.Function.Basic
import Asgiref.Lib.Machine
import Asgiref.Bridge.Program

/-! # The two threads of one `AsyncToSync` call

`AsyncToSync.__call__` parks its thread in `run_until_future`, while the loop runs `main_wrap` in a
task of its own; the two share the list `context` and the future `call_result`. The machine starts
where the task has been scheduled and the caller is parked, and every interleaving of the loop, the
caller, and the code that works in other contexts is a run of it.

* **`create`**, **`cancel`**, **`start`**, **`work`**, **`finish`**, **`capture`**, **`resolve`** —
  the task of `main_wrap`, from the queued `create_task` to the future that it resolves.
* **`stop`**, **`rerun`**, **`close`** — the loop.
* **`wake`**, **`exit`** — the caller: `run_until_future` returns, and the `finally` block runs.
* **`Step`** — what each action needs and does, with **`step_inv`**; and **`Inv`**, what always
  holds.

`last` records the context of the awaitable after its last step; no step looks at it. -/

namespace Asgiref

namespace Handshake

/-- Where `__call__` has scheduled the awaitable. -/
inductive Path
  | parentLoop
  | newLoop
  deriving DecidableEq, Repr

/-- What the call was made with. -/
structure Config where
  path : Path
  ne : Comparison
  /-- `get_ident()` of the calling thread and of the loop's. -/
  callerIdent : Nat
  loopIdent : Nat
  /-- The context in which the task is created. -/
  base : Context
  /-- The caller's context when it parks, and so its copy in `context[0]`. -/
  callerContext : Context
  /-- The variable of `AsyncToSync.executors`, and what `current` was before the call. -/
  executors : Nat
  oldExecutor : Obj

/-- The task of `main_wrap`. -/
inductive Task
  /-- `create_task` is a callback that the loop has not run yet. -/
  | queued
  | created (cancelRequested : Bool)
  /-- `main_wrap` is in its `try`. -/
  | awaiting
  /-- The awaitable has returned or raised, or was cancelled. -/
  | ended (r : Result)
  /-- `context[0]` is set. -/
  | captured (r : Result)
  /-- The task is done; it may have ended with an exception. -/
  | finished (raised : Option PyError)
  deriving DecidableEq

/-- Whether the loop is in the middle of a step of the task. -/
def Task.midStep : Task → Bool
  | .ended _ | .captured _ => true
  | _ => false

/-- Whether the task is done. -/
def Task.done : Task → Bool
  | .finished _ => true
  | _ => false

inductive LoopState
  | running
  | stopped
  | closed
  deriving DecidableEq, Repr

/-- The calling thread. -/
inductive Caller
  /-- It is in `run_until_future`. -/
  | parked
  /-- `run_until_future` has returned. -/
  | awake
  /-- The `finally` block has run; it may have raised. -/
  | exited (raised : Option PyError)
  deriving DecidableEq

/-- The state of the two threads. -/
structure State where
  callerContext : Context
  /-- `context[0]`. -/
  slot : Context
  taskContext : Context
  task : Task
  loop : LoopState
  callResult : Option Result
  caller : Caller
  /-- The contexts in which the drained items and the child tasks run. -/
  other : Nat → Context
  last : Option Context

/-- The task is scheduled and the caller is parked. -/
def init (config : Config) : State where
  callerContext := config.callerContext
  slot := config.callerContext
  taskContext := config.base
  task := .queued
  loop := .running
  callResult := none
  caller := .parked
  other _ := ∅
  last := none

/-! ## The task of `main_wrap` -/

/-- The loop runs the queued `create_task`. -/
def create (s : State) : Option State :=
  match s.loop, s.task with
  | .running, .queued => some { s with task := .created false }
  | _, _ => none

/-- `Task.cancel`. A started `main_wrap` passes it on to the awaitable, which may do as it likes. -/
def cancel (s : State) : Option State :=
  match s.task with
  | .created _ => some { s with task := .created true }
  | .awaiting | .finished _ => some s
  | _ => none

/-- The first step of the task. One that was cancelled never enters `main_wrap`; the others run
`_restore_context(context[0])`, which stands before the `try`. -/
def start (config : Config) (s : State) : Option State :=
  match s.loop, s.task with
  -- `CancelledError` is thrown into a coroutine that has not begun
  | .running, .created true => some { s with task := .finished (some .cancelledError) }
  | .running, .created false =>
      match restoreContext config.ne config.loopIdent s.taskContext s.slot with
      | (c, none) => some { s with taskContext := c, task := .awaiting }
      | (c, some e) => some { s with taskContext := c, task := .finished (some e) }
  | _, _ => none

/-- The awaitable runs up to its next `await`, and leaves its context so. -/
def work (c : Context) (s : State) : Option State :=
  match s.loop, s.task with
  | .running, .awaiting => some { s with taskContext := c }
  | _, _ => none

/-- A drained item or a child task runs, and leaves its own context so. -/
def otherWork (i : Nat) (c : Context) (s : State) : Option State :=
  some { s with other := Function.update s.other i c }

/-- The awaitable returns, raises or is cancelled. -/
def finish (r : Result) (s : State) : Option State :=
  match s.loop, s.task with
  | .running, .awaiting => some { s with task := .ended r, last := some s.taskContext }
  | _, _ => none

/-- `context[0] = contextvars.copy_context()`. -/
def capture (s : State) : Option State :=
  match s.task with
  | .ended r => some { s with task := .captured r, slot := s.taskContext }
  | _ => none

/-- `call_result.set_result` or `set_exception`, and the end of the task: cancelled, where the
awaitable has asked for that in its last step. -/
def resolve (mustCancel : Bool) (s : State) : Option State :=
  match s.task with
  | .captured r =>
      let raised := if mustCancel then some PyError.cancelledError else none
      some { s with task := .finished raised, callResult := some r }
  | _ => none

/-! ## The loop -/

/-- The loop stops, between two steps. -/
def stop (s : State) : Option State :=
  if s.loop = .running ∧ s.task.midStep = false then some { s with loop := .stopped } else none

/-- A stopped loop runs again. -/
def rerun (s : State) : Option State :=
  if s.loop = .stopped then some { s with loop := .running } else none

/-- A stopped loop is closed; what is queued never runs. -/
def close (s : State) : Option State :=
  if s.loop = .stopped then some { s with loop := .closed } else none

/-! ## The caller -/

/-- The future that the caller waits for is done: `call_result`, or that of the `asyncio.run` which
closes the new loop. -/
def Awaited (config : Config) (s : State) : Prop :=
  match config.path with
  | .parentLoop => s.callResult ≠ none
  | .newLoop => s.loop = .closed

instance (config : Config) (s : State) : Decidable (Awaited config s) := by
  unfold Awaited
  exact match config.path with
  | .parentLoop => inferInstance
  | .newLoop => inferInstance

/-- `run_until_future` returns. -/
def wake (config : Config) (s : State) : Option State :=
  if s.caller = .parked ∧ Awaited config s then some { s with caller := .awake } else none

/-- The `finally` block of `__call__`: `_restore_context(context[0])`, and the old executor. -/
def exit (config : Config) (s : State) : Option State :=
  match s.caller with
  | .awake =>
      match restoreContext config.ne config.callerIdent s.callerContext s.slot with
      | (c, none) =>
          let c := Local.setattr config.callerIdent c config.executors "current" config.oldExecutor
          some { s with callerContext := c, caller := .exited none }
      | (c, some e) => some { s with callerContext := c, caller := .exited (some e) }
  | _ => none

/-! ## The machine -/

/-- The steps of the loop, of the caller, and of all others. -/
inductive Action
  | create
  | cancel
  | start
  | work (c : Context)
  | otherWork (i : Nat) (c : Context)
  | finish (r : Result)
  | capture
  | resolve (mustCancel : Bool)
  | stop
  | rerun
  | close
  | wake
  | exit

/-- The machine of one call. -/
def machine (config : Config) : Machine State Action where
  step s
    | .create => create s
    | .cancel => cancel s
    | .start => start config s
    | .work c => work c s
    | .otherWork i c => otherWork i c s
    | .finish r => finish r s
    | .capture => capture s
    | .resolve mustCancel => resolve mustCancel s
    | .stop => stop s
    | .rerun => rerun s
    | .close => close s
    | .wake => wake config s
    | .exit => exit config s

/-- What each action needs, and the state that it leads to. -/
inductive Step (config : Config) (s : State) : Action → State → Prop
  | create : s.loop = .running → s.task = .queued →
      Step config s .create { s with task := .created false }
  | cancel (b : Bool) : s.task = .created b →
      Step config s .cancel { s with task := .created true }
  | cancelStarted : s.task = .awaiting ∨ s.task.done = true → Step config s .cancel s
  | startCancelled : s.loop = .running → s.task = .created true →
      Step config s .start { s with task := .finished (some .cancelledError) }
  | start (c : Context) : s.loop = .running → s.task = .created false →
      restoreContext config.ne config.loopIdent s.taskContext s.slot = (c, none) →
      Step config s .start { s with taskContext := c, task := .awaiting }
  | startRaising (c : Context) (e : PyError) : s.loop = .running → s.task = .created false →
      restoreContext config.ne config.loopIdent s.taskContext s.slot = (c, some e) →
      Step config s .start { s with taskContext := c, task := .finished (some e) }
  | work (c : Context) : s.loop = .running → s.task = .awaiting →
      Step config s (.work c) { s with taskContext := c }
  | otherWork (i : Nat) (c : Context) :
      Step config s (.otherWork i c) { s with other := Function.update s.other i c }
  | finish (r : Result) : s.loop = .running → s.task = .awaiting →
      Step config s (.finish r) { s with task := .ended r, last := some s.taskContext }
  | capture (r : Result) : s.task = .ended r →
      Step config s .capture { s with task := .captured r, slot := s.taskContext }
  | resolve (mustCancel : Bool) (r : Result) (raised : Option PyError) : s.task = .captured r →
      Step config s (.resolve mustCancel)
        { s with task := .finished raised, callResult := some r }
  | stop : s.loop = .running → s.task.midStep = false →
      Step config s .stop { s with loop := .stopped }
  | rerun : s.loop = .stopped → Step config s .rerun { s with loop := .running }
  | close : s.loop = .stopped → Step config s .close { s with loop := .closed }
  | wake : s.caller = .parked → Awaited config s → Step config s .wake { s with caller := .awake }
  | exit (c : Context) : s.caller = .awake →
      restoreContext config.ne config.callerIdent s.callerContext s.slot = (c, none) →
      Step config s .exit { s with
        callerContext :=
          Local.setattr config.callerIdent c config.executors "current" config.oldExecutor
        caller := .exited none }
  | exitRaising (c : Context) (e : PyError) : s.caller = .awake →
      restoreContext config.ne config.callerIdent s.callerContext s.slot = (c, some e) →
      Step config s .exit { s with callerContext := c, caller := .exited (some e) }

/-- **What a step can do.** -/
theorem step_inv {config : Config} {s s' : State} {a : Action}
    (h : (machine config).step s a = some s') : Step config s a s' := by
  cases a with
  | create =>
      simp only [machine, create] at h
      split at h
      · rename_i hloop htask
        cases h
        exact .create hloop htask
      · cases h
  | cancel =>
      simp only [machine, cancel] at h
      split at h
      · rename_i b htask
        cases h
        exact .cancel b htask
      · rename_i htask
        cases h
        exact .cancelStarted (.inl htask)
      · rename_i raised htask
        cases h
        exact .cancelStarted (.inr (by rw [htask]; rfl))
      · cases h
  | start =>
      simp only [machine, start] at h
      split at h
      · rename_i hloop htask
        cases h
        exact .startCancelled hloop htask
      · rename_i hloop htask
        split at h
        · rename_i c hrestore
          cases h
          exact .start c hloop htask hrestore
        · rename_i c e hrestore
          cases h
          exact .startRaising c e hloop htask hrestore
      · cases h
  | work c =>
      simp only [machine, work] at h
      split at h
      · rename_i hloop htask
        cases h
        exact .work c hloop htask
      · cases h
  | otherWork i c =>
      simp only [machine, otherWork] at h
      cases h
      exact .otherWork i c
  | finish r =>
      simp only [machine, finish] at h
      split at h
      · rename_i hloop htask
        cases h
        exact .finish r hloop htask
      · cases h
  | capture =>
      simp only [machine, capture] at h
      split at h
      · rename_i r htask
        cases h
        exact .capture r htask
      · cases h
  | resolve mustCancel =>
      simp only [machine, resolve] at h
      split at h
      · rename_i r htask
        cases h
        exact .resolve mustCancel r _ htask
      · cases h
  | stop =>
      simp only [machine, stop] at h
      split at h
      · rename_i hguard
        cases h
        exact .stop hguard.1 hguard.2
      · cases h
  | rerun =>
      simp only [machine, rerun] at h
      split at h
      · rename_i hguard
        cases h
        exact .rerun hguard
      · cases h
  | close =>
      simp only [machine, close] at h
      split at h
      · rename_i hguard
        cases h
        exact .close hguard
      · cases h
  | wake =>
      simp only [machine, wake] at h
      split at h
      · rename_i hguard
        cases h
        exact .wake hguard.1 hguard.2
      · cases h
  | exit =>
      simp only [machine, exit] at h
      split at h
      · rename_i hcaller
        split at h
        · rename_i c hrestore
          cases h
          exact .exit c hcaller hrestore
        · rename_i c e hrestore
          cases h
          exact .exitRaising c e hcaller hrestore
      · cases h

/-! ## What always holds -/

/-- What `last` and `context[0]` are, by where the task stands. -/
def Recorded (s : State) : Prop :=
  match s.task with
  | .queued | .created _ | .awaiting => s.last = none
  | .ended _ => s.last = some s.taskContext
  | .captured _ => s.last = some s.slot
  | .finished _ => ∀ c, s.last = some c → s.slot = c

/-- What holds of every state. -/
structure Inv (config : Config) (s : State) : Prop where
  recorded : Recorded s
  unresolved : s.task.done = false → s.callResult = none
  midStep : s.task.midStep = true → s.loop = .running
  awaited : s.caller ≠ .parked → Awaited config s
  callerContext : (∀ raised, s.caller ≠ .exited raised) → s.callerContext = config.callerContext

theorem inv_init (config : Config) : Inv config (init config) where
  recorded := rfl
  unresolved _ := rfl
  midStep h := by cases h
  awaited h := absurd rfl h
  callerContext _ := rfl

variable {config : Config} {s s' : State} {a : Action} {as : List Action}

/-- The task and the loop keep what the caller waits for. -/
theorem Awaited.mono (h : Awaited config s) (hresult : s.callResult ≠ none → s'.callResult ≠ none)
    (hloop : s.loop = .closed → s'.loop = .closed) : Awaited config s' := by
  unfold Awaited at h ⊢
  cases hpath : config.path with
  | parentLoop => simpa only [hpath] using hresult (by simpa only [hpath] using h)
  | newLoop => simpa only [hpath] using hloop (by simpa only [hpath] using h)

/-- **Every step keeps the invariant.** -/
theorem Inv.step (h : Inv config s) (hs : (machine config).step s a = some s') :
    Inv config s' := by
  obtain ⟨hrecorded, hunresolved, hmidStep, hawaited, hcontext⟩ := h
  have hcase := step_inv hs
  cases hcase with
  | create hloop htask =>
      refine ⟨?_, fun _ => hunresolved (by rw [htask]; rfl), fun hmid => ?_, hawaited, hcontext⟩
      · simpa only [Recorded, htask] using hrecorded
      · cases hmid
  | cancel b htask =>
      refine ⟨?_, fun _ => hunresolved (by rw [htask]; rfl), fun hmid => ?_, hawaited, hcontext⟩
      · simpa only [Recorded, htask] using hrecorded
      · cases hmid
  | cancelStarted htask => exact ⟨hrecorded, hunresolved, hmidStep, hawaited, hcontext⟩
  | startCancelled hloop htask =>
      refine ⟨fun c hc => ?_, fun hdone => ?_, fun hmid => ?_, hawaited, hcontext⟩
      -- the awaitable has not run, so there is no last context
      · have hlast : s.last = none := by simpa only [Recorded, htask] using hrecorded
        rw [show s.last = some c from hc] at hlast
        cases hlast
      · cases hdone
      · cases hmid
  | start c hloop htask hrestore =>
      refine ⟨?_, fun _ => hunresolved (by rw [htask]; rfl), fun hmid => ?_, hawaited, hcontext⟩
      · simpa only [Recorded, htask] using hrecorded
      · cases hmid
  | startRaising c e hloop htask hrestore =>
      refine ⟨fun d hd => ?_, fun hdone => ?_, fun hmid => ?_, hawaited, hcontext⟩
      · have hlast : s.last = none := by simpa only [Recorded, htask] using hrecorded
        rw [show s.last = some d from hd] at hlast
        cases hlast
      · cases hdone
      · cases hmid
  | work c hloop htask =>
      refine ⟨?_, hunresolved, hmidStep, hawaited, hcontext⟩
      simpa only [Recorded, htask] using hrecorded
  | otherWork i c => exact ⟨hrecorded, hunresolved, hmidStep, hawaited, hcontext⟩
  | finish r hloop htask =>
      exact ⟨rfl, fun _ => hunresolved (by rw [htask]; rfl), fun _ => hloop, hawaited, hcontext⟩
  | capture r htask =>
      have hlast : s.last = some s.taskContext := by simpa only [Recorded, htask] using hrecorded
      exact ⟨hlast, fun _ => hunresolved (by rw [htask]; rfl),
        fun _ => hmidStep (by rw [htask]; rfl), hawaited, hcontext⟩
  | resolve mustCancel r raised htask =>
      have hlast : s.last = some s.slot := by simpa only [Recorded, htask] using hrecorded
      refine ⟨fun c hc => ?_, fun hdone => ?_, fun hmid => ?_, fun hcaller => ?_, hcontext⟩
      · rw [show s.last = some c from hc] at hlast
        exact (Option.some.inj hlast).symm
      · cases hdone
      · cases hmid
      · exact (hawaited hcaller).mono (fun _ => by simp) id
  -- a loop stops between two steps of its tasks only
  | stop hloop hmid =>
      refine ⟨hrecorded, hunresolved, fun hmid' => ?_, fun hcaller => ?_, hcontext⟩
      · rw [hmid] at hmid'
        cases hmid'
      · exact (hawaited hcaller).mono id fun hclosed => by rw [hloop] at hclosed; cases hclosed
  | rerun hloop =>
      refine ⟨hrecorded, hunresolved, fun _ => rfl, fun hcaller => ?_, hcontext⟩
      exact (hawaited hcaller).mono id fun hclosed => by rw [hloop] at hclosed; cases hclosed
  | close hloop =>
      refine ⟨hrecorded, hunresolved, fun hmid => ?_, fun hcaller => ?_, hcontext⟩
      · rw [hmidStep hmid] at hloop
        cases hloop
      · exact (hawaited hcaller).mono id fun _ => rfl
  | wake hcaller hdone =>
      exact ⟨hrecorded, hunresolved, hmidStep, fun _ => hdone, fun _ =>
        hcontext fun raised heq => by rw [hcaller] at heq; cases heq⟩
  | exit c hcaller hrestore =>
      refine ⟨hrecorded, hunresolved, hmidStep, fun _ => ?_, fun hnot => absurd rfl (hnot none)⟩
      exact hawaited (by rw [hcaller]; simp)
  | exitRaising c e hcaller hrestore =>
      refine ⟨hrecorded, hunresolved, hmidStep, fun _ => ?_, fun hnot =>
        absurd rfl (hnot (some e))⟩
      exact hawaited (by rw [hcaller]; simp)

/-- **Every run keeps the invariant.** -/
theorem Inv.run (h : (machine config).Run Machine.Any (init config) as s) : Inv config s :=
  h.invariant (inv_init config) fun _ _ _ hinv _ hs => hinv.step hs

end Handshake

end Asgiref
