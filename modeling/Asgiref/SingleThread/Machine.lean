import Mathlib.Logic.Function.Basic
import Asgiref.Lib.Machine

/-! # Code inside an `AsyncSingleThreadContext`

Inside `with AsyncSingleThreadContext()`, the calls of `async_to_sync` that find no parent loop are
jobs of one `ThreadPoolExecutor` with one worker, each of them an `asyncio.run`. The context travels
with the context variable into everything that runs in copies of the context, while the parent loop
is found in slots of the threads.

* **`Frame`**, **`State`** — sync code on threads and coroutines on loops, each with the frame that
  awaits it; the slots; and the executors of the contexts with their jobs.
* **`asyncToSync`** — `AsyncToSync.__call__`, with **`parentLoop`** and the choice of an executor.
* **`syncToAsync`**, **`toThread`** — sync code that a coroutine awaits, on any thread: with
  `SyncToAsync.thread_handler` and without.
* **`takeJob`**, **`finish`** — the worker of an executor, and the end of a frame.
* **`Step`**, **`step_inv`** — what each action needs and does. -/

namespace Asgiref.SingleThread

abbrev ThreadId := Nat
abbrev LoopId := Nat
abbrev FrameId := Nat
/-- An `AsyncSingleThreadContext` object. -/
abbrev ContextId := Nat

/-- Where code runs. -/
inductive Place
  /-- Sync code. -/
  | thread (t : ThreadId)
  /-- A coroutine. -/
  | loop (l : LoopId)
  deriving DecidableEq, Repr

/-- The executor of whose job, an `asyncio.run`, a coroutine is the main one. -/
inductive Job
  | none
  /-- An executor of its own. -/
  | own
  /-- The executor of this context. -/
  | single (v : ContextId)
  deriving DecidableEq, Repr

/-- A function or a coroutine that has been called. -/
structure Frame where
  place : Place
  /-- The frame that awaits it, or is parked for it. -/
  parent : Option FrameId
  job : Job
  deriving DecidableEq, Repr

/-- Where a frame stands. -/
inductive Status
  /-- Its job waits for the worker. -/
  | queued
  | running
  /-- A function is in the `run_until_future` of this call. -/
  | parked (child : FrameId)
  | done
  deriving DecidableEq, Repr

/-- The process. -/
structure State where
  frame : FrameId → Frame
  status : FrameId → Status
  /-- `async_single_thread_context` in the context of a frame. -/
  single : FrameId → Option ContextId
  /-- `SyncToAsync.threadlocal`: `main_event_loop` and `main_event_loop_pid`. -/
  mainEventLoop : ThreadId → Option (LoopId × Nat)
  loopRunning : LoopId → Bool
  /-- The loop is the user's own: `asyncio.run` of a call has not started it. -/
  ownLoop : LoopId → Bool
  /-- The executors of `AsyncToSync.context_to_thread_executor`: the waiting jobs, and the
  current. -/
  queue : ContextId → List FrameId
  running : ContextId → Option FrameId
  nextFrame : FrameId
  nextLoop : LoopId
  nextContext : ContextId

/-- A process in which nothing has run yet. -/
def init : State where
  frame _ := ⟨.thread 0, none, .none⟩
  status _ := .done
  single _ := none
  mainEventLoop _ := none
  loopRunning _ := false
  ownLoop _ := false
  queue _ := []
  running _ := none
  nextFrame := 0
  nextLoop := 0
  nextContext := 0

/-- A frame is called. -/
def addFrame (frame : Frame) (status : Status) (single : Option ContextId) (s : State) : State :=
  { s with
    frame := Function.update s.frame s.nextFrame frame
    status := Function.update s.status s.nextFrame status
    single := Function.update s.single s.nextFrame single
    nextFrame := s.nextFrame + 1 }

/-! ## User code -/

/-- A thread starts with a function. -/
def start (t : ThreadId) (s : State) : State := addFrame ⟨.thread t, none, .none⟩ .running none s

/-- A loop of the user's own starts with a coroutine. -/
def startLoop (s : State) : State :=
  { addFrame ⟨.loop s.nextLoop, none, .none⟩ .running none s with
    loopRunning := Function.update s.loopRunning s.nextLoop true
    ownLoop := Function.update s.ownLoop s.nextLoop true
    nextLoop := s.nextLoop + 1 }

/-- A loop of the user's own stops, or runs again. -/
def toggleLoop (l : LoopId) (s : State) : Option State :=
  if s.ownLoop l then
    some { s with loopRunning := Function.update s.loopRunning l (!s.loopRunning l) }
  else none

/-- The frame takes a step: a function if it is not parked, a coroutine if its loop runs. -/
def State.active (s : State) (f : FrameId) : Bool :=
  s.status f == .running && match (s.frame f).place with
    | .thread _ => true
    | .loop l => s.loopRunning l

/-- `AsyncSingleThreadContext.__enter__`, which sets the context variable only if it is not set. -/
def enter (f : FrameId) (s : State) : Option State :=
  if s.active f then
    match s.single f with
    | some _ => some s
    | none => some { s with
        single := Function.update s.single f (some s.nextContext)
        nextContext := s.nextContext + 1 }
  else none

/-! ## `AsyncToSync.__call__` -/

/-- The loop that `call_soon_threadsafe` goes to: the one in the thread's slot, if it was filled in
this process and the loop is running. -/
def parentLoop (getpid : Nat) (forceNewLoop : Bool) (t : ThreadId) (s : State) : Option LoopId :=
  if forceNewLoop then none
  else match s.mainEventLoop t with
    | some (l, pid) => if pid = getpid ∧ s.loopRunning l = true then some l else none
    | none => none

/-- The frame is in `run_until_future`, for the frame made next. -/
def park (f : FrameId) (frame : Frame) (status : Status) (s : State) : State :=
  { addFrame frame status (s.single f) s with
    status := Function.update (Function.update s.status s.nextFrame status) f
      (.parked s.nextFrame) }

/-- On the parent loop the awaitable runs at once. -/
def callParent (f : FrameId) (l : LoopId) (s : State) : State :=
  park f ⟨.loop l, some f, .none⟩ .running s

/-- Without a single-thread context, so does the `asyncio.run` on an executor of its own. -/
def callNewLoop (f : FrameId) (s : State) : State :=
  { park f ⟨.loop s.nextLoop, some f, .own⟩ .running s with
    loopRunning := Function.update s.loopRunning s.nextLoop true
    nextLoop := s.nextLoop + 1 }

/-- With one, it goes to the end of the queue of the context's executor. -/
def callSingle (f : FrameId) (v : ContextId) (s : State) : State :=
  { park f ⟨.loop s.nextLoop, some f, .single v⟩ .queued s with
    queue := Function.update s.queue v (s.queue v ++ [s.nextFrame])
    nextLoop := s.nextLoop + 1 }

/-- Function `f` calls `async_to_sync`. -/
def asyncToSync (getpid : Nat) (f : FrameId) (forceNewLoop : Bool) (s : State) : Option State :=
  match s.status f, (s.frame f).place with
  | .running, .thread t =>
      match parentLoop getpid forceNewLoop t s with
      | some l => some (callParent f l s)
      | none =>
          -- `self.async_single_thread_context.get(None)`
          match s.single f with
          | some v => some (callSingle f v s)
          | none => some (callNewLoop f s)
  | _, _ => none

/-! ## Sync code that coroutines await -/

/-- The variable in the context of sync code: that of a copy of the caller's context, or of a custom
one. -/
def childSingle (f : FrameId) (custom : Option (Option ContextId)) (s : State) : Option ContextId :=
  custom.getD (s.single f)

/-- Coroutine `f` awaits a function through `sync_to_async`, and thread `t` runs it:
`SyncToAsync.thread_handler` fills the thread's slots. -/
def syncToAsync (getpid : Nat) (f : FrameId) (t : ThreadId) (custom : Option (Option ContextId))
    (s : State) : Option State :=
  match (s.frame f).place with
  | .loop l =>
      if s.active f then
        some { addFrame ⟨.thread t, some f, .none⟩ .running (childSingle f custom s) s with
          mainEventLoop := Function.update s.mainEventLoop t (some (l, getpid)) }
      else none
  | .thread _ => none

/-- Coroutine `f` awaits a function through `asyncio.to_thread`, and thread `t` runs it as it is. -/
def toThread (f : FrameId) (t : ThreadId) (s : State) : Option State :=
  match (s.frame f).place with
  | .loop _ =>
      if s.active f then some (addFrame ⟨.thread t, some f, .none⟩ .running (s.single f) s)
      else none
  | .thread _ => none

/-! ## Jobs and ends -/

/-- The idle worker of a context's executor takes the next job. -/
def takeJob (v : ContextId) (s : State) : Option State :=
  match s.running v, s.queue v with
  | none, f :: rest =>
      match (s.frame f).place with
      | .loop l => some { s with
          running := Function.update s.running v (some f)
          queue := Function.update s.queue v rest
          status := Function.update s.status f .running
          loopRunning := Function.update s.loopRunning l true }
      | .thread _ => none
  | _, _ => none

/-- A function parked for this frame goes on. -/
def unpark (f : FrameId) (s : State) : FrameId → Status :=
  match (s.frame f).parent with
  | some p => if s.status p = .parked f then Function.update s.status p .running else s.status
  | none => s.status

/-- `asyncio.run` returns, and the worker is idle. -/
def endRunning (f : FrameId) (s : State) : ContextId → Option FrameId :=
  match (s.frame f).job with
  | .single v => Function.update s.running v none
  | _ => s.running

/-- `asyncio.run` closes its loop. -/
def endLoop (f : FrameId) (s : State) : LoopId → Bool :=
  match (s.frame f).job, (s.frame f).place with
  | .none, _ => s.loopRunning
  | _, .loop l => Function.update s.loopRunning l false
  | _, .thread _ => s.loopRunning

/-- The frame returns, raises or, if it is a coroutine, is cancelled, even while it awaits. -/
def finish (f : FrameId) (s : State) : Option State :=
  if s.active f then
    some { s with
      status := Function.update (unpark f s) f .done
      running := endRunning f s
      loopRunning := endLoop f s }
  else none

/-! ## The machine -/

/-- The steps of threads, loops and executors. -/
inductive Action
  | start (t : ThreadId)
  | startLoop
  | toggleLoop (l : LoopId)
  | enter (f : FrameId)
  | asyncToSync (f : FrameId) (forceNewLoop : Bool)
  | syncToAsync (f : FrameId) (t : ThreadId) (custom : Option (Option ContextId))
  | toThread (f : FrameId) (t : ThreadId)
  | takeJob (v : ContextId)
  | finish (f : FrameId)

/-- The machine. -/
def machine (getpid : Nat) : Machine State Action where
  step s
    | .start t => some (start t s)
    | .startLoop => some (startLoop s)
    | .toggleLoop l => toggleLoop l s
    | .enter f => enter f s
    | .asyncToSync f forceNewLoop => asyncToSync getpid f forceNewLoop s
    | .syncToAsync f t custom => syncToAsync getpid f t custom s
    | .toThread f t => toThread f t s
    | .takeJob v => takeJob v s
    | .finish f => finish f s

/-- What each action needs, and the state that it leads to. -/
inductive Step (getpid : Nat) (s : State) : Action → State → Prop
  | start (t : ThreadId) : Step getpid s (.start t) (start t s)
  | startLoop : Step getpid s .startLoop (startLoop s)
  | toggleLoop (l : LoopId) : s.ownLoop l = true → Step getpid s (.toggleLoop l)
      { s with loopRunning := Function.update s.loopRunning l (!s.loopRunning l) }
  | reenter (f : FrameId) (v : ContextId) : s.single f = some v → Step getpid s (.enter f) s
  | enter (f : FrameId) : s.single f = none → Step getpid s (.enter f) { s with
      single := Function.update s.single f (some s.nextContext)
      nextContext := s.nextContext + 1 }
  | callParent (f : FrameId) (force : Bool) (t : ThreadId) (l : LoopId) :
      s.status f = .running → (s.frame f).place = .thread t →
      parentLoop getpid force t s = some l →
      Step getpid s (.asyncToSync f force) (callParent f l s)
  | callNewLoop (f : FrameId) (force : Bool) (t : ThreadId) :
      s.status f = .running → (s.frame f).place = .thread t →
      parentLoop getpid force t s = none → s.single f = none →
      Step getpid s (.asyncToSync f force) (callNewLoop f s)
  | callSingle (f : FrameId) (force : Bool) (t : ThreadId) (v : ContextId) :
      s.status f = .running → (s.frame f).place = .thread t →
      parentLoop getpid force t s = none → s.single f = some v →
      Step getpid s (.asyncToSync f force) (callSingle f v s)
  | syncToAsync (f : FrameId) (t : ThreadId) (custom : Option (Option ContextId)) (l : LoopId) :
      s.status f = .running → (s.frame f).place = .loop l →
      Step getpid s (.syncToAsync f t custom)
        { addFrame ⟨.thread t, some f, .none⟩ .running (childSingle f custom s) s with
          mainEventLoop := Function.update s.mainEventLoop t (some (l, getpid)) }
  | toThread (f : FrameId) (t : ThreadId) : s.status f = .running →
      Step getpid s (.toThread f t) (addFrame ⟨.thread t, some f, .none⟩ .running (s.single f) s)
  | takeJob (v : ContextId) (f : FrameId) (rest : List FrameId) (l : LoopId) :
      s.running v = none → s.queue v = f :: rest → (s.frame f).place = .loop l →
      Step getpid s (.takeJob v) { s with
        running := Function.update s.running v (some f)
        queue := Function.update s.queue v rest
        status := Function.update s.status f .running
        loopRunning := Function.update s.loopRunning l true }
  | finish (f : FrameId) : s.status f = .running → Step getpid s (.finish f) { s with
      status := Function.update (unpark f s) f .done
      running := endRunning f s
      loopRunning := endLoop f s }

variable {getpid : Nat} {s s' : State}

/-- A frame that takes a step is running. -/
theorem State.active_running {f : FrameId} (h : s.active f = true) : s.status f = .running := by
  simp only [State.active, Bool.and_eq_true, beq_iff_eq] at h
  exact h.1

theorem enter_inv {f : FrameId} (h : enter f s = some s') : Step getpid s (.enter f) s' := by
  unfold enter at h
  split at h
  · split at h
    · rename_i v hsingle
      cases h
      exact .reenter f v hsingle
    · rename_i hsingle
      cases h
      exact .enter f hsingle
  · cases h

theorem asyncToSync_inv {f : FrameId} {force : Bool}
    (h : asyncToSync getpid f force s = some s') : Step getpid s (.asyncToSync f force) s' := by
  unfold asyncToSync at h
  split at h
  · rename_i t hstatus hplace
    split at h
    · rename_i l hparent
      cases h
      exact .callParent f force t l hstatus hplace hparent
    · rename_i hparent
      split at h
      · rename_i v hsingle
        cases h
        exact .callSingle f force t v hstatus hplace hparent hsingle
      · rename_i hsingle
        cases h
        exact .callNewLoop f force t hstatus hplace hparent hsingle
  · cases h

theorem syncToAsync_inv {f : FrameId} {t : ThreadId} {custom : Option (Option ContextId)}
    (h : syncToAsync getpid f t custom s = some s') :
    Step getpid s (.syncToAsync f t custom) s' := by
  unfold syncToAsync at h
  split at h
  · rename_i l hplace
    split at h
    · rename_i hactive
      cases h
      exact .syncToAsync f t custom l (State.active_running hactive) hplace
    · cases h
  · cases h

theorem toThread_inv {f : FrameId} {t : ThreadId} (h : toThread f t s = some s') :
    Step getpid s (.toThread f t) s' := by
  unfold toThread at h
  split at h
  · split at h
    · rename_i hactive
      cases h
      exact .toThread f t (State.active_running hactive)
    · cases h
  · cases h

theorem takeJob_inv {v : ContextId} (h : takeJob v s = some s') :
    Step getpid s (.takeJob v) s' := by
  unfold takeJob at h
  split at h
  · rename_i f rest hrunning hqueue
    split at h
    · rename_i l hplace
      cases h
      exact .takeJob v f rest l hrunning hqueue hplace
    · cases h
  · cases h

/-- **What a step can do.** -/
theorem step_inv {a : Action} (h : (machine getpid).step s a = some s') : Step getpid s a s' := by
  cases a with
  | start t =>
      cases h
      exact .start t
  | startLoop =>
      cases h
      exact .startLoop
  | toggleLoop l =>
      simp only [machine, toggleLoop] at h
      split at h
      · rename_i hown
        cases h
        exact .toggleLoop l hown
      · cases h
  | enter f => exact enter_inv h
  | asyncToSync f force => exact asyncToSync_inv h
  | syncToAsync f t custom => exact syncToAsync_inv h
  | toThread f t => exact toThread_inv h
  | takeJob v => exact takeJob_inv h
  | finish f =>
      simp only [machine, finish] at h
      split at h
      · rename_i hactive
        cases h
        exact .finish f (State.active_running hactive)
      · cases h

end Asgiref.SingleThread
