import Mathlib.Data.Int.Order.Basic
import Mathlib.Logic.Function.Basic
import Asgiref.Context
import Asgiref.Lib.Machine
import Asgiref.Lib.Task

/-! # `timeout`

A `timeout` is a context manager: it has the loop call `_cancel_task` at a later time, and turns
the cancellation that this makes into a `TimeoutError`. Any number of tasks of one loop enter and
leave blocks, which may be nested, and await things in them; the loop calls the handles that are
due; and anybody may cancel a task.

* **`doEnter`**, **`doExit`**, **`cancelTask`** — the methods, on the fields of a `timeout`.
* **`State`** — the `timeout` objects, the handles that the loop has, and the tasks with their
  blocks.
* **`machine`** — the loop, for a clock of this resolution. -/

namespace Asgiref.AsyncTimeout

/-- The type of an exception, as far as `timeout` and its users tell them apart. -/
inductive ExcType
  | cancelledError
  | timeoutError
  | other (n : Nat)
  deriving DecidableEq, Repr

/-- The fields of a `timeout`. Tasks and handles are numbered, and times are in ticks of the
loop's clock. -/
structure Timeout where
  timeout : Option Int
  task : Option Nat
  cancelled : Bool
  cancelHandler : Option Nat
  cancelAt : Option Int
  deriving DecidableEq, Repr

/-- `timeout.__init__`. -/
def Timeout.new (timeout : Option Int) : Timeout := ⟨timeout, none, false, none, none⟩

/-- What `_do_enter` has the loop do with `_cancel_task`. -/
inductive Schedule
  | callSoon
  | callAt (time : Int)
  deriving DecidableEq, Repr

/-- `_do_enter`, in this task and at this time; a handle made by `call_at` would have this
number. -/
def doEnter (currentTask : Option Nat) (time : Int) (handle : Nat) (self : Timeout) :
    Timeout × Except PyError (Option Schedule) :=
  match self.timeout with
  | none => (self, .ok none)
  | some timeout =>
      match currentTask with
      | none =>
          ({ self with task := none },
            .error (.runtimeError "Timeout context manager should be used inside a task"))
      | some t =>
          -- the handle of `call_soon` is not kept
          if timeout ≤ 0 then ({ self with task := some t }, .ok (some .callSoon))
          else
            ({ self with
              task := some t
              cancelAt := some (time + timeout)
              cancelHandler := some handle }, .ok (some (.callAt (time + timeout))))

/-- `_do_exit`: the handle that it cancels, and the exception that the block is left with. -/
def doExit (excType : Option ExcType) (self : Timeout) :
    Timeout × Option Nat × Option ExcType :=
  if excType = some .cancelledError ∧ self.cancelled = true then
    ({ self with cancelHandler := none, task := none }, none, some .timeoutError)
  else if self.timeout ≠ none ∧ self.cancelHandler ≠ none then
    ({ self with cancelHandler := none, task := none }, self.cancelHandler, excType)
  else ({ self with task := none }, none, excType)

/-- `_cancel_task`: the task that it cancels. -/
def cancelTask (self : Timeout) : Timeout × Option Nat :=
  match self.task with
  | some t => ({ self with cancelled := true }, some t)
  | none => (self, none)

/-- `remaining`. -/
def remaining (time : Int) (self : Timeout) : Option Int :=
  self.cancelAt.map fun cancelAt => max (cancelAt - time) 0

/-! ## The loop -/

/-- A handle of the loop, for a call of `_cancel_task`; `time` is `none` where it was made by
`call_soon`. -/
structure Handle where
  owner : Nat
  time : Option Int
  cancelled : Bool
  called : Bool
  deriving DecidableEq, Repr

/-- The loop calls the handle sooner or later. -/
def Handle.Live (handle : Handle) : Prop := handle.cancelled = false ∧ handle.called = false

instance (handle : Handle) : Decidable handle.Live := inferInstanceAs (Decidable (_ ∧ _))

/-- The loop and what runs on it. -/
structure State where
  time : Int
  timeouts : Nat → Timeout
  handles : Nat → Option Handle
  /-- The number of handles made so far. -/
  made : Nat
  tasks : Nat → Task
  /-- The `timeout` objects whose blocks each task is in, innermost first. -/
  blocks : Nat → List Nat
  running : Option Nat
  /-- When each `timeout` was last entered: a record, which no step looks at. -/
  enteredAt : Nat → Int

/-- The objects have been made, and nothing has run yet. -/
def init (timeouts : Nat → Option Int) (time : Int) : State where
  time := time
  timeouts o := .new (timeouts o)
  handles _ := none
  made := 0
  tasks _ := .new
  blocks _ := []
  running := none
  enteredAt _ := time

namespace State

def setTimeout (s : State) (o : Nat) (self : Timeout) : State :=
  { s with timeouts := Function.update s.timeouts o self }

def setTask (s : State) (t : Nat) (task : Task) : State :=
  { s with tasks := Function.update s.tasks t task }

def setHandle (s : State) (h : Nat) (handle : Handle) : State :=
  { s with handles := Function.update s.handles h (some handle) }

/-- `Handle.cancel()`. -/
def cancelHandle (s : State) : Option Nat → State
  | none => s
  | some h =>
      match s.handles h with
      | some handle => s.setHandle h { handle with cancelled := true }
      | none => s

/-- `loop.call_soon(self._cancel_task)` or `loop.call_at(.., self._cancel_task)`. -/
def schedule (s : State) (o : Nat) : Option Schedule → State
  | none => s
  | some .callSoon => { s.setHandle s.made ⟨o, none, false, false⟩ with made := s.made + 1 }
  | some (.callAt time) =>
      { s.setHandle s.made ⟨o, some time, false, false⟩ with made := s.made + 1 }

/-- The running task enters the block of a `timeout`. -/
def enter (s : State) (t o : Nat) : State :=
  match doEnter (some t) s.time s.made (s.timeouts o) with
  | (self, .ok schedule) =>
      { (s.setTimeout o self).schedule o schedule with
        blocks := Function.update s.blocks t (o :: s.blocks t)
        enteredAt := Function.update s.enteredAt o s.time }
  | (self, .error _) => s.setTimeout o self

/-- The running task leaves its innermost block, which is that of `o`. -/
def leave (s : State) (t o : Nat) (excType : Option ExcType) : State :=
  let (self, handle, _) := doExit excType (s.timeouts o)
  { (s.setTimeout o self).cancelHandle handle with
    blocks := Function.update s.blocks t (s.blocks t).tail }

/-- The loop calls a handle. -/
def call (s : State) (h : Nat) (handle : Handle) : State :=
  let s := s.setHandle h { handle with called := true }
  match cancelTask (s.timeouts handle.owner) with
  | (self, some t) => (s.setTimeout handle.owner self).setTask t (s.tasks t).cancel
  | (_, none) => s

end State

/-- What happens on the loop. -/
inductive Action
  | tick (d : Nat)
  | enter (o : Nat)
  /-- The code of the innermost block ends, with an exception of this type or without one. -/
  | leave (excType : Option ExcType)
  | awaitFuture
  | awaitTask
  | yield
  /-- What the task awaits is done, or cancelled. -/
  | complete (t : Nat) (cancelled : Bool)
  | cancel (t : Nat)
  | resume (t : Nat)
  | call (h : Nat)
  deriving DecidableEq, Repr

/-- The handle is due: the loop takes the resolution of its clock as well. -/
def due (resolution : Nat) (time : Int) (handle : Handle) : Prop :=
  ∀ time', handle.time = some time' → time' < time + resolution

instance (resolution : Nat) (time : Int) (handle : Handle) :
    Decidable (due resolution time handle) :=
  match h : handle.time with
  | none => .isTrue fun _ h' => by rw [h] at h'; cases h'
  | some time' =>
      if hlt : time' < time + resolution then
        .isTrue fun _ h' => by rw [h] at h'; cases h'; exact hlt
      else .isFalse fun hdue => hlt (hdue time' h)

/-- The loop. A task and a handle run only while nothing else does. -/
def machine (resolution : Nat) : Machine State Action where
  step s
    | .tick d => some { s with time := s.time + d }
    | .enter o => s.running.map fun t => s.enter t o
    | .leave excType =>
        match s.running with
        | none => none
        | some t =>
            match s.blocks t with
            | [] => none
            | o :: _ => some (s.leave t o excType)
    | .awaitFuture =>
        s.running.map fun t => { s.setTask t (s.tasks t).awaitFuture with running := none }
    | .awaitTask =>
        s.running.map fun t => { s.setTask t (s.tasks t).awaitTask with running := none }
    | .yield => s.running.map fun t => { s.setTask t (s.tasks t).yield with running := none }
    | .complete t cancelled => some (s.setTask t ((s.tasks t).complete cancelled))
    | .cancel t => some (s.setTask t (s.tasks t).cancel)
    | .resume t =>
        if s.running = none ∧ (s.tasks t).phase = .ready then
          some { s.setTask t (s.tasks t).resume with running := some t }
        else none
    | .call h =>
        match s.handles h with
        | some handle =>
            if s.running = none ∧ handle.Live ∧ due resolution s.time handle then
              some (s.call h handle)
            else none
        | none => none

end Asgiref.AsyncTimeout
