import Asgiref.Lib.Queues
import Asgiref.Timeout.Machine

/-! # `ApplicationCommunicator`

A tester talks to an application that runs as a task of its own, through two queues. Its methods may
have to wait: for a message, for the application to end, or for a time, and most of them for no
longer than a timeout. Meanwhile the application does what it does, timers are called, and anybody
may cancel either of the two tasks.

* **`Future`** — the task of the application, as far as the communicator looks at it.
* **`Point`** — where the tester is: outside the methods, or at one of the places where they
  suspend.
* **`wait`**, **`stop`**, **`sendInput`**, **`receiveOutput`**, **`receiveNothing`** — the methods,
  up to where they suspend or end, and what comes after each such place.
* **`machine`** — the tester, its application and the loop.
* **`event`** — what an onlooker sees: what goes through the queues.

The tester calls one method at a time. Each call that has a timeout makes a `timeout` of its own, so
the state has only the last one. -/

namespace Asgiref.ApplicationCommunicator

open AsyncTimeout (ExcType Timeout Schedule doEnter doExit cancelTask)

/-- How the application ended. One that raises `CancelledError` counts as cancelled. -/
inductive Outcome
  | returned
  | raised (e : ExcType)
  deriving DecidableEq, Repr

/-- What `result()` raises. -/
def Outcome.exception : Outcome → Option ExcType
  | .returned => none
  | .raised e => some e

/-- The task of the application. -/
structure Future where
  /-- Its coroutine was entered. -/
  started : Bool
  cancelRequested : Bool
  outcome : Option Outcome
  deriving DecidableEq, Repr

/-- The methods and their arguments. -/
inductive Method (M : Type)
  | wait (timeout : Option Int)
  | stop (exceptions : Bool)
  | sendInput (message : M)
  | receiveOutput (timeout : Option Int)
  | receiveNothing (timeout interval : Int)
  deriving DecidableEq, Repr

/-- What a method returns. -/
inductive Value (M : Type)
  | none
  | message (m : M)
  | bool (b : Bool)
  deriving DecidableEq, Repr

/-- How a call of a method ended. -/
inductive Result (M : Type)
  | returned (value : Value M)
  | raised (e : ExcType)
  deriving DecidableEq, Repr

/-- Where the tester is. -/
inductive Point (M : Type)
  /-- In no method; the last call and how it ended. -/
  | outside (last : Option (Method M × Result M))
  /-- In the block of `wait`, which awaits the application. -/
  | waiting (timeout : Option Int)
  /-- In the `finally` of `wait`, which awaits the application that it has cancelled, with the
  exception that the block was left with. -/
  | waitCancelled (timeout : Option Int) (left : Option ExcType)
  /-- In the block of `receive_output`, which awaits a message. -/
  | receiving (timeout : Option Int)
  /-- In the handler of `receive_output`, which awaits the application that it has cancelled. -/
  | receiveCancelled (timeout : Option Int)
  /-- In the loop of `receive_nothing`, which sleeps up to this time. -/
  | sleeping (timeout interval start wakeAt : Int)
  deriving DecidableEq, Repr

/-- The communicator, the tester's task and the loop. -/
structure State (M : Type) where
  time : Int
  inputQueue : List M
  outputQueue : List M
  /-- `self._future`. -/
  future : Option Future
  point : Point M
  task : Task
  /-- The `timeout` of the last block. -/
  timeout : Timeout
  /-- The call of its `_cancel_task` that the loop has. -/
  timer : Option Schedule
  /-- When the last method was called: a record, which no step looks at. -/
  calledAt : Int

variable {M : Type}

/-- A new communicator. -/
def init (M : Type) (time : Int) : State M where
  time := time
  inputQueue := []
  outputQueue := []
  future := none
  point := .outside none
  task := ⟨.running, false, false⟩
  timeout := .new none
  timer := none
  calledAt := time

namespace State

/-- How the application ended, if it did. -/
def outcome (s : State M) : Option Outcome := s.future.bind Future.outcome

/-- `self.future`: the task is made when it is asked for the first time. -/
def getFuture (s : State M) : State M :=
  match s.future with
  | some _ => s
  | none => { s with future := some ⟨false, false, none⟩ }

/-- `self.future.cancel()`. -/
def cancelFuture (s : State M) : State M :=
  { s with future := s.future.map fun future =>
      if future.outcome = none then { future with cancelRequested := true } else future }

/-- `async with async_timeout(timeout)`: the block is entered. -/
def enterBlock (timeout : Option Int) (s : State M) : State M :=
  match doEnter (some 0) s.time 0 (.new timeout) with
  | (self, .ok schedule) => { s with timeout := self, timer := schedule }
  | (self, .error _) => { s with timeout := self }

/-- The block is left, with the exception that its code ended with, and the one that comes out. A
call that the loop still has after that finds no task. -/
def exitBlock (excType : Option ExcType) (s : State M) : State M × Option ExcType :=
  let (self, _, left) := doExit excType s.timeout
  ({ s with timeout := self, timer := none }, left)

/-- The call of a method ends. -/
def finish (method : Method M) (result : Result M) (s : State M) : State M :=
  { s with point := .outside (some (method, result)) }

/-- The tester is cancelled: the application with it, if that is what it awaits. -/
def cancelTester (s : State M) : State M :=
  match s.task.phase with
  | .awaitingTask _ => { s.cancelFuture with task := s.task.cancel }
  | _ => { s with task := s.task.cancel }

/-- The tester suspends at this point, for the application to end. -/
def awaitFuture (point : Point M) (s : State M) : State M :=
  { s with point := point, task := s.task.awaitTask }

/-- The exception that `await self.future` raises, once the application has ended. -/
def awaited (s : State M) (outcome : Outcome) : Option ExcType :=
  if s.task.throws then some .cancelledError else outcome.exception

end State

/-- What a method returns, or raises. -/
def Result.of (left : Option ExcType) (value : Value M) : Result M :=
  match left with
  | none => .returned value
  | some e => .raised e

open State

/-! ## `wait` and `stop` -/

/-- `wait`, after its `await self.future`, which raised this: a `CancelledError` is passed over, the
block is left, and an application that has not ended is cancelled. -/
def afterWait (timeout : Option Int) (raised : Option ExcType) (s : State M) : State M :=
  let inner := if raised = some .cancelledError then none else raised
  let (s, left) := s.exitBlock inner
  match s.outcome with
  | some _ => s.finish (.wait timeout) (.of left .none)
  | none => s.cancelFuture.awaitFuture (.waitCancelled timeout left)

/-- `wait`. -/
def wait (timeout : Option Int) (s : State M) : State M :=
  let s := (s.enterBlock timeout).getFuture
  match s.outcome with
  | some outcome => afterWait timeout outcome.exception s
  | none => s.awaitFuture (.waiting timeout)

/-- `wait`, after the `await self.future` in its `finally`. -/
def afterWaitCancelled (timeout : Option Int) (left raised : Option ExcType) (s : State M) :
    State M :=
  let raised := if raised = some .cancelledError then none else raised
  s.finish (.wait timeout) (.of (raised.or left) .none)

/-- `stop`. -/
def stop (exceptions : Bool) (s : State M) : State M :=
  match s.future with
  | none => s.finish (.stop exceptions) (.returned .none)
  | some future =>
      match future.outcome with
      | none => s.cancelFuture.finish (.stop exceptions) (.returned .none)
      | some outcome =>
          let raised := if exceptions then outcome.exception else none
          s.finish (.stop exceptions) (.of raised .none)

/-! ## The queues -/

/-- What `send_input`, `receive_output` and `receive_nothing` do first: they raise what the
application has raised, if it has ended so. -/
def checked (method : Method M) (s : State M) (rest : State M → State M) : State M :=
  let s := s.getFuture
  match s.outcome with
  | some (.raised e) => s.finish method (.raised e)
  | _ => rest s

/-- `send_input`. -/
def sendInput (message : M) (s : State M) : State M :=
  checked (.sendInput message) s fun s =>
    { s with inputQueue := s.inputQueue ++ [message] }.finish (.sendInput message)
      (.returned .none)

/-- `await self.output_queue.get()`: the message is taken and returned, or the tester suspends. -/
def getOutput (timeout : Option Int) (s : State M) : State M :=
  match s.outputQueue with
  | message :: rest =>
      ({ s with outputQueue := rest }.exitBlock none).1.finish (.receiveOutput timeout)
        (.returned (.message message))
  | [] => { s with point := .receiving timeout, task := s.task.awaitFuture }

/-- `receive_output`. -/
def receiveOutput (timeout : Option Int) (s : State M) : State M :=
  checked (.receiveOutput timeout) s fun s => getOutput timeout (s.enterBlock timeout)

/-- The `except asyncio.TimeoutError` of `receive_output`. -/
def outputTimedOut (timeout : Option Int) (s : State M) : State M :=
  match s.outcome with
  | some (.raised e) => s.finish (.receiveOutput timeout) (.raised e)
  | some .returned => s.finish (.receiveOutput timeout) (.raised .timeoutError)
  | none => s.cancelFuture.awaitFuture (.receiveCancelled timeout)

/-- `receive_output`, once the tester is woken in its block. -/
def afterReceiving (timeout : Option Int) (throws : Bool) (s : State M) : State M :=
  if throws then
    match s.exitBlock (some .cancelledError) with
    | (s, some .timeoutError) => outputTimedOut timeout s
    | (s, left) => s.finish (.receiveOutput timeout) (.of left .none)
  else getOutput timeout s

/-- `receive_output`, after the `await self.future` in its handler. -/
def afterReceiveCancelled (timeout : Option Int) (raised : Option ExcType) (s : State M) :
    State M :=
  match raised with
  | none | some .cancelledError => s.finish (.receiveOutput timeout) (.raised .timeoutError)
  | some e => s.finish (.receiveOutput timeout) (.raised e)

/-- A turn of the loop of `receive_nothing`, which may be the last one. -/
def pollOutput (timeout interval start : Int) (s : State M) : State M :=
  let method := .receiveNothing timeout interval
  if s.time - start < timeout then
    if s.outputQueue ≠ [] then s.finish method (.returned (.bool false))
    else
      { s with
        point := .sleeping timeout interval start (s.time + interval)
        -- `asyncio.sleep` only yields where there is no time to wait for
        task := if interval ≤ 0 then s.task.yield else s.task.awaitFuture }
  else s.finish method (.returned (.bool s.outputQueue.isEmpty))

/-- `receive_nothing`. -/
def receiveNothing (timeout interval : Int) (s : State M) : State M :=
  checked (.receiveNothing timeout interval) s fun s => pollOutput timeout interval s.time s

/-! ## The machine -/

/-- A method is called. -/
def callMethod (method : Method M) (s : State M) : State M :=
  let s := { s with calledAt := s.time }
  match method with
  | .wait timeout => wait timeout s
  | .stop exceptions => stop exceptions s
  | .sendInput message => sendInput message s
  | .receiveOutput timeout => receiveOutput timeout s
  | .receiveNothing timeout interval => receiveNothing timeout interval s

/-- The next turn of the tester, from where it was suspended. -/
def resumeTester (s : State M) : Option (State M) :=
  let throws := s.task.throws
  let resumed := { s with task := s.task.resume }
  match s.point, s.outcome with
  | .outside _, _ => none
  | .waiting timeout, some outcome => some (afterWait timeout (s.awaited outcome) resumed)
  | .waitCancelled timeout left, some outcome =>
      some (afterWaitCancelled timeout left (s.awaited outcome) resumed)
  | .receiveCancelled timeout, some outcome =>
      some (afterReceiveCancelled timeout (s.awaited outcome) resumed)
  | .waiting _, none | .waitCancelled .., none | .receiveCancelled _, none => none
  | .receiving timeout, _ => some (afterReceiving timeout throws resumed)
  | .sleeping timeout interval start _, _ =>
      some (if throws then
          resumed.finish (.receiveNothing timeout interval) (.raised .cancelledError)
        else pollOutput timeout interval start resumed)

/-- The application ends, which wakes the tester if it awaits that. -/
def endApplication (future : Future) (outcome : Outcome) (s : State M) : State M :=
  { s with
    future := some { future with outcome := some outcome }
    task :=
      match s.task.phase with
      | .awaitingTask _ => s.task.complete (decide (outcome = .raised .cancelledError))
      | _ => s.task }

/-- The first turn of the application: if it was cancelled by then, its coroutine is not entered. -/
def startApplication (s : State M) : Option (State M) :=
  s.future.bind fun future =>
    if future.started ∨ future.outcome ≠ none then none
    else if future.cancelRequested then
      some (endApplication future (.raised .cancelledError) s)
    else some { s with future := some { future with started := true } }

/-- `self.output_queue.put(message)`, which wakes the tester if it awaits a message. -/
def putOutput (message : M) (s : State M) : State M :=
  { s with
    outputQueue := s.outputQueue ++ [message]
    task :=
      match s.point with
      | .receiving _ => s.task.complete false
      | _ => s.task }

/-- The handle is due. -/
def due (resolution : Nat) (time : Int) : Schedule → Bool
  | .callSoon => true
  | .callAt time' => time' < time + resolution

/-- The call of `_cancel_task`. -/
def callTimer (s : State M) : State M :=
  match cancelTask s.timeout with
  | (self, some _) => { s with timeout := self, timer := none }.cancelTester
  | (_, none) => { s with timer := none }

/-- What happens on the loop. -/
inductive Action (M : Type)
  | tick (d : Nat)
  | call (method : Method M)
  | resume
  /-- The first turn of the application. -/
  | start
  /-- The application, or a task of its own, sends a message. -/
  | send (message : M)
  /-- The application, or a task of its own, gets its next message. -/
  | receive
  | complete (outcome : Outcome)
  /-- Somebody else cancels the application. -/
  | cancelApplication
  /-- Somebody else cancels the tester, while it is in a method. -/
  | cancelTester
  | timer
  /-- The sleep of `receive_nothing` is over. -/
  | wake
  deriving DecidableEq, Repr

/-- The tester, its application and a loop whose clock has this resolution. -/
def machine (M : Type) (resolution : Nat) : Machine (State M) (Action M) where
  step s
    | .tick d => some { s with time := s.time + d }
    | .call method =>
        match s.point with
        | .outside _ => some (callMethod method s)
        | _ => none
    | .resume => if s.task.phase = .ready then resumeTester s else none
    | .start => startApplication s
    | .send message =>
        if (s.future.map Future.started).getD false then some (putOutput message s) else none
    | .receive =>
        if (s.future.map Future.started).getD false then
          match s.inputQueue with
          | _ :: rest => some { s with inputQueue := rest }
          | [] => none
        else none
    | .complete outcome =>
        s.future.bind fun future =>
          if future.started ∧ future.outcome = none then some (endApplication future outcome s)
          else none
    | .cancelApplication => some s.cancelFuture
    | .cancelTester =>
        match s.point with
        | .outside _ => none
        | _ => some s.cancelTester
    | .timer =>
        s.timer.bind fun schedule =>
          if due resolution s.time schedule then some (callTimer s) else none
    | .wake =>
        match s.point, s.task.phase with
        | .sleeping _ _ _ wakeAt, .awaitingFuture =>
            if wakeAt < s.time + resolution then
              some { s with task := s.task.complete false }
            else none
        | _, _ => none

/-! ## What goes through the queues -/

/-- The two queues. -/
inductive Queue
  | input
  | output
  deriving DecidableEq, Repr

/-- What is in a queue. -/
def State.contents (s : State M) : Queue → List M
  | .input => s.inputQueue
  | .output => s.outputQueue

/-- The last call and how it ended, for a tester that is in no method. -/
def Point.last : Point M → Option (Method M × Result M)
  | .outside last => last
  | _ => none

/-- What a call that has ended has done with the queues. -/
def moved : Method M × Result M → Option (Queues.Event Queue M)
  | (.sendInput message, .returned _) => some (.put .input message)
  | (.receiveOutput _, .returned (.message message)) => some (.take .output message)
  | _ => none

/-- What a step shows: the application sends or gets a message, `send_input` returns, or
`receive_output` returns a message. -/
def event (resolution : Nat) (s : State M) (a : Action M) : Option (Queues.Event Queue M) :=
  match a with
  | .send message => some (.put .output message)
  | .receive => s.inputQueue.head?.map (.take .input)
  -- a turn of the tester
  | .call _ | .resume =>
      (((machine M resolution).step s a).bind fun s' => s'.point.last).bind moved
  | _ => none

end Asgiref.ApplicationCommunicator
