import Mathlib.Logic.Function.Basic
import Asgiref.Lib.Machine

/-! # `CurrentThreadExecutor`

An executor that runs its items in the thread that waits for a future. Other threads submit; an
executor that is broken passes the item on to the one before it. Everything that a lock protects is
one step of the machine, and the steps of all threads interleave freely.

* **`submit`**, **`walk`** — the call of `submit` for an item, and one turn of its walk along the
  `_old_executor` links.
* **`cancel`** — the holder of the returned future cancels it.
* **`resolve`**, **`done`** — the awaited future is resolved, and its done callback runs.
* **`enter`**, **`check`**, **`start`**, **`finish`** — `run_until_future`: its call, its critical
  section, and the two halves of `_WorkItem.run`.
* **`Step`** — what each action needs and does, with **`step_inv`**.

The lists `appended`, `dequeued` and `calls` are records for the proofs; no step looks at them. -/

namespace Asgiref

namespace CurrentThreadExecutor

/-- The state of a `concurrent.futures.Future`. -/
inductive FutureState
  | pending
  | running
  | cancelled
  | cancelledAndNotified
  | finished
  deriving DecidableEq, Repr

/-- Where the `submit` call for an item stands. -/
inductive Submit
  | notCalled
  /-- It is about to take the lock of this executor. -/
  | walking (e : Nat)
  /-- It has returned; this executor has taken the item. -/
  | accepted (e : Nat)
  /-- It has raised `RuntimeError`. -/
  | raised
  deriving DecidableEq, Repr

/-- A `_WorkItem` and its `submit` call: the executor it was made on, those that the walk has found
broken, and the state of the future. -/
structure WorkItem where
  submit : Submit
  start : Nat
  passed : List Nat
  future : FutureState
  deriving DecidableEq, Repr

/-- Where `run_until_future` stands. -/
inductive Loop
  | notCalled
  /-- It is about to take the lock. -/
  | top
  /-- It is parked in `wait()`; a notification may be pending. -/
  | waiting (notified : Bool)
  /-- It has dequeued this item. -/
  | took (x : Nat)
  /-- It is calling the function of this item. -/
  | running (x : Nat)
  | returned
  deriving DecidableEq, Repr

/-- The done callback of the awaited future. -/
inductive Callback
  | notAdded
  | added
  | called
  deriving DecidableEq, Repr

/-- An executor, the call of its `run_until_future` and the future awaited there. -/
structure Executor where
  workItems : List Nat
  broken : Bool
  loop : Loop
  /-- The thread that called `run_until_future`. -/
  runner : Nat
  futureDone : Bool
  callback : Callback
  appended : List Nat
  dequeued : List Nat
  deriving DecidableEq, Repr

/-- What the executors were made with: their `_work_thread` and `_old_executor`. -/
structure Chain where
  workThread : Nat → Nat
  oldExecutor : Nat → Option Nat

/-- All executors and items, and the calls of items' functions so far with their threads. -/
structure State where
  executor : Nat → Executor
  item : Nat → WorkItem
  calls : List (Nat × Nat)

/-- Nothing has been submitted yet. -/
def init : State where
  executor _ := ⟨[], false, .notCalled, 0, false, .notAdded, [], []⟩
  item _ := ⟨.notCalled, 0, [], .pending⟩
  calls := []

namespace State

def setExecutor (s : State) (e : Nat) (ex : Executor) : State :=
  { s with executor := Function.update s.executor e ex }

def setItem (s : State) (x : Nat) (item : WorkItem) : State :=
  { s with item := Function.update s.item x item }

end State

/-- `self._work_ready.notify()`. -/
def Executor.notify (ex : Executor) : Executor :=
  match ex.loop with
  | .waiting _ => { ex with loop := .waiting true }
  | _ => ex

/-- The call of `submit` for item `x` on executor `e`, up to the walk. -/
def submit (chain : Chain) (x caller e : Nat) (s : State) : Option State :=
  match (s.item x).submit with
  | .notCalled =>
      -- "You cannot submit onto CurrentThreadExecutor from its own thread"
      let submit := if caller = chain.workThread e then .raised else .walking e
      some (s.setItem x { s.item x with submit := submit, start := e })
  | _ => none

/-- One turn of the walk: append the item where the executor is not broken, else go on to the old
executor. -/
def walk (chain : Chain) (x : Nat) (s : State) : Option State :=
  match (s.item x).submit with
  | .walking e =>
      let ex := s.executor e
      if ex.broken then
        let submit := match chain.oldExecutor e with
          | some e' => .walking e'
          -- "CurrentThreadExecutor already quit or is broken"
          | none => .raised
        let passed := (s.item x).passed ++ [e]
        some (s.setItem x { s.item x with submit := submit, passed := passed })
      else
        let ex := { ex with workItems := ex.workItems ++ [x], appended := ex.appended ++ [x] }
        some ((s.setItem x { s.item x with submit := .accepted e }).setExecutor e ex.notify)
  | _ => none

/-- `Future.cancel` on the future that `submit` returned. -/
def cancel (x : Nat) (s : State) : Option State :=
  match (s.item x).submit with
  | .accepted _ =>
      match (s.item x).future with
      | .pending => some (s.setItem x { s.item x with future := .cancelled })
      -- running, finished or cancelled already
      | _ => some s
  | _ => none

/-- The future awaited in `e` is resolved. -/
def resolve (e : Nat) (s : State) : Option State :=
  if (s.executor e).futureDone then none
  else some (s.setExecutor e { s.executor e with futureDone := true })

/-- The done callback, in the thread that resolved the future. -/
def done (e : Nat) (s : State) : Option State :=
  match (s.executor e).callback, (s.executor e).futureDone with
  | .added, true =>
      some (s.setExecutor e { s.executor e with broken := true, callback := .called }.notify)
  | _, _ => none

/-- The call of `run_until_future` in thread `t`. A future that is done calls the callback at
once. -/
def enter (chain : Chain) (e t : Nat) (s : State) : Option State :=
  match (s.executor e).loop with
  | .notCalled =>
      -- "You cannot run CurrentThreadExecutor from a different thread"
      if t ≠ chain.workThread e then some s
      else if (s.executor e).futureDone then
        some (s.setExecutor e
          { s.executor e with loop := .top, runner := t, broken := true, callback := .called })
      else
        some (s.setExecutor e { s.executor e with loop := .top, runner := t, callback := .added })
  | _ => none

/-- The critical section of the loop: wait, return, or dequeue an item. -/
def Executor.check (ex : Executor) : Executor :=
  match ex.workItems with
  | [] => { ex with loop := if ex.broken then .returned else .waiting false }
  | x :: rest =>
      { ex with loop := .took x, workItems := rest, dequeued := ex.dequeued ++ [x] }

/-- The loop takes the lock, for the first time or after a notification. -/
def check (e : Nat) (s : State) : Option State :=
  match (s.executor e).loop with
  | .top | .waiting true => some (s.setExecutor e (s.executor e).check)
  | _ => none

/-- `set_running_or_notify_cancel`, and the start of the function where it returns `True`. -/
def start (e : Nat) (s : State) : Option State :=
  match (s.executor e).loop with
  | .took x =>
      match (s.item x).future with
      | .pending =>
          let s := { s with calls := s.calls ++ [(x, (s.executor e).runner)] }
          some ((s.setItem x { s.item x with future := .running }).setExecutor e
            { s.executor e with loop := .running x })
      | .cancelled =>
          some ((s.setItem x { s.item x with future := .cancelledAndNotified }).setExecutor e
            { s.executor e with loop := .top })
      | _ => none
  | _ => none

/-- The function has returned or raised, and its future is set. -/
def finish (e : Nat) (s : State) : Option State :=
  match (s.executor e).loop with
  | .running x =>
      some ((s.setItem x { s.item x with future := .finished }).setExecutor e
        { s.executor e with loop := .top })
  | _ => none

/-- The steps of all threads. -/
inductive Action
  | submit (x caller e : Nat)
  | walk (x : Nat)
  | cancel (x : Nat)
  | resolve (e : Nat)
  | done (e : Nat)
  | enter (e t : Nat)
  | check (e : Nat)
  | start (e : Nat)
  | finish (e : Nat)
  deriving DecidableEq, Repr

/-- The machine of a chain of executors. -/
def machine (chain : Chain) : Machine State Action where
  step s
    | .submit x caller e => submit chain x caller e s
    | .walk x => walk chain x s
    | .cancel x => cancel x s
    | .resolve e => resolve e s
    | .done e => done e s
    | .enter e t => enter chain e t s
    | .check e => check e s
    | .start e => start e s
    | .finish e => finish e s

/-- What each action needs, and the state that it leads to. -/
inductive Step (chain : Chain) (s : State) : Action → State → Prop
  | submit {x : Nat} (caller e : Nat) : (s.item x).submit = .notCalled →
      Step chain s (.submit x caller e) (s.setItem x { s.item x with
        submit := if caller = chain.workThread e then .raised else .walking e
        start := e })
  | next {x e e' : Nat} : (s.item x).submit = .walking e → (s.executor e).broken = true →
      chain.oldExecutor e = some e' →
      Step chain s (.walk x) (s.setItem x { s.item x with
        submit := .walking e'
        passed := (s.item x).passed ++ [e] })
  | raise {x e : Nat} : (s.item x).submit = .walking e → (s.executor e).broken = true →
      chain.oldExecutor e = none →
      Step chain s (.walk x) (s.setItem x { s.item x with
        submit := .raised
        passed := (s.item x).passed ++ [e] })
  | accept {x e : Nat} : (s.item x).submit = .walking e → (s.executor e).broken = false →
      Step chain s (.walk x)
        ((s.setItem x { s.item x with submit := .accepted e }).setExecutor e
          { s.executor e with
            workItems := (s.executor e).workItems ++ [x]
            appended := (s.executor e).appended ++ [x] }.notify)
  | cancel {x e : Nat} : (s.item x).submit = .accepted e → (s.item x).future = .pending →
      Step chain s (.cancel x) (s.setItem x { s.item x with future := .cancelled })
  | cancelLate {x e : Nat} : (s.item x).submit = .accepted e → Step chain s (.cancel x) s
  | resolve {e : Nat} :
      Step chain s (.resolve e) (s.setExecutor e { s.executor e with futureDone := true })
  | done {e : Nat} : (s.executor e).callback = .added → (s.executor e).futureDone = true →
      Step chain s (.done e)
        (s.setExecutor e { s.executor e with broken := true, callback := .called }.notify)
  | enterRaising {e t : Nat} : (s.executor e).loop = .notCalled → t ≠ chain.workThread e →
      Step chain s (.enter e t) s
  | enterDone {e t : Nat} : (s.executor e).loop = .notCalled → t = chain.workThread e →
      (s.executor e).futureDone = true →
      Step chain s (.enter e t) (s.setExecutor e
        { s.executor e with loop := .top, runner := t, broken := true, callback := .called })
  | enter {e t : Nat} : (s.executor e).loop = .notCalled → t = chain.workThread e →
      Step chain s (.enter e t)
        (s.setExecutor e { s.executor e with loop := .top, runner := t, callback := .added })
  | check {e : Nat} : (s.executor e).loop = .top ∨ (s.executor e).loop = .waiting true →
      Step chain s (.check e) (s.setExecutor e (s.executor e).check)
  | start {x e : Nat} : (s.executor e).loop = .took x → (s.item x).future = .pending →
      Step chain s (.start e)
        (({ s with calls := s.calls ++ [(x, (s.executor e).runner)] }.setItem x
          { s.item x with future := .running }).setExecutor e
            { s.executor e with loop := .running x })
  | notifyCancel {x e : Nat} : (s.executor e).loop = .took x → (s.item x).future = .cancelled →
      Step chain s (.start e)
        ((s.setItem x { s.item x with future := .cancelledAndNotified }).setExecutor e
          { s.executor e with loop := .top })
  | finish {x e : Nat} : (s.executor e).loop = .running x →
      Step chain s (.finish e)
        ((s.setItem x { s.item x with future := .finished }).setExecutor e
          { s.executor e with loop := .top })

/-- **What a step can do.** -/
theorem step_inv {chain : Chain} {s s' : State} {a : Action}
    (hs : (machine chain).step s a = some s') : Step chain s a s' := by
  cases a with
  | submit x caller e =>
      simp only [machine, submit] at hs
      split at hs
      · rename_i hcall
        cases hs
        exact .submit caller e hcall
      · cases hs
  | walk x =>
      simp only [machine, walk] at hs
      split at hs
      · rename_i e hwalk
        split at hs
        · rename_i hbroken
          cases hs
          cases hlink : chain.oldExecutor e with
          | some e' => exact .next hwalk hbroken hlink
          | none => exact .raise hwalk hbroken hlink
        · rename_i hbroken
          cases hs
          exact .accept hwalk (by simpa using hbroken)
      · cases hs
  | cancel x =>
      simp only [machine, cancel] at hs
      split at hs
      · rename_i e haccepted
        split at hs
        · rename_i hpending
          cases hs
          exact .cancel haccepted hpending
        · cases hs
          exact .cancelLate haccepted
      · cases hs
  | resolve e =>
      simp only [machine, resolve] at hs
      split at hs
      · cases hs
      · cases hs
        exact .resolve
  | done e =>
      simp only [machine, done] at hs
      split at hs
      · rename_i hadded hdone
        cases hs
        exact .done hadded hdone
      · cases hs
  | enter e t =>
      simp only [machine, enter] at hs
      split at hs
      · rename_i hcall
        split at hs
        · rename_i hthread
          cases hs
          exact .enterRaising hcall hthread
        · rename_i hthread
          have ht : t = chain.workThread e := not_not.mp hthread
          split at hs
          · rename_i hdone
            cases hs
            exact .enterDone hcall ht hdone
          · cases hs
            exact .enter hcall ht
      · cases hs
  | check e =>
      simp only [machine, check] at hs
      split at hs
      · rename_i hloop
        cases hs
        exact .check (.inl hloop)
      · rename_i hloop
        cases hs
        exact .check (.inr hloop)
      · cases hs
  | start e =>
      simp only [machine, start] at hs
      split at hs
      · rename_i x hloop
        split at hs
        · rename_i hpending
          cases hs
          exact .start hloop hpending
        · rename_i hcancelled
          cases hs
          exact .notifyCancel hloop hcancelled
        · cases hs
      · cases hs
  | finish e =>
      simp only [machine, finish] at hs
      split at hs
      · rename_i x hloop
        cases hs
        exact .finish hloop
      · cases hs

end CurrentThreadExecutor

end Asgiref
