import Asgiref.Lib.Machine
import Asgiref.Context

/-! # `StatelessServer`

The server keeps one application instance for each `scope_id`: a task that runs the application, its
input queue, and the time it was last used. Everything runs on one event loop, so what a method does
between two suspensions is one step of this machine; only the checker ever suspends.

* **`State`** — the table, the tasks that were started, and where the checker is.
* **`deleteApplicationInstance`**, **`deleteOldestApplicationInstance`**, **`evict`**,
  **`getOrCreateApplicationInstance`** — the methods, which handlers may call at any time.
* **`walk`** — the checker's loop over its snapshot, up to its next suspension. **`swept`** says
  which entries such a stretch deletes.
* **`machine`** — handlers, applications and the checker, in any order; **`step_inv`** says what a
  step of it does. -/

namespace Asgiref.StatelessServer

/-- How the task of an application ended. -/
inductive Outcome
  | result
  | exception (e : PyError)
  /-- An exception that its class makes false as a condition. -/
  | falseException (e : PyError)
  /-- An exception whose class raises this where it is taken as a condition. -/
  | raisingException (e raised : PyError)
  | cancelled
  deriving DecidableEq, Repr

/-- The details of an instance, but for `last_used`, which is the one that changes. Tasks and their
queues are numbered in the order in which they were made. -/
structure Details (Scope : Type*) where
  inputQueue : Nat
  future : Nat
  scope : Scope
  deriving DecidableEq, Repr

/-- An item of the table: a `scope_id` and its details. -/
abbrev Item (κ Scope : Type*) := Sigma fun _ : κ => Details Scope

/-- Where `application_checker` is: in its sleep, suspended in `application_exception` for the
instance of a `scope_id` with the rest of its snapshot still to do, or ended by an exception. -/
inductive Checker (κ Scope : Type*)
  | sleeping
  | handling (scopeId : κ) (rest : List (Item κ Scope))
  | ended (e : PyError)

/-- The server. A task is known by its number, the position of its `scope_id` in `started`. -/
structure State (κ Scope : Type*) where
  /-- The table, its latest entry first. -/
  applicationInstances : AList fun _ : κ => Details Scope
  /-- `details["last_used"]` for the instance of each task, in ticks of the clock. -/
  lastUsed : Nat → Nat
  /-- The `scope_id` that each application task was started for. -/
  started : List κ
  /-- How each task ended, if it is done. -/
  outcome : Nat → Option Outcome
  /-- The tasks on which `cancel()` was called, in turn. -/
  cancelCalls : List Nat
  checker : Checker κ Scope
  /-- The tasks whose exceptions were handed to `application_exception`. -/
  reported : List Nat

variable {κ Scope : Type*}

/-- A new server. -/
def init : State κ Scope where
  applicationInstances := ∅
  lastUsed := fun _ => 0
  started := []
  outcome := fun _ => none
  cancelCalls := []
  checker := .sleeping
  reported := []

namespace State

/-- `len(self.application_instances)`. -/
def size (s : State κ Scope) : Nat := s.applicationInstances.keys.length

/-- `self.application_instances.items()`: a dict is iterated in the order of insertion. -/
def items (s : State κ Scope) : List (Item κ Scope) := s.applicationInstances.entries.reverse

/-- The task was started for this `scope_id`, is not done, and was not asked to stop. -/
def Live (s : State κ Scope) (task : Nat) (scopeId : κ) : Prop :=
  s.started[task]? = some scopeId ∧ s.outcome task = none ∧ task ∉ s.cancelCalls

end State

variable [DecidableEq κ]

/-- `delete_application_instance`; `none` where it raises `KeyError`. -/
def deleteApplicationInstance (s : State κ Scope) (scopeId : κ) : Option (State κ Scope) :=
  (s.applicationInstances.lookup scopeId).map fun details =>
    { s with
      applicationInstances := s.applicationInstances.erase scopeId
      cancelCalls :=
        if (s.outcome details.future).isSome then s.cancelCalls
        else s.cancelCalls ++ [details.future] }

/-- The first item whose `last_used` is the least of all. -/
def oldest (s : State κ Scope) : Option (Item κ Scope) :=
  let oldestTime := (s.items.map fun item => s.lastUsed item.2.future).min?
  s.items.find? fun item => some (s.lastUsed item.2.future) == oldestTime

/-- `delete_oldest_application_instance`; `none` where `min` raises on an empty table. -/
def deleteOldestApplicationInstance (s : State κ Scope) : Option (State κ Scope) :=
  (oldest s).bind fun item => deleteApplicationInstance s item.1

/-- The `while` loop that makes space, for at most `n` turns. -/
def evict (maxApplications : Nat) : Nat → State κ Scope → State κ Scope
  | 0, s => s
  | n + 1, s =>
      -- `>`, so the loop leaves `max_applications` entries, and the new one comes on top
      if maxApplications < s.size then
        match deleteOldestApplicationInstance s with
        | some s' => evict maxApplications n s'
        | none => s
      else s

/-- The new instance, once its application was called: the task, its queue, and the entry. -/
def register (s : State κ Scope) (scopeId : κ) (scope : Scope) (now : Nat) : State κ Scope :=
  { s with
    applicationInstances :=
      s.applicationInstances.insert scopeId ⟨s.started.length, s.started.length, scope⟩
    lastUsed := Function.update s.lastUsed s.started.length now
    started := s.started ++ [scopeId] }

/-- `get_or_create_application_instance` at a time, and the queue it returns. Calling the
application may raise before there is a task. -/
def getOrCreateApplicationInstance (maxApplications : Nat) (s : State κ Scope) (scopeId : κ)
    (scope : Scope) (now : Nat) (raised : Option PyError) : State κ Scope × Except PyError Nat :=
  match s.applicationInstances.lookup scopeId with
  | some details =>
      ({ s with lastUsed := Function.update s.lastUsed details.future now },
        .ok details.inputQueue)
  | none =>
      -- every turn removes an entry, so the loop has no more turns than there are entries
      let s₁ := evict maxApplications s.size s
      match raised with
      | some e => (s₁, .error e)
      | none => (register s₁ scopeId scope now, .ok s₁.started.length)

/-! ## The checker -/

/-- `del self.application_instances[scope_id]`, where a `KeyError` is fine. -/
def discard (s : State κ Scope) (scopeId : κ) : State κ Scope :=
  { s with applicationInstances := s.applicationInstances.erase scopeId }

/-- The loop of `application_checker` over the items of its snapshot, until it comes to its sleep
again, or calls `application_exception`, or is ended by an exception: `exception()` raises because
the task was cancelled, or `if exception` raises. -/
def walk : List (Item κ Scope) → State κ Scope → State κ Scope
  | [], s => { s with checker := .sleeping }
  | item :: rest, s =>
      match s.outcome item.2.future with
      | none => walk rest s
      -- the entry goes by its scope id, whatever instance is there by now
      | some .result | some (.falseException _) => walk rest (discard s item.1)
      | some (.exception _) =>
          { s with checker := .handling item.1 rest, reported := s.reported ++ [item.2.future] }
      | some (.raisingException _ raised) => { s with checker := .ended raised }
      | some .cancelled => { s with checker := .ended .cancelledError }

/-- The scope ids whose entries a stretch of the loop deletes. -/
def swept (outcome : Nat → Option Outcome) : List (Item κ Scope) → List κ
  | [] => []
  | item :: rest =>
      match outcome item.2.future with
      | none => swept outcome rest
      | some .result | some (.falseException _) => item.1 :: swept outcome rest
      | some (.exception _) | some (.raisingException ..) | some .cancelled => []

/-! ## The machine -/

/-- What happens on the loop. -/
inductive Action (κ Scope : Type*)
  | getOrCreate (scopeId : κ) (scope : Scope) (now : Nat) (raised : Option PyError)
  | delete (scopeId : κ)
  | deleteOldest
  /-- The task of an application is done. -/
  | finish (task : Nat) (outcome : Outcome)
  /-- The checker's sleep is over: it takes its snapshot and walks it. -/
  | wake
  /-- `application_exception` returns, and the checker goes on. -/
  | resume
  /-- `application_exception` raises, and the checker ends. -/
  | fail (e : PyError)

/-- The server with this limit. A method that raises leaves the state as it was. -/
def machine (maxApplications : Nat) : Machine (State κ Scope) (Action κ Scope) where
  step s
    | .getOrCreate scopeId scope now raised =>
        some (getOrCreateApplicationInstance maxApplications s scopeId scope now raised).1
    | .delete scopeId => some ((deleteApplicationInstance s scopeId).getD s)
    | .deleteOldest => some ((deleteOldestApplicationInstance s).getD s)
    | .finish task outcome =>
        if task < s.started.length ∧ s.outcome task = none then
          some { s with outcome := Function.update s.outcome task (some outcome) }
        else none
    | .wake =>
        match s.checker with
        | .sleeping => some (walk s.items s)
        | _ => none
    | .resume =>
        match s.checker with
        | .handling scopeId rest => some (walk rest (discard s scopeId))
        | _ => none
    | .fail e =>
        match s.checker with
        | .handling .. => some { s with checker := .ended e }
        | _ => none

/-- What each action asks of the state, and what it does. -/
inductive Steps (maxApplications : Nat) (s : State κ Scope) :
    Action κ Scope → State κ Scope → Prop
  | getOrCreate (k : κ) (scope : Scope) (now : Nat) (raised : Option PyError) :
      Steps maxApplications s (.getOrCreate k scope now raised)
        (getOrCreateApplicationInstance maxApplications s k scope now raised).1
  | delete (k : κ) :
      Steps maxApplications s (.delete k) ((deleteApplicationInstance s k).getD s)
  | deleteOldest :
      Steps maxApplications s .deleteOldest ((deleteOldestApplicationInstance s).getD s)
  | finish (task : Nat) (outcome : Outcome) (hstarted : task < s.started.length)
      (hrunning : s.outcome task = none) :
      Steps maxApplications s (.finish task outcome)
        { s with outcome := Function.update s.outcome task (some outcome) }
  | wake (hchecker : s.checker = .sleeping) : Steps maxApplications s .wake (walk s.items s)
  | resume {k : κ} {rest : List (Item κ Scope)} (hchecker : s.checker = .handling k rest) :
      Steps maxApplications s .resume (walk rest (discard s k))
  | fail {k : κ} {rest : List (Item κ Scope)} (e : PyError)
      (hchecker : s.checker = .handling k rest) :
      Steps maxApplications s (.fail e) { s with checker := .ended e }

theorem step_inv {maxApplications : Nat} {s s' : State κ Scope} {a : Action κ Scope}
    (hstep : (machine maxApplications).step s a = some s') : Steps maxApplications s a s' := by
  cases a with
  | getOrCreate k scope now raised =>
      cases hstep
      exact .getOrCreate k scope now raised
  | delete k =>
      cases hstep
      exact .delete k
  | deleteOldest =>
      cases hstep
      exact .deleteOldest
  | finish task outcome =>
      obtain ⟨⟨hstarted, hrunning⟩, rfl⟩ : _ ∧ _ = s' := by simpa [machine] using hstep
      exact .finish task outcome hstarted hrunning
  | wake =>
      simp only [machine] at hstep
      split at hstep
      · rename_i hchecker
        cases hstep
        exact .wake hchecker
      · cases hstep
  | resume =>
      simp only [machine] at hstep
      split at hstep
      · rename_i k rest hchecker
        cases hstep
        exact .resume hchecker
      · cases hstep
  | fail e =>
      simp only [machine] at hstep
      split at hstep
      · rename_i k rest hchecker
        cases hstep
        exact .fail e hchecker
      · cases hstep

end Asgiref.StatelessServer
