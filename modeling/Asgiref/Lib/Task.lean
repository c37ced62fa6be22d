import Mathlib.Logic.Basic

/-! # Tasks of a cooperative event loop

A task runs until it awaits something, and takes its next turn once that is done. It is cancelled by
an exception that is thrown into it at its next turn; what it awaits is cancelled first, where that
is possible. Nothing here is about the code of any particular task.

* **`Task.cancel`**, **`Task.complete`** — what others do to a task: they ask it to stop, and they
  finish what it awaits.
* **`Task.awaitFuture`**, **`Task.awaitTask`**, **`Task.yield`** — how a task suspends.
* **`Task.resume`** — its next turn, for which **`Task.throws`** says whether the exception is
  thrown.
* **`Task.Cancelling`** — whether a cancellation is on its way. -/

namespace Asgiref

/-- What a task does. -/
inductive Phase
  | running
  /-- Its next turn is scheduled. -/
  | ready
  /-- It awaits a future, which is cancelled on the spot. -/
  | awaitingFuture
  /-- It awaits another task, which may have been asked to stop, and does so in its own time. -/
  | awaitingTask (asked : Bool)
  deriving DecidableEq, Repr

/-- A task. -/
structure Task where
  phase : Phase
  /-- What it awaited was cancelled. -/
  thrown : Bool
  /-- The exception is due at its next turn, whatever became of what it awaited. -/
  mustCancel : Bool
  deriving DecidableEq, Repr

namespace Task

/-- A new task. -/
def new : Task := ⟨.ready, false, false⟩

/-- The exception is thrown at the next turn. -/
def throws (task : Task) : Bool := task.thrown || task.mustCancel

/-- The task is asked to stop: what it awaits is cancelled, and if there is nothing to cancel any
more, the task itself will be. -/
def cancel (task : Task) : Task :=
  match task.phase with
  | .awaitingFuture => { task with phase := .ready, thrown := true }
  | .awaitingTask _ => { task with phase := .awaitingTask true }
  | .ready | .running => { task with mustCancel := true }

/-- What the task awaits is done, or cancelled. -/
def complete (cancelled : Bool) (task : Task) : Task :=
  match task.phase with
  | .awaitingFuture | .awaitingTask _ => { task with phase := .ready, thrown := cancelled }
  | .ready | .running => task

/-- The running task awaits something: if it must be cancelled, that is cancelled at once. -/
def suspend (phase : Phase) (task : Task) : Task :=
  if task.mustCancel then cancel ⟨phase, false, false⟩ else ⟨phase, false, false⟩

/-- The running task awaits a future. -/
def awaitFuture (task : Task) : Task := task.suspend .awaitingFuture

/-- The running task awaits another task. -/
def awaitTask (task : Task) : Task := task.suspend (.awaitingTask false)

/-- The running task leaves the rest for its next turn. -/
def yield (task : Task) : Task := { task with phase := .ready }

/-- The next turn of the task: the exception is thrown, if it was due. -/
def resume (_ : Task) : Task := ⟨.running, false, false⟩

/-- A cancellation of the task is on its way. -/
def Cancelling (task : Task) : Prop := task.throws = true ∨ task.phase = .awaitingTask true

instance (task : Task) : Decidable task.Cancelling :=
  inferInstanceAs (Decidable (_ ∨ _))

variable {task : Task}

theorem not_cancelling_new : ¬ new.Cancelling := by decide

theorem not_cancelling_resume (task : Task) : ¬ task.resume.Cancelling := by
  rintro (h | h) <;> cases h

/-- Nobody starts to run by being cancelled. -/
@[simp] theorem cancel_phase_eq_running (task : Task) :
    task.cancel.phase = .running ↔ task.phase = .running := by
  unfold cancel
  cases task.phase <;> simp

/-- A task is not cancelled by what it awaits, if that was not. -/
theorem Cancelling.of_complete (h : (task.complete false).Cancelling) : task.Cancelling := by
  unfold complete at h
  cases hphase : task.phase with
  | running | ready =>
      rw [hphase] at h
      exact h
  | awaitingFuture | awaitingTask =>
      rw [hphase] at h
      rcases h with h | h
      · have hmust : task.mustCancel = true := by simpa [throws] using h
        exact .inl (by simp [throws, hmust])
      · cases h

@[simp] theorem complete_phase_eq_running (cancelled : Bool) (task : Task) :
    (task.complete cancelled).phase = .running ↔ task.phase = .running := by
  unfold complete
  cases h : task.phase <;> simp [h]

/-- A task that is not to be cancelled awaits something that is not cancelled. -/
theorem suspend_of_not_cancelling (phase : Phase) (h : ¬ task.Cancelling) :
    task.suspend phase = ⟨phase, false, false⟩ := by
  have hmust : ¬ task.mustCancel = true := fun hmust => h (.inl (by simp [throws, hmust]))
  exact if_neg hmust

end Task

end Asgiref
