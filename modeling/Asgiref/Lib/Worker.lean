import Mathlib.Data.List.Basic
import Mathlib.Data.List.Nodup

/-! # An executor with one worker

What is submitted waits in a queue, and the worker runs it, one item after the other. After a
shutdown nothing more can be submitted, but what is there is still run. Nothing here is about any
particular machine.

* **`Worker`** — the executor, with **`submit`**, **`take`**, **`finish`** and **`close`**.
* **`Worker.items`** — what was submitted and has not ended, in order: an operation leaves it, adds
  to its end, or takes its first item away. -/

namespace Asgiref

/-- The executor. -/
structure Worker (α : Type) where
  running : Option α
  queue : List α
  shutdown : Bool
  deriving DecidableEq, Repr

namespace Worker

variable {α : Type} {w w' : Worker α} {a : α}

/-- A new executor. -/
def new (α : Type) : Worker α := ⟨none, [], false⟩

/-- An item is submitted; `none` where that raises. -/
def submit (a : α) (w : Worker α) : Option (Worker α) :=
  if w.shutdown then none else some { w with queue := w.queue ++ [a] }

/-- The worker takes its next item. -/
def take (w : Worker α) : Option (Worker α) :=
  match w.running, w.queue with
  | none, a :: rest => some { w with running := some a, queue := rest }
  | _, _ => none

/-- The item that is run ends. -/
def finish (w : Worker α) : Worker α := { w with running := none }

/-- Nothing more can be submitted. -/
def close (w : Worker α) : Worker α := { w with shutdown := true }

/-- What was submitted and has not ended. -/
def items (w : Worker α) : List α := w.running.toList ++ w.queue

@[simp] theorem items_new : (new α).items = [] := rfl

@[simp] theorem items_close (w : Worker α) : w.close.items = w.items := rfl

theorem items_submit (h : w.submit a = some w') :
    w'.items = w.items ++ [a] ∧ w'.shutdown = w.shutdown ∧ w'.running = w.running := by
  unfold submit at h
  split at h
  · cases h
  · cases h
    exact ⟨(List.append_assoc ..).symm, rfl, rfl⟩

theorem items_take (h : w.take = some w') : w'.items = w.items ∧ w'.shutdown = w.shutdown ∧
    w.running = none ∧ w'.running.isSome := by
  unfold take at h
  split at h
  · rename_i a rest hrunning hqueue
    cases h
    refine ⟨?_, rfl, hrunning, rfl⟩
    unfold items
    rw [hrunning, hqueue]
    rfl
  · cases h

theorem items_finish (h : w.running = some a) : w.items = a :: w.finish.items := by
  unfold items finish
  rw [h]
  rfl

theorem mem_items (h : w.running = some a) : a ∈ w.items := by
  rw [items_finish h]
  exact List.mem_cons_self

/-- A worker that has something to do and does not run anything takes it. -/
theorem exists_take (hitems : w.items ≠ []) (h : w.running = none) : ∃ w', w.take = some w' := by
  unfold items at hitems
  unfold take
  rw [h] at hitems ⊢
  cases hqueue : w.queue with
  | nil => exact absurd (by rw [hqueue]; rfl) hitems
  | cons a rest => exact ⟨_, rfl⟩

end Worker

end Asgiref
