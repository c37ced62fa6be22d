import Mathlib.Algebra.BigOperators.Fin
import Mathlib.Tactic.Ring
import Asgiref.SensitiveContext.Invariant

/-! # Whoever waits goes on

Workers wait for the loop, the loop for joining threads, and these for workers. What a parked
function awaits on the loop is its own affair, and it may wait for ever; but nothing else does.

* **`Action.progress`** — the steps of the workers and the joining threads, and the ends of exits.
* **`Pool.work`** — a measure: each of these steps lowers it, **`work_lt`**.
* **`State.Blocked`** — the worker of an executor runs a parked function.
* **`settles`** — so in each order these steps come to an end, and then whatever still waits, waits
  for a parked function. -/

namespace Asgiref.SensitiveContext

open Finset

variable {p p' : Pool} {s s' : State} {a : Action} {as : List Action}

/-- A step that goes on with what is there: not one in which a task does something of its own, a
function calls `async_to_sync` or is served there, or an exit is cancelled. -/
def Action.progress : Action → Bool
  | .take _ | .finish _ | .shutdown _ | .join _ | .resume _ => true
  | _ => false

/-! ## The measure -/

/-- The step that a call needs before it is done, and one more for the next. -/
def Call.work (call : Call) : Nat := if call.done then 0 else 2

/-- The next call is to be taken, and the shutdown is to come. -/
def workerWork (worker : Worker Nat) : Nat :=
  (if worker.running.isSome then 0 else 1) + if worker.shutdown then 0 else 1

theorem workerWork_take {w w' : Worker Nat} (h : w.take = some w') :
    workerWork w' < workerWork w := by
  obtain ⟨-, hshutdown, hnone, hsome⟩ := Worker.items_take h
  unfold workerWork
  rw [hshutdown, hnone, hsome]
  simp

theorem workerWork_finish (w : Worker Nat) : workerWork w.finish ≤ workerWork w + 1 := by
  have hone : (if w.finish.running.isSome then 0 else 1) ≤ 1 := by
    split <;> omega
  show _ + (if w.shutdown then 0 else 1) ≤ _ + (if w.shutdown then 0 else 1) + 1
  omega

theorem workerWork_close {w : Worker Nat} (h : w.shutdown = false) :
    workerWork w.close < workerWork w := by
  unfold workerWork Worker.close
  rw [h]
  simp

/-- The thread is to end, and the exit is to return. -/
def Exit.work (exit : Exit) : Nat :=
  (if exit.thread then 1 else 0) + if exit.await = .joining ∨ exit.await = .joined then 1 else 0

theorem Exit.work_join {exit : Exit} (h : exit.thread = true) :
    ({ exit with
      thread := false
      await := if exit.await = .joining then .joined else exit.await } : Exit).work <
        exit.work := by
  unfold Exit.work
  rw [if_pos h]
  cases exit.await <;> simp

theorem Exit.work_resume {exit : Exit} (h : exit.await = .joined) :
    ({ exit with await := .returned } : Exit).work < exit.work := by
  unfold Exit.work
  rw [h]
  simp

namespace Pool

/-- All that is to be done. -/
def work (p : Pool) : Nat :=
  ∑ c ∈ range p.calls, (p.call c).elim 0 Call.work +
    ∑ e ∈ range p.made, workerWork (p.executor e) +
    ∑ x ∈ range p.exits, (p.exit x).elim 0 Exit.work

/-- A sum of which one part changes. -/
theorem sum_update {α : Type} {n i : Nat} (hi : i < n) (f : Nat → α) (v : α) (w : α → Nat) :
    ∑ j ∈ range n, w (Function.update f i v j) + w (f i) = ∑ j ∈ range n, w (f j) + w v := by
  have hmem : i ∈ range n := mem_range.mpr hi
  have hrest : ∑ j ∈ (range n).erase i, w (Function.update f i v j) =
      ∑ j ∈ (range n).erase i, w (f j) := by
    refine sum_congr rfl fun j hj => ?_
    rw [Function.update_of_ne (ne_of_mem_erase hj)]
  rw [← add_sum_erase _ _ hmem, ← add_sum_erase _ (fun j => w (f j)) hmem, hrest,
    Function.update_self]
  ring

theorem work_setCall {c : Nat} {call : Call} (call' : Call) (hlt : c < p.calls)
    (hc : p.call c = some call) : (p.setCall c call').work + call.work = p.work + call'.work := by
  have hsum := sum_update hlt p.call (some call') (Option.elim · 0 Call.work)
  rw [hc] at hsum
  simp only [work, setCall, Option.elim_some] at hsum ⊢
  omega

theorem work_setExecutor {e : Nat} (worker : Worker Nat) (hlt : e < p.made) :
    (p.setExecutor e worker).work + workerWork (p.executor e) = p.work + workerWork worker := by
  have hsum := sum_update hlt p.executor worker workerWork
  simp only [work, setExecutor] at hsum ⊢
  omega

theorem work_setExit {x : Nat} {exit : Exit} (exit' : Exit) (hlt : x < p.exits)
    (hx : p.exit x = some exit) : (p.setExit x exit').work + exit.work = p.work + exit'.work := by
  have hsum := sum_update hlt p.exit (some exit') (Option.elim · 0 Exit.work)
  rw [hx] at hsum
  simp only [work, setExit, Option.elim_some] at hsum ⊢
  omega

end Pool

/-- What is left to do becomes less. -/
theorem work_lt (h : s.pool.Inv) (ha : a.progress = true) (hs : machine.step s a = some s') :
    s'.pool.work < s.pool.work := by
  cases a with
  | spawn t => cases ha
  | enter t => cases ha
  | exit t => cases ha
  | call t => cases ha
  | park c => cases ha
  | serve c => cases ha
  | cancel x => cases ha
  | take e =>
      obtain ⟨worker, htake, rfl⟩ := Option.map_eq_some_iff.mp hs
      have hwork := s.pool.work_setExecutor worker (h.lt_of_take htake)
      have hless := workerWork_take htake
      show (s.pool.setExecutor e worker).work < s.pool.work
      omega
  | finish c =>
      obtain ⟨call, hrunning, hs⟩ := Option.bind_eq_some_iff.mp hs
      obtain ⟨hc, hrunning⟩ := running_eq hrunning
      split at hs
      · cases hs
      · rename_i hparked
        cases hs
        have hlt := h.call_lt c call hc
        have hdone := h.not_done hc hrunning
        have hcall : call.work = 2 := by
          unfold Call.work
          rw [hdone, if_neg (by simp)]
        have hexecutor := s.pool.work_setExecutor
          (s.pool.executor call.executor).finish hlt.2
        have hless := workerWork_finish (s.pool.executor call.executor)
        have hwork := (s.pool.setExecutor call.executor
          (s.pool.executor call.executor).finish).work_setCall
          { call with done := true } hlt.1 hc
        have hcall' : ({ call with done := true } : Call).work = 0 := rfl
        show (Pool.setCall c { call with done := true } (s.pool.setExecutor call.executor
          (s.pool.executor call.executor).finish)).work < s.pool.work
        omega
  | shutdown x =>
      obtain ⟨exit, hx, hs⟩ := Option.bind_eq_some_iff.mp hs
      split at hs
      · cases hs
      · rename_i hshutdown
        cases hs
        have hwork := s.pool.work_setExecutor (s.pool.executor exit.executor).close
          (h.exit_lt x exit hx).2
        have hless := workerWork_close (Bool.not_eq_true _ ▸ hshutdown)
        show (s.pool.setExecutor exit.executor _).work < s.pool.work
        omega
  | join x =>
      obtain ⟨exit, hx, hs⟩ := Option.bind_eq_some_iff.mp hs
      split at hs
      · rename_i hended
        cases hs
        have hwork := s.pool.work_setExit { exit with
          thread := false
          await := if exit.await = .joining then .joined else exit.await }
          (h.exit_lt x exit hx).1 hx
        have hless := exit.work_join hended.1
        show (s.pool.setExit x _).work < s.pool.work
        omega
      · cases hs
  | resume x =>
      obtain ⟨exit, hx, hs⟩ := Option.bind_eq_some_iff.mp hs
      split at hs
      · rename_i hawait
        cases hs
        have hwork := s.pool.work_setExit { exit with await := .returned }
          (h.exit_lt x exit hx).1 hx
        have hless := exit.work_resume hawait
        show (s.pool.setExit x _).work < s.pool.work
        omega
      · cases hs

/-! ## The end -/

/-- The worker of the executor runs a function that is parked. -/
def State.Blocked (s : State) (e : Nat) : Prop :=
  ∃ c call, s.running c = some call ∧ call.executor = e ∧ call.parked = true

/-- Whatever waits, waits for an executor whose worker runs a parked function. -/
structure Settled (s : State) : Prop where
  ready : ∀ t, s.point t = .ready ∨
    (∃ c call, s.point t = .calling c ∧ s.pool.call c = some call ∧ s.Blocked call.executor) ∨
      ∃ x exit, s.point t = .exiting x ∧ s.pool.exit x = some exit ∧ s.Blocked exit.executor
  call : ∀ c call, s.pool.call c = some call → call.done = true ∨ s.Blocked call.executor
  exit : ∀ x exit, s.pool.exit x = some exit →
    exit.thread = false ∧ (exit.await = .returned ∨ exit.await = .cancelled) ∨
      s.Blocked exit.executor
  /-- So where no function is parked, nothing waits. -/
  unparked : (∀ e, ¬ s.Blocked e) → (∀ t, s.point t = .ready) ∧
    (∀ c call, s.pool.call c = some call → call.done = true) ∧
    ∀ x exit, s.pool.exit x = some exit →
      exit.thread = false ∧ (exit.await = .returned ∨ exit.await = .cancelled)

/-- Where no worker and no joining thread can go on, an executor that has something runs a parked
function. -/
theorem blocked_of_stuck (h : s.pool.Inv)
    (hstuck : ∀ a, a.progress = true → machine.step s a = none) {e : Nat}
    (hitems : (s.pool.executor e).items ≠ []) : s.Blocked e := by
  cases hrunning : (s.pool.executor e).running with
  | none =>
      obtain ⟨worker, htake⟩ := Worker.exists_take hitems hrunning
      have hnone : (s.pool.executor e).take.map _ = none := hstuck (.take e) rfl
      rw [htake] at hnone
      cases hnone
  | some c =>
      obtain ⟨call, hc, hexecutor, -⟩ := (h.items _ c).mp (Worker.mem_items hrunning)
      have hrun : s.running c = some call :=
        Option.filter_eq_some_iff.mpr ⟨hc, by rw [hexecutor]; simpa using hrunning⟩
      refine ⟨c, call, hrun, hexecutor, ?_⟩
      by_contra hparked
      have hnone := hstuck (.finish c) rfl
      simp only [machine, hrun, Option.bind_some, if_neg hparked] at hnone
      cases hnone

/-- Where no worker and no joining thread can go on, an exit is over, or its executor has
something. -/
theorem exit_of_stuck (h : s.pool.Inv)
    (hstuck : ∀ a, a.progress = true → machine.step s a = none) {x : Nat} {exit : Exit}
    (hx : s.pool.exit x = some exit) (hitems : (s.pool.executor exit.executor).items = []) :
    exit.thread = false ∧ (exit.await = .returned ∨ exit.await = .cancelled) := by
  have hshutdown : (s.pool.executor exit.executor).shutdown = true := by
    by_contra hnot
    have hnone := hstuck (.shutdown x) rfl
    simp only [machine, hx, Option.bind_some, if_neg hnot] at hnone
    cases hnone
  have hthread : exit.thread = false := by
    by_contra hnot
    have hnone := hstuck (.join x) rfl
    simp only [machine, hx, Option.bind_some] at hnone
    rw [if_pos ⟨Bool.not_eq_false _ ▸ hnot, hshutdown, hitems⟩] at hnone
    cases hnone
  refine ⟨hthread, ?_⟩
  cases hawait : exit.await with
  | joining =>
      rw [h.thread x exit hx hawait] at hthread
      cases hthread
  | joined =>
      have hnone := hstuck (.resume x) rfl
      simp only [machine, hx, Option.bind_some, hawait] at hnone
      cases hnone
  | returned => exact .inl rfl
  | cancelled => exact .inr rfl

/-- Where no worker and no joining thread can go on, whatever waits, waits for a parked function. -/
theorem settled_of_stuck (h : Sound s)
    (hstuck : ∀ a, a.progress = true → machine.step s a = none) : Settled s := by
  have hcall : ∀ c call, s.pool.call c = some call → call.done = true ∨
      s.Blocked call.executor := by
    intro c call hc
    by_cases hdone : call.done = true
    · exact .inl hdone
    · have hmem : c ∈ (s.pool.executor call.executor).items :=
        (h.pool.items _ c).mpr ⟨call, hc, rfl, Bool.not_eq_true _ ▸ hdone⟩
      exact .inr (blocked_of_stuck h.pool hstuck (List.ne_nil_of_mem hmem))
  have hexit : ∀ x exit, s.pool.exit x = some exit →
      exit.thread = false ∧ (exit.await = .returned ∨ exit.await = .cancelled) ∨
        s.Blocked exit.executor := by
    intro x exit hx
    by_cases hitems : (s.pool.executor exit.executor).items = []
    · exact .inl (exit_of_stuck h.pool hstuck hx hitems)
    · exact .inr (blocked_of_stuck h.pool hstuck hitems)
  have hready : ∀ t, s.point t = .ready ∨
      (∃ c call, s.point t = .calling c ∧ s.pool.call c = some call ∧ s.Blocked call.executor) ∨
        ∃ x exit, s.point t = .exiting x ∧ s.pool.exit x = some exit ∧
          s.Blocked exit.executor := by
    intro t
    have hawaits := h.waits t
    cases hpoint : s.point t with
    | ready => exact .inl rfl
    | calling c =>
        rw [hpoint] at hawaits
        obtain ⟨call, hc, -, hdone⟩ := hawaits
        refine .inr (.inl ⟨c, call, rfl, hc, (hcall c call hc).resolve_left ?_⟩)
        rw [hdone]
        exact Bool.false_ne_true
    | exiting x =>
        rw [hpoint] at hawaits
        obtain ⟨exit, hx, -, hawait⟩ := hawaits
        refine .inr (.inr ⟨x, exit, rfl, hx, (hexit x exit hx).resolve_left ?_⟩)
        rintro ⟨-, hended | hended⟩
        · rw [hended] at hawait
          simp at hawait
        · rw [hended] at hawait
          simp at hawait
  refine ⟨hready, hcall, hexit, fun hnone =>
    ⟨fun t => ?_, fun c call hc => ?_, fun x exit hx => ?_⟩⟩
  · refine (hready t).resolve_right ?_
    rintro (⟨_, _, _, _, hblocked⟩ | ⟨_, _, _, _, hblocked⟩)
    · exact hnone _ hblocked
    · exact hnone _ hblocked
  · exact (hcall c call hc).resolve_right (hnone _)
  · exact (hexit x exit hx).resolve_right (hnone _)

/-- **Nobody waits for ever, but for a parked function.** From each state of a run, the workers, the
joining threads and the exits do not have more to do than `work` says, in whatever order they do it;
and when nothing of it is left, whatever still waits, waits for an executor whose worker runs a
parked function. Where there is none, all calls are done, all exits have returned that were not
cancelled, and all tasks are ready. -/
theorem settles (h : machine.Run Machine.Any init as s) :
    (∀ bs s', machine.Run (fun _ a => a.progress = true) s bs s' → bs.length ≤ s.pool.work ∧
      ((∀ a, a.progress = true → machine.step s' a = none) → Settled s')) ∧
    ∃ bs s', machine.Run (fun _ a => a.progress = true) s bs s' ∧ Settled s' := by
  have hstep : ∀ s₁ a s₂, Sound s₁ → a.progress = true → machine.step s₁ a = some s₂ →
      Sound s₂ ∧ s₂.pool.work < s₁.pool.work :=
    fun s₁ a s₂ hinv ha hs => ⟨hinv.step hs, work_lt hinv.pool ha hs⟩
  constructor
  · intro bs s' hrun
    obtain ⟨hinv, hle⟩ := hrun.length_le (sound_run h) hstep
    exact ⟨by omega, settled_of_stuck hinv⟩
  · obtain ⟨bs, s', hrun, hstuck⟩ := Machine.Run.exists_stuck (I := Sound)
      (G := fun _ (a : Action) => a.progress = true) (m := fun s => s.pool.work) hstep (sound_run h)
    obtain ⟨hinv, -⟩ := hrun.length_le (sound_run h) hstep
    exact ⟨bs, s', hrun, settled_of_stuck hinv hstuck⟩

/-- Task 0 has left its context and awaits the end of an executor, whose worker has run the call of
task 1 and was parked in between. What waits comes to an end. -/
theorem settles_parked : ∃ s, machine.Run Machine.Any init
      [.enter 0, .spawn 0, .call 1, .take 0, .park 0, .exit 0, .shutdown 0, .serve 0] s ∧
    s.point 0 = .exiting 0 ∧ s.point 1 = .calling 0 ∧
    ∃ bs s', machine.Run (fun _ a => a.progress = true) s bs s' ∧ Settled s' := by
  have h : machine.Run Machine.Any init
      [.enter 0, .spawn 0, .call 1, .take 0, .park 0, .exit 0, .shutdown 0, .serve 0] _ :=
    Machine.exec_run rfl
  exact ⟨_, h, rfl, rfl, (settles h).2⟩

end Asgiref.SensitiveContext
