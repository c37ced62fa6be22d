import Asgiref.Runtime.NewLoops

/-! # The executor of a new loop

A task that sees no current executor and has no `ThreadSensitiveContext` finds the executor of its
loop in `loop_thread_executors`. `new_loop_wrap` makes the entry in its first step, which is the
first one of the loop, and removes it when it ends. The loop goes on after that: `asyncio.run`
cancels the tasks that are left and closes the asynchronous generators.

* **`Covered`** — a thread-sensitive call of such a task goes to the executor of the call that has
  started the loop.
* **`WhileMain`** — the task of `new_loop_wrap` is under way when such a call is made.
* **`covered_iff`** — the first holds all along exactly the runs whose steps meet the second. -/

namespace Asgiref

namespace Runtime

variable {env : Env} {s s' : State} {a : Action} {as : List Action}

/-- A task on the loop that call `c` has started sees no current executor in its context, and no
`ThreadSensitiveContext`. -/
structure Bare (env : Env) (s : State) (k : TaskId) (c : CallId) : Prop where
  loop : (s.loop (s.task k).loop).call = some c
  hidden : ∀ e, currentExecutor (env.getIdent (s.taskThread k)) (s.context k) ≠ .executor e
  outside : sensitiveContext (s.context k) = none

/-- The item that a bare task's thread-sensitive call makes is taken by the `CurrentThreadExecutor`
of the call that has started the loop. -/
def Covered (env : Env) (s : State) : Action → State → Prop
  | .syncToAsync k true _, s' => ∀ c, Bare env s k c →
      s'.nextItem = s.nextItem + 1 ∧ (s'.item s.nextItem).executor = .currentThread c ∧
        s.nextItem ∈ s'.workItems c
  | _, _ => True

/-- A bare task makes thread-sensitive calls only while the task of `new_loop_wrap` is under way. -/
def WhileMain (env : Env) (s : State) : Action → Prop
  | .syncToAsync k true _ => ∀ c, Bare env s k c →
      (s.status (s.call c).main).underWay = true
  | _ => True

/-- The choice of an executor for a bare task. -/
theorem selectExecutor_bare {k : TaskId} {c : CallId} (h : Bare env s k c) :
    selectExecutor env true k s = match s.loopExecutor (s.task k).loop with
      | some e => some ⟨.currentThread e, s.context k, false⟩
      | none => if deadlockFlag (s.context k) then none
          else some ⟨.worker SyncToAsync.singleThread, setDeadlock (s.context k) true, false⟩ := by
  unfold selectExecutor
  rw [if_pos rfl]
  split
  · rename_i e he
    exact absurd he (h.hidden e)
  · cases s.loopExecutor (s.task k).loop with
    | some e => simp only [h.outside]
    | none => simp only [h.outside]

/-- **While the task is under way** the executor of the loop takes the item. -/
theorem submit_bare (hthread : ThreadsMade s ∧ NewLoops s) {k : TaskId} {c : CallId}
    (h : Bare env s k c) (hlive : s.live k = true)
    (hmain : (s.status (s.call c).main).underWay = true) :
    selectExecutor env true k s = some ⟨.currentThread c, s.context k, false⟩ ∧
      submit (s.taskThread k) s (.currentThread c) = some (.currentThread c) := by
  obtain ⟨-, hloops⟩ := hthread
  have hentry : s.loopExecutor (s.task k).loop = some c := (hloops.executor _ c).mpr ⟨h.loop, hmain⟩
  have hbroken : s.broken c = false := hloops.broken _ c h.loop hlive
  have hne : s.taskThread k ≠ (s.call c).thread := hloops.thread _ c h.loop
  refine ⟨by rw [selectExecutor_bare h, hentry], ?_⟩
  have hclosest : s.closest c = some c := by
    unfold State.closest
    rw [List.find?_cons_of_pos (by rw [hbroken]; rfl)]
  simp only [submit, if_neg hne, hclosest, Option.map_some]

/-- **When a step is covered.** -/
theorem covered_step (hinv : ThreadsMade s ∧ NewLoops s)
    (hs : (machine env).step s a = some s') : Covered env s a s' ↔ WhileMain env s a := by
  cases a with
  | syncToAsync k b custom =>
      cases b with
      | false => exact ⟨fun _ => trivial, fun _ => trivial⟩
      | true =>
          have hdef : syncToAsync env k true custom s = some s' := hs
          unfold syncToAsync at hdef
          obtain ⟨hguard, hdef⟩ : (s.status k = .running ∧ s.live k = true) ∧ _ := by
            split at hdef
            · exact ⟨by assumption, hdef⟩
            · cases hdef
          refine forall_congr' fun c => forall_congr' fun hbare => ?_
          cases hmain : (s.status (s.call c).main).underWay with
          | true =>
              obtain ⟨hselect, hsubmit⟩ := submit_bare hinv hbare hguard.2 hmain
              rw [hselect] at hdef
              simp only [hsubmit] at hdef
              cases hdef
              simp [addWorker, awaitItem, enqueueCall]
          | false =>
              -- `new_loop_wrap` has removed its entry, or has not made it yet
              have hentry : s.loopExecutor (s.task k).loop = none := by
                cases hentry : s.loopExecutor (s.task k).loop with
                | none => rfl
                | some c' =>
                    obtain ⟨hcall, hunder⟩ := (hinv.2.executor _ c').mp hentry
                    rw [hbare.loop] at hcall
                    cases hcall
                    rw [hmain] at hunder
                    cases hunder
              rw [selectExecutor_bare hbare, hentry] at hdef
              refine ⟨fun hcovered => ?_, fun hunder => by cases hunder⟩
              -- the call raises, or goes to the single-thread executor
              by_cases hflag : deadlockFlag (s.context k) = true
              · simp only [if_pos hflag] at hdef
                cases hdef
                exact absurd hcovered.1 (Nat.lt_succ_self _).ne
              · simp only [if_neg hflag, submit] at hdef
                cases hdef
                have hexecutor := hcovered.2.1
                simp only [addWorker, awaitItem, Function.update_self] at hexecutor
                cases hexecutor
  | _ => exact ⟨fun _ => trivial, fun _ => trivial⟩

/-- **The executor of a loop.** All along a run the thread-sensitive calls of bare tasks on new
loops go to the executors of the calls that have started the loops, exactly if they are made while
the tasks of `new_loop_wrap` are under way. -/
theorem covered_iff {contexts : List Context}
    (h : (machine env).Run Machine.Any (init contexts) as s) :
    (machine env).Along (Covered env) (init contexts) as ↔
      (machine env).Run (WhileMain env) (init contexts) as s :=
  h.all_steps_iff (fun _ _ => NewLoops.run) fun _ _ _ hJ hs => covered_step hJ hs

/-- On the loop that a call on the main thread has started, the awaitable creates a task in an empty
context, which awaits a sync function. -/
def bareCall : List Action :=
  [.call 1 false, .startTask 0, .spawn 0 (some ∅), .startTask 1, .syncToAsync 1 true none]

/-- The function goes to the executor of the call. -/
theorem covered_bareCall :
    ∃ s, (machine plainEnv).exec (init [∅]) bareCall = some s ∧
      (s.item 0).executor = .currentThread 0 ∧
      (machine plainEnv).Run (WhileMain plainEnv) (init [∅]) bareCall s ∧
      (machine plainEnv).Along (Covered plainEnv) (init [∅]) bareCall := by
  obtain ⟨s₁, hs₁⟩ : ∃ s₁, (machine plainEnv).exec (init [∅]) (bareCall.take 4) = some s₁ :=
    ⟨_, rfl⟩
  obtain ⟨s, hs⟩ : ∃ s, (machine plainEnv).step s₁ (.syncToAsync 1 true none) = some s := by
    cases hs₁
    exact ⟨_, rfl⟩
  have hbefore : ∀ a ∈ bareCall.take 4, ∀ s, WhileMain plainEnv s a := by
    simp [bareCall, WhileMain]
  -- the task is on the loop of the call, which waits for its main task
  have hmain : WhileMain plainEnv s₁ (.syncToAsync 1 true none) := by
    cases hs₁
    intro c hbare
    cases hbare.loop
    rfl
  have hrun : (machine plainEnv).Run (WhileMain plainEnv) (init [∅]) bareCall s :=
    (Machine.exec_run_of hbefore hs₁).snoc hmain hs
  have hcovered := (covered_iff (hrun.mono fun _ _ _ => trivial)).mpr hrun
  cases hs₁
  cases hs
  exact ⟨_, rfl, rfl, hrun, hcovered⟩

/-- The awaitable ends first; `asyncio.run` cancels the task, which awaits a sync function as it
cleans up. -/
def bareCleanup : List Action :=
  [.call 1 false, .startTask 0, .spawn 0 (some ∅), .startTask 1, .finish 0 (.ok .none) false,
    .cancel 1]

/-- The function is submitted to the single-thread executor, while `asyncio.run` shuts down. -/
theorem bareCleanup_not_covered :
    ∃ s s', (machine plainEnv).exec (init [∅]) bareCleanup = some s ∧ s.shuttingDown 0 0 ∧
      Bare plainEnv s 1 0 ∧ (machine plainEnv).step s (.syncToAsync 1 true none) = some s' ∧
      (s'.item 0).executor = .worker SyncToAsync.singleThread ∧
      ¬ Covered plainEnv s (.syncToAsync 1 true none) s' := by
  refine ⟨_, _, rfl, by decide, ⟨rfl, fun e he => ?_, rfl⟩, rfl, rfl, fun h => ?_⟩
  · cases he
  · have hexecutor := (h 0 ⟨rfl, fun e he => (by cases he), rfl⟩).2.1
    cases hexecutor

end Runtime

end Asgiref
