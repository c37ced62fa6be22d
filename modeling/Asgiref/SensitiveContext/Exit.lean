import Asgiref.SensitiveContext.Progress

/-! # What a `ThreadSensitiveContext` guarantees

* **`exit_waits`** — where an exit has returned, the calls of its context are done.
* **`call_accepted`** — in a context, `SyncToAsync.__call__` never finds an executor that has been
  shut down.
* **`contexts_apart`** — context objects do not share an executor.
* **`one_at_a_time`** — a context runs one call at a time, as long as its exits return. -/

namespace Asgiref.SensitiveContext

variable {s : State} {as : List Action}

/-- **An exit waits for its calls.** Where it has returned, its executor is idle, all calls that
were submitted to it are done, and no call will find it. -/
theorem exit_waits (h : machine.Run Machine.Any init as s) {x : Nat} {exit : Exit}
    (hx : s.pool.exit x = some exit) (hreturned : exit.await = .returned) :
    (s.pool.executor exit.executor).items = [] ∧
    (∀ c call, s.pool.call c = some call → call.executor = exit.executor → call.done = true) ∧
    ∀ o, s.pool.contextToThreadExecutor o ≠ some exit.executor := by
  have hpool := (sound_run h).pool
  have hempty := hpool.joined x exit hx (.inr hreturned)
  refine ⟨hempty, fun c call hc hexecutor => ?_, hpool.retired x exit hx⟩
  by_contra hnot
  have hmem : c ∈ (s.pool.executor exit.executor).items :=
    (hpool.items _ c).mpr ⟨call, hc, hexecutor, Bool.not_eq_true _ ▸ hnot⟩
  rw [hempty] at hmem
  cases hmem

/-- Task 0 has left its context, after the call of task 1 had ended. -/
theorem exit_waits_called : ∃ s exit, machine.Run Machine.Any init
      [.enter 0, .spawn 0, .call 1, .take 0, .exit 0, .shutdown 0, .finish 0, .join 0, .resume 0]
      s ∧
    s.pool.exit 0 = some exit ∧ (s.pool.executor exit.executor).items = [] := by
  have h : machine.Run Machine.Any init [.enter 0, .spawn 0, .call 1, .take 0, .exit 0,
      .shutdown 0, .finish 0, .join 0, .resume 0] _ := Machine.exec_run rfl
  exact ⟨_, _, h, rfl, (exit_waits h (x := 0) rfl rfl).1⟩

/-- **No call is refused.** A task that runs in a context can call. -/
theorem call_accepted (h : machine.Run Machine.Any init as s) {t o : Nat}
    (hready : s.ready t = true) (hvar : s.var t = some o) :
    (machine.step s (.call t)).isSome := by
  obtain ⟨hpool, hmapped⟩ := (sound_run h).pool.executorOf o
  have hopen : ((s.pool.executorOf o).2.executor (s.pool.executorOf o).1).shutdown = false := by
    by_contra hnot
    obtain ⟨x, exit, hx, hexecutor⟩ := hpool.shutdown _ (Bool.not_eq_false _ ▸ hnot)
    exact hpool.retired x exit hx o (hexecutor ▸ hmapped)
  have hworker : (((s.pool.executorOf o).2.executor (s.pool.executorOf o).1).submit
      (s.pool.executorOf o).2.calls).isSome := by
    unfold Worker.submit
    rw [hopen]
    rfl
  show (if s.ready t then callSync t s else none).isSome
  rw [if_pos hready]
  unfold callSync
  rw [hvar, Option.bind_some, Option.isSome_map]
  exact (Option.isSome_map ..).trans hworker

/-- The context of task 1 has been left, and its executor has been shut down. -/
theorem call_accepted_left : ∃ s, machine.Run Machine.Any init
      [.enter 0, .spawn 0, .call 0, .take 0, .finish 0, .exit 0, .shutdown 0] s ∧
    (s.pool.executor 0).shutdown = true ∧ (machine.step s (.call 1)).isSome := by
  have h : machine.Run Machine.Any init
      [.enter 0, .spawn 0, .call 0, .take 0, .finish 0, .exit 0, .shutdown 0] _ :=
    Machine.exec_run rfl
  exact ⟨_, h, rfl, call_accepted h (o := 0) rfl rfl⟩

/-- **Contexts are apart.** Calls that share an executor have the same context object. -/
theorem contexts_apart (h : machine.Run Machine.Any init as s) {c c' : Nat} {call call' : Call}
    (hc : s.pool.call c = some call) (hc' : s.pool.call c' = some call')
    (hexecutor : call.executor = call'.executor) : call.object = call'.object := by
  have hpool := (sound_run h).pool
  rcases hpool.owner c call hc with hfound | ⟨x, exit, hx, he, ho⟩
  · rcases hpool.owner c' call' hc' with hfound' | ⟨x', exit', hx', he', -⟩
    · exact hpool.mapped_once _ _ _ hfound (hexecutor ▸ hfound')
    · rw [hexecutor, ← he'] at hfound
      exact absurd hfound (hpool.retired x' exit' hx' _)
  · rcases hpool.owner c' call' hc' with hfound' | ⟨x', exit', hx', he', ho'⟩
    · rw [← hexecutor, ← he] at hfound'
      exact absurd hfound' (hpool.retired x exit hx _)
    · obtain rfl := hpool.taken_once x x' exit exit' hx hx' (he.trans (hexecutor.trans he'.symm))
      rw [hx] at hx'
      cases hx'
      exact ho.symm.trans ho'

/-- Two tasks of a context call. -/
theorem contexts_apart_shared : ∃ s call call', machine.Run Machine.Any init
      [.enter 0, .spawn 0, .call 0, .call 1] s ∧
    s.pool.call 0 = some call ∧ s.pool.call 1 = some call' ∧ call.object = call'.object := by
  have h : machine.Run Machine.Any init [.enter 0, .spawn 0, .call 0, .call 1] _ :=
    Machine.exec_run rfl
  exact ⟨_, _, _, h, rfl, rfl, @contexts_apart _ _ h 0 1 _ _ rfl rfl rfl⟩

/-- **One call at a time.** Where two calls of one context object run at once, an exit of it is not
over, or has been cancelled. -/
theorem one_at_a_time (h : machine.Run Machine.Any init as s) {c c' : Nat} {call call' : Call}
    (hc : s.running c = some call) (hc' : s.running c' = some call') (hne : c ≠ c')
    (hobject : call.object = call'.object) :
    ∃ x exit, s.pool.exit x = some exit ∧ exit.object = call.object ∧
      (exit.await = .joining ∨ exit.await = .cancelled) := by
  have hpool := (sound_run h).pool
  obtain ⟨hcall, hrunning⟩ := running_eq hc
  obtain ⟨hcall', hrunning'⟩ := running_eq hc'
  -- an exit has taken the executor of a running call
  have htaken : ∀ b (call : Call), (s.pool.executor call.executor).running = some b →
      ∀ x exit, s.pool.exit x = some exit → exit.executor = call.executor →
        exit.await = .joining ∨ exit.await = .cancelled := by
    intro b call hrun x exit hx he
    have hmem := Worker.mem_items hrun
    cases hawait : exit.await with
    | joining => exact .inl rfl
    | cancelled => exact .inr rfl
    | joined =>
        rw [← he, hpool.joined x exit hx (.inl hawait)] at hmem
        cases hmem
    | returned =>
        rw [← he, hpool.joined x exit hx (.inr hawait)] at hmem
        cases hmem
  rcases hpool.owner c call hcall with hfound | ⟨x, exit, hx, he, ho⟩
  · rcases hpool.owner c' call' hcall' with hfound' | ⟨x, exit, hx, he, ho⟩
    · -- both are in the executor of the object, which runs one call
      rw [hobject, hfound'] at hfound
      rw [← Option.some.inj hfound, hrunning'] at hrunning
      exact absurd (Option.some.inj hrunning).symm hne
    · exact ⟨x, exit, hx, ho.trans hobject.symm, htaken c' call' hrunning' x exit hx he⟩
  · exact ⟨x, exit, hx, ho, htaken c call hrunning x exit hx he⟩

/-- While an exit waits, a task that is still in the context calls. -/
theorem one_at_a_time_exiting : ∃ s, machine.Run Machine.Any init
      [.enter 0, .spawn 0, .spawn 0, .call 1, .take 0, .exit 0, .call 2, .take 1] s ∧
    ∃ x exit, s.pool.exit x = some exit ∧ exit.object = 0 ∧
      (exit.await = .joining ∨ exit.await = .cancelled) := by
  have h : machine.Run Machine.Any init
      [.enter 0, .spawn 0, .spawn 0, .call 1, .take 0, .exit 0, .call 2, .take 1] _ :=
    Machine.exec_run rfl
  exact ⟨_, h, @one_at_a_time _ _ h 0 1 ⟨1, 0, 0, false, false⟩ ⟨2, 0, 1, false, false⟩ rfl rfl
    (by decide) rfl⟩

end Asgiref.SensitiveContext
