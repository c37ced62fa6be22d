import Asgiref.Lib.Simulation
import Asgiref.Timeout.Timers

/-! # What timeouts do over whole runs

* **`live_iff`** — the timers that the loop has are those of the blocks that are open and have not
  expired, one for each.
* **`remaining_eq`** — what the property `remaining` gives in a block.
* **`call_safe`** — a timer cancels no task but the one that is in its block, and not early.
* **`fires`** — a timer whose time is up is called as soon as nothing runs.
* **`isolation`** — where nobody else cancels, no task is cancelled but in a block that has expired,
  and nothing of it is left when the task runs again.
* **`unwound`** — how an exception passes through nested blocks. -/

namespace Asgiref.AsyncTimeout

variable {resolution : Nat} {timeouts : Nat → Option Int} {time : Int} {s s' : State}
  {as : List Action} {t o h : Nat}

/-! ## The timers of the loop -/

/-- **No timer is lost, and none outlives its block.** The loop has a timer for a `timeout` exactly
while its block is open and it has not expired, if it is for a later time at all. That timer is
the one that the object keeps, and it is set to the time of entry and the timeout. -/
theorem live_iff (hrun : (machine resolution).Run Fresh (init timeouts time) as s) (o : Nat) :
    ((∃ h time', s.handles h = some ⟨o, some time', false, false⟩) ↔
        (∃ t, o ∈ s.blocks t) ∧ (s.timeouts o).cancelled = false ∧
          ∃ d, timeouts o = some d ∧ 0 < d) ∧
      ∀ h time', s.handles h = some ⟨o, some time', false, false⟩ →
        (s.timeouts o).cancelHandler = some h ∧ timeouts o = some (time' - s.enteredAt o) := by
  have hinv := inv_run hrun
  have hkept : ∀ h time', s.handles h = some ⟨o, some time', false, false⟩ →
      (s.timeouts o).cancelHandler = some h := by
    intro h time' hhandle
    rcases hinv.timers.kept h _ hhandle ⟨rfl, rfl⟩ with hkept | ⟨hsoon, -⟩
    · exact hkept
    · cases hsoon
  constructor
  · constructor
    · rintro ⟨h, time', hhandle⟩
      obtain ⟨htask, d, hd, hpos, hmem⟩ := hinv.timers.handler o h (hkept h time' hhandle)
      obtain ⟨t, ht⟩ := Option.ne_none_iff_exists'.mp htask
      rw [hhandle] at hmem
      have hcalled := congrArg Handle.called (Option.some.inj hmem)
      exact ⟨⟨t, hinv.blocks.mem t o ht⟩, hcalled.symm, d, hd, hpos⟩
    · rintro ⟨⟨t, hmem⟩, hcancelled, d, hd, hpos⟩
      have hsome : timeouts o ≠ none := by
        rw [hd]
        exact Option.some_ne_none d
      have htask : (s.timeouts o).task = some t := hinv.blocks.task t o hmem hsome
      have harmed := hinv.timers.armed o d (by rw [htask]; exact Option.some_ne_none t) hd hpos
      obtain ⟨h, hh⟩ := Option.ne_none_iff_exists'.mp harmed
      obtain ⟨-, d', -, -, hhandle⟩ := hinv.timers.handler o h hh
      rw [hcancelled] at hhandle
      exact ⟨h, _, hhandle⟩
  · intro h time' hhandle
    obtain ⟨-, d, hd, -, hmem⟩ := hinv.timers.handler o h (hkept h time' hhandle)
    refine ⟨hkept h time' hhandle, ?_⟩
    rw [hhandle] at hmem
    have htime : some time' = some (s.enteredAt o + d) :=
      congrArg Handle.time (Option.some.inj hmem)
    rw [Option.some.inj htime, hd]
    congr 1
    omega

/-- Two nested blocks, of 10 and 5 ticks, the inner one of which expires and is left. -/
def nestedRun : List Action :=
  [.resume 7, .enter 0, .enter 1, .awaitFuture, .tick 5, .call 1, .resume 7,
    .leave (some .cancelledError)]

/-- The `timeout` objects of that run. -/
def nestedTimeouts : Nat → Option Int
  | 0 => some 10
  | 1 => some 5
  | _ => none

/-- What the loop has for the outer block in the end. -/
theorem live_iff_nested : ∃ s, (machine 1).Run Fresh (init nestedTimeouts 0) nestedRun s ∧
    ((∃ h time', s.handles h = some ⟨0, some time', false, false⟩) ↔
        (∃ t, 0 ∈ s.blocks t) ∧ (s.timeouts 0).cancelled = false ∧
          ∃ d, nestedTimeouts 0 = some d ∧ 0 < d) := by
  obtain ⟨s, hs⟩ : ∃ s, (machine 1).observe (fun _ _ => (none : Option Unit)) Fresh
      (init nestedTimeouts 0) nestedRun = some ([], s) := ⟨_, rfl⟩
  have hrun := (Machine.observe_shows hs).run
  exact ⟨s, hrun, (live_iff hrun 0).1⟩

/-- **`remaining` is the time to the timer.** In an open block with a timeout, it is the time until
the timer of the block is due; and if that has cancelled the task, no more of it remains than the
resolution of the clock. -/
theorem remaining_eq (hrun : (machine resolution).Run Fresh (init timeouts time) as s) {d : Int}
    (hmem : o ∈ s.blocks t) (hd : timeouts o = some d) (hpos : 0 < d) :
    remaining s.time (s.timeouts o) = some (max (s.enteredAt o + d - s.time) 0) ∧
      ((s.timeouts o).cancelled = true → s.enteredAt o + d - s.time < resolution) := by
  have hinv := inv_run hrun
  have htask : (s.timeouts o).task ≠ none := by
    rw [show (s.timeouts o).task = some t from
      hinv.blocks.task t o hmem (by rw [hd]; exact Option.some_ne_none d)]
    exact Option.some_ne_none t
  constructor
  · unfold remaining
    rw [hinv.timers.deadline o d htask hd hpos]
    rfl
  · intro hcancelled
    obtain ⟨d', hd', hdue⟩ := hinv.timers.expired o hcancelled
    rw [hd] at hd'
    cases hd'
    have hlt := hdue hpos
    omega

/-- **A timer cancels only the task in its block, and not early.** When the loop calls a handle, its
`timeout` has a block open and its time is up, and the task in that block is cancelled; or else it
has no block any more, and nothing happens to any task or object. -/
theorem call_safe (hrun : (machine resolution).Run Fresh (init timeouts time) as s)
    (hs : (machine resolution).step s (.call h) = some s') :
    ∃ handle, s.handles h = some handle ∧
      ((∃ t, handle.owner ∈ s.blocks t ∧ Expired resolution timeouts s handle.owner ∧
          s'.tasks = Function.update s.tasks t (s.tasks t).cancel ∧
          s'.timeouts = Function.update s.timeouts handle.owner
            { s.timeouts handle.owner with cancelled := true }) ∨
        (∀ t, handle.owner ∉ s.blocks t) ∧ handle.time = none ∧ s'.tasks = s.tasks ∧
          s'.timeouts = s.timeouts) := by
  have hinv := inv_run hrun
  obtain ⟨handle, hhandle, hlive, hdue, -, rfl⟩ := call_inv hs
  refine ⟨handle, hhandle, ?_⟩
  cases htask : (s.timeouts handle.owner).task with
  | some t =>
      rw [call_used htask]
      exact .inl ⟨t, hinv.blocks.mem t _ htask, hinv.timers.expired_of_due hhandle hlive hdue,
        rfl, rfl⟩
  | none =>
      rw [call_unused htask]
      rcases hinv.timers.kept h handle hhandle hlive with hkept | ⟨hsoon, d, -, hd⟩
      · rw [hinv.timers.unused htask] at hkept
        cases hkept
      · have hsome : timeouts handle.owner ≠ none := by
          rw [hd]
          exact Option.some_ne_none d
        exact .inr ⟨hinv.blocks.notMem htask hsome, hsoon, rfl, rfl⟩

/-- The timer of the inner block is called. -/
theorem call_safe_nested : ∃ s s', (machine 1).Run Fresh (init nestedTimeouts 0)
      (nestedRun.take 5) s ∧ (machine 1).step s (.call 1) = some s' ∧
    ∃ handle, s.handles 1 = some handle ∧
      ((∃ t, handle.owner ∈ s.blocks t ∧ Expired 1 nestedTimeouts s handle.owner ∧
          s'.tasks = Function.update s.tasks t (s.tasks t).cancel ∧
          s'.timeouts = Function.update s.timeouts handle.owner
            { s.timeouts handle.owner with cancelled := true }) ∨
        (∀ t, handle.owner ∉ s.blocks t) ∧ handle.time = none ∧ s'.tasks = s.tasks ∧
          s'.timeouts = s.timeouts) := by
  obtain ⟨s, hs⟩ : ∃ s, (machine 1).observe (fun _ _ => (none : Option Unit)) Fresh
      (init nestedTimeouts 0) (nestedRun.take 5) = some ([], s) := ⟨_, rfl⟩
  have hrun := (Machine.observe_shows hs).run
  obtain ⟨s', hs'⟩ : ∃ s', (machine 1).step s (.call 1) = some s' := by
    cases hs
    exact ⟨_, rfl⟩
  exact ⟨s, s', hrun, hs', call_safe hrun hs'⟩

/-- **No timeout is missed.** Once the time of an open block is up, the loop has a handle to call as
soon as nothing runs; and that cancels the task in the block, and has the block expire. -/
theorem fires (hrun : (machine resolution).Run Fresh (init timeouts time) as s) {d : Int}
    (hmem : o ∈ s.blocks t) (hd : timeouts o = some d) (hpos : 0 < d)
    (hcancelled : (s.timeouts o).cancelled = false)
    (hup : s.enteredAt o + d < s.time + resolution) (hidle : s.running = none) :
    ∃ h s', (machine resolution).step s (.call h) = some s' ∧
      s'.tasks t = (s.tasks t).cancel ∧ (s'.timeouts o).cancelled = true := by
  have hinv := inv_run hrun
  have htask : (s.timeouts o).task = some t :=
    hinv.blocks.task t o hmem (by rw [hd]; exact Option.some_ne_none d)
  have harmed := hinv.timers.armed o d (by rw [htask]; exact Option.some_ne_none t) hd hpos
  obtain ⟨h, hh⟩ := Option.ne_none_iff_exists'.mp harmed
  obtain ⟨-, d', hd', -, hhandle⟩ := hinv.timers.handler o h hh
  rw [hd] at hd'
  cases hd'
  rw [hcancelled] at hhandle
  have hdue : due resolution s.time ⟨o, some (s.enteredAt o + d), false, false⟩ := by
    intro time' htime
    cases htime
    exact hup
  refine ⟨h, s.call h ⟨o, some (s.enteredAt o + d), false, false⟩, ?_, ?_, ?_⟩
  · unfold machine
    simp only [hhandle]
    exact if_pos ⟨hidle, ⟨rfl, rfl⟩, hdue⟩
  · rw [call_used htask]
    exact Function.update_self ..
  · rw [call_used htask]
    simp

/-- The time of the inner block is up. -/
theorem fires_nested : ∃ s, (machine 1).Run Fresh (init nestedTimeouts 0) (nestedRun.take 5) s ∧
    ∃ h s', (machine 1).step s (.call h) = some s' ∧ s'.tasks 7 = (s.tasks 7).cancel ∧
      (s'.timeouts 1).cancelled = true := by
  obtain ⟨s, hs⟩ : ∃ s, (machine 1).observe (fun _ _ => (none : Option Unit)) Fresh
      (init nestedTimeouts 0) (nestedRun.take 5) = some ([], s) := ⟨_, rfl⟩
  have hrun := (Machine.observe_shows hs).run
  cases hs
  exact ⟨_, hrun, fires (t := 7) (o := 1) (d := 5) hrun (by decide) rfl (by decide) rfl (by decide)
    rfl⟩

/-! ## Nobody else cancels -/

/-- Besides being fresh, nothing is cancelled but by the timers: no task, and nothing that a task
awaits but another task that was asked to stop. -/
def Alone (s : State) (a : Action) : Prop :=
  Fresh s a ∧
    match a with
    | .cancel _ => False
    | .complete t true => (s.tasks t).phase = .awaitingTask true
    | _ => True

instance (s : State) (a : Action) : Decidable (Alone s a) :=
  match a with
  | .cancel _ => isFalse fun h => h.2
  | .complete _ true => inferInstanceAs (Decidable (_ ∧ _ = _))
  | .complete _ false | .tick _ | .enter _ | .leave _ | .awaitFuture | .awaitTask | .yield
  | .resume _ | .call _ => inferInstanceAs (Decidable (_ ∧ True))

/-- A task that is to be cancelled is in a block that has expired, and does not run. -/
structure Isolated (s : State) : Prop where
  running : ∀ t, (s.tasks t).phase = .running → s.running = some t
  block : ∀ t, (s.tasks t).Cancelling → s.running ≠ some t ∧
    ∃ o ∈ s.blocks t, (s.timeouts o).cancelled = true

/-- A step that changes one task, which then does not run, and is not to be cancelled unless it was
before. -/
theorem Isolated.setTask (hinv : Isolated s) {task : Task} {running : Option Nat}
    (hphase : task.phase = .running → running = some t)
    (hother : ∀ t', t' ≠ t → (s.running = some t' ↔ running = some t'))
    (hcancelling : task.Cancelling → running ≠ some t ∧
      ∃ o ∈ s.blocks t, (s.timeouts o).cancelled = true) :
    Isolated { s.setTask t task with running := running } := by
  constructor
  · intro t' h
    by_cases ht : t' = t
    · subst ht
      exact hphase (by simpa [State.setTask] using h)
    · exact (hother t' ht).mp (hinv.running t' (by simpa [State.setTask, ht] using h))
  · intro t' h
    by_cases ht : t' = t
    · subst ht
      exact hcancelling (by simpa [State.setTask] using h)
    · obtain ⟨hrunning, hblock⟩ := hinv.block t' (by simpa [State.setTask, ht] using h)
      exact ⟨fun h => hrunning ((hother t' ht).mpr h), hblock⟩

/-- A step that leaves the tasks alone: no block is left by a task that is to be cancelled. -/
theorem Isolated.of_eq (hinv : Isolated s) (htasks : s'.tasks = s.tasks)
    (hrunning : s'.running = s.running)
    (hcancelled : ∀ o, (s.timeouts o).cancelled = true → (s'.timeouts o).cancelled = true)
    (hblocks : ∀ t o, s.running ≠ some t → o ∈ s.blocks t → o ∈ s'.blocks t) : Isolated s' := by
  constructor
  · rw [htasks, hrunning]
    exact hinv.running
  · intro t h
    rw [htasks] at h
    obtain ⟨hnot, o, hmem, ho⟩ := hinv.block t h
    rw [hrunning]
    exact ⟨hnot, o, hblocks t o hnot hmem, hcancelled o ho⟩

theorem isolated_init (timeouts : Nat → Option Int) (time : Int) :
    Isolated (init timeouts time) where
  running _ h := nomatch h
  block _ h := absurd h Task.not_cancelling_new

/-- Entering a block leaves the tasks, and no object expires or recovers. -/
theorem enter_frame (s : State) (t o : Nat) :
    (s.enter t o).tasks = s.tasks ∧ (s.enter t o).running = s.running ∧
      ∀ o', ((s.enter t o).timeouts o').cancelled = (s.timeouts o').cancelled := by
  obtain ⟨s₁, hentered, heq⟩ := enter_spec s t o
  rw [heq]
  cases hentered with
  | disabled => exact ⟨rfl, rfl, fun _ => rfl⟩
  | scheduled d self handle _ _ _ hcancelled =>
      refine ⟨rfl, rfl, fun o' => ?_⟩
      by_cases ho : o' = o
      · subst ho
        simpa using hcancelled
      · simp [ho]

theorem Isolated.step {a : Action} (hinv : Isolated s) (hblocks : Inv resolution timeouts s)
    (halone : Alone s a) (hs : (machine resolution).step s a = some s') : Isolated s' := by
  -- the running task is not to be cancelled
  have hnot : ∀ t, s.running = some t → ¬ (s.tasks t).Cancelling := fun t ht h =>
    (hinv.block t h).1 ht
  have hother : ∀ t, s.running = some t → ∀ t', t' ≠ t →
      (s.running = some t' ↔ (none : Option Nat) = some t') := by
    intro t ht t' hne
    rw [ht]
    simp [hne.symm]
  cases a with
  | tick d =>
      cases hs
      exact hinv.of_eq rfl rfl (fun _ h => h) fun _ _ _ h => h
  | enter o =>
      obtain ⟨t, ht, rfl⟩ := Option.map_eq_some_iff.mp hs
      obtain ⟨htasks, hrunning, hcancelled⟩ := enter_frame s t o
      refine hinv.of_eq htasks hrunning (fun o' h => (hcancelled o').trans h) ?_
      intro t' o' _ hmem
      obtain ⟨s₁, -, heq⟩ := enter_spec s t o
      rw [heq]
      exact mem_push.mpr (.inl hmem)
  | leave excType =>
      obtain ⟨t, o, rest, ht, -, rfl⟩ := leave_inv hs
      obtain ⟨handles, heq, -⟩ := hblocks.timers.leave_spec t o excType
      rw [heq]
      refine hinv.of_eq rfl rfl ?_ ?_
      · intro o' h
        by_cases ho : o' = o
        · subst ho
          simpa using h
        · simpa [ho] using h
      · intro t' o' hnot' hmem
        have hne : t' ≠ t := by
          rintro rfl
          exact hnot' ht
        simpa [hne] using hmem
  | awaitFuture =>
      obtain ⟨t, ht, rfl⟩ := Option.map_eq_some_iff.mp hs
      have htask := Task.suspend_of_not_cancelling .awaitingFuture (hnot t ht)
      refine hinv.setTask (fun h => ?_) (hother t ht) fun h => ?_
      · rw [Task.awaitFuture, htask] at h
        cases h
      · rw [Task.awaitFuture, htask] at h
        rcases h with h | h <;> cases h
  | awaitTask =>
      obtain ⟨t, ht, rfl⟩ := Option.map_eq_some_iff.mp hs
      have htask := Task.suspend_of_not_cancelling (.awaitingTask false) (hnot t ht)
      refine hinv.setTask (fun h => ?_) (hother t ht) fun h => ?_
      · rw [Task.awaitTask, htask] at h
        cases h
      · rw [Task.awaitTask, htask] at h
        rcases h with h | h <;> cases h
  | yield =>
      obtain ⟨t, ht, rfl⟩ := Option.map_eq_some_iff.mp hs
      refine hinv.setTask (fun h => ?_) (hother t ht) fun h => ?_
      · cases h
      · rcases h with h | h
        · exact absurd (.inl h) (hnot t ht)
        · cases h
  | complete t cancelled =>
      cases hs
      refine hinv.setTask (fun h => ?_) (fun _ _ => Iff.rfl) fun h => hinv.block t ?_
      · exact hinv.running t ((Task.complete_phase_eq_running cancelled _).mp h)
      · cases cancelled with
        | false => exact h.of_complete
        | true => exact .inr halone.2
  | cancel t => exact halone.2.elim
  | resume t =>
      simp only [machine, Option.ite_none_right_eq_some, Option.some.injEq] at hs
      obtain ⟨⟨hnone, -⟩, rfl⟩ := hs
      refine hinv.setTask (fun _ => rfl) ?_ fun h => absurd h (Task.not_cancelling_resume _)
      intro t' hne
      rw [hnone]
      simp [hne.symm]
  | call h =>
      obtain ⟨handle, hhandle, -, -, hnone, rfl⟩ := call_inv hs
      cases htask : (s.timeouts handle.owner).task with
      | none =>
          rw [call_unused htask]
          exact hinv.of_eq rfl rfl (fun _ h => h) fun _ _ _ h => h
      | some t =>
          rw [call_used htask]
          -- first the object expires, then the task is cancelled
          have hmarked : Isolated { s with
              timeouts := Function.update s.timeouts handle.owner
                { s.timeouts handle.owner with cancelled := true }
              handles := Function.update s.handles h (some { handle with called := true }) } := by
            refine hinv.of_eq rfl rfl (fun o h => ?_) fun _ _ _ h => h
            by_cases ho : o = handle.owner
            · subst ho
              simp
            · simpa [ho] using h
          refine Isolated.setTask hmarked (?_ : _ → s.running = some t) (fun _ _ => Iff.rfl) ?_
          · intro h
            exact hinv.running t ((Task.cancel_phase_eq_running _).mp h)
          · intro _
            rw [hnone]
            exact ⟨(Option.some_ne_none t).symm, handle.owner, hblocks.blocks.mem t _ htask,
              by simp⟩

/-- **Isolation.** In a run in which nothing is cancelled but by timers, a task that is to be
cancelled is in a block whose time is up, and does not run. So no task is cancelled outside its
blocks, and when it runs again nothing is left of a cancellation. -/
theorem isolation (hrun : (machine resolution).Run Alone (init timeouts time) as s)
    (hcancelling : (s.tasks t).Cancelling) :
    s.running ≠ some t ∧ ∃ o ∈ s.blocks t, (s.timeouts o).cancelled = true ∧
      Expired resolution timeouts s o := by
  have hfresh : ∀ as s, (machine resolution).Run Alone (init timeouts time) as s →
      Inv resolution timeouts s := fun _ _ hrun => inv_run (hrun.mono fun _ _ h => h.1)
  have hisolated : Isolated s := hrun.invariant_of hfresh (isolated_init timeouts time)
    fun _ _ _ hblocks hinv halone hs => hinv.step hblocks halone hs
  obtain ⟨hnot, o, hmem, hcancelled⟩ := hisolated.block t hcancelling
  exact ⟨hnot, o, hmem, hcancelled, (hfresh _ _ hrun).timers.expired o hcancelled⟩

/-- The task with the two blocks, once the timer of the inner one was called. -/
theorem isolation_nested : ∃ s, (machine 1).Run Alone (init nestedTimeouts 0) (nestedRun.take 6) s ∧
    (s.tasks 7).Cancelling ∧ s.running ≠ some 7 ∧
      ∃ o ∈ s.blocks 7, (s.timeouts o).cancelled = true ∧ Expired 1 nestedTimeouts s o := by
  obtain ⟨s, hs⟩ : ∃ s, (machine 1).observe (fun _ _ => (none : Option Unit)) Alone
      (init nestedTimeouts 0) (nestedRun.take 6) = some ([], s) := ⟨_, rfl⟩
  have hrun := (Machine.observe_shows hs).run
  have hcancelling : (s.tasks 7).Cancelling := by
    cases hs
    exact .inl rfl
  exact ⟨s, hrun, hcancelling, isolation hrun hcancelling⟩

/-! ## Nested blocks -/

/-- The running task leaves these blocks one after the other, each with the exception that the one
inside it was left with. -/
def State.unwind (t : Nat) : List Nat → State → Option ExcType → State × Option ExcType
  | [], s, excType => (s, excType)
  | o :: rest, s, excType =>
      (s.leave t o excType).unwind t rest (doExit excType (s.timeouts o)).2.2

/-- Leaving a block changes no other `timeout`, but for its task and its handle. -/
theorem leave_frame (hinv : Inv resolution timeouts s) (t o : Nat) (excType : Option ExcType) :
    (s.leave t o excType).running = s.running ∧
      (s.leave t o excType).blocks t = (s.blocks t).tail ∧
      ∀ o', ((s.leave t o excType).timeouts o').cancelled = (s.timeouts o').cancelled ∧
        ((s.timeouts o').task = none ∨ o' = o →
          ((s.leave t o excType).timeouts o').task = none) := by
  obtain ⟨handles, heq, -⟩ := hinv.timers.leave_spec t o excType
  rw [heq]
  refine ⟨rfl, Function.update_self _ _ _, fun o' => ?_⟩
  by_cases ho : o' = o
  · subst ho
    simp
  · simp [ho]

/-- The blocks are left by steps of the machine, and this is what they leave. -/
theorem unwind_spec {os rest : List Nat} (excType : Option ExcType)
    (hinv : Inv resolution timeouts s) (hrunning : s.running = some t)
    (hblocks : s.blocks t = os ++ rest) :
    (∃ bs, (machine resolution).Run Fresh s bs (s.unwind t os excType).1) ∧
      (s.unwind t os excType).1.blocks t = rest ∧
      (∀ o, (s.timeouts o).task = none ∨ o ∈ os →
        ((s.unwind t os excType).1.timeouts o).task = none) ∧
      (s.unwind t os excType).2 =
        if excType = some .cancelledError ∧ ∃ o ∈ os, (s.timeouts o).cancelled = true
        then some .timeoutError else excType := by
  induction os generalizing s excType with
  | nil =>
      refine ⟨⟨[], .nil⟩, hblocks, fun o ho => ?_, by simp [State.unwind]⟩
      exact ho.resolve_right (List.not_mem_nil)
  | cons o os ih =>
      rw [List.cons_append] at hblocks
      have hstep : (machine resolution).step s (.leave excType) =
          some (s.leave t o excType) := by
        unfold machine
        simp only [hrunning, hblocks]
      obtain ⟨hrunning', hblocks', htimeouts⟩ := leave_frame hinv t o excType
      rw [hblocks] at hblocks'
      obtain ⟨⟨bs, hrest⟩, hleft, htasks, hraises⟩ :=
        ih (doExit excType (s.timeouts o)).2.2 (hinv.leave hblocks excType)
          (hrunning'.trans hrunning) hblocks'
      have hfresh : Fresh s (.leave excType) := trivial
      refine ⟨⟨_, (Machine.Run.single hfresh hstep).append hrest⟩, hleft, fun o' ho' => ?_,
        hraises.trans ?_⟩
      · apply htasks o'
        rcases ho' with hnone | hmem
        · exact .inl ((htimeouts o').2 (.inl hnone))
        · rcases List.mem_cons.mp hmem with rfl | hmem
          · exact .inl ((htimeouts o').2 (.inr rfl))
          · exact .inr hmem
      · simp only [doExit_raises, (htimeouts _).1, List.exists_mem_cons_iff]
        by_cases hcancel : excType = some .cancelledError
        · cases ho : (s.timeouts o).cancelled <;> simp [hcancel]
        · simp [hcancel]

/-- **Nested blocks.** However many blocks an exception passes through, it is the same in the end,
unless it is a cancellation and one of these blocks has expired: that makes it a `TimeoutError`, and
then the time of that block is up. All their timers are taken from the loop. -/
theorem unwound (hrun : (machine resolution).Run Fresh (init timeouts time) as s)
    (hrunning : s.running = some t) {os rest : List Nat} (hblocks : s.blocks t = os ++ rest)
    (excType : Option ExcType) :
    let (s', left) := s.unwind t os excType
    (∃ bs, (machine resolution).Run Fresh s bs s') ∧ s'.blocks t = rest ∧
      (∀ o ∈ os, ∀ h time', s'.handles h ≠ some ⟨o, some time', false, false⟩) ∧
      (left ≠ excType ↔
        excType = some .cancelledError ∧ ∃ o ∈ os, (s.timeouts o).cancelled = true) ∧
      (left ≠ excType → left = some .timeoutError) ∧
      ∀ o ∈ os, (s.timeouts o).cancelled = true → Expired resolution timeouts s o := by
  have hinv := inv_run hrun
  obtain ⟨⟨bs, hbs⟩, hleft, htasks, hraises⟩ :=
    unwind_spec excType hinv hrunning hblocks
  refine ⟨⟨bs, hbs⟩, hleft, ?_, ?_, ?_, fun o _ ho => hinv.timers.expired o ho⟩
  · intro o hmem h time' hhandle
    have hinv' := inv_run (hrun.append hbs)
    rcases hinv'.timers.kept h _ hhandle ⟨rfl, rfl⟩ with hkept | ⟨hsoon, -⟩
    · exact (hinv'.timers.handler o h hkept).1 (htasks o (.inr hmem))
    · cases hsoon
  · rw [hraises]
    constructor
    · intro hne
      by_contra hnot
      exact hne (if_neg hnot)
    · intro hcancel
      rw [if_pos hcancel, hcancel.1]
      decide
  · intro hne
    rw [hraises] at hne ⊢
    split at hne
    · rename_i hcancel
      exact if_pos hcancel
    · exact absurd rfl hne

/-- A cancellation leaves the two blocks, the inner one of which has expired; any other exception
leaves them as it is. -/
theorem unwound_nested : ∃ s, (machine 1).Run Fresh (init nestedTimeouts 0) (nestedRun.take 7) s ∧
    (s.unwind 7 [1, 0] (some .cancelledError)).2 = some .timeoutError ∧
    (s.unwind 7 [1, 0] none).2 = none := by
  obtain ⟨s, hs⟩ : ∃ s, (machine 1).observe (fun _ _ => (none : Option Unit)) Fresh
      (init nestedTimeouts 0) (nestedRun.take 7) = some ([], s) := ⟨_, rfl⟩
  have hrun := (Machine.observe_shows hs).run
  cases hs
  have hblocks : [1, 0] = [1, 0] ++ ([] : List Nat) := rfl
  have h := unwound (t := 7) hrun rfl hblocks (some .cancelledError)
  have h' := unwound (t := 7) hrun rfl hblocks none
  refine ⟨_, hrun, h.2.2.2.2.1 (h.2.2.2.1.mpr ⟨rfl, 1, by decide, rfl⟩), ?_⟩
  by_contra hne
  cases (h'.2.2.2.1.mp hne).1

end Asgiref.AsyncTimeout
