import Mathlib.Data.List.Nodup
import Asgiref.Runtime.Mains

/-! # The lists of tasks

Each `SyncToAsync` call has a list `task_context`, which `main_wrap` fills for the calls that the
function makes, and from which a cancelled call reads.

* **`Lists`** — the list of an item has the tasks of those `main_wrap`s that have found the list in
  the slot of their thread and are under way.
* **`Settled`** — what the loop knows of an item is what its function has returned.
* **`Delivered`** — the tasks that calls have cancelled have been made. -/

namespace Asgiref

namespace Runtime

variable {env : Env} {s s' : State} {a : Action} {as : List Action}

/-! ## The lists -/

/-- The list of an item has the tasks that have been put there and are under way, once each. -/
structure Lists (tasks : ItemId → List TaskId) (status : TaskId → TaskStatus) (task : TaskId → Task)
    (call : CallId → Call) : Prop where
  mem_iff : ∀ x k, k ∈ tasks x ↔ (status k).underWay = true ∧
    ∃ c, (task k).call = some c ∧ (call c).taskContext = some x
  nodup : ∀ x, (tasks x).Nodup

theorem lists_init (contexts : List Context) :
    Lists (init contexts).tasks (init contexts).status (init contexts).task
      (init contexts).call where
  mem_iff x k := by simp [init, TaskStatus.underWay]
  nodup x := List.nodup_nil

namespace Lists

variable {tasks : ItemId → List TaskId} {status : TaskId → TaskStatus} {task : TaskId → Task}
  {call : CallId → Call}

/-- A task comes to another point, and is under way as before, or runs no `main_wrap`. -/
theorem setStatus (h : Lists tasks status task call) {k : TaskId} {p : TaskStatus}
    (hk : p.underWay = (status k).underWay ∨ (task k).call = none) :
    Lists tasks (Function.update status k p) task call := by
  refine ⟨fun x k' => ?_, h.nodup⟩
  rw [h.mem_iff]
  by_cases heq : k' = k
  · subst heq
    rw [Function.update_self]
    rcases hk with hp | hnone
    · rw [hp]
    · simp [hnone]
  · rw [Function.update_of_ne heq]

/-- A task is made, and no call's list has it. -/
theorem addTask (h : Lists tasks status task call) {k : TaskId} {p : TaskStatus} {made : Task}
    (hk : (status k).underWay = false) (hp : p.underWay = false ∨ made.call = none) :
    Lists tasks (Function.update status k p) (Function.update task k made) call := by
  refine ⟨fun x k' => ?_, h.nodup⟩
  rw [h.mem_iff]
  by_cases heq : k' = k
  · subst heq
    rw [Function.update_self, Function.update_self, hk]
    rcases hp with hp | hnone
    · simp [hp]
    · simp [hnone]
  · rw [Function.update_of_ne heq, Function.update_of_ne heq]

/-- A call is made, to which no task belongs that is under way. -/
theorem addCall (h : Lists tasks status task call) {c : CallId}
    (hc : ∀ k, (task k).call = some c → (status k).underWay = false) (made : Call) :
    Lists tasks status task (Function.update call c made) := by
  refine ⟨fun x k => ?_, h.nodup⟩
  rw [h.mem_iff]
  refine and_congr_right fun hunder => exists_congr fun c' => and_congr_right fun hcall => ?_
  have hne : c' ≠ c := by
    rintro rfl
    rw [hc k hcall] at hunder
    cases hunder
  rw [Function.update_of_ne hne]

/-- An item is made, and no call has found its list. -/
theorem addItem (h : Lists tasks status task call) {x : ItemId}
    (hx : ∀ k c, (task k).call = some c → (call c).taskContext ≠ some x) :
    Lists (Function.update tasks x []) status task call := by
  refine ⟨fun y k => ?_, fun y => ?_⟩
  · by_cases heq : y = x
    · subst heq
      rw [Function.update_self]
      constructor
      · intro hmem
        cases hmem
      · rintro ⟨-, c, hcall, hlist⟩
        exact absurd hlist (hx k c hcall)
    · rw [Function.update_of_ne heq]
      exact h.mem_iff y k
  · by_cases heq : y = x
    · subst heq
      rw [Function.update_self]
      exact List.nodup_nil
    · rw [Function.update_of_ne heq]
      exact h.nodup y

end Lists

/-- The task of a `main_wrap` puts itself on the list. -/
theorem Lists.startMain (h : Lists s.tasks s.status s.task s.call) {k : TaskId} {c : CallId}
    (hstatus : (s.status k).underWay = false) (hcall : (s.task k).call = some c) :
    Lists (appendTask (s.call c).taskContext k s) (Function.update s.status k .running) s.task
      s.call := by
  have hnot : ∀ x, k ∉ s.tasks x := fun x hmem => by
    have hunder := ((h.mem_iff x k).mp hmem).1
    rw [hstatus] at hunder
    cases hunder
  have hmem : ∀ x, k ∈ appendTask (s.call c).taskContext k s x ↔
      (s.call c).taskContext = some x := fun x => by
    cases hlist : (s.call c).taskContext with
    | none => simpa [appendTask] using hnot x
    | some y =>
        by_cases heq : x = y
        · subst heq
          simp [appendTask]
        · simp [appendTask, Function.update_of_ne heq, hnot x, Ne.symm heq]
  have hother : ∀ x k', k' ≠ k →
      (k' ∈ appendTask (s.call c).taskContext k s x ↔ k' ∈ s.tasks x) := fun x k' hne => by
    cases hlist : (s.call c).taskContext with
    | none => rfl
    | some y =>
        by_cases heq : x = y
        · subst heq
          simp [appendTask, hne]
        · simp [appendTask, Function.update_of_ne heq]
  -- every other task is on the lists it was on, and the task itself was on none
  refine ⟨fun x k' => ?_, fun x => ?_⟩
  · by_cases heq : k' = k
    · subst heq
      rw [hmem x, Function.update_self]
      simp [TaskStatus.underWay, hcall]
    · rw [hother x k' heq, Function.update_of_ne heq]
      exact h.mem_iff x k'
  · cases hlist : (s.call c).taskContext with
    | none => exact h.nodup x
    | some y =>
        by_cases heq : x = y
        · subst heq
          simp only [appendTask, Function.update_self]
          exact (h.nodup x).append (List.nodup_singleton k)
            (List.disjoint_singleton.mpr (hnot x))
        · simp only [appendTask, Function.update_of_ne heq]
          exact h.nodup x

/-- The task of a `main_wrap` takes itself off the list. -/
theorem Lists.finishMain (h : Lists s.tasks s.status s.task s.call) {k : TaskId} {c : CallId}
    (hcall : (s.task k).call = some c) (mustCancel : Bool) :
    Lists (removeTask (s.call c).taskContext k s)
      (Function.update s.status k (.done mustCancel)) s.task s.call := by
  have hother : ∀ x k', k' ≠ k →
      (k' ∈ removeTask (s.call c).taskContext k s x ↔ k' ∈ s.tasks x) := fun x k' hne => by
    cases hlist : (s.call c).taskContext with
    | none => rfl
    | some y =>
        by_cases heq : x = y
        · subst heq
          simp only [removeTask, Function.update_self]
          exact List.mem_erase_of_ne hne
        · simp only [removeTask, Function.update_of_ne heq]
  -- `list.remove` takes one occurrence off; there are no others
  have hgone : ∀ x, k ∉ removeTask (s.call c).taskContext k s x := fun x => by
    have hlisted : k ∈ s.tasks x → (s.call c).taskContext = some x := fun hmem => by
      obtain ⟨-, c', hcall', hlist⟩ := (h.mem_iff x k).mp hmem
      rw [hcall] at hcall'
      cases hcall'
      exact hlist
    cases hlist : (s.call c).taskContext with
    | none =>
        intro hmem
        have heq := hlisted hmem
        rw [hlist] at heq
        cases heq
    | some y =>
        by_cases heq : x = y
        · subst heq
          simp only [removeTask, Function.update_self]
          exact (h.nodup x).not_mem_erase
        · simp only [removeTask, Function.update_of_ne heq]
          intro hmem
          have heq' := hlisted hmem
          rw [hlist] at heq'
          exact heq (Option.some.inj heq').symm
  refine ⟨fun x k' => ?_, fun x => ?_⟩
  · by_cases heq : k' = k
    · subst heq
      rw [Function.update_self]
      simp [hgone x, TaskStatus.underWay]
    · rw [hother x k' heq, Function.update_of_ne heq]
      exact h.mem_iff x k'
  · cases hlist : (s.call c).taskContext with
    | none => exact h.nodup x
    | some y =>
        by_cases heq : x = y
        · subst heq
          simp only [removeTask, Function.update_self]
          exact (h.nodup x).erase k
        · simp only [removeTask, Function.update_of_ne heq]
          exact h.nodup x

/-- A frame makes a call, whose task has not started. -/
theorem Lists.park (h : Lists s.tasks s.status s.task s.call) (hmains : Mains s)
    (hnumbers : Numbers s) {p : TaskStatus} (hp : p.underWay = false) (made : Call) (task : Task) :
    Lists s.tasks (Function.update s.status s.nextTask p)
      (Function.update s.task s.nextTask task) (Function.update s.call s.nextCall made) := by
  have hnew : (s.status s.nextTask).underWay = false := by
    rw [hnumbers.status _ (Nat.le_refl _)]
    rfl
  -- the new call has found some list, but its task is not under way yet
  refine (h.addTask hnew (.inl hp)).addCall (fun k hk => ?_) made
  by_cases heq : k = s.nextTask
  · subst heq
    rw [Function.update_self]
    exact hp
  · rw [Function.update_of_ne heq] at hk
    exact absurd (hmains.call k _ hk).1 (lt_irrefl _)

/-- **Every step keeps the lists.** -/
theorem Lists.step (h : Lists s.tasks s.status s.task s.call) (hmains : Mains s)
    (hnumbers : Numbers s) (hawaiting : Awaiting s) (hs : (machine env).step s a = some s') :
    Lists s'.tasks s'.status s'.task s'.call := by
  have hnew : (s.status s.nextTask).underWay = false := by
    rw [hnumbers.status _ (Nat.le_refl _)]
    rfl
  have hend : ∀ {s : State} {x : ItemId}, Awaiting s → Lists s.tasks s.status s.task s.call →
      ¬ s.Over x →
        Lists s.tasks (Function.update s.status (s.item x).task .running) s.task s.call :=
    fun {s x} hawaiting h hx => h.setStatus (.inl (by rw [hawaiting.item x hx]; rfl))
  have hcase := step_inv hs
  cases hcase with
  | callParent t frame rest force l hstack hcall hparent => exact h.park hmains hnumbers rfl _ _
  | callNewLoop t frame rest force hstack hcall hparent => exact h.park hmains hnumbers rfl _ _
  | spawnThreadsafe t frame rest l hstack hcall hl => exact h.addTask hnew (.inr rfl)
  | startLoop context => exact h.addTask hnew (.inr rfl)
  | spawn k custom hstatus hlive => exact h.addTask hnew (.inr rfl)
  | closeGenerator l c context hshutting => exact h.addTask hnew (.inr rfl)
  | create k hstatus hlive => exact h.setStatus (.inl (by rw [hstatus]; rfl))
  | startCancelled k hlive hstatus => exact h.setStatus (.inl (by rw [hstatus]; rfl))
  | startMain k c context hlive hstatus hcall hrestore =>
      exact h.startMain (by rw [hstatus]; rfl) hcall
  | failMain k c context e hlive hstatus hcall hrestore =>
      exact h.setStatus (.inl (by rw [hstatus]; rfl))
  | startTask k hlive hstatus hcall => exact h.setStatus (.inr hcall)
  | awaitTask k k' hstatus hlive hk' => exact h.setStatus (.inl (by rw [hstatus]; rfl))
  | resumeTask k k' hstatus hlive => exact h.setStatus (.inl (by rw [hstatus]; rfl))
  | finishMain k c r mustCancel hstatus hlive hcall => exact h.finishMain hcall mustCancel
  | finishTask k r mustCancel hstatus hlive hcall => exact h.setStatus (.inr hcall)
  | syncToAsync k b custom selection executor hstatus hlive hselect hsubmit =>
      -- a call cannot have found the list of an item that is only being made
      refine (h.setStatus (.inl (by rw [hstatus]; rfl))).addItem fun k' c hcall hlist => ?_
      exact absurd (hmains.list c (hmains.call k' c hcall).1 _ hlist).1 (lt_irrefl _)
  | complete x r hlive hawait hresult =>
      rcases hawait with hawait | hawait
      · exact hend hawaiting h (not_over hawait (by simp))
      · exact hend hawaiting h (not_over hawait (by simp))
  | cancel k => exact h.setStatus (.inl (TaskStatus.cancel_underWay _))
  | passOn x k rest hawait hlive htasks hloop =>
      exact h.setStatus (.inl (TaskStatus.cancel_underWay _))
  | passOnOther x k rest hawait hlive htasks hloop =>
      have hcancelled : Lists s.tasks (cancelTask k s).status s.task s.call :=
        h.setStatus (.inl (TaskStatus.cancel_underWay _))
      exact hend (s := cancelTask k s) (hawaiting.cancelTask k) hcancelled
        (mt (cancelTask_over k x).mp (not_over hawait (by simp)))
  | deliverDone x hawait hlive htasks hresult => exact hend hawaiting h (not_over hawait (by simp))
  | resumeDone x k b hawait hstatus hlive hresult =>
      exact hend hawaiting h (not_over hawait (by simp))
  | _ => exact h

/-! ## Results -/

/-- What the loop knows of an item is what its function has returned. -/
def Settled (s : State) : Prop := ∀ x r, s.execCoro x = .done r → s.phase x = .returned r

/-- Cancelling a task gives no item a result. -/
theorem cancelTask_execCoro {k : TaskId} {x : ItemId} {r : Result}
    (h : (cancelTask k s).execCoro x = .done r) : s.execCoro x = .done r := by
  simp only [cancelTask] at h
  cases hcall : s.callAt .awaitingExec k with
  | none =>
      rw [hcall] at h
      exact h
  | some y =>
      rw [hcall] at h
      simp only [setAt] at h
      by_cases heq : x = y
      · subst heq
        rw [Function.update_self] at h
        cases h
      · rwa [Function.update_of_ne heq] at h

/-- An item whose function has not returned changes. -/
theorem Settled.setPhase (h : Settled s) {x : ItemId} (hx : ∀ r, s.phase x ≠ .returned r)
    (p : Phase) {y : ItemId} {r : Result} (hy : s.execCoro y = .done r) :
    Function.update s.phase x p y = .returned r := by
  have hne : y ≠ x := by
    rintro rfl
    exact hx r (h y r hy)
  rw [Function.update_of_ne hne]
  exact h y r hy

/-- **Every step keeps the results.** -/
theorem Settled.step (h : Settled s) (hframes : Frames s.stack s.phase s.nextItem)
    (hs : (machine env).step s a = some s') : Settled s' := by
  have habandon : ∀ x, Settled (abandon x s) := fun x y r hy => by
    refine h y r ?_
    simp only [abandon] at hy
    by_cases heq : y = x
    · subst heq
      rw [Function.update_self] at hy
      cases hy
    · rwa [Function.update_of_ne heq] at hy
  have hcase := step_inv hs
  cases hcase with
  | take t x q q' context hdequeue hqueued hrestore =>
      exact fun y r hy => h.setPhase (by simp [hqueued]) _ hy
  | takeRaising t x q q' context e hdequeue hqueued hrestore =>
      exact fun y r hy => h.setPhase (by simp [hqueued]) _ hy
  | ret t frame rest x r hstack hitem hcall =>
      have hrunning := hframes.frame t frame (hstack ▸ List.mem_cons_self) x hitem
      exact fun y r' hy => h.setPhase (by simp [hrunning]) _ hy
  | syncToAsync k b custom selection executor hstatus hlive hselect hsubmit =>
      intro y r hy
      simp only [addWorker, awaitItem] at hy ⊢
      by_cases heq : y = s.nextItem
      · subst heq
        rw [Function.update_self] at hy
        cases hy
      · rw [Function.update_of_ne heq] at hy ⊢
        exact h y r hy
  | settle x r hphase hpending =>
      intro y r' hy
      have hy' : Function.update s.execCoro x (.done r) y = .done r' := hy
      by_cases heq : y = x
      · subst heq
        rw [Function.update_self] at hy'
        cases hy'
        exact hphase
      · rw [Function.update_of_ne heq] at hy'
        exact h y r' hy'
  | cancel k => exact fun y r hy => h y r (cancelTask_execCoro hy)
  | passOn x k rest hawait hlive htasks hloop => exact fun y r hy => h y r (cancelTask_execCoro hy)
  | passOnOther x k rest hawait hlive htasks hloop =>
      exact fun y r hy => h y r (cancelTask_execCoro hy)
  | deliverAbandon x hawait hlive htasks => exact habandon x
  | resumeAbandon x k hawait hstatus hlive => exact habandon x
  | dropItem x hcancelled hqueued => exact fun y r hy => h.setPhase (by simp [hqueued]) _ hy
  | _ => exact h

/-! ## Tasks that were cancelled -/

/-- The tasks to which calls have passed their cancellations on have been made. -/
def Delivered (s : State) : Prop := ∀ x, ∀ k ∈ s.delivered x, k < s.nextTask

/-- What is recorded once this task is. -/
theorem mem_setDelivered {x y : ItemId} {k j : TaskId}
    (hj : j ∈ (setDelivered x k s).delivered y) : j ∈ s.delivered y ∨ y = x ∧ j = k := by
  simp only [setDelivered] at hj
  by_cases heq : y = x
  · subst heq
    rw [Function.update_self] at hj
    rcases List.mem_append.mp hj with hold | hlast
    · exact .inl hold
    · exact .inr ⟨rfl, List.mem_singleton.mp hlast⟩
  · rw [Function.update_of_ne heq] at hj
    exact .inl hj

/-- One more task is cancelled. -/
theorem Delivered.setDelivered (h : Delivered s) (x : ItemId) {k : TaskId} (hk : k < s.nextTask) :
    Delivered (setDelivered x k s) := by
  intro y j hj
  rcases mem_setDelivered hj with hold | ⟨-, rfl⟩
  · exact h y j hold
  · exact hk

/-- **Every step keeps the tasks that were cancelled.** -/
theorem Delivered.step (h : Delivered s) (hlists : Lists s.tasks s.status s.task s.call)
    (hmains : Mains s) (hs : (machine env).step s a = some s') : Delivered s' := by
  have hnew : ∀ x, ∀ k ∈ s.delivered x, k < s.nextTask + 1 := fun x k hk =>
    (h x k hk).trans (Nat.lt_succ_self _)
  have hlisted : ∀ {x k rest}, s.tasks x = k :: rest → k < s.nextTask := fun {x k rest} htasks => by
    obtain ⟨-, c, hcall, -⟩ := (hlists.mem_iff x k).mp (htasks ▸ List.mem_cons_self)
    exact (hmains.call k c hcall).2.1
  have hcase := step_inv hs
  cases hcase with
  | callParent t frame rest force l hstack hcall hparent => exact hnew
  | callNewLoop t frame rest force hstack hcall hparent => exact hnew
  | spawnThreadsafe t frame rest l hstack hcall hl => exact hnew
  | startLoop context => exact hnew
  | spawn k custom hstatus hlive => exact hnew
  | closeGenerator l c context hshutting => exact hnew
  | syncToAsync k b custom selection executor hstatus hlive hselect hsubmit =>
      intro x j hj
      simp only [addWorker, awaitItem] at hj
      by_cases heq : x = s.nextItem
      · subst heq
        rw [Function.update_self] at hj
        cases hj
      · rw [Function.update_of_ne heq] at hj
        exact h x j hj
  | passOn x k rest hawait hlive htasks hloop =>
      exact Delivered.setDelivered (s := cancelTask k s) h x (hlisted htasks)
  | passOnOther x k rest hawait hlive htasks hloop =>
      exact Delivered.setDelivered (s := cancelTask k s) h x (hlisted htasks)
  | _ => exact h

/-- What holds of the calls and their lists together. -/
structure Listed (s : State) : Prop where
  mains : Mains s
  awaiting : Awaiting s
  lists : Lists s.tasks s.status s.task s.call
  settled : Settled s
  delivered : Delivered s

/-- **Every run keeps the lists.** -/
theorem Listed.run {contexts : List Context}
    (h : (machine env).Run Machine.Any (init contexts) as s) : Listed s :=
  h.invariant_of (J := Known env) (fun _ _ => Known.run)
    ⟨mains_init contexts, awaiting_init contexts, lists_init contexts,
      fun x r hx => (by cases hx), fun x k hk => (by cases hk)⟩
    fun _ _ _ hJ hI _ hs => ⟨hI.mains.step hJ hs, hI.awaiting.step hJ.numbers hs,
      hI.lists.step hI.mains hJ.numbers hI.awaiting hs, hI.settled.step hJ.frames hs,
      hI.delivered.step hI.lists hI.mains hs⟩

end Runtime

end Asgiref
