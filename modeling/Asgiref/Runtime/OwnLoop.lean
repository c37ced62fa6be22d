import Asgiref.Runtime.Lists

/-! # Cancellation and loops

A cancelled `SyncToAsync` call cancels and awaits the first task on its list. The list is handed on
to `main_wrap` before it is decided which loop runs that.

* **`OwnLoops`** — what is on the list of a call, and what it has cancelled, are tasks of its loop.
* **`EndsAsOwed`** — a call that ends has the outcome of its function, or is cancelled.
* **`Homebound`** — no `main_wrap` that has a list starts on a new loop, and restoring the context
  at the end of a call raises nothing of its own.
* **`ownLoops_iff`** — the first two hold all along exactly the runs whose steps meet the third. -/

namespace Asgiref

namespace Runtime

variable {env : Env} {s s' : State} {a : Action} {as : List Action}

/-- The tasks that are on the list of a call, and those to which it has passed its cancellation on,
are tasks of the loop on which it was made. -/
structure OwnLoops (s : State) : Prop where
  tasks : ∀ x, ∀ k ∈ s.tasks x, (s.task k).loop = (s.item x).loop
  delivered : ∀ x, ∀ k ∈ s.delivered x, (s.task k).loop = (s.item x).loop

/-- What the function of the item has returned or raised, or a `CancelledError`. -/
def State.Outcome (s : State) (x : ItemId) (r : Result) : Prop :=
  s.phase x = .returned r ∨ r = .error .cancelledError

/-- A call that ends with this step ends with the outcome of its function, or is cancelled. -/
def EndsAsOwed (s : State) (_ : Action) (s' : State) : Prop :=
  ∀ x r, ¬ s.Over x → s'.await x = .over r → s.Outcome x r

/-- What restoring the function's context raises in the `finally` block of a call. -/
def State.restoring (env : Env) (s : State) (x : ItemId) : Option PyError :=
  if (s.item x).custom then none
  else (restoreContext env.ne (env.getIdent (s.taskThread (s.item x).task))
    (s.context (s.item x).task) (s.itemContext x)).2

/-- Restoring raises nothing but what may come of the call anyway. -/
def State.Quiet (env : Env) (s : State) (x : ItemId) : Prop :=
  ∀ e, s.restoring env x = some e → s.Outcome x (.error e)

/-- The task of a `main_wrap` that has found a list starts only on a parent loop; and where a call
comes to its `finally` block, restoring raises nothing of its own. -/
def Homebound (env : Env) (s : State) : Action → Prop
  | .startTask k => ∀ c context, s.status k = .created false → (s.task k).call = some c →
      restoreContext env.ne (env.getIdent (s.taskThread k)) (s.context k) (s.captured c)
        = (context, none) →
      (s.call c).taskContext.isSome = true → (s.call c).newLoop = false
  | .complete x => s.Quiet env x
  | .deliver x => s.tasks x = [] → (s.execCoro x).result.isSome = true → s.Quiet env x
  | .resumeItem x => (s.execCoro x).result.isSome = true → s.Quiet env x
  | _ => True

/-! ## The lists -/

/-- The tasks on a list have been made. -/
theorem Listed.lt_nextTask (h : Listed s) {x : ItemId} {k : TaskId} (hk : k ∈ s.tasks x) :
    k < s.nextTask := by
  obtain ⟨-, c, hcall, -⟩ := (h.lists.mem_iff x k).mp hk
  exact (h.mains.call k c hcall).2.1

/-- A task that puts itself on a list belongs to the loop of the call exactly if it does not run on
a new loop. -/
theorem ownLoops_startMain_iff (hlisted : Listed s) (h : ∀ x, ∀ k ∈ s.tasks x,
    (s.task k).loop = (s.item x).loop) {k : TaskId} {c : CallId}
    (hcall : (s.task k).call = some c) :
    (∀ x, ∀ j ∈ appendTask (s.call c).taskContext k s x, (s.task j).loop = (s.item x).loop) ↔
      ((s.call c).taskContext.isSome = true → (s.call c).newLoop = false) := by
  obtain ⟨hlt, -, -, hloop⟩ := hlisted.mains.call k c hcall
  cases hlist : (s.call c).taskContext with
  | none => exact ⟨fun _ hsome => (by cases hsome), fun _ => h⟩
  | some y =>
      have hiff := (hlisted.mains.list c hlt y hlist).2
      rw [← hloop] at hiff
      constructor
      · intro hall _
        exact hiff.mpr (hall y k (by simp [appendTask]))
      · intro hnew x j hj
        simp only [appendTask] at hj
        by_cases heq : x = y
        · subst heq
          rw [Function.update_self] at hj
          rcases List.mem_append.mp hj with hold | hlast
          · exact h x j hold
          · rw [List.mem_singleton.mp hlast]
            exact hiff.mp (hnew rfl)
        · rw [Function.update_of_ne heq] at hj
          exact h x j hj

/-- What taking a task off a list leaves there was there before. -/
theorem mem_of_mem_removeTask {list : Option ItemId} {k j : TaskId} {x : ItemId}
    (h : j ∈ removeTask list k s x) : j ∈ s.tasks x := by
  cases list with
  | none => exact h
  | some y =>
      simp only [removeTask] at h
      by_cases heq : x = y
      · subst heq
        rw [Function.update_self] at h
        exact List.mem_of_mem_erase h
      · rwa [Function.update_of_ne heq] at h

/-! ## The ends of calls -/

/-- How a call ends, by what its `try` ends with. -/
theorem finallyContext_result (x : ItemId) (r : Result) :
    (finallyContext env x r s).2 = match s.restoring env x with
      | none => r
      | some e => .error e := by
  unfold finallyContext State.restoring
  split
  · rfl
  · split
    · rename_i context heq
      simp [heq]
    · rename_i context e heq
      simp [heq]

/-- A call whose `try` ends as it should ends as it should, exactly if restoring is quiet. -/
theorem endsAsOwed_endItem_iff {x : ItemId} {r : Result} (hover : ¬ s.Over x)
    (hr : s.Outcome x r) : EndsAsOwed s a (endItem env x r s) ↔ s.Quiet env x := by
  have hawait : ∀ y r', (endItem env x r s).await y = .over r' ↔
      (y = x ∧ (finallyContext env x r s).2 = r' ∨ y ≠ x ∧ s.await y = .over r') := fun y r' => by
    simp only [endItem]
    by_cases heq : y = x
    · subst heq
      simp
    · simp [heq]
  constructor
  · intro h e he
    refine h x (.error e) hover ((hawait x _).mpr (.inl ⟨rfl, ?_⟩))
    rw [finallyContext_result, he]
  · intro hquiet y r' hy hr'
    rcases (hawait y r').mp hr' with ⟨rfl, heq⟩ | ⟨-, hold⟩
    · rw [finallyContext_result] at heq
      cases hrestoring : s.restoring env y with
      | none =>
          rw [hrestoring] at heq
          exact heq ▸ hr
      | some e =>
          rw [hrestoring] at heq
          exact heq ▸ hquiet e hrestoring
    · exact absurd ⟨r', hold⟩ hy

/-- A step that ends no call. -/
theorem endsAsOwed_of_over (h : ∀ x, s'.Over x → s.Over x) : EndsAsOwed s a s' :=
  fun x r hx hr => absurd (h x ⟨r, hr⟩) hx

/-- A call that comes to another point is not over. -/
theorem over_of_update {f : ItemId → Await} {x y : ItemId} {p : Await} (hp : ∀ r, p ≠ .over r)
    (h : ∃ r, Function.update f x p y = .over r) : ∃ r, f y = .over r := by
  obtain ⟨r, hr⟩ := h
  by_cases heq : y = x
  · subst heq
    rw [Function.update_self] at hr
    exact absurd hr (hp r)
  · rw [Function.update_of_ne heq] at hr
    exact ⟨r, hr⟩

/-- The result that the loop knows is the one that is owed. -/
theorem Settled.outcome (h : Settled s) {x : ItemId} {r : Result}
    (hr : (s.execCoro x).result = some r) : s.Outcome x r := by
  cases hexec : s.execCoro x with
  | pending =>
      rw [hexec] at hr
      cases hr
  | done r' =>
      rw [hexec] at hr
      cases hr
      exact .inl (h x r hexec)
  | cancelled =>
      rw [hexec] at hr
      cases hr
      exact .inr rfl

/-! ## One step -/

/-- With a result there, a cancellation that finds no task ends the call. -/
theorem deliver_result {x : ItemId} (hs : deliver env x s = some s') (htasks : s.tasks x = [])
    (hresult : (s.execCoro x).result.isSome = true) :
    s' = endItem env x (.error .cancelledError) s := by
  unfold deliver at hs
  rw [htasks] at hs
  simp only [hresult, if_true] at hs
  exact (ite_some_inv hs).2.symm

/-- With a result there, a call that has awaited a task ends. -/
theorem resumeItem_result {x : ItemId} (hs : resumeItem env x s = some s')
    (hresult : (s.execCoro x).result.isSome = true) :
    s' = endItem env x (.error .cancelledError) s := by
  unfold resumeItem at hs
  split at hs
  · split at hs
    · simp only [hresult, if_true] at hs
      exact (ite_some_inv hs).2.symm
    · cases hs
  · cases hs

namespace OwnLoops

/-- A task is made. -/
theorem addTask (h : OwnLoops s) (hlisted : Listed s) (task : Task) (htasks : s'.tasks = s.tasks)
    (hdelivered : s'.delivered = s.delivered)
    (htask : s'.task = Function.update s.task s.nextTask task) (hitem : s'.item = s.item) :
    OwnLoops s' := by
  have hold : ∀ {k}, k < s.nextTask → s'.task k = s.task k := fun hk => by
    rw [htask, Function.update_of_ne hk.ne]
  refine ⟨fun x k hk => ?_, fun x k hk => ?_⟩
  · rw [htasks] at hk
    rw [hold (hlisted.lt_nextTask hk), hitem]
    exact h.tasks x k hk
  · rw [hdelivered] at hk
    rw [hold (hlisted.delivered x k hk), hitem]
    exact h.delivered x k hk

/-- A call passes its cancellation on to the first task on its list. -/
theorem setDelivered (h : OwnLoops s) {x : ItemId} {k : TaskId} {rest : List TaskId}
    (htasks : s.tasks x = k :: rest) : OwnLoops (setDelivered x k (cancelTask k s)) := by
  refine ⟨h.tasks, fun y j hj => ?_⟩
  simp only [Runtime.setDelivered] at hj
  by_cases heq : y = x
  · subst heq
    rw [Function.update_self] at hj
    rcases List.mem_append.mp hj with hold | hlast
    · exact h.delivered y j hold
    · rw [List.mem_singleton.mp hlast]
      exact h.tasks y k (htasks ▸ List.mem_cons_self)
  · rw [Function.update_of_ne heq] at hj
    exact h.delivered y j hj

/-- A call is made. Its lists are empty. -/
theorem awaitItem (h : OwnLoops s) (item : Item) (htask : s'.task = s.task)
    (hitem : s'.item = Function.update s.item s.nextItem item)
    (htasks : s'.tasks = Function.update s.tasks s.nextItem [])
    (hdelivered : s'.delivered = Function.update s.delivered s.nextItem []) : OwnLoops s' := by
  have hlists : ∀ lists : ItemId → List TaskId,
      (∀ x, ∀ k ∈ lists x, (s.task k).loop = (s.item x).loop) →
      ∀ x, ∀ k ∈ Function.update lists s.nextItem [] x,
        (s.task k).loop = (Function.update s.item s.nextItem item x).loop := by
    intro lists hlists x k hk
    by_cases heq : x = s.nextItem
    · subst heq
      rw [Function.update_self] at hk
      cases hk
    · rw [Function.update_of_ne heq] at hk ⊢
      exact hlists x k hk
  refine ⟨?_, ?_⟩
  · rw [htask, hitem, htasks]
    exact hlists _ h.tasks
  · rw [htask, hitem, hdelivered]
    exact hlists _ h.delivered

end OwnLoops

/-- A step after which all calls stand where they stood. -/
theorem endsAsOwed_of_await (h : s'.await = s.await) : EndsAsOwed s a s' :=
  endsAsOwed_of_over fun x hx => by simpa only [State.Over, h] using hx

/-- A call comes to another point, and does not end. -/
theorem endsAsOwed_of_point {x : ItemId} {p : Await} (hp : ∀ r, p ≠ .over r)
    (h : s'.await = Function.update s.await x p) : EndsAsOwed s a s' :=
  endsAsOwed_of_over fun y hy => over_of_update hp (by simpa only [State.Over, h] using hy)

/-- **When a step keeps cancellations on their loops.** -/
theorem ownLoops_step (hinv : Known env s ∧ Listed s) (h : OwnLoops s)
    (hs : (machine env).step s a = some s') :
    OwnLoops s' ∧ EndsAsOwed s a s' ↔ Homebound env s a := by
  obtain ⟨-, hlisted⟩ := hinv
  have hquiet : ∀ {s'' : State}, s''.await = s.await → EndsAsOwed s a s'' := endsAsOwed_of_await
  have hcase := step_inv hs
  cases hcase with
  | callParent t frame rest force l hstack hcall hparent =>
      exact ⟨fun _ => trivial, fun _ => ⟨h.addTask hlisted _ rfl rfl rfl rfl, hquiet rfl⟩⟩
  | callNewLoop t frame rest force hstack hcall hparent =>
      exact ⟨fun _ => trivial, fun _ => ⟨h.addTask hlisted _ rfl rfl rfl rfl, hquiet rfl⟩⟩
  | spawnThreadsafe t frame rest l hstack hcall hl =>
      exact ⟨fun _ => trivial, fun _ => ⟨h.addTask hlisted _ rfl rfl rfl rfl, hquiet rfl⟩⟩
  | startLoop context =>
      exact ⟨fun _ => trivial, fun _ => ⟨h.addTask hlisted _ rfl rfl rfl rfl, hquiet rfl⟩⟩
  | spawn k custom hstatus hlive =>
      exact ⟨fun _ => trivial, fun _ => ⟨h.addTask hlisted _ rfl rfl rfl rfl, hquiet rfl⟩⟩
  | closeGenerator l c context hshutting =>
      exact ⟨fun _ => trivial, fun _ => ⟨h.addTask hlisted _ rfl rfl rfl rfl, hquiet rfl⟩⟩
  | startCancelled k hlive hstatus =>
      refine ⟨fun _ c context hcreated => ?_, fun _ => ⟨{ h with }, hquiet rfl⟩⟩
      rw [hstatus] at hcreated
      cases hcreated
  | startMain k c context hlive hstatus hcall hrestore =>
      -- the one step that puts a task on a list
      have hiff := ownLoops_startMain_iff hlisted h.tasks hcall
      constructor
      · rintro ⟨hgood, -⟩ c' context' - hcall' - hsome
        rw [hcall] at hcall'
        cases hcall'
        exact hiff.mp hgood.tasks hsome
      · intro hhome
        exact ⟨⟨hiff.mpr (hhome c context hstatus hcall hrestore), h.delivered⟩, hquiet rfl⟩
  | failMain k c context e hlive hstatus hcall hrestore =>
      refine ⟨fun _ c' context' _ hcall' hrestore' => ?_,
        fun _ => ⟨{ h with }, hquiet rfl⟩⟩
      rw [hcall] at hcall'
      cases hcall'
      rw [hrestore] at hrestore'
      cases hrestore'
  | startTask k hlive hstatus hcall =>
      refine ⟨fun _ c' context' _ hcall' => ?_, fun _ => ⟨{ h with }, hquiet rfl⟩⟩
      rw [hcall] at hcall'
      cases hcall'
  | finishMain k c r mustCancel hstatus hlive hcall =>
      exact ⟨fun _ => trivial, fun _ =>
        ⟨⟨fun x j hj => h.tasks x j (mem_of_mem_removeTask hj), h.delivered⟩, hquiet rfl⟩⟩
  | syncToAsync k b custom selection executor hstatus hlive hselect hsubmit =>
      exact ⟨fun _ => trivial, fun _ => ⟨h.awaitItem _ rfl rfl rfl rfl,
        endsAsOwed_of_point (p := .shielded) (by simp) rfl⟩⟩
  | complete x r hlive hawait hresult =>
      have hover : ¬ s.Over x := by
        rcases hawait with hawait | hawait
        · exact not_over hawait (by simp)
        · exact not_over hawait (by simp)
      rw [endsAsOwed_endItem_iff hover (hlisted.settled.outcome hresult)]
      exact ⟨And.right, fun hhome => ⟨{ h with }, hhome⟩⟩
  | cancel k =>
      exact ⟨fun _ => trivial, fun _ => ⟨{ h with },
        endsAsOwed_of_over fun x => (cancelTask_over k x).mp⟩⟩
  | passOn x k rest hawait hlive htasks hloop =>
      refine ⟨fun _ hnil => ?_, fun _ => ⟨h.setDelivered htasks, endsAsOwed_of_over fun y hy => ?_⟩⟩
      · rw [htasks] at hnil
        cases hnil
      · exact (cancelTask_over k y).mp (over_of_update (p := .awaitingTask k) (by simp) hy)
  | passOnOther x k rest hawait hlive htasks hloop =>
      -- the `RuntimeError` of awaiting a task of another loop, which the lists rule out
      exact absurd (h.tasks x k (htasks ▸ List.mem_cons_self)) hloop
  | deliverDone x hawait hlive htasks hresult =>
      rw [endsAsOwed_endItem_iff (not_over hawait (by simp)) (.inr rfl)]
      exact ⟨fun hgood _ _ => hgood.2, fun hhome => ⟨{ h with }, hhome htasks hresult⟩⟩
  | deliverAbandon x hawait hlive htasks =>
      have habandon : EndsAsOwed s (.deliver x) (abandon x s) :=
        endsAsOwed_of_point (p := .awaitingExec) (by simp) rfl
      -- with a result there the step would have been the other one, which ends the call
      refine ⟨fun _ _ hresult => ?_, fun _ => ⟨{ h with }, habandon⟩⟩
      rw [deliver_result hs htasks hresult] at habandon
      exact (endsAsOwed_endItem_iff (not_over hawait (by simp)) (.inr rfl)).mp habandon
  | resumeDone x k b hawait hstatus hlive hresult =>
      rw [endsAsOwed_endItem_iff (not_over hawait (by simp)) (.inr rfl)]
      exact ⟨fun hgood _ => hgood.2, fun hhome => ⟨{ h with }, hhome hresult⟩⟩
  | resumeAbandon x k hawait hstatus hlive =>
      have habandon : EndsAsOwed s (.resumeItem x) (abandon x s) :=
        endsAsOwed_of_point (p := .awaitingExec) (by simp) rfl
      refine ⟨fun _ hresult => ?_, fun _ => ⟨{ h with }, habandon⟩⟩
      rw [resumeItem_result hs hresult] at habandon
      exact (endsAsOwed_endItem_iff (not_over hawait (by simp)) (.inr rfl)).mp habandon
  | resumeAwait x k hawait hstatus hlive hresult =>
      refine ⟨fun _ hresult' => ?_, fun _ => ⟨{ h with },
        endsAsOwed_of_point (p := .awaitingExec) (by simp) rfl⟩⟩
      rw [hresult] at hresult'
      cases hresult'
  | _ => exact ⟨fun _ => trivial, fun _ => ⟨{ h with }, hquiet rfl⟩⟩

/-- **Cancellation stays on its own loop.** All along a run the lists of calls hold tasks of their
own loops only, calls pass cancellations on to such tasks only and end with the outcomes of their
functions or cancelled, exactly if no `main_wrap` that has a list starts on a new loop and restoring
raises nothing of its own where a call ends. -/
theorem ownLoops_iff {contexts : List Context}
    (h : (machine env).Run Machine.Any (init contexts) as s) :
    (machine env).Always OwnLoops (init contexts) as ∧
      (machine env).Along EndsAsOwed (init contexts) as ↔
    (machine env).Run (Homebound env) (init contexts) as s :=
  h.along_iff (J := fun s => Known env s ∧ Listed s)
    (fun _ _ hrun => ⟨Known.run hrun, Listed.run hrun⟩)
    ⟨fun x k hk => (by cases hk), fun x k hk => (by cases hk)⟩
    fun _ _ _ hJ hP hs => ownLoops_step hJ hP hs

/-- A function on the single-thread executor makes a call on its own loop, and the call that awaits
the function is cancelled. -/
def cancelledCall : List Action :=
  [.startLoop ∅, .syncToAsync 0 true none, .take 0, .call 0 false, .create 1, .startTask 1,
    .cancel 0, .deliver 0]

/-- The cancellation is passed on to a task of the same loop. -/
theorem ownLoops_cancelledCall :
    ∃ s, (machine plainEnv).exec (init []) cancelledCall = some s ∧ s.delivered 0 = [1] ∧
      (machine plainEnv).Run (Homebound plainEnv) (init []) cancelledCall s ∧
      (machine plainEnv).Always OwnLoops (init []) cancelledCall ∧
      (machine plainEnv).Along EndsAsOwed (init []) cancelledCall := by
  obtain ⟨s₁, hs₁⟩ : ∃ s₁, (machine plainEnv).exec (init []) (cancelledCall.take 5) = some s₁ :=
    ⟨_, rfl⟩
  obtain ⟨s₂, hs₂⟩ : ∃ s₂, (machine plainEnv).exec s₁ [.startTask 1, .cancel 0] = some s₂ := by
    cases hs₁
    exact ⟨_, rfl⟩
  obtain ⟨s, hs⟩ : ∃ s, (machine plainEnv).step s₂ (.deliver 0) = some s := by
    cases hs₁
    cases hs₂
    exact ⟨_, rfl⟩
  have hbefore : ∀ a ∈ cancelledCall.take 5, ∀ s, Homebound plainEnv s a := by
    simp [cancelledCall, Homebound]
  -- the call is on the parent loop
  have hstart : Homebound plainEnv s₁ (.startTask 1) := by
    cases hs₁
    intro c context _ hcall _ _
    cases hcall
    rfl
  have hcancel : ∀ s, Homebound plainEnv s (.cancel 0) := fun _ => trivial
  have hdeliver : Homebound plainEnv s₂ (.deliver 0) := by
    cases hs₁
    cases hs₂
    intro hnone
    cases hnone
  have hstarted : (machine plainEnv).Run (Homebound plainEnv) s₁ [.startTask 1, .cancel 0] s₂ := by
    cases hs₁
    cases hs₂
    exact (Machine.Run.single hstart rfl).append (.single (hcancel _) rfl)
  have hrun : (machine plainEnv).Run (Homebound plainEnv) (init []) cancelledCall s :=
    ((Machine.exec_run_of hbefore hs₁).append hstarted).append (.single hdeliver hs)
  have howed := (ownLoops_iff (hrun.mono fun _ _ _ => trivial)).mpr hrun
  cases hs₁
  cases hs₂
  cases hs
  exact ⟨_, rfl, rfl, hrun, howed⟩

/-- The same with `force_new_loop`. -/
def cancelledForcedCall : List Action :=
  [.startLoop ∅, .syncToAsync 0 true none, .take 0, .call 0 true, .startTask 1, .cancel 0,
    .deliver 0]

/-- The list has a task of the new loop, the call cancels it and ends with the error for a task of
another loop while its function still runs. -/
theorem cancelledForcedCall_not_ownLoops :
    ∃ s, (machine plainEnv).exec (init []) cancelledForcedCall = some s ∧ ¬ OwnLoops s ∧
      s.tasks 0 = [1] ∧ (s.item 0).loop = 0 ∧ (s.task 1).loop = 1 ∧ s.delivered 0 = [1] ∧
      s.await 0 = .over (.error otherLoop) ∧ s.phase 0 = .running 0 := by
  refine ⟨_, rfl, fun h => ?_, rfl, rfl, rfl, rfl, rfl, rfl⟩
  exact absurd (h.tasks 0 1 (by decide)) (by decide)

end Runtime

end Asgiref
