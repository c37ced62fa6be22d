import Asgiref.Runtime.OwnLoop
import Asgiref.Runtime.Parking

/-! # Cancellations of parked functions

The task of a `SyncToAsync` call is cancelled while the function is parked in an `AsyncToSync` call
of its own. The cancellation is meant for the task of that call's `main_wrap`; it is passed on to
the first task on the list of the `SyncToAsync` call.

* **`Pending`** — the function is parked, and the task is the only one on the list.
* **`Delivery`** — how far the cancellation has come.
* **`Undisturbed`** — the steps with which it arrives.
* **`cancellation`** — it goes to that task and no other, and the `SyncToAsync` call ends with the
  outcome of the function. -/

namespace Asgiref

namespace Runtime

variable {env : Env} {s s' : State} {a : Action} {as : List Action}

/-! ## Cancelling a task -/

theorem setAt_apply {α : Type} (f : ItemId → α) (v : ItemId → α) (found : Option ItemId)
    (x : ItemId) : setAt f v found x = if found = some x then v x else f x := by
  cases found with
  | none => simp [setAt]
  | some y =>
      by_cases heq : x = y
      · subst heq
        simp [setAt]
      · simp [setAt, Function.update_of_ne heq, Ne.symm heq]

theorem cancelTask_await (k : TaskId) (s : State) (x : ItemId) : (cancelTask k s).await x =
    if s.callAt .shielded k = some x then .interrupted else s.await x :=
  setAt_apply ..

theorem cancelTask_target (k : TaskId) (s : State) (x : ItemId) : (cancelTask k s).target x =
    if s.callAt .shielded k = some x then s.ownMain x else s.target x :=
  setAt_apply ..

theorem cancelTask_execCoro_eq (k : TaskId) (s : State) (x : ItemId) :
    (cancelTask k s).execCoro x =
      if s.callAt .awaitingExec k = some x then .cancelled else s.execCoro x :=
  setAt_apply ..

/-- A call that is not shielded stays where it is. -/
theorem cancelTask_await_of_ne {x : ItemId} (hx : s.await x ≠ .shielded) (k : TaskId) :
    (cancelTask k s).await x = s.await x := by
  rw [cancelTask_await, if_neg fun hcall => hx (callAt_eq_some_iff.mp hcall).2]

/-- A call that is not shielded keeps what its cancellation is meant for. -/
theorem cancelTask_target_of_ne {x : ItemId} (hx : s.await x ≠ .shielded) (k : TaskId) :
    (cancelTask k s).target x = s.target x := by
  rw [cancelTask_target, if_neg fun hcall => hx (callAt_eq_some_iff.mp hcall).2]

/-! ## Before a cancellation -/

/-- A shielded call has passed nothing on, and only a call that awaits `exec_coro` itself, or is
over, has seen it cancelled. -/
structure Shields (s : State) : Prop where
  delivered : ∀ x, s.await x = .shielded → s.delivered x = []
  execCoro : ∀ x, s.execCoro x = .cancelled → s.await x = .awaitingExec ∨ s.Over x

theorem shields_init (contexts : List Context) : Shields (init contexts) where
  delivered x hx := by cases hx
  execCoro x hx := by cases hx

namespace Shields

/-- One call comes to another point of its `try`. -/
theorem update (h : Shields s) (x : ItemId) (hawait : ∀ y, y ≠ x → s'.await y = s.await y)
    (hdelivered : ∀ y, y ≠ x → s'.delivered y = s.delivered y)
    (hexec : ∀ y, y ≠ x → s'.execCoro y = .cancelled → s.execCoro y = .cancelled)
    (hshielded : s'.await x = .shielded → s'.delivered x = [])
    (hx : s'.execCoro x = .cancelled → s'.await x = .awaitingExec ∨ s'.Over x) : Shields s' := by
  refine ⟨fun y hy => ?_, fun y hy => ?_⟩
  · by_cases heq : y = x
    · subst heq
      exact hshielded hy
    · rw [hdelivered y heq]
      exact h.delivered y ((hawait y heq).symm.trans hy)
  · by_cases heq : y = x
    · subst heq
      exact hx hy
    · simp only [State.Over, hawait y heq]
      exact h.execCoro y (hexec y heq hy)

/-- A task is cancelled. -/
theorem cancelTask (h : Shields s) (k : TaskId) : Shields (cancelTask k s) := by
  refine ⟨fun x hx => ?_, fun x hx => ?_⟩
  · rw [cancelTask_await] at hx
    split at hx
    · cases hx
    · exact h.delivered x hx
  · rw [cancelTask_over]
    rw [cancelTask_execCoro_eq] at hx
    split at hx
    · rename_i hcall
      have hawait := (callAt_eq_some_iff.mp hcall).2
      rw [cancelTask_await_of_ne (by simp [hawait])]
      exact .inl hawait
    · rcases h.execCoro x hx with hawait | hover
      · rw [cancelTask_await_of_ne (by simp [hawait])]
        exact .inl hawait
      · exact .inr hover

/-- A call ends. -/
theorem endItem (h : Shields s) (x : ItemId) (r : Result) : Shields (endItem env x r s) := by
  have hover : (Runtime.endItem env x r s).await x = .over (finallyContext env x r s).2 :=
    Function.update_self ..
  refine h.update x (fun y hy => Function.update_of_ne hy _ _) (fun _ _ => rfl) (fun _ _ h => h)
    (fun hx => ?_) fun _ => .inr ⟨_, hover⟩
  rw [hover] at hx
  cases hx

/-- A call passes its cancellation on. -/
theorem setDelivered (h : Shields s) {x : ItemId} (hx : s.await x = .interrupted) (k : TaskId) :
    Shields (setDelivered x k s) := by
  have hawait : (Runtime.setDelivered x k s).await x = .awaitingTask k := Function.update_self ..
  refine h.update x (fun y hy => Function.update_of_ne hy _ _)
    (fun y hy => Function.update_of_ne hy _ _) (fun _ _ h => h) (fun hshielded => ?_)
    fun hcancelled => ?_
  · rw [hawait] at hshielded
    cases hshielded
  · have hpoint := h.execCoro x hcancelled
    simp only [State.Over, hx] at hpoint
    rcases hpoint with hpoint | ⟨r, hpoint⟩ <;> cases hpoint

/-- A call awaits `exec_coro` itself. -/
theorem awaitExec (h : Shields s) {x : ItemId} {execCoro : ItemId → ExecCoro}
    (hexec : ∀ y, y ≠ x → execCoro y = s.execCoro y) :
    Shields { s with
      await := Function.update s.await x .awaitingExec
      execCoro := execCoro } := by
  refine h.update x (fun y hy => Function.update_of_ne hy _ _) (fun _ _ => rfl)
    (fun y hy hcancelled => (hexec y hy).symm.trans hcancelled) (fun hx => ?_)
    fun _ => .inl (Function.update_self ..)
  simp only [Function.update_self] at hx
  cases hx

/-- **Every step keeps the shields.** -/
theorem step (h : Shields s) (hs : (machine env).step s a = some s') : Shields s' := by
  have hcase := step_inv hs
  cases hcase with
  | syncToAsync k b custom selection executor hstatus hlive hselect hsubmit =>
      refine h.update s.nextItem (fun y hy => Function.update_of_ne hy _ _)
        (fun y hy => Function.update_of_ne hy _ _) (fun y hy hcancelled => ?_)
        (fun _ => Function.update_self ..) fun hcancelled => ?_
      · simpa only [addWorker, awaitItem, Function.update_of_ne hy] using hcancelled
      · simp only [addWorker, awaitItem, Function.update_self] at hcancelled
        cases hcancelled
  | settle x r hphase hpending =>
      refine h.update x (fun _ _ => rfl) (fun _ _ => rfl) (fun y hy hcancelled => ?_)
        (h.delivered x) fun hcancelled => ?_
      · simpa only [Function.update_of_ne hy] using hcancelled
      · simp only [Function.update_self] at hcancelled
        cases hcancelled
  | complete x r hlive hawait hresult => exact h.endItem x r
  | cancel k => exact h.cancelTask k
  | passOn x k rest hawait hlive htasks hloop =>
      have hpoint := (cancelTask_await_of_ne (by simp [hawait]) k).trans hawait
      exact (h.cancelTask k).setDelivered hpoint k
  | passOnOther x k rest hawait hlive htasks hloop =>
      have hpoint := (cancelTask_await_of_ne (by simp [hawait]) k).trans hawait
      exact ((h.cancelTask k).setDelivered hpoint k).endItem x _
  | deliverDone x hawait hlive htasks hresult => exact h.endItem x _
  | deliverAbandon x hawait hlive htasks =>
      exact h.awaitExec fun y hy => Function.update_of_ne hy _ _
  | resumeDone x k b hawait hstatus hlive hresult => exact h.endItem x _
  | resumeAbandon x k hawait hstatus hlive =>
      exact h.awaitExec fun y hy => Function.update_of_ne hy _ _
  | resumeAwait x k hawait hstatus hlive hresult => exact h.awaitExec fun _ _ => rfl
  | _ => exact { h with }

end Shields

/-! ## Functions that stay parked -/

theorem TaskStatus.not_isDone {p : TaskStatus} (h : p.underWay = true) : p.isDone ≠ true := by
  cases p <;> simp_all [TaskStatus.underWay, TaskStatus.isDone]

/-- A function is parked in one call at a time. -/
theorem State.ParkedIn.unique (hframes : Frames s.stack s.phase s.nextItem) {x : ItemId}
    {c d : CallId} (hc : s.ParkedIn x c) (hd : s.ParkedIn x d) : c = d := by
  obtain ⟨t, f, hf, hitem, hcall⟩ := hc
  obtain ⟨t', g, hg, hitem', hcall'⟩ := hd
  have hrunning := hframes.frame t f hf x hitem
  rw [hframes.frame t' g hg x hitem'] at hrunning
  cases hrunning
  obtain rfl := hframes.eq_of_item hf hg hitem hitem'
  exact Option.some.inj (hcall.symm.trans hcall')

/-- The task of a call under way is that of a call in which the function is parked. -/
theorem ownMain_eq_some {x : ItemId} {m : TaskId} (h : s.ownMain x = some m) :
    ∃ t c, s.phase x = .running t ∧ s.ParkedIn x c ∧ (s.call c).main = m ∧
      (s.status m).underWay = true := by
  unfold State.ownMain at h
  split at h
  · rename_i t hrunning
    split at h
    · rename_i c hfind
      obtain ⟨f, hfound, hcall⟩ := Option.bind_eq_some_iff.mp hfind
      have hitem : f.item = some x := by simpa using List.find?_some hfound
      split at h
      · rename_i hunder
        cases h
        exact ⟨t, c, hrunning, ⟨t, f, List.mem_of_find?_eq_some hfound, hitem, hcall⟩, rfl, hunder⟩
      · cases h
    · cases h
  · cases h

/-- A function that is parked does not return. -/
theorem State.ParkedIn.running_step {x : ItemId} {c : CallId} {t : ThreadId}
    (hparked : s.ParkedIn x c) (hrunning : s.phase x = .running t)
    (hframes : Frames s.stack s.phase s.nextItem) (hs : (machine env).step s a = some s') :
    s'.phase x = .running t := by
  have hother : ∀ {y p}, y ≠ x → Function.update s.phase y p x = .running t := fun hne => by
    rw [Function.update_of_ne hne.symm]
    exact hrunning
  have hqueued : ∀ {y}, s.phase y = .queued → y ≠ x := by
    rintro y hy rfl
    rw [hrunning] at hy
    cases hy
  have hcase := step_inv hs
  cases hcase with
  | take t' y q q' context hdequeue hy hrestore => exact hother (hqueued hy)
  | takeRaising t' y q q' context e hdequeue hy hrestore => exact hother (hqueued hy)
  | ret t' frame rest y r hstack hitem hcall =>
      refine hother ?_
      rintro rfl
      -- the frame that returns would be the parked one
      obtain ⟨u, f, hf, hitem', hcall'⟩ := hparked
      have hmem : frame ∈ s.stack t' := hstack ▸ List.mem_cons_self
      have hthread := hframes.frame t' frame hmem y hitem
      rw [hframes.frame u f hf y hitem'] at hthread
      cases hthread
      obtain rfl := hframes.eq_of_item hf hmem hitem' hitem
      rw [hcall] at hcall'
      cases hcall'
  | syncToAsync k b custom selection executor hstatus hlive hselect hsubmit =>
      exact hother (hframes.lt_nextItem (by rw [hrunning]; simp)).ne'
  | dropItem y hcancelled hy => exact hother (hqueued hy)
  | _ => exact hrunning

/-- A task that is under way stays so until it finishes. -/
theorem underWay_step {k : TaskId} (hk : (s.status k).underWay = true) (hnumbers : Numbers s)
    (hfinish : ∀ r b, a ≠ .finish k r b) (hs : (machine env).step s a = some s') :
    (s'.status k).underWay = true := by
  have hlt : k < s.nextTask := hnumbers.lt_nextTask rfl fun hdone => by
    rw [hdone] at hk
    cases hk
  have hnew : ∀ {p}, (Function.update s.status s.nextTask p k).underWay = true := by
    intro p
    rwa [Function.update_of_ne hlt.ne]
  have hstart : ∀ {k' p q}, s.status k' = q → q.underWay = false →
      (Function.update s.status k' p k).underWay = true := fun {k' p q} hstatus hq => by
    have hne : k ≠ k' := by
      rintro rfl
      rw [hstatus, hq] at hk
      cases hk
    rwa [Function.update_of_ne hne]
  have hset : ∀ {status : TaskId → TaskStatus} {k' p}, (status k).underWay = true →
      p.underWay = (status k').underWay ∨ p.underWay = true →
      (Function.update status k' p k).underWay = true := fun {status k' p} hunder hp => by
    by_cases heq : k = k'
    · subst heq
      rw [Function.update_self]
      exact hp.elim (fun h => h.trans hunder) id
    · rwa [Function.update_of_ne heq]
  have hcase := step_inv hs
  cases hcase with
  | callParent t frame rest force l hstack hcall hparent => exact hnew
  | callNewLoop t frame rest force hstack hcall hparent => exact hnew
  | spawnThreadsafe t frame rest l hstack hcall hl => exact hnew
  | startLoop context => exact hnew
  | spawn k' custom hstatus hlive => exact hnew
  | closeGenerator l c context hshutting => exact hnew
  | create k' hstatus hlive => exact hstart hstatus rfl
  | startCancelled k' hlive hstatus => exact hstart hstatus rfl
  | startMain k' c context hlive hstatus hcall hrestore => exact hstart hstatus rfl
  | failMain k' c context e hlive hstatus hcall hrestore => exact hstart hstatus rfl
  | startTask k' hlive hstatus hcall => exact hstart hstatus rfl
  | awaitTask k' j hstatus hlive hj => exact hset hk (.inr rfl)
  | resumeTask k' j hstatus hlive => exact hset hk (.inr rfl)
  | finishMain k' c r mustCancel hstatus hlive hcall =>
      have hne : k ≠ k' := fun heq => hfinish r mustCancel (heq ▸ rfl)
      simpa only [finishMain, Function.update_of_ne hne] using hk
  | finishTask k' r mustCancel hstatus hlive hcall =>
      have hne : k ≠ k' := fun heq => hfinish r mustCancel (heq ▸ rfl)
      simpa only [setStatus, Function.update_of_ne hne] using hk
  | syncToAsync k' b custom selection executor hstatus hlive hselect hsubmit =>
      exact hset hk (.inr rfl)
  | complete x r hlive hawait hresult => exact hset hk (.inr rfl)
  | cancel k' => exact hset hk (.inl (TaskStatus.cancel_underWay _))
  | passOn x k' rest hawait hlive htasks hloop =>
      exact hset hk (.inl (TaskStatus.cancel_underWay _))
  | passOnOther x k' rest hawait hlive htasks hloop =>
      exact hset (hset hk (.inl (TaskStatus.cancel_underWay _))) (.inr rfl)
  | deliverDone x hawait hlive htasks hresult => exact hset hk (.inr rfl)
  | resumeDone x j b hawait hstatus hlive hresult => exact hset hk (.inr rfl)
  | _ => exact hk

/-! ## A cancellation under way -/

/-- The function of the item is parked in a call that has found its list, and the task of the call
is under way on the same loop. -/
structure Pending (s : State) (x : ItemId) (k : TaskId) (c : CallId) (t : ThreadId) : Prop where
  call : (s.task k).call = some c
  list : (s.call c).taskContext = some x
  underWay : (s.status k).underWay = true
  running : s.phase x = .running t
  loop : (s.task k).loop = (s.item x).loop

namespace Pending

variable {x : ItemId} {k : TaskId} {c : CallId} {t : ThreadId}

theorem parkedIn (h : Pending s x k c t) (hlisted : Listed s) (hwaiting : Waiting s) :
    s.ParkedIn x c := by
  obtain ⟨hc, -, hmain, -⟩ := hlisted.mains.call k c h.call
  rcases hwaiting.owners.parked c hc x h.list t h.running with hparked | hdone
  · exact hparked
  · rw [hmain] at hdone
    exact absurd hdone (TaskStatus.not_isDone h.underWay)

/-- The task is the only one on the list. -/
theorem tasks_eq (h : Pending s x k c t) (hframes : Frames s.stack s.phase s.nextItem)
    (hlisted : Listed s) (hwaiting : Waiting s) : s.tasks x = [k] := by
  have hmem : k ∈ s.tasks x := (hlisted.lists.mem_iff x k).mpr ⟨h.underWay, c, h.call, h.list⟩
  -- the calls that have found the list are the function's own, and all but this one are over
  have honly : ∀ j ∈ s.tasks x, j = k := by
    intro j hj
    obtain ⟨hunder, d, hcall, hlist⟩ := (hlisted.lists.mem_iff x j).mp hj
    obtain ⟨hd, -, hmain, -⟩ := hlisted.mains.call j d hcall
    obtain ⟨-, -, hmain', -⟩ := hlisted.mains.call k c h.call
    rcases hwaiting.owners.parked d hd x hlist t h.running with hparked | hdone
    · obtain rfl := (h.parkedIn hlisted hwaiting).unique hframes hparked
      exact hmain.symm.trans hmain'
    · rw [hmain] at hdone
      exact absurd hdone (TaskStatus.not_isDone hunder)
  have hnodup := hlisted.lists.nodup x
  cases htasks : s.tasks x with
  | nil =>
      rw [htasks] at hmem
      cases hmem
  | cons j rest =>
      rw [htasks] at honly hnodup
      obtain rfl := honly j List.mem_cons_self
      have hrest : rest = [] := List.eq_nil_iff_forall_not_mem.mpr fun i hi => by
        obtain rfl := honly i (List.mem_cons_of_mem _ hi)
        exact (List.nodup_cons.mp hnodup).1 hi
      rw [hrest]

/-- Until the task finishes, the function stays parked. -/
theorem step (h : Pending s x k c t) (hknown : Known env s) (hlisted : Listed s)
    (hwaiting : Waiting s) (hfinish : ∀ r b, a ≠ .finish k r b)
    (hs : (machine env).step s a = some s') : Pending s' x k c t := by
  have hfixed := Fixed.step hknown.frames hlisted.awaiting hs
  obtain ⟨hc, hk, -, -⟩ := hlisted.mains.call k c h.call
  have htask := hfixed.task k hk
  have hitem := hfixed.item x (hlisted.mains.list c hc x h.list).1
  exact {
    call := htask ▸ h.call
    list := (hfixed.call c hc).symm ▸ h.list
    underWay := underWay_step h.underWay hknown.numbers hfinish hs
    running := (h.parkedIn hlisted hwaiting).running_step h.running hknown.frames hs
    loop := by rw [htask, hitem, h.loop] }

end Pending

/-- How far a cancellation has come that is meant for task `k`. -/
inductive Delivery (s : State) (x : ItemId) (k : TaskId) : Prop
  /-- The `CancelledError` is to come, and finds the task on the list. -/
  | toCome (c : CallId) (t : ThreadId) : s.await x = .interrupted → s.delivered x = [] →
      Pending s x k c t → Delivery s x k
  /-- The task has been cancelled, and is awaited. -/
  | passedOn : s.await x = .awaitingTask k → s.delivered x = [k] → Delivery s x k
  /-- The function is awaited. -/
  | awaited : s.await x = .awaitingExec → s.delivered x = [k] → s.execCoro x ≠ .cancelled →
      Delivery s x k
  | ended (r : Result) : s.await x = .over r → s.delivered x = [k] → s.phase x = .returned r →
      Delivery s x k

/-- A step of others. -/
theorem Delivery.keep {x : ItemId} {k : TaskId} (h : Delivery s x k) (hfixed : Fixed s s')
    (hpending : s.await x = .interrupted → ∀ c t, Pending s x k c t → Pending s' x k c t)
    (hawait : s'.await x = s.await x) (hdelivered : s'.delivered x = s.delivered x)
    (hexec : s'.execCoro x = .cancelled → s.execCoro x = .cancelled) : Delivery s' x k := by
  cases h with
  | toCome c t hx hnone hp =>
      exact .toCome c t (hawait.trans hx) (hdelivered.trans hnone) (hpending hx c t hp)
  | passedOn hx hone => exact .passedOn (hawait.trans hx) (hdelivered.trans hone)
  | awaited hx hone hnot =>
      exact .awaited (hawait.trans hx) (hdelivered.trans hone) (mt hexec hnot)
  | ended r hx hone hreturned =>
      exact .ended r (hawait.trans hx) (hdelivered.trans hone) (hfixed.returned x r hreturned)

/-- A cancellation that is to come finds the task on the list. -/
theorem Delivery.of_interrupted {x : ItemId} {k : TaskId} (h : Delivery s x k)
    (hx : s.await x = .interrupted) : s.delivered x = [] ∧ ∃ c t, Pending s x k c t := by
  cases h with
  | toCome c t hpoint hnone hp => exact ⟨hnone, c, t, hp⟩
  | passedOn hpoint hone => simp [hx] at hpoint
  | awaited hpoint hone hnot => simp [hx] at hpoint
  | ended r hpoint hone hreturned => simp [hx] at hpoint

/-- The task that is awaited is the one that the cancellation is meant for. -/
theorem Delivery.of_awaitingTask {x : ItemId} {k j : TaskId} (h : Delivery s x k)
    (hx : s.await x = .awaitingTask j) : s.delivered x = [k] ∧ j = k := by
  cases h with
  | toCome c t hpoint hnone hp => simp [hx] at hpoint
  | passedOn hpoint hone =>
      rw [hx] at hpoint
      cases hpoint
      exact ⟨hone, rfl⟩
  | awaited hpoint hone hnot => simp [hx] at hpoint
  | ended r hpoint hone hreturned => simp [hx] at hpoint

/-- The function that is awaited has not been given up. -/
theorem Delivery.of_awaitingExec {x : ItemId} {k : TaskId} (h : Delivery s x k)
    (hx : s.await x = .awaitingExec) : s.delivered x = [k] ∧ s.execCoro x ≠ .cancelled := by
  cases h with
  | toCome c t hpoint hnone hp => simp [hx] at hpoint
  | passedOn hpoint hone => simp [hx] at hpoint
  | awaited hpoint hone hnot => exact ⟨hone, hnot⟩
  | ended r hpoint hone hreturned => simp [hx] at hpoint

/-- A call that is shielded still has passed no cancellation on. -/
theorem Delivery.not_shielded {x : ItemId} {k : TaskId} (h : Delivery s x k) :
    s.await x ≠ .shielded := by
  cases h <;> simp_all

/-- Every cancellation that is meant for a task is on its way there. -/
def Deliveries (s : State) : Prop := ∀ x k, s.target x = some k → Delivery s x k

/-! ## Steps that disturb no cancellation -/

/-- A task is cancelled that is in no `SyncToAsync` call; or the function of the call is not parked
in an `AsyncToSync` call under way, or that runs on the same loop and has found the list of the
function. The cancellation is the first one, unless the ones before were meant for no task. -/
structure State.Reaches (s : State) (k : TaskId) : Prop where
  own : ∀ x m c, s.callAt .shielded k = some x → s.ownMain x = some m → (s.task m).call = some c →
    (s.call c).taskContext = some x ∧ (s.call c).loop = (s.item x).loop
  once : ∀ x, s.callAt .awaitingExec k = some x → s.target x = none

/-- While a cancellation is on its way, the task that it is meant for does not finish before it
arrives; that task does not end as cancelled and the function does not return before the
`SyncToAsync` call goes on after it; and restoring the context at the end of the call does not
raise. -/
def Undisturbed (env : Env) (s : State) : Action → Prop
  | .cancel k => s.Reaches k
  | .deliver x => ∀ k ∈ (s.tasks x).head?, s.Reaches k
  | .finish k _ _ => ∀ x, s.await x = .interrupted → s.target x ≠ some k
  | .resumeItem x => s.target x ≠ none → (s.execCoro x).result = none ∧
      ∀ k, s.await x = .awaitingTask k → s.status k ≠ .done true
  | .complete x => s.target x ≠ none → s.restoring env x = none
  | _ => True

namespace Deliveries

/-- The task of a call is cancelled: the call is shielded, and its function parked, or it is past
that point already. -/
theorem cancelTask (h : Deliveries s) (hparked : Parked s.stack s.call s.nextCall)
    (hmains : Mains s) (hshields : Shields s) (hfixed : Fixed s s') {k : TaskId}
    (hreaches : s.Reaches k) {x : ItemId} {m : TaskId}
    (hx : (Runtime.cancelTask k s).target x = some m)
    (hpending : ∀ c t, Pending s x m c t → Pending s' x m c t)
    (hawait : s'.await x = (Runtime.cancelTask k s).await x)
    (hdelivered : s'.delivered x = s.delivered x)
    (hexec : s'.execCoro x = (Runtime.cancelTask k s).execCoro x) : Delivery s' x m := by
  rw [cancelTask_target] at hx
  rw [cancelTask_await] at hawait
  split at hx
  · rename_i hcall
    rw [if_pos hcall] at hawait
    obtain ⟨t, c, hrunning, ⟨u, f, hf, hitem, hfcall⟩, rfl, hunder⟩ := ownMain_eq_some hx
    have hmain := hmains.main c (hparked.call u f hf c hfcall).1
    obtain ⟨hlist, hloop⟩ := hreaches.own x _ c hcall hx hmain
    exact .toCome c t hawait
      (hdelivered.trans (hshields.delivered x (callAt_eq_some_iff.mp hcall).2))
      (hpending c t ⟨hmain, hlist, hunder, hrunning, (hmains.call _ c hmain).2.2.2.trans hloop⟩)
  · rename_i hcall
    rw [if_neg hcall] at hawait
    -- only a second cancellation reaches `exec_coro`
    refine (h x m hx).keep hfixed (fun _ => hpending) hawait hdelivered fun hcancelled => ?_
    rw [hexec, cancelTask_execCoro_eq] at hcancelled
    split at hcancelled
    · rename_i hpoint
      rw [hreaches.once x hpoint] at hx
      cases hx
    · exact hcancelled

/-- **Every undisturbed step keeps the cancellations on their way.** -/
theorem step (h : Deliveries s) (hknown : Known env s)
    (hparked : Parked s.stack s.call s.nextCall) (hlisted : Listed s) (hwaiting : Waiting s)
    (hshields : Shields s) (hundisturbed : Undisturbed env s a)
    (hs : (machine env).step s a = some s') : Deliveries s' := by
  have hframes := hknown.frames
  have hfixed := Fixed.step hframes hlisted.awaiting hs
  have hpending : ∀ {x k}, (∀ r b, a ≠ .finish k r b) → ∀ c t, Pending s x k c t →
      Pending s' x k c t := fun hfinish c t hp => hp.step hknown hlisted hwaiting hfinish hs
  have hfinish : ∀ {x k}, s.target x = some k → s.await x = .interrupted →
      ∀ r b, a ≠ .finish k r b := by
    rintro x k hx hinterrupted r b rfl
    exact hundisturbed x hinterrupted hx
  have hkeep : ∀ {x k}, s.target x = some k → s'.await x = s.await x →
      s'.delivered x = s.delivered x → (s'.execCoro x = .cancelled → s.execCoro x = .cancelled) →
      Delivery s' x k := fun {x k} hx =>
    (h x k hx).keep hfixed fun hinterrupted => hpending (hfinish hx hinterrupted)
  have htasks_eq : ∀ {x k}, s.target x = some k → s.await x = .interrupted → s.tasks x = [k] :=
    fun {x k} hx hinterrupted => by
      obtain ⟨-, c, t, hp⟩ := (h x k hx).of_interrupted hinterrupted
      exact hp.tasks_eq hframes hlisted hwaiting
  -- a step touches the cancellation of one call, or makes one; the others keep theirs
  have hcase := step_inv hs
  intro x m hx
  cases hcase with
  | syncToAsync k b custom selection executor hstatus hlive hselect hsubmit =>
      simp only [addWorker, awaitItem] at hx
      by_cases heq : x = s.nextItem
      · subst heq
        rw [Function.update_self] at hx
        cases hx
      · rw [Function.update_of_ne heq] at hx
        refine hkeep hx (Function.update_of_ne heq _ _) (Function.update_of_ne heq _ _) fun hc => ?_
        simpa only [addWorker, awaitItem, Function.update_of_ne heq] using hc
  | settle y r hphase hpoint =>
      refine hkeep hx rfl rfl fun hcancelled => ?_
      by_cases heq : x = y
      · subst heq
        simp only [Function.update_self] at hcancelled
        cases hcancelled
      · simpa only [Function.update_of_ne heq] using hcancelled
  | complete y r hlive hawait hresult =>
      by_cases heq : x = y
      · subst heq
        have htarget : s.target x = some m := hx
        have hdelivery := h x m htarget
        have hquiet : s.restoring env x = none := hundisturbed (by rw [htarget]; simp)
        have hexec := hawait.resolve_left hdelivery.not_shielded
        obtain ⟨hone, hnot⟩ := hdelivery.of_awaitingExec hexec
        refine .ended r ?_ hone (hlisted.settled x r ?_)
        · simp only [endItem, Function.update_self, finallyContext_result, hquiet]
        · cases hstate : s.execCoro x with
          | pending =>
              rw [hstate] at hresult
              cases hresult
          | done r' =>
              rw [hstate] at hresult
              cases hresult
              rfl
          | cancelled => exact absurd hstate hnot
      · exact hkeep hx (Function.update_of_ne heq _ _) rfl id
  | cancel k =>
      exact h.cancelTask hparked hlisted.mains hshields hfixed hundisturbed hx
        (hpending (by simp)) rfl rfl rfl
  | passOn y k rest hawait hlive htasks hloop =>
      have hreaches : s.Reaches k := hundisturbed k (by rw [htasks]; rfl)
      by_cases heq : x = y
      · subst heq
        have htarget : s.target x = some m := by
          rwa [← cancelTask_target_of_ne (by simp [hawait]) k]
        -- the first task on the list is the only one
        rw [htasks_eq htarget hawait] at htasks
        cases htasks
        refine .passedOn (Function.update_self ..) ?_
        simp [setDelivered, Runtime.cancelTask, ((h x m htarget).of_interrupted hawait).1]
      · exact h.cancelTask hparked hlisted.mains hshields hfixed hreaches hx
          (hpending (by simp)) (Function.update_of_ne heq _ _) (Function.update_of_ne heq _ _) rfl
  | passOnOther y k rest hawait hlive htasks hloop =>
      have hreaches : s.Reaches k := hundisturbed k (by rw [htasks]; rfl)
      by_cases heq : x = y
      · -- the task on the list is one of this loop
        subst heq
        have htarget : s.target x = some m := by
          rwa [← cancelTask_target_of_ne (by simp [hawait]) k]
        rw [htasks_eq htarget hawait] at htasks
        cases htasks
        obtain ⟨-, c, t, hp⟩ := (h x m htarget).of_interrupted hawait
        exact absurd hp.loop hloop
      · refine h.cancelTask hparked hlisted.mains hshields hfixed hreaches hx
          (hpending (by simp)) ?_ (Function.update_of_ne heq _ _) rfl
        simp only [endItem, setDelivered, Function.update_of_ne heq]
  | deliverDone y hawait hlive htasks hresult =>
      by_cases heq : x = y
      · subst heq
        rw [htasks_eq hx hawait] at htasks
        cases htasks
      · exact hkeep hx (Function.update_of_ne heq _ _) rfl id
  | deliverAbandon y hawait hlive htasks =>
      by_cases heq : x = y
      · subst heq
        rw [htasks_eq hx hawait] at htasks
        cases htasks
      · refine hkeep hx (Function.update_of_ne heq _ _) rfl fun hcancelled => ?_
        simpa only [abandon, Function.update_of_ne heq] using hcancelled
  | resumeDone y k b hawait hstatus hlive hresult =>
      by_cases heq : x = y
      · -- the function has not returned yet
        subst heq
        have htarget : s.target x = some m := hx
        rw [(hundisturbed (by rw [htarget]; simp)).1] at hresult
        cases hresult
      · exact hkeep hx (Function.update_of_ne heq _ _) rfl id
  | resumeAbandon y k hawait hstatus hlive =>
      by_cases heq : x = y
      · -- the task has not ended as cancelled
        subst heq
        have htarget : s.target x = some m := hx
        exact absurd hstatus ((hundisturbed (by rw [htarget]; simp)).2 k hawait)
      · refine hkeep hx (Function.update_of_ne heq _ _) rfl fun hcancelled => ?_
        simpa only [abandon, Function.update_of_ne heq] using hcancelled
  | resumeAwait y k hawait hstatus hlive hresult =>
      by_cases heq : x = y
      · subst heq
        refine .awaited (Function.update_self ..) ((h x m hx).of_awaitingTask hawait).1 fun hc => ?_
        have hpoint := hshields.execCoro x hc
        simp only [State.Over, hawait] at hpoint
        rcases hpoint with hpoint | ⟨r, hpoint⟩ <;> cases hpoint
      · exact hkeep hx (Function.update_of_ne heq _ _) rfl id
  | _ => exact hkeep hx rfl rfl id

/-- **Every undisturbed run keeps the cancellations on their way.** -/
theorem run {contexts : List Context}
    (h : (machine env).Run (Undisturbed env) (init contexts) as s) : Deliveries s := by
  have hany : ∀ {as s}, (machine env).Run (Undisturbed env) (init contexts) as s →
      (machine env).Run Machine.Any (init contexts) as s := fun h => h.mono fun _ _ _ => trivial
  refine h.invariant_of (J := fun s => (Known env s ∧ Parked s.stack s.call s.nextCall) ∧
    (Listed s ∧ Waiting s) ∧ Shields s) (fun _ _ hrun => ?_) (fun x k hx => (by cases hx))
    fun _ _ _ hJ hI hG hs => hI.step hJ.1.1 hJ.1.2 hJ.2.1.1 hJ.2.1.2 hJ.2.2 hG hs
  exact ⟨⟨Known.run (hany hrun), Parked.run (hany hrun)⟩,
    ⟨Listed.run (hany hrun), Waiting.run (hany hrun)⟩,
    hrun.invariant (shields_init contexts) fun _ _ _ hI _ hs => hI.step hs⟩

end Deliveries

/-- **Cancellation delivery.** In every undisturbed run, a `SyncToAsync` call that was cancelled
while its function was parked in an `AsyncToSync` call of its own, with the task of that under way,
passes the cancellation on to this task and to no other, and ends only after its function, with the
outcome of that. -/
theorem cancellation {contexts : List Context}
    (h : (machine env).Run (Undisturbed env) (init contexts) as s) {x : ItemId} {k : TaskId}
    (hx : s.target x = some k) :
    s.delivered x = (if s.await x = .interrupted then [] else [k]) ∧
      ∀ r, s.await x = .over r → s.phase x = .returned r := by
  cases Deliveries.run h x k hx with
  | toCome c t hpoint hnone hp => exact ⟨by rw [hnone, if_pos hpoint], by simp [hpoint]⟩
  | passedOn hpoint hone => exact ⟨by simp [hone, hpoint], by simp [hpoint]⟩
  | awaited hpoint hone hnot => exact ⟨by simp [hone, hpoint], by simp [hpoint]⟩
  | ended r hpoint hone hreturned =>
      refine ⟨by simp [hone, hpoint], fun r' hr' => ?_⟩
      rw [hpoint] at hr'
      cases hr'
      exact hreturned

/-- **What is recorded as delivered.** A task is recorded only where the cancellation of a call
arrives: there `cancel()` is called on it, as the first task of the list, and the call awaits it if
it is of its loop. -/
theorem step_delivered (hs : (machine env).step s a = some s') {x : ItemId} {k : TaskId}
    (hk : k ∈ s'.delivered x) : k ∈ s.delivered x ∨
      a = .deliver x ∧ (s.tasks x).head? = some k ∧ ((s.task k).loop = (s.item x).loop →
        s'.status k = (s.status k).cancel ∧ s'.await x = .awaitingTask k) := by
  cases step_inv hs with
  | syncToAsync k' b custom selection executor =>
      simp only [addWorker, awaitItem] at hk
      by_cases hx : x = s.nextItem
      · rw [hx, Function.update_self] at hk
        cases hk
      · rw [Function.update_of_ne hx] at hk
        exact .inl hk
  | passOn y k' rest hawait hlive htasks hloop =>
      rcases mem_setDelivered hk with hold | ⟨rfl, rfl⟩
      · exact .inl hold
      · refine .inr ⟨rfl, by rw [htasks]; rfl, fun _ => ?_⟩
        exact ⟨Function.update_self .., Function.update_self ..⟩
  | passOnOther y k' rest hawait hlive htasks hloop =>
      rcases mem_setDelivered hk with hold | ⟨rfl, rfl⟩
      · exact .inl hold
      · exact .inr ⟨rfl, by rw [htasks]; rfl, fun heq => absurd heq hloop⟩
  | _ => exact .inl hk

/-- So each task that is recorded was cancelled in a step of the run. -/
theorem exists_delivery {contexts : List Context} {as : List Action}
    (h : (machine env).Run Machine.Any (init contexts) as s) {x : ItemId} {k : TaskId}
    (hk : k ∈ s.delivered x) : ∃ bs cs s₁ s₂, as = bs ++ .deliver x :: cs ∧
      (machine env).Run Machine.Any (init contexts) bs s₁ ∧
      (machine env).step s₁ (.deliver x) = some s₂ ∧ (s₁.tasks x).head? = some k ∧
      ((s₁.task k).loop = (s₁.item x).loop →
        s₂.status k = (s₁.status k).cancel ∧ s₂.await x = .awaitingTask k) := by
  induction h with
  | nil => cases hk
  | @snoc as s s' a hrun hG hs ih =>
      rcases step_delivered hs hk with hold | ⟨rfl, hcancels⟩
      · obtain ⟨bs, cs, s₁, s₂, rfl, hrest⟩ := ih hold
        exact ⟨bs, cs ++ [a], s₁, s₂, List.append_assoc .., hrest⟩
      · exact ⟨as, [], s, s', rfl, hrun, hs, hcancels⟩

/-- A function that a task awaits makes a call. -/
def firstCall : List Action :=
  [.startLoop ∅, .syncToAsync 0 true none, .take 0, .call 0 false, .create 1, .startTask 1]

theorem firstCall_undisturbed : ∀ a ∈ firstCall, ∀ s, Undisturbed plainEnv s a := by
  simp [firstCall, Undisturbed]

/-- The task that awaits it is cancelled, and so is the awaitable of the call. -/
def passedOn : List Action := [.cancel 0, .deliver 0, .finish 1 (.error .cancelledError) false]

/-- The function goes on after its call, and returns. -/
def goesOn : List Action :=
  [.leave 0, .ret 0 (.ok .none), .resumeItem 0, .settle 0, .complete 0]

/-- The state after a fixed run. -/
def after (as : List Action) : State := ((machine plainEnv).exec (init []) as).getD (init [])

theorem passedOn_undisturbed : (machine plainEnv).Run (Undisturbed plainEnv) (init [])
    (firstCall ++ passedOn) (after (firstCall ++ passedOn)) := by
  have hstart : (machine plainEnv).Run (Undisturbed plainEnv) (init []) firstCall
      (after firstCall) := Machine.exec_run_of firstCall_undisturbed rfl
  have hcancel : Undisturbed plainEnv (after firstCall) (.cancel 0) := by
    refine ⟨fun x m c hcall hmain htask => ?_, fun x hx => by cases hx⟩
    cases hcall
    cases hmain
    cases htask
    exact ⟨rfl, rfl⟩
  have hdeliver : Undisturbed plainEnv (after (firstCall ++ [.cancel 0])) (.deliver 0) := by
    intro k hk
    cases hk
    exact ⟨fun x m c hcall => (by cases hcall), fun x hx => (by cases hx)⟩
  have hfinish : Undisturbed plainEnv (after (firstCall ++ [.cancel 0, .deliver 0]))
      (.finish 1 (.error .cancelledError) false) := by
    intro x hx htarget
    cases x with
    | zero => cases hx
    | succ n => cases htarget
  exact ((hstart.append (.single hcancel rfl)).append (.single hdeliver rfl)).append
    (.single hfinish rfl)

theorem goesOn_undisturbed : (machine plainEnv).Run (Undisturbed plainEnv) (init [])
    (firstCall ++ passedOn ++ goesOn) (after (firstCall ++ passedOn ++ goesOn)) := by
  have hleave : ∀ a ∈ [Action.leave 0, .ret 0 (.ok .none)], ∀ s, Undisturbed plainEnv s a := by
    simp [Undisturbed]
  have hresume : Undisturbed plainEnv
      (after (firstCall ++ passedOn ++ [.leave 0, .ret 0 (.ok .none)])) (.resumeItem 0) := by
    refine fun _ => ⟨rfl, fun k hk hstatus => ?_⟩
    cases hk
    cases hstatus
  have hsettle : ∀ a ∈ [Action.settle 0], ∀ s, Undisturbed plainEnv s a := by simp [Undisturbed]
  have hcomplete : Undisturbed plainEnv (after (firstCall ++ passedOn ++
      [.leave 0, .ret 0 (.ok .none), .resumeItem 0, .settle 0])) (.complete 0) := fun _ => rfl
  exact (((passedOn_undisturbed.append (Machine.exec_run_of hleave rfl)).append
    (.single hresume rfl)).append (Machine.exec_run_of hsettle rfl)).append (.single hcomplete rfl)

theorem cancellation_goesOn :
    ∃ s, (machine plainEnv).exec (init []) (firstCall ++ passedOn ++ goesOn) = some s ∧
      s.delivered 0 = [1] ∧ s.await 0 = .over (.ok .none) ∧ s.phase 0 = .returned (.ok .none) := by
  obtain ⟨hdelivered, hover⟩ := cancellation goesOn_undisturbed (x := 0) (k := 1) rfl
  exact ⟨_, rfl, hdelivered, rfl, hover _ rfl⟩

/-- A function whose first call awaits a sync function on its thread makes another call. -/
def secondCall : List Action :=
  firstCall ++ [.syncToAsync 1 true none, .take 0, .ret 0 (.ok .none), .settle 1, .complete 1,
    .finish 1 (.ok .none) false, .leave 0, .call 0 false, .create 2, .startTask 2]

/-- The cancellation finds no task on the list of the function: it gives up on the function, which
still waits for its call. -/
theorem secondCall_cancelled :
    ∃ s, (machine plainEnv).exec (init []) (secondCall ++ [.cancel 0, .deliver 0, .complete 0])
        = some s ∧ s.target 0 = some 2 ∧ s.delivered 0 = [] ∧
      s.await 0 = .over (.error .cancelledError) ∧ s.phase 0 = .running 0 :=
  ⟨_, rfl, rfl, rfl, rfl, rfl⟩

end Runtime

end Asgiref
