import Asgiref.Runtime.Slots

/-! # Calls and their tasks

* **`Mains`** — an `AsyncToSync` call and the task of its `main_wrap` belong to each other, and the
  loop of a call tells whether it was started for the call.
* **`Awaiting`** — a `SyncToAsync` call that is not over is where the task that has made it stands.
  -/

namespace Asgiref

namespace Runtime

variable {env : Env} {s s' : State} {a : Action}

/-! ## Calls and their tasks -/

/-- The calls and the tasks of their `main_wrap`s. -/
structure Mains (s : State) : Prop where
  call : ∀ k c, (s.task k).call = some c →
    c < s.nextCall ∧ k < s.nextTask ∧ (s.call c).main = k ∧ (s.task k).loop = (s.call c).loop
  main : ∀ c, c < s.nextCall → (s.task (s.call c).main).call = some c
  list : ∀ c, c < s.nextCall → ∀ x, (s.call c).taskContext = some x → x < s.nextItem ∧
    ((s.call c).newLoop = false ↔ (s.call c).loop = (s.item x).loop)

theorem mains_init (contexts : List Context) : Mains (init contexts) where
  call k c hc := by cases hc
  main c hc := absurd hc (Nat.not_lt_zero c)
  list c hc := absurd hc (Nat.not_lt_zero c)

/-- The loop of a call that a frame makes: the one of the item in the slot, or a new one. -/
theorem newLoop_iff (hknown : Known env s) {t : ThreadId} {force : Bool} {found : Option LoopId}
    {l : LoopId} {newLoop : Bool} (hparent : parentLoop env force t s = found)
    (hl : found = some l ∧ newLoop = false ∨ found = none ∧ l = s.nextLoop ∧ newLoop = true) :
    ∀ x, s.taskContext t = some x →
      x < s.nextItem ∧ (newLoop = false ↔ l = (s.item x).loop) := by
  intro x hslot
  have hx := hknown.slots.known t x hslot
  have hloop := (hknown.numbers.item x hx).2
  refine ⟨hx, ?_⟩
  rcases hl with ⟨rfl, rfl⟩ | ⟨-, rfl, rfl⟩
  -- the parent loop is the one in the slot, next to the list
  · simp only [parentLoop, hknown.slots.mainEventLoop t, hslot, Option.map_some,
      true_and] at hparent
    split at hparent
    · cases hparent
    · split at hparent
      · exact ⟨fun _ => (Option.some.inj hparent).symm, fun _ => rfl⟩
      · cases hparent
  -- no item was awaited on a loop that is only being made
  · constructor
    · intro h
      cases h
    · intro h
      exact absurd h hloop.ne'

/-- A frame makes a call. -/
theorem Mains.park (h : Mains s) (t : ThreadId) (frame : SyncFrame) (rest : List SyncFrame)
    (made : Call) (hmain : made.main = s.nextTask)
    (hlist : ∀ x, made.taskContext = some x →
      x < s.nextItem ∧ (made.newLoop = false ↔ made.loop = (s.item x).loop))
    (base : Context) (p : TaskStatus) : Mains (park env t frame rest made base p s) := by
  refine ⟨fun k c hc => ?_, fun c hc => ?_, ?_⟩
  · simp only [Runtime.park] at hc ⊢
    by_cases heq : k = s.nextTask
    · subst heq
      simp only [Function.update_self, Option.some.injEq] at hc ⊢
      subst hc
      rw [Function.update_self]
      exact ⟨Nat.lt_succ_self _, Nat.lt_succ_self _, hmain, rfl⟩
    · rw [Function.update_of_ne heq] at hc ⊢
      obtain ⟨hlt, hk, hmain', hloop⟩ := h.call k c hc
      rw [Function.update_of_ne hlt.ne]
      exact ⟨hlt.trans (Nat.lt_succ_self _), hk.trans (Nat.lt_succ_self _), hmain', hloop⟩
  · simp only [Runtime.park] at hc ⊢
    by_cases heq : c = s.nextCall
    · subst heq
      rw [Function.update_self, hmain, Function.update_self]
    · have hold := h.main c (lt_of_le_of_ne (Nat.lt_succ_iff.mp hc) heq)
      have hlt := (h.call _ c hold).2.1
      rwa [Function.update_of_ne heq, Function.update_of_ne hlt.ne]
  · exact forall_lt_update_iff (P := fun made => ∀ x, made.taskContext = some x → x < s.nextItem ∧
      (made.newLoop = false ↔ made.loop = (s.item x).loop)) |>.mpr ⟨h.list, hlist⟩

/-- A task is made that runs no `main_wrap`. -/
theorem Mains.addTask (h : Mains s) (task : Task) (hcall : task.call = none) (p : TaskStatus)
    (context : Context) : Mains (addTask task p context s) := by
  refine ⟨fun k c hc => ?_, fun c hc => ?_, h.list⟩
  · simp only [Runtime.addTask] at hc ⊢
    by_cases heq : k = s.nextTask
    · subst heq
      rw [Function.update_self, hcall] at hc
      cases hc
    · rw [Function.update_of_ne heq] at hc ⊢
      obtain ⟨hlt, hk, hrest⟩ := h.call k c hc
      exact ⟨hlt, hk.trans (Nat.lt_succ_self _), hrest⟩
  · have hold := h.main c hc
    simp only [Runtime.addTask]
    rwa [Function.update_of_ne (h.call _ c hold).2.1.ne]

/-- **Every step keeps the calls and their tasks.** -/
theorem Mains.step (h : Mains s) (hknown : Known env s)
    (hs : (machine env).step s a = some s') : Mains s' := by
  have hcase := step_inv hs
  cases hcase with
  | callParent t frame rest force l hstack hcall hparent =>
      exact h.park t frame rest _ rfl (newLoop_iff hknown hparent (.inl ⟨rfl, rfl⟩)) _ _
  | callNewLoop t frame rest force hstack hcall hparent =>
      have hmade := newLoop_iff (l := s.nextLoop) hknown hparent (.inr ⟨rfl, rfl, rfl⟩)
      have hpark : Mains (Runtime.park env t frame rest _ _ _ s) :=
        h.park t frame rest (newCall env t frame force s.nextLoop true s) rfl hmade
          (if env.threadInheritContext then callContext env t frame s else ∅) (.created false)
      exact { hpark with }
  | spawnThreadsafe t frame rest l hstack hcall hl => exact h.addTask _ rfl _ _
  | startLoop context =>
      have hadd := h.addTask ⟨s.nextLoop, none, none⟩ rfl .running context
      exact { hadd with }
  | spawn k custom hstatus hlive => exact h.addTask _ rfl _ _
  | closeGenerator l c context hshutting => exact h.addTask _ rfl _ _
  | syncToAsync k b custom selection executor hstatus hlive hselect hsubmit =>
      refine ⟨h.call, h.main, fun c hc x hx => ?_⟩
      obtain ⟨hlt, hiff⟩ := h.list c hc x hx
      simp only [addWorker, awaitItem]
      rw [Function.update_of_ne hlt.ne]
      exact ⟨hlt.trans (Nat.lt_succ_self _), hiff⟩
  | _ => exact { h with }

/-! ## Tasks that await items -/

@[simp] theorem TaskStatus.cancel_underWay (p : TaskStatus) : p.cancel.underWay = p.underWay := by
  cases p <;> rfl

@[simp] theorem TaskStatus.cancel_eq_awaitingItem {p : TaskStatus} {x : ItemId} :
    p.cancel = .awaitingItem x ↔ p = .awaitingItem x := by
  cases p <;> simp [TaskStatus.cancel]

theorem callAt_eq_some_iff {point : Await} {k : TaskId} {x : ItemId} :
    s.callAt point k = some x ↔ s.status k = .awaitingItem x ∧ s.await x = point := by
  unfold State.callAt
  split
  · rename_i y hstatus
    rw [hstatus]
    constructor
    · intro h
      split at h
      · cases h
        exact ⟨rfl, by assumption⟩
      · cases h
    · rintro ⟨hy, hpoint⟩
      cases hy
      exact if_pos hpoint
  · rename_i hne
    exact ⟨fun h => (by cases h), fun h => absurd h.1 (hne x)⟩

/-- The call is over. -/
def State.Over (s : State) (x : ItemId) : Prop := ∃ r, s.await x = .over r

/-- Cancelling a task ends no call. -/
theorem cancelTask_over (k : TaskId) (x : ItemId) : (cancelTask k s).Over x ↔ s.Over x := by
  simp only [State.Over, cancelTask]
  cases hcall : s.callAt .shielded k with
  | none => rfl
  | some y =>
      simp only [setAt]
      by_cases heq : x = y
      · subst heq
        rw [Function.update_self, (callAt_eq_some_iff.mp hcall).2]
        simp
      · rw [Function.update_of_ne heq]

/-- Cancelling a task moves no task into a call or out of it. -/
theorem cancelTask_awaitingItem (k k' : TaskId) (x : ItemId) :
    (cancelTask k s).status k' = .awaitingItem x ↔ s.status k' = .awaitingItem x := by
  simp only [cancelTask]
  by_cases heq : k' = k
  · subst heq
    rw [Function.update_self, TaskStatus.cancel_eq_awaitingItem]
  · rw [Function.update_of_ne heq]

/-- A call that is not over is where the task that has made it stands, and a task stands in a call
of its own. -/
structure Awaiting (s : State) : Prop where
  item : ∀ x, ¬ s.Over x → s.status (s.item x).task = .awaitingItem x
  task : ∀ k x, s.status k = .awaitingItem x → x < s.nextItem ∧ (s.item x).task = k ∧ ¬ s.Over x

theorem awaiting_init (contexts : List Context) : Awaiting (init contexts) where
  item x hx := absurd ⟨.ok .none, rfl⟩ hx
  task k x hx := by cases hx

namespace Awaiting

/-- A step that ends no call and makes none. -/
theorem congr (h : Awaiting s) (hitem : s'.item = s.item) (hnext : s'.nextItem = s.nextItem)
    (hstatus : ∀ k x, s'.status k = .awaitingItem x ↔ s.status k = .awaitingItem x)
    (hover : ∀ x, s'.Over x ↔ s.Over x) : Awaiting s' := by
  refine ⟨fun x hx => ?_, fun k x hx => ?_⟩
  · rw [hitem, hstatus]
    exact h.item x (mt (hover x).mpr hx)
  · rw [hitem, hnext, hover]
    exact h.task k x ((hstatus k x).mp hx)

/-- A task that is in no call comes to another point outside of calls. -/
theorem setStatus (h : Awaiting s) {k : TaskId} {p : TaskStatus}
    (hk : ∀ x, s.status k ≠ .awaitingItem x) (hp : ∀ x, p ≠ .awaitingItem x) :
    Awaiting (setStatus k p s) := by
  refine h.congr rfl rfl (fun k' x => ?_) fun x => Iff.rfl
  simp only [Runtime.setStatus]
  by_cases heq : k' = k
  · subst heq
    rw [Function.update_self]
    exact ⟨fun h => absurd h (hp x), fun h => absurd h (hk x)⟩
  · rw [Function.update_of_ne heq]

/-- A call that is not over comes to another point. -/
theorem setAwait (h : Awaiting s) {x : ItemId} {p : Await} (hx : ¬ s.Over x)
    (hp : ∀ r, p ≠ .over r) : Awaiting { s with await := Function.update s.await x p } := by
  refine h.congr rfl rfl (fun _ _ => Iff.rfl) fun y => ?_
  simp only [State.Over]
  by_cases heq : y = x
  · subst heq
    rw [Function.update_self]
    exact ⟨fun ⟨r, hr⟩ => absurd hr (hp r), fun hy => absurd hy hx⟩
  · rw [Function.update_of_ne heq]

/-- A task is cancelled. -/
theorem cancelTask (h : Awaiting s) (k : TaskId) : Awaiting (cancelTask k s) :=
  h.congr rfl rfl (cancelTask_awaitingItem k) (cancelTask_over k)

/-- A task is made. -/
theorem addTask (h : Awaiting s) (hnumbers : Numbers s) (task : Task) {p : TaskStatus}
    (hp : ∀ x, p ≠ .awaitingItem x) (context : Context) : Awaiting (addTask task p context s) := by
  have hnew : ∀ x, s.status s.nextTask ≠ .awaitingItem x := fun x hx => by
    rw [hnumbers.status _ (Nat.le_refl _)] at hx
    cases hx
  have hset := h.setStatus hnew hp
  exact { hset with }

/-- A call ends. -/
theorem endItem (h : Awaiting s) {x : ItemId} (hx : ¬ s.Over x) (r : Result) :
    Awaiting (endItem env x r s) := by
  have hstatus := h.item x hx
  refine ⟨fun y hy => ?_, fun k y hy => ?_⟩
  · have hne : y ≠ x := by
      rintro rfl
      exact hy ⟨_, Function.update_self ..⟩
    have hover : ¬ s.Over y := fun ⟨r', hr'⟩ => hy ⟨r', by
      simp only [Runtime.endItem, Function.update_of_ne hne, hr']⟩
    have hitem := h.item y hover
    -- a task is in one call at a time
    have htask : (s.item y).task ≠ (s.item x).task := fun heq => by
      rw [heq, hstatus] at hitem
      cases hitem
      exact hne rfl
    simp only [Runtime.endItem, Function.update_of_ne htask]
    exact hitem
  · simp only [Runtime.endItem] at hy
    have hk : k ≠ (s.item x).task := by
      rintro rfl
      rw [Function.update_self] at hy
      cases hy
    rw [Function.update_of_ne hk] at hy
    obtain ⟨hlt, htask, hover⟩ := h.task k y hy
    have hne : y ≠ x := by
      rintro rfl
      exact hk htask.symm
    refine ⟨hlt, htask, fun ⟨r', hr'⟩ => hover ⟨r', ?_⟩⟩
    simp only [Runtime.endItem, Function.update_of_ne hne] at hr'
    exact hr'

/-- A running task makes a call. -/
theorem awaitItem (h : Awaiting s) (hnumbers : Numbers s) {k : TaskId}
    (hk : s.status k = .running) (executor : ExecutorRef) (custom : Option Context)
    (context : Context) : Awaiting (awaitItem k executor custom context s) := by
  have hfresh : ∀ y, s.nextItem ≤ y → s.Over y := fun y hy => ⟨_, hnumbers.await y hy⟩
  refine ⟨fun y hy => ?_, fun k' y hy => ?_⟩
  · simp only [State.Over, Runtime.awaitItem] at hy ⊢
    by_cases heq : y = s.nextItem
    · subst heq
      rw [Function.update_self, Function.update_self]
    · rw [Function.update_of_ne heq] at hy ⊢
      have hitem := h.item y hy
      have hne : (s.item y).task ≠ k := by
        rintro rfl
        rw [hk] at hitem
        cases hitem
      rw [Function.update_of_ne hne]
      exact hitem
  · simp only [State.Over, Runtime.awaitItem] at hy ⊢
    by_cases heq : k' = k
    · subst heq
      rw [Function.update_self] at hy
      cases hy
      rw [Function.update_self, Function.update_self]
      exact ⟨Nat.lt_succ_self _, rfl, by simp⟩
    · rw [Function.update_of_ne heq] at hy
      obtain ⟨hlt, htask, hover⟩ := h.task k' y hy
      rw [Function.update_of_ne hlt.ne, Function.update_of_ne hlt.ne]
      exact ⟨hlt.trans (Nat.lt_succ_self _), htask, hover⟩

end Awaiting

/-- A call at any point of its `try` is not over. -/
theorem not_over {x : ItemId} {p : Await} (hx : s.await x = p) (hp : ∀ r, p ≠ .over r) :
    ¬ s.Over x := fun ⟨r, hr⟩ => hp r (hx ▸ hr)

/-- A call that awaits the task it has cancelled is not over. -/
theorem setDelivered_not_over (x : ItemId) (k : TaskId) (s : State) :
    ¬ (setDelivered x k s).Over x :=
  not_over (p := .awaitingTask k) (Function.update_self ..) (by simp)

/-- A call passes its cancellation on. -/
theorem Awaiting.passOn (h : Awaiting s) {x : ItemId} (hawait : s.await x = .interrupted)
    (k : TaskId) : Awaiting (setDelivered x k (Runtime.cancelTask k s)) := by
  have hset := (h.cancelTask k).setAwait (x := x) (p := .awaitingTask k)
    (mt (cancelTask_over k x).mp (not_over hawait (by simp))) (by simp)
  exact { hset with }

/-- **Every step keeps the tasks in their calls.** -/
theorem Awaiting.step (h : Awaiting s) (hnumbers : Numbers s)
    (hs : (machine env).step s a = some s') : Awaiting s' := by
  have hcase := step_inv hs
  cases hcase with
  | callParent t frame rest force l hstack hcall hparent =>
      have hadd := h.addTask hnumbers ⟨l, none, none⟩ (p := .queued) (by simp) ∅
      exact { hadd with }
  | callNewLoop t frame rest force hstack hcall hparent =>
      have hadd := h.addTask hnumbers ⟨s.nextLoop, none, none⟩ (p := .created false) (by simp) ∅
      exact { hadd with }
  | spawnThreadsafe t frame rest l hstack hcall hl => exact h.addTask hnumbers _ (by simp) _
  | startLoop context =>
      have hadd := h.addTask hnumbers ⟨s.nextLoop, none, none⟩ (p := .running) (by simp) context
      exact { hadd with }
  | spawn k custom hstatus hlive => exact h.addTask hnumbers _ (by simp) _
  | closeGenerator l c context hshutting => exact h.addTask hnumbers _ (by simp) _
  | create k hstatus hlive => exact h.setStatus (by simp [hstatus]) (by simp)
  | startCancelled k hlive hstatus => exact h.setStatus (by simp [hstatus]) (by simp)
  | startMain k c context hlive hstatus hcall hrestore =>
      have hset := h.setStatus (k := k) (p := .running) (by simp [hstatus]) (by simp)
      exact { hset with }
  | failMain k c context e hlive hstatus hcall hrestore =>
      have hset := h.setStatus (k := k) (p := .done false) (by simp [hstatus]) (by simp)
      exact { hset with }
  | startTask k hlive hstatus hcall => exact h.setStatus (by simp [hstatus]) (by simp)
  | awaitTask k k' hstatus hlive hk' => exact h.setStatus (by simp [hstatus]) (by simp)
  | resumeTask k k' hstatus hlive => exact h.setStatus (by simp [hstatus]) (by simp)
  | finishMain k c r mustCancel hstatus hlive hcall =>
      have hset := h.setStatus (k := k) (p := .done mustCancel) (by simp [hstatus]) (by simp)
      exact { hset with }
  | finishTask k r mustCancel hstatus hlive hcall =>
      exact h.setStatus (by simp [hstatus]) (by simp)
  | syncToAsync k b custom selection executor hstatus hlive hselect hsubmit =>
      have hawait := h.awaitItem hnumbers hstatus executor custom selection.context
      exact { hawait with }
  | complete x r hlive hawait hresult =>
      rcases hawait with hawait | hawait
      · exact h.endItem (not_over hawait (by simp)) r
      · exact h.endItem (not_over hawait (by simp)) r
  | cancel k => exact h.cancelTask k
  | passOn x k rest hawait hlive htasks hloop => exact h.passOn hawait k
  | passOnOther x k rest hawait hlive htasks hloop =>
      exact (h.passOn hawait k).endItem (setDelivered_not_over x k _) _
  | deliverDone x hawait hlive htasks hresult => exact h.endItem (not_over hawait (by simp)) _
  | deliverAbandon x hawait hlive htasks =>
      have hset := h.setAwait (p := .awaitingExec) (not_over hawait (by simp)) (by simp)
      exact { hset with }
  | resumeDone x k b hawait hstatus hlive hresult => exact h.endItem (not_over hawait (by simp)) _
  | resumeAbandon x k hawait hstatus hlive =>
      have hset := h.setAwait (p := .awaitingExec) (not_over hawait (by simp)) (by simp)
      exact { hset with }
  | resumeAwait x k hawait hstatus hlive hresult =>
      exact h.setAwait (not_over hawait (by simp)) (by simp)
  | _ => exact { h with }

end Runtime

end Asgiref
