import Asgiref.Runtime.Lists

/-! # Functions and the calls they are parked in

A function makes its `AsyncToSync` calls one after the other, and each has found some list in the
slot of the thread.

* **`Fixed`** — what a step cannot change: what has been made, what is done and what has returned.
* **`Released`** — a call lets its caller go on only when the task of its `main_wrap` is done.
* **`Owners`** — a call that has found the list of a function which still runs was made by that
  function: it is parked in the call, or the task of the call is done. -/

namespace Asgiref

namespace Runtime

variable {env : Env} {s s' : State} {a : Action}

/-! ## What does not change -/

@[simp] theorem TaskStatus.cancel_isDone (p : TaskStatus) : p.cancel.isDone = p.isDone := by
  cases p <;> rfl

/-- From one state to another, what has been made is the same, and what has come to its end has. -/
structure Fixed (s s' : State) : Prop where
  task : ∀ k, k < s.nextTask → s'.task k = s.task k
  call : ∀ c, c < s.nextCall → s'.call c = s.call c
  item : ∀ x, x < s.nextItem → s'.item x = s.item x
  returned : ∀ x r, s.phase x = .returned r → s'.phase x = .returned r
  done : ∀ k, k < s.nextTask → (s.status k).isDone = true → (s'.status k).isDone = true

namespace Fixed

theorem trans {s'' : State} (h : Fixed s s') (h' : Fixed s' s'') (htask : s.nextTask ≤ s'.nextTask)
    (hcall : s.nextCall ≤ s'.nextCall) (hitem : s.nextItem ≤ s'.nextItem) : Fixed s s'' where
  task k hk := (h'.task k (hk.trans_le htask)).trans (h.task k hk)
  call c hc := (h'.call c (hc.trans_le hcall)).trans (h.call c hc)
  item x hx := (h'.item x (hx.trans_le hitem)).trans (h.item x hx)
  returned x r hx := h'.returned x r (h.returned x r hx)
  done k hk hdone := h'.done k (hk.trans_le htask) (h.done k hk hdone)

/-- Where a task stands changes, and it is not done or stays so. -/
theorem setStatus {k : TaskId} {p : TaskStatus}
    (hk : (s.status k).isDone = true → p.isDone = true) : Fixed s (setStatus k p s) := by
  refine ⟨fun _ _ => rfl, fun _ _ => rfl, fun _ _ => rfl, fun _ _ h => h, fun k' _ hdone => ?_⟩
  simp only [Runtime.setStatus]
  by_cases heq : k' = k
  · subst heq
    rw [Function.update_self]
    exact hk hdone
  · rwa [Function.update_of_ne heq]

/-- A task is made. -/
theorem addTask (s : State) (task : Task) (p : TaskStatus) (context : Context) :
    Fixed s (addTask task p context s) := by
  refine ⟨fun k hk => ?_, fun _ _ => rfl, fun _ _ => rfl, fun _ _ h => h, fun k hk hdone => ?_⟩
  · exact Function.update_of_ne hk.ne _ _
  · simp only [Runtime.addTask]
    rwa [Function.update_of_ne hk.ne]

/-- A frame makes a call. -/
theorem park (env : Env) (s : State) (t : ThreadId) (frame : SyncFrame) (rest : List SyncFrame)
    (made : Call) (base : Context) (p : TaskStatus) :
    Fixed s (park env t frame rest made base p s) := by
  have hadd := addTask s ⟨made.loop, some s.nextCall, some s.nextCall⟩ p base
  exact ⟨hadd.task, fun c hc => Function.update_of_ne hc.ne _ _, hadd.item, hadd.returned,
    hadd.done⟩

/-- An item that has not returned changes. -/
theorem setPhase {x : ItemId} (hx : ∀ r, s.phase x ≠ .returned r) (p : Phase) :
    Fixed s { s with phase := Function.update s.phase x p } := by
  refine ⟨fun _ _ => rfl, fun _ _ => rfl, fun _ _ => rfl, fun y r hy => ?_, fun _ _ h => h⟩
  have hne : y ≠ x := by
    rintro rfl
    exact hx r hy
  simp only [Function.update_of_ne hne]
  exact hy

/-- A call ends, and its task goes on. -/
theorem endItem (hawaiting : Awaiting s) {x : ItemId} (hx : ¬ s.Over x) (r : Result) :
    Fixed s (endItem env x r s) := by
  have hset := setStatus (s := s) (k := (s.item x).task) (p := .running) fun hdone => by
    rw [hawaiting.item x hx] at hdone
    cases hdone
  exact { hset with }

/-- A task is cancelled. -/
theorem cancelTask (s : State) (k : TaskId) : Fixed s (cancelTask k s) := by
  have hset := setStatus (s := s) (k := k) (p := (s.status k).cancel) fun hdone => by
    rw [TaskStatus.cancel_isDone]
    exact hdone
  exact { hset with }

/-- **What a step does not change.** -/
theorem step (hframes : Frames s.stack s.phase s.nextItem) (hawaiting : Awaiting s)
    (hs : (machine env).step s a = some s') : Fixed s s' := by
  have hnotDone : ∀ {k p q}, s.status k = p → p.isDone = false →
      (s.status k).isDone = true → TaskStatus.isDone q = true := fun hstatus hp hdone => by
    rw [hstatus, hp] at hdone
    cases hdone
  -- tasks that are done are started and resumed no more, and a call that ends has its task waiting
  have hcase := step_inv hs
  cases hcase with
  | callParent t frame rest force l hstack hcall hparent => exact park ..
  | callNewLoop t frame rest force hstack hcall hparent =>
      have hpark := park env s t frame rest (newCall env t frame force s.nextLoop true s)
        (if env.threadInheritContext then callContext env t frame s else ∅) (.created false)
      exact { hpark with }
  | take t x q q' context hdequeue hqueued hrestore =>
      have hset := setPhase (s := s) (x := x) (by simp [hqueued]) (.running t)
      exact { hset with }
  | takeRaising t x q q' context e hdequeue hqueued hrestore =>
      have hset := setPhase (s := s) (x := x) (by simp [hqueued]) (.returned (.error e))
      exact { hset with }
  | ret t frame rest x r hstack hitem hcall =>
      have hrunning := hframes.frame t frame (hstack ▸ List.mem_cons_self) x hitem
      have hset := setPhase (s := s) (x := x) (by simp [hrunning]) (.returned r)
      exact { hset with }
  | spawnThreadsafe t frame rest l hstack hcall hl => exact addTask ..
  | startLoop context =>
      have hadd := addTask s ⟨s.nextLoop, none, none⟩ .running context
      exact { hadd with }
  | create k hstatus hlive => exact setStatus (hnotDone hstatus rfl)
  | startCancelled k hlive hstatus => exact setStatus (hnotDone hstatus rfl)
  | startMain k c context hlive hstatus hcall hrestore =>
      have hset := setStatus (k := k) (p := .running) (hnotDone hstatus rfl)
      exact { hset with }
  | failMain k c context e hlive hstatus hcall hrestore =>
      have hset := setStatus (k := k) (p := .done false) (hnotDone hstatus rfl)
      exact { hset with }
  | startTask k hlive hstatus hcall => exact setStatus (hnotDone hstatus rfl)
  | spawn k custom hstatus hlive => exact addTask ..
  | awaitTask k k' hstatus hlive hk' => exact setStatus (hnotDone hstatus rfl)
  | resumeTask k k' hstatus hlive => exact setStatus (hnotDone hstatus rfl)
  | finishMain k c r mustCancel hstatus hlive hcall =>
      have hset := setStatus (k := k) (p := .done mustCancel) (hnotDone hstatus rfl)
      exact { hset with }
  | finishTask k r mustCancel hstatus hlive hcall => exact setStatus (hnotDone hstatus rfl)
  | syncToAsync k b custom selection executor hstatus hlive hselect hsubmit =>
      have hphase := setPhase (s := s) (x := s.nextItem)
        (by simp [hframes.fresh _ (Nat.le_refl _)]) .queued
      have hset := setStatus (k := k) (p := .awaitingItem s.nextItem) (hnotDone hstatus rfl)
      exact ⟨hset.task, hset.call, fun x hx => Function.update_of_ne hx.ne _ _, hphase.returned,
        hset.done⟩
  | complete x r hlive hawait hresult =>
      rcases hawait with hawait | hawait
      · exact endItem hawaiting (not_over hawait (by simp)) r
      · exact endItem hawaiting (not_over hawait (by simp)) r
  | cancel k => exact cancelTask s k
  | passOn x k rest hawait hlive htasks hloop =>
      have hcancel := cancelTask s k
      exact { hcancel with }
  | passOnOther x k rest hawait hlive htasks hloop =>
      have hcancel := cancelTask s k
      have hset : Fixed s (setDelivered x k (Runtime.cancelTask k s)) :=
        { hcancel with }
      exact hset.trans (endItem (hawaiting.passOn hawait k) (setDelivered_not_over x k _) _)
        (Nat.le_refl _) (Nat.le_refl _) (Nat.le_refl _)
  | deliverDone x hawait hlive htasks hresult =>
    exact endItem hawaiting (not_over hawait (by simp)) _
  | resumeDone x k b hawait hstatus hlive hresult =>
      exact endItem hawaiting (not_over hawait (by simp)) _
  | dropItem x hcancelled hqueued => exact setPhase (by simp [hqueued]) .cancelled
  | closeGenerator l c context hshutting => exact addTask ..
  | _ => exact ⟨fun _ _ => rfl, fun _ _ => rfl, fun _ _ => rfl, fun _ _ h => h, fun _ _ h => h⟩

end Fixed

/-! ## Frames that go on -/

/-- The executor of a call is broken only when the task of its `main_wrap` is done. -/
def Released (s : State) : Prop :=
  ∀ c, c < s.nextCall → s.broken c = true → (s.status (s.call c).main).isDone = true

/-- The task of a call has been made. -/
theorem Mains.main_lt (h : Mains s) {c : CallId} (hc : c < s.nextCall) :
    (s.call c).main < s.nextTask :=
  (h.call _ c (h.main c hc)).2.1

/-- A frame makes a call, whose executor is not broken. -/
theorem Released.park (h : Released s) (hmains : Mains s) (t : ThreadId) (frame : SyncFrame)
    (rest : List SyncFrame) (made : Call) (base : Context) (p : TaskStatus) :
    Released (park env t frame rest made base p s) := by
  intro c hc hbroken
  have hfixed := Fixed.park env s t frame rest made base p
  simp only [Runtime.park] at hc hbroken
  by_cases heq : c = s.nextCall
  · subst heq
    rw [Function.update_self] at hbroken
    cases hbroken
  · have hlt := lt_of_le_of_ne (Nat.lt_succ_iff.mp hc) heq
    rw [Function.update_of_ne heq] at hbroken
    rw [hfixed.call c hlt]
    exact hfixed.done _ (hmains.main_lt hlt) (h c hlt hbroken)

/-- **Every step keeps callers waiting for the tasks of their calls.** -/
theorem Released.step (h : Released s) (hmains : Mains s) (hfixed : Fixed s s')
    (hs : (machine env).step s a = some s') : Released s' := by
  have hcase := step_inv hs
  cases hcase with
  | callParent t frame rest force l hstack hcall hparent =>
      exact h.park hmains _ _ _ _ _ _
  | callNewLoop t frame rest force hstack hcall hparent =>
      have hpark : Released (Runtime.park env t frame rest _ _ _ s) :=
        h.park hmains t frame rest (newCall env t frame force s.nextLoop true s)
          (if env.threadInheritContext then callContext env t frame s else ∅) (.created false)
      exact hpark
  | finishMain k c r mustCancel hstatus hlive hcall =>
      intro c' hc' hbroken
      by_cases heq : c' = c
      · -- the call is released by this very step, which finishes its task
        subst heq
        show (Function.update s.status k (.done mustCancel) (s.call c').main).isDone = true
        rw [(hmains.call k c' hcall).2.2.1, Function.update_self]
        rfl
      · have hold : s.broken c' = true := by
          simpa only [finishMain, Function.update_of_ne heq] using hbroken
        exact hfixed.done _ (hmains.main_lt hc') (h c' hc' hold)
  | closeLoop l c hshutting =>
      intro c' hc' hbroken
      by_cases heq : c' = c
      · -- `asyncio.run` closes its loop after the main task
        exact heq ▸ hshutting.2.2.2
      · simp only [Function.update_of_ne heq] at hbroken
        exact h c' hc' hbroken
  | _ => exact fun c hc hbroken => hfixed.done _ (hmains.main_lt hc) (h c hc hbroken)

/-! ## Functions that are parked -/

/-- The function of the item is parked in this call. -/
def State.ParkedIn (s : State) (x : ItemId) (c : CallId) : Prop :=
  ∃ t, ∃ f ∈ s.stack t, f.item = some x ∧ f.call = some c

/-- A call that has found the list of an item came after the start of its function, and while that
runs, it is parked in the call or has gone on after it. -/
structure Owners (s : State) : Prop where
  started : ∀ c, c < s.nextCall → ∀ x, (s.call c).taskContext = some x → s.phase x ≠ .queued
  parked : ∀ c, c < s.nextCall → ∀ x, (s.call c).taskContext = some x →
    ∀ t, s.phase x = .running t →
    s.ParkedIn x c ∨ (s.status (s.call c).main).isDone = true

theorem owners_init (contexts : List Context) : Owners (init contexts) where
  started c hc := absurd hc (Nat.not_lt_zero c)
  parked c hc := absurd hc (Nat.not_lt_zero c)

/-- A function stays parked when another frame of its thread changes. -/
theorem State.ParkedIn.update {x : ItemId} {c : CallId} (h : s.ParkedIn x c) {t : ThreadId}
    {frame : SyncFrame} {rest frames : List SyncFrame} (hstack : s.stack t = frame :: rest)
    (hne : frame.item = some x → frame.call ≠ some c) (hrest : ∀ f ∈ rest, f ∈ frames) :
    ∃ t', ∃ f ∈ Function.update s.stack t frames t', f.item = some x ∧ f.call = some c := by
  obtain ⟨t', f, hf, hitem, hcall⟩ := h
  refine ⟨t', f, ?_, hitem, hcall⟩
  by_cases heq : t' = t
  · subst heq
    rw [Function.update_self]
    rw [hstack] at hf
    rcases List.mem_cons.mp hf with rfl | hf
    · exact absurd hcall (hne hitem)
    · exact hrest f hf
  · rwa [Function.update_of_ne heq]

namespace Owners

/-- A frame makes a call. -/
theorem park (h : Owners s) (hmains : Mains s) (hslots : Slots env s) {t : ThreadId}
    {frame : SyncFrame} {rest : List SyncFrame} (hstack : s.stack t = frame :: rest)
    (hcall : frame.call = none) {made : Call} (hmade : made.taskContext = s.taskContext t)
    (base : Context) (p : TaskStatus) : Owners (park env t frame rest made base p s) := by
  have hfixed := Fixed.park env s t frame rest made base p
  refine ⟨forall_lt_update_iff (P := fun made => ∀ x, made.taskContext = some x →
    s.phase x ≠ .queued) |>.mpr ⟨h.started, fun x hx => hslots.started t x (hmade ▸ hx)⟩,
    fun c hc x hx t' hrunning => ?_⟩
  by_cases heq : c = s.nextCall
  · -- the slot held the list of the innermost function, which is now parked in the new call
    subst heq
    simp only [Runtime.park, Function.update_self] at hx hrunning
    obtain ⟨rfl, f, rest', hstack', hitem⟩ := hslots.innermost t x t' (hmade ▸ hx) hrunning
    rw [hstack] at hstack'
    cases hstack'
    refine .inl ⟨t', ⟨frame.item, some s.nextCall⟩, ?_, hitem, rfl⟩
    simp only [Runtime.park, Function.update_self]
    exact List.mem_cons_self
  · have hlt := lt_of_le_of_ne (Nat.lt_succ_iff.mp hc) heq
    rw [hfixed.call c hlt] at hx ⊢
    rcases h.parked c hlt x hx t' hrunning with hparked | hdone
    · refine .inl (hparked.update hstack (fun _ hc' => ?_) fun f hf => List.mem_cons_of_mem _ hf)
      rw [hcall] at hc'
      cases hc'
    · exact .inr (hfixed.done _ (hmains.main_lt hlt) hdone)

/-- The frames of a thread change, and an item that had not started or that has returned with it. -/
theorem setPhase (h : Owners s) {x : ItemId} {p : Phase} (hqueued : p ≠ .queued)
    (hx : ∀ c, c < s.nextCall → (s.call c).taskContext = some x → ∀ t, p ≠ .running t)
    (stack : ThreadId → List SyncFrame)
    (hstack : ∀ y c, y ≠ x → s.ParkedIn y c →
      ∃ t, ∃ f ∈ stack t, f.item = some y ∧ f.call = some c) :
    Owners { s with
      stack := stack
      phase := Function.update s.phase x p } := by
  refine ⟨fun c hc y hy => ?_, fun c hc y hy t hrunning => ?_⟩
  · by_cases heq : y = x
    · subst heq
      simpa only [Function.update_self] using hqueued
    · simpa only [Function.update_of_ne heq] using h.started c hc y hy
  · by_cases heq : y = x
    · subst heq
      simp only [Function.update_self] at hrunning
      exact absurd hrunning (hx c hc hy t)
    · simp only [Function.update_of_ne heq] at hrunning
      rcases h.parked c hc y hy t hrunning with hparked | hdone
      · exact .inl (hstack y c heq hparked)
      · exact .inr hdone

/-- **Every step keeps the functions parked in the calls that have found their lists.** -/
theorem step (h : Owners s) (hknown : Known env s) (hmains : Mains s) (hreleased : Released s)
    (hfixed : Fixed s s') (hs : (machine env).step s a = some s') : Owners s' := by
  have hstarted : ∀ {x c}, s.phase x = .queued → c < s.nextCall →
      (s.call c).taskContext ≠ some x := fun hqueued hc hx => h.started _ hc _ hx hqueued
  have hcase := step_inv hs
  cases hcase with
  | callParent t frame rest force l hstack hcall hparent =>
      exact h.park hmains hknown.slots hstack hcall rfl _ _
  | callNewLoop t frame rest force hstack hcall hparent =>
      have hpark : Owners (Runtime.park env t frame rest
          (newCall env t frame force s.nextLoop true s) _ _ s) :=
        h.park hmains hknown.slots hstack hcall rfl
          (if env.threadInheritContext then callContext env t frame s else ∅) (.created false)
      exact { hpark with }
  | leave t frame rest c hstack hcall hbroken hempty =>
      refine ⟨h.started, fun c' hc' x hx t' hrunning => ?_⟩
      rcases h.parked c' hc' x hx t' hrunning with hparked | hdone
      · by_cases heq : c' = c
        · -- the function leaves this very call, whose task is done
          exact .inr (hreleased c' hc' (heq ▸ hbroken))
        · refine .inl (hparked.update hstack (fun _ hc => ?_) fun f hf => List.mem_cons_of_mem _ hf)
          rw [hcall] at hc
          exact heq (Option.some.inj hc).symm
      · exact .inr hdone
  | take t x q q' context hdequeue hqueued hrestore =>
      have hset := h.setPhase (x := x) (p := .running t) (by simp)
        (fun c hc hx => absurd hx (hstarted hqueued hc))
        (Function.update s.stack t (⟨some x, none⟩ :: s.stack t)) fun y c _ hy => ?_
      · exact { hset with }
      · obtain ⟨t', f, hf, hparked⟩ := hy
        refine ⟨t', f, ?_, hparked⟩
        by_cases heq : t' = t
        · subst heq
          rw [Function.update_self]
          exact List.mem_cons_of_mem _ hf
        · rwa [Function.update_of_ne heq]
  | takeRaising t x q q' context e hdequeue hqueued hrestore =>
      have hset := h.setPhase (x := x) (p := .returned (.error e)) (by simp)
        (fun _ _ _ => by simp) s.stack fun y c _ hy => hy
      exact { hset with }
  | ret t frame rest x r hstack hitem hcall =>
      refine h.setPhase (by simp) (fun _ _ _ => by simp) _ fun y c hne hy => ?_
      exact hy.update hstack (fun hy' => absurd (hy'.symm.trans hitem) (by simpa using hne))
        fun f hf => hf
  | syncToAsync k b custom selection executor hstatus hlive hselect hsubmit =>
      refine ⟨fun c hc x hx => ?_, fun c hc x hx t hrunning => ?_⟩
      · have hlt := (hmains.list c hc x hx).1
        simpa only [addWorker, awaitItem, Function.update_of_ne hlt.ne] using h.started c hc x hx
      · have hlt := (hmains.list c hc x hx).1
        simp only [addWorker, awaitItem, Function.update_of_ne hlt.ne] at hrunning
        exact (h.parked c hc x hx t hrunning).imp id (hfixed.done _ (hmains.main_lt hc))
  | dropItem x hcancelled hqueued =>
      exact h.setPhase (by simp) (fun _ _ _ => by simp) _ fun y c _ hy => hy
  | _ =>
      exact ⟨h.started, fun c hc x hx t hrunning =>
        (h.parked c hc x hx t hrunning).imp id (hfixed.done _ (hmains.main_lt hc))⟩

end Owners

/-- What holds of functions and their calls together. -/
structure Waiting (s : State) : Prop where
  released : Released s
  owners : Owners s

/-- **Every run keeps functions parked.** -/
theorem Waiting.run {contexts : List Context} {as : List Action}
    (h : (machine env).Run Machine.Any (init contexts) as s) : Waiting s :=
  h.invariant_of (J := fun s => Known env s ∧ Listed s)
    (fun _ _ hrun => ⟨Known.run hrun, Listed.run hrun⟩)
    ⟨fun c hc => absurd hc (Nat.not_lt_zero c), owners_init contexts⟩
    fun _ _ _ hJ hI _ hs => by
      obtain ⟨hknown, hlisted⟩ := hJ
      have hfixed := Fixed.step hknown.frames hlisted.awaiting hs
      exact ⟨hI.released.step hlisted.mains hfixed hs,
        hI.owners.step hknown hlisted.mains hI.released hfixed hs⟩

end Runtime

end Asgiref
