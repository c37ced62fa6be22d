import Asgiref.Runtime.Slots

/-! # Items that fall back to an outer executor

`CurrentThreadExecutor.submit` passes an item on along the `_old_executor` chain of the executor it
was submitted to, to the first one that is not broken. The chain is that of the frames at the time
the task's context was copied. The thread of the executors may meanwhile be parked in a newer call,
and then it serves the executor that has taken the item only after the newer call.

* **`CircularWait`** — a function waits for a call whose awaitable awaits a task that the function's
  calls have spawned, which awaits an item on an executor further out on the same thread.
* **`Fits`** — the condition on a submission that rules it out: the executor that takes the item is
  the one its thread is waiting in, or the task's own and not older than the call that spawned it.
* **`not_circularWait`** — no run whose submissions all meet the condition reaches a circular wait.
  -/

namespace Asgiref

namespace Runtime

/-- What a task waits for, through tasks and through the calls of functions. -/
inductive Awaits (s : State) : TaskId → TaskId → Prop
  | refl (k : TaskId) : Awaits s k k
  | task {k k' j : TaskId} : s.status k = .awaitingTask k' → Awaits s k' j → Awaits s k j
  | item {k j : TaskId} {x : ItemId} {t : ThreadId} {f : SyncFrame} {c : CallId} :
      s.status k = .awaitingItem x → f ∈ s.stack t → f.item = some x → f.call = some c →
      Awaits s (s.call c).main j → Awaits s k j

/-- A task that was spawned below call `b` awaits item `y`, which the executor of call `e` has taken
and no thread has started. -/
structure Waits (s : State) (y : ItemId) (e b : CallId) : Prop where
  queued : s.phase y = .queued
  executor : (s.item y).executor = .currentThread e
  below : (s.task (s.item y).task).spawnedBelow = some b

/-- **A circular wait.** The innermost function `x` of thread `t` is parked in a call, whose
awaitable awaits a task that was spawned below a call made since `x` started; and this task awaits
an item on the executor of a call in which a frame further out on the thread is parked. -/
structure CircularWait (s : State) (t : ThreadId) (f : SyncFrame) (rest : List SyncFrame)
    (x : ItemId) (c : CallId) (k : TaskId) (y : ItemId) (g : SyncFrame) (e b : CallId) : Prop where
  stack : s.stack t = f :: rest
  function : f.item = some x
  parked : f.call = some c
  awaits : Awaits s (s.call c).main k
  awaitsItem : s.status k = .awaitingItem y ∧ (s.item y).task = k
  waits : Waits s y e b
  spawned : s.startedAt x ≤ b
  outer : g ∈ rest ∧ g.call = some e

/-- The thread of the executor of a call is waiting in this executor. -/
def Idles (s : State) (e : CallId) : Prop :=
  ∃ f rest, s.stack (s.call e).thread = f :: rest ∧ f.call = some e

/-- A `CurrentThreadExecutor` takes an item only if its thread is waiting in it, or if it is the
current one of the submitting task's context and not older than the call below which the task was
spawned. -/
def Fits (env : Env) (s : State) : Action → Prop
  | .syncToAsync k threadSensitive _ => ∀ selection e,
      selectExecutor env threadSensitive k s = some selection →
      submit (s.taskThread k) s selection.executor = some (.currentThread e) →
      Idles s e ∨ (currentExecutor (env.getIdent (s.taskThread k)) (s.context k) = .executor e ∧
        ∀ b, (s.task k).spawnedBelow = some b → b ≤ e)
  | _ => True

/-! ## Layers of a stack -/

/-- Each function and each call in which a frame further out is parked stand in this relation. -/
def Layered (R : ItemId → CallId → Prop) (stack : ThreadId → List SyncFrame) : Prop :=
  ∀ t, (stack t).Pairwise fun f g => ∀ x e, f.item = some x → g.call = some e → R x e

section

variable {R R' : ItemId → CallId → Prop} {stack : ThreadId → List SyncFrame} {t : ThreadId}
  {f g : SyncFrame} {rest : List SyncFrame}

theorem Layered.update (h : Layered R stack) (t : ThreadId) {fs : List SyncFrame}
    (hfs : fs.Pairwise fun f g => ∀ x e, f.item = some x → g.call = some e → R x e) :
    Layered R (Function.update stack t fs) := by
  unfold Layered
  rw [Function.forall_update_iff stack fun _ fs =>
    fs.Pairwise fun f g => ∀ x e, f.item = some x → g.call = some e → R x e]
  exact ⟨hfs, fun t' _ => h t'⟩

/-- The innermost frame may change in everything but its function. -/
theorem Layered.replace (h : Layered R stack) (hstack : stack t = f :: rest)
    (hitem : g.item = f.item) : Layered R (Function.update stack t (g :: rest)) := by
  have ht := h t
  rw [hstack, List.pairwise_cons] at ht
  refine h.update t (List.pairwise_cons.mpr ⟨fun g' hg' x e hx => ?_, ht.2⟩)
  exact ht.1 g' hg' x e (hitem ▸ hx)

theorem Layered.pop (h : Layered R stack) (hstack : stack t = f :: rest) :
    Layered R (Function.update stack t rest) := by
  have ht := h t
  rw [hstack, List.pairwise_cons] at ht
  exact h.update t ht.2

theorem Layered.push (h : Layered R stack) {x : ItemId}
    (hx : ∀ g ∈ stack t, ∀ e, g.call = some e → R x e) :
    Layered R (Function.update stack t (⟨some x, none⟩ :: stack t)) := by
  refine h.update t (List.pairwise_cons.mpr ⟨fun g hg y e hy he => ?_, h t⟩)
  cases hy
  exact hx g hg e he

/-- A relation that is weaker for the frames there are, where the call is never that of the
innermost frame. -/
theorem Layered.mono (h : Layered R stack)
    (himp : ∀ t, ∀ f ∈ stack t, ∀ g ∈ (stack t).tail, ∀ x e, f.item = some x → g.call = some e →
      R x e → R' x e) : Layered R' stack := by
  intro t
  have ht := h t
  have himpt := himp t
  cases hstack : stack t with
  | nil => exact .nil
  | cons f rest =>
      rw [hstack] at ht himpt
      rw [List.pairwise_cons] at ht ⊢
      refine ⟨fun g hg x e hx he => ?_, ?_⟩
      · exact himpt f List.mem_cons_self g hg x e hx he (ht.1 g hg x e hx he)
      · exact ht.2.imp_of_mem fun {f g} hf hg hR x e hx he =>
          himpt f (List.mem_cons_of_mem _ hf) g hg x e hx he (hR x e hx he)

end

/-! ## No item waits further out -/

/-- Function `x` started after call `e` was made, and what waits in the executor of `e` belongs to
tasks spawned below calls made before `x` started. -/
def Apart (s : State) (x : ItemId) (e : CallId) : Prop :=
  e < s.startedAt x ∧ ∀ y b, Waits s y e b → b < s.startedAt x

/-- The calls below which tasks were spawned have been made. -/
def BelowMade (s : State) : Prop := ∀ k b, (s.task k).spawnedBelow = some b → b < s.nextCall

variable {env : Env} {s s' : State} {a : Action} {as : List Action}

theorem belowMade_init (contexts : List Context) : BelowMade (init contexts) :=
  fun k b hb => by cases hb

/-- A task is made. -/
theorem BelowMade.addTask (h : BelowMade s) {task : Task} {n : CallId} (hn : s.nextCall ≤ n)
    (htask : ∀ b, task.spawnedBelow = some b → b < n) :
    ∀ k b, (Function.update s.task s.nextTask task k).spawnedBelow = some b → b < n := by
  intro k b hb
  by_cases hk : k = s.nextTask
  · subst hk
    rw [Function.update_self] at hb
    exact htask b hb
  · rw [Function.update_of_ne hk] at hb
    exact (h k b hb).trans_le hn

theorem BelowMade.step (h : BelowMade s) (hs : (machine env).step s a = some s') :
    BelowMade s' := by
  have hcase := step_inv hs
  cases hcase with
  | callParent t frame rest force l hstack hcall hparent =>
      refine h.addTask (Nat.le_succ _) fun b hb => ?_
      cases hb
      exact Nat.lt_succ_self _
  | callNewLoop t frame rest force hstack hcall hparent =>
      refine h.addTask (Nat.le_succ _) fun b hb => ?_
      cases hb
      exact Nat.lt_succ_self _
  | spawnThreadsafe t frame rest l hstack hcall hl =>
      exact h.addTask (Nat.le_refl _) fun b hb => by cases hb
  | startLoop context => exact h.addTask (Nat.le_refl _) fun b hb => by cases hb
  | spawn k custom hstatus hlive => exact h.addTask (Nat.le_refl _) (h k)
  | closeGenerator l c context hshutting =>
      exact h.addTask (Nat.le_refl _) fun b hb => by cases hb
  | _ => exact h

/-- Nothing waits in the next call's executor, nor does a task that is not there wait. -/
theorem Waits.of_task (hnumbers : Numbers s) (hframes : Frames s.stack s.phase s.nextItem)
    {y : ItemId} {e b : CallId} {task : Task} (hs' : s'.phase y = s.phase y)
    (hitem : s'.item y = s.item y) (htask : s'.task = Function.update s.task s.nextTask task)
    (h : Waits s' y e b) : Waits s y e b := by
  have hqueued : s.phase y = .queued := hs' ▸ h.queued
  have hlt := (hnumbers.item y (hframes.lt_nextItem (by rw [hqueued]; simp))).1
  refine ⟨hqueued, hitem ▸ h.executor, ?_⟩
  have hbelow := h.below
  rwa [htask, hitem, Function.update_of_ne hlt.ne] at hbelow

/-- A step that starts no function and adds no item keeps the layers. -/
theorem Layered.of_waits (h : Layered (Apart s) s.stack) (hstarted : s'.startedAt = s.startedAt)
    (hwaits : ∀ y e b, Waits s' y e b → Waits s y e b) : Layered (Apart s') s.stack :=
  h.mono fun t f _ g _ x e _ _ hapart => by
    refine ⟨hstarted ▸ hapart.1, fun y b hy => ?_⟩
    rw [hstarted]
    exact hapart.2 y b (hwaits y e b hy)

/-- **A submission that fits keeps the layers.** -/
theorem Layered.awaitItem (h : Layered (Apart s) s.stack)
    (hparked : Parked s.stack s.call s.nextCall) {k : TaskId} {b : Bool}
    {custom : Option Context} {selection : Selection} {executor : ExecutorRef}
    (hfits : ∀ e, executor = .currentThread e → Idles s e ∨
      ∀ b, (s.task k).spawnedBelow = some b → b ≤ e) :
    Layered (Apart (addWorker b selection (awaitItem k executor custom selection.context s)))
      s.stack := by
  refine h.mono fun t f _ g hg x e _ he hapart => ⟨hapart.1, fun y b' hy => ?_⟩
  have hqueued := hy.queued
  have hexecutor := hy.executor
  have hbelow := hy.below
  simp only [addWorker, Runtime.awaitItem] at hqueued hexecutor hbelow ⊢
  by_cases hyx : y = s.nextItem
  · subst hyx
    rw [Function.update_self] at hexecutor hbelow
    rcases hfits e hexecutor with hidles | hle
    · -- the thread waits in the executor, so the frame of this call is the innermost one
      obtain ⟨h₀, rest, hstack, hcall⟩ := hidles
      have hmem := List.mem_of_mem_tail hg
      rw [(hparked.call t g hmem e he).2.1] at hstack
      have hdecreasing := hparked.decreasing t
      rw [hstack] at hg hdecreasing
      rw [List.pairwise_cons] at hdecreasing
      exact absurd (hdecreasing.1 g hg e e hcall he) (lt_irrefl e)
    -- the task was spawned below a call that is not younger than `e`
    · exact (hle b' hbelow).trans_lt hapart.1
  · rw [Function.update_of_ne hyx] at hqueued hexecutor hbelow
    exact hapart.2 y b' ⟨hqueued, hexecutor, hbelow⟩

/-- An item starts or ends, or is gone. -/
theorem Waits.of_phase {y : ItemId} {e b : CallId} (h : Waits s' y e b) {x : ItemId} {p : Phase}
    (hphase : s'.phase = Function.update s.phase x p) (hp : p ≠ .queued)
    (hitem : s'.item = s.item) (htask : s'.task = s.task) : Waits s y e b := by
  obtain ⟨hqueued, hexecutor, hbelow⟩ := h
  rw [hphase] at hqueued
  rw [hitem] at hexecutor
  rw [hitem, htask] at hbelow
  have hne : y ≠ x := by
    rintro rfl
    rw [Function.update_self] at hqueued
    exact hp hqueued
  rw [Function.update_of_ne hne] at hqueued
  exact ⟨hqueued, hexecutor, hbelow⟩

/-- **A function that starts is apart** from the calls and the items there are. -/
theorem Layered.enterItem (h : Layered (Apart s) s.stack)
    (hframes : Frames s.stack s.phase s.nextItem) (hparked : Parked s.stack s.call s.nextCall)
    (hbelow : BelowMade s) (t : ThreadId) {x : ItemId}
    (hqueued : s.phase x = .queued) (context : Context) :
    Layered (Apart (enterItem env t x context s)) (enterItem env t x context s).stack := by
  have hwaits : ∀ y e b, Waits (Runtime.enterItem env t x context s) y e b → Waits s y e b :=
    fun y e b hy => hy.of_phase (s := s) rfl (by simp) rfl rfl
  refine Layered.push (h.mono fun t' f hf g hg x' e hx' he hapart => ?_) fun g hg e he => ?_
  -- the functions that were there have started before
  · have hne : x' ≠ x := by
      rintro rfl
      have hrunning := hframes.frame t' f hf x' hx'
      rw [hqueued] at hrunning
      cases hrunning
    refine ⟨?_, fun y b hy => ?_⟩
    · simp only [Runtime.enterItem, Function.update_of_ne hne]
      exact hapart.1
    · simp only [Runtime.enterItem, Function.update_of_ne hne]
      exact hapart.2 y b (hwaits y e b hy)
  -- the new one starts after all the calls made so far
  · refine ⟨?_, fun y b hy => ?_⟩
    · simp only [Runtime.enterItem, Function.update_self]
      exact (hparked.call t g hg e he).1
    · simp only [Runtime.enterItem, Function.update_self]
      exact hbelow _ b (hwaits y e b hy).below

/-- What holds of the layers. -/
structure LayerInv (env : Env) (s : State) : Prop where
  known : Known env s
  parked : Parked s.stack s.call s.nextCall
  below : BelowMade s

theorem LayerInv.run {contexts : List Context}
    (h : (machine env).Run Machine.Any (init contexts) as s) : LayerInv env s :=
  ⟨Known.run h, Parked.run h,
    h.invariant (belowMade_init contexts) fun _ _ _ hI _ hs => hI.step hs⟩

/-- **Every step that fits keeps the layers.** -/
theorem Layered.step (h : Layered (Apart s) s.stack) (hinv : LayerInv env s) (hfits : Fits env s a)
    (hs : (machine env).step s a = some s') : Layered (Apart s') s'.stack := by
  obtain ⟨hknown, hparked, hbelow⟩ := hinv
  have htask : ∀ {s' : State} {task : Task}, s'.phase = s.phase → s'.item = s.item →
      s'.task = Function.update s.task s.nextTask task → ∀ y e b, Waits s' y e b → Waits s y e b :=
    fun hphase hitem htask y e b hy =>
      hy.of_task hknown.numbers hknown.frames (congrFun hphase y) (congrFun hitem y) htask
  have hcase := step_inv hs
  cases hcase with
  | callParent t frame rest force l hstack hcall hparent =>
      have hwaits : Layered (Apart (callParent env t frame rest force l s)) s.stack :=
        h.of_waits rfl (htask rfl rfl rfl)
      exact hwaits.replace hstack rfl
  | callNewLoop t frame rest force hstack hcall hparent =>
      have hwaits : Layered (Apart (callNewLoop env t frame rest force s)) s.stack :=
        h.of_waits rfl (htask rfl rfl rfl)
      exact hwaits.replace hstack rfl
  | leave t frame rest c hstack hcall hbroken hempty =>
      have hwaits : Layered (Apart (unpark env t frame rest c s)) s.stack :=
        h.of_waits rfl fun y e b hy => { hy with }
      exact hwaits.replace hstack rfl
  | take t x q q' context hdequeue hqueued hrestore =>
      exact Layered.enterItem (s := setQueues q q' s)
        (h.of_waits rfl fun y e b hy => { hy with })
        hknown.frames hparked hbelow t hqueued context
  | takeRaising t x q q' context e hdequeue hqueued hrestore =>
      exact h.of_waits rfl fun y e b hy => hy.of_phase (s := s) rfl (by simp) rfl rfl
  | ret t frame rest x r hstack hitem hcall =>
      have hwaits : Layered (Apart (returnItem t rest x r s)) s.stack :=
        h.of_waits rfl fun y e b hy => hy.of_phase (s := s) rfl (by simp) rfl rfl
      exact hwaits.pop hstack
  | spawnThreadsafe t frame rest l hstack hcall hl => exact h.of_waits rfl (htask rfl rfl rfl)
  | startLoop context => exact h.of_waits rfl (htask rfl rfl rfl)
  | spawn k custom hstatus hlive => exact h.of_waits rfl (htask rfl rfl rfl)
  | closeGenerator l c context hshutting => exact h.of_waits rfl (htask rfl rfl rfl)
  | syncToAsync k b custom selection executor hstatus hlive hselect hsubmit =>
      refine h.awaitItem hparked fun e he => ?_
      exact (hfits selection e hselect (he ▸ hsubmit)).imp id And.right
  | dropItem x hcancelled hqueued =>
      exact h.of_waits rfl fun y e b hy => hy.of_phase (s := s) rfl (by simp) rfl rfl
  | _ => exact h.of_waits rfl fun y e b hy => { hy with }

/-- **No circular wait.** A run in which every item is taken by a fitting executor never leaves an
item of a task spawned below a function's calls on an executor further out than the function. -/
theorem not_circularWait {contexts : List Context}
    (h : (machine env).Run (Fits env) (init contexts) as s) (t : ThreadId) (f : SyncFrame)
    (rest : List SyncFrame) (x : ItemId) (c : CallId) (k : TaskId) (y : ItemId) (g : SyncFrame)
    (e b : CallId) : ¬ CircularWait s t f rest x c k y g e b := by
  have hinit : Layered (Apart (init contexts)) (init contexts).stack := fun t => by
    simp only [init]
    split <;> simp
  have hlayered : Layered (Apart s) s.stack :=
    h.invariant_of (I := fun s => Layered (Apart s) s.stack) (J := LayerInv env)
      (fun _ _ hrun => LayerInv.run (hrun.mono fun _ _ _ => trivial)) hinit
      fun _ _ _ hJ hI hfits hs => hI.step hJ hfits hs
  intro hwait
  have ht := hlayered t
  rw [hwait.stack, List.pairwise_cons] at ht
  obtain ⟨-, hapart⟩ := ht.1 g hwait.outer.1 x e hwait.function hwait.outer.2
  exact absurd (hapart y b hwait.waits) (not_lt.mpr hwait.spawned)

/-- A function that an awaitable on the main thread's executor awaits makes a call, whose awaitable
spawns a task that outlives it, and then another call, whose awaitable awaits that task. -/
def outliving : List Action :=
  [.take 1, .call 1 false, .create 1, .startTask 1, .spawn 1 none, .finish 1 (.ok .none) false,
    .leave 1, .call 1 false, .create 3, .startTask 3, .awaitTask 3 2, .startTask 2]

/-- The second call waits for the task, and that for nothing. -/
theorem outliving_not_circularWait :
    ∃ s, (machine plainEnv).exec (init [∅])
        ([.call 1 false, .startTask 0] ++ .syncToAsync 0 true none :: outliving) = some s ∧
      (s.stack 1).map SyncFrame.call = [some 2, some 0] ∧ s.status 3 = .awaitingTask 2 ∧
      ∀ t f rest x c k y g e b, ¬ CircularWait s t f rest x c k y g e b := by
  obtain ⟨s₁, hs₁⟩ : ∃ s₁, (machine plainEnv).exec (init [∅]) [.call 1 false, .startTask 0] =
      some s₁ := ⟨_, rfl⟩
  obtain ⟨s₂, hs₂⟩ : ∃ s₂, (machine plainEnv).step s₁ (.syncToAsync 0 true none) = some s₂ := by
    cases hs₁
    exact ⟨_, rfl⟩
  -- the thread of the executor waits in it
  have hfits : Fits plainEnv s₁ (.syncToAsync 0 true none) := by
    cases hs₁
    intro selection e hselect hsubmit
    cases Option.some.inj hselect
    cases Option.some.inj hsubmit
    exact .inl ⟨_, _, rfl, rfl⟩
  obtain ⟨s, hs⟩ : ∃ s, (machine plainEnv).exec s₂ outliving = some s := by
    cases hs₁
    cases hs₂
    exact ⟨_, rfl⟩
  have hstart : ∀ a ∈ [Action.call 1 false, .startTask 0], ∀ s, Fits plainEnv s a := by
    simp [Fits]
  have hrest : ∀ a ∈ outliving, ∀ s, Fits plainEnv s a := by simp [outliving, Fits]
  have hrun := ((Machine.exec_run_of hstart hs₁).append (.single hfits hs₂)).append
    (Machine.exec_run_of hrest hs)
  have hnot := not_circularWait hrun
  cases hs₁
  cases hs₂
  cases hs
  exact ⟨_, rfl, rfl, rfl, hnot⟩

/-- A function on the main thread makes one call, whose awaitable spawns a task that outlives it. -/
def spawningCall : List Action :=
  [.call 1 false, .startTask 0, .syncToAsync 0 true none, .take 1,
    .call 1 false, .create 1, .startTask 1, .spawn 1 none, .finish 1 (.ok .none) false, .leave 1]

/-- Its next call awaits the task, which awaits a sync function. -/
def awaitingCall : List Action :=
  [.call 1 false, .create 3, .startTask 3, .awaitTask 3 2, .startTask 2, .syncToAsync 2 true none]

/-- The two calls, one after the other, end in a circular wait. -/
theorem awaitingCall_circularWait :
    ∃ s f rest g, (machine plainEnv).exec (init [∅]) (spawningCall ++ awaitingCall) = some s ∧
      CircularWait s 1 f rest 0 2 2 1 g 0 1 := by
  refine ⟨_, ⟨some 0, some 2⟩, [⟨none, some 0⟩], ⟨none, some 0⟩, rfl, ?_⟩
  refine ⟨rfl, rfl, rfl, ?_, ⟨rfl, rfl⟩, ⟨rfl, rfl, rfl⟩, by decide, by decide⟩
  exact .task (show _ = TaskStatus.awaitingTask 2 from rfl) (.refl 2)

end Runtime

end Asgiref
