import Asgiref.Crossing
import Asgiref.Runtime.Fallback

/-! # The current executor of a context

`AsyncToSync.executors` is a `Local`, so what a context holds of it moves with every crossing.

* **`currentOf`** — the current executor that a context holds, whoever owns it, with a lemma for
  each thing that happens to contexts.
* **`NotOlder`** — the current executor of a task spawned below a call is not older than that call.
  **`notOlder_run`** says that this holds as long as nobody brings contexts of their own, so that
  there **`Fits`** asks only about executors to which an item falls back. -/

namespace Asgiref

namespace Runtime

/-- What a context holds as the current executor, whoever owns it. -/
def currentOf (c : Context) : Option Obj :=
  (Local.storage c executors).bind fun storage => storage.data.lookup "current"

section

variable {c d : Context} {i : Nat}

theorem currentOf_congr (h : Local.storage c executors = Local.storage d executors) :
    currentOf c = currentOf d := by
  unfold currentOf
  rw [h]

@[simp] theorem currentOf_setattr (i : Nat) (c : Context) (o : Obj) :
    currentOf (Local.setattr i c executors "current" o) = some o := by
  rw [Local.setattr_eq]
  simp only [currentOf, Local.storage_setStorage_self, Option.bind_some, AList.lookup_insert]

@[simp] theorem storage_setDeadlock (c : Context) (b : Bool) (l : Nat) :
    Local.storage (setDeadlock c b) l = Local.storage c l :=
  Local.storage_insert_user c "deadlock_context" ⟨0, none⟩ _ l

@[simp] theorem currentOf_setDeadlock (c : Context) (b : Bool) :
    currentOf (setDeadlock c b) = currentOf c :=
  currentOf_congr (storage_setDeadlock c b executors)

/-- Restoring leaves what was there or what is moved. -/
theorem currentOf_restoreContext (ne : Comparison) (i : Nat) (c moved : Context) :
    currentOf (restoreContext ne i c moved).1 = currentOf c ∨
      currentOf (restoreContext ne i c moved).1 = currentOf moved := by
  rcases Local.storage_restoreContext_or ne i c moved executors with hkeep | ⟨s, hs, hmoved⟩
  · exact .inl (currentOf_congr hkeep)
  · right
    unfold currentOf
    rw [hmoved, hs]
    rfl

/-- What a thread sees is what the context holds. -/
theorem currentOf_of_currentExecutor {e : CallId} (h : currentExecutor i c = .executor e) :
    currentOf c = some (.executor e) := by
  unfold currentExecutor Local.getattr at h
  unfold currentOf
  cases hs : Local.storage c executors with
  | none => simp [hs] at h
  | some s =>
      rw [hs] at h
      by_cases howner : s.owner = i
      · cases hlookup : s.data.lookup "current" with
        | none => simp [howner, hlookup] at h
        | some o =>
            simp only [howner, if_true, hlookup] at h
            simp [h, hlookup]
      · simp [howner] at h

end

/-! ## Contexts that come from their creators -/

/-- Nobody brings a context of their own. -/
def Copies : State → Action → Prop
  | _, .syncToAsync _ _ custom => custom = none
  | _, .spawn _ custom => custom = none
  | _, _ => True

/-- The current executor of the context is not older than this call. -/
def AtLeast (below : Option CallId) (c : Context) : Prop :=
  ∀ b e, below = some b → currentOf c = some (.executor e) → b ≤ e

/-- The call below which the task that awaits the item was spawned. -/
def State.itemBelow (s : State) (x : ItemId) : Option CallId :=
  (s.task (s.item x).task).spawnedBelow

/-- The current executors are not older than the calls below which tasks were spawned. -/
structure NotOlder (s : State) : Prop where
  main : ∀ k c, (s.task k).call = some c → (s.task k).spawnedBelow = some c
  task : ∀ k, k < s.nextTask → AtLeast (s.task k).spawnedBelow (s.context k)
  item : ∀ x, x < s.nextItem → AtLeast (s.itemBelow x) (s.itemContext x)
  captured : ∀ c, c < s.nextCall → AtLeast (some c) (s.captured c)
  /-- The executor that a call of a function puts back, and the call itself. -/
  old : ∀ c, c < s.nextCall → ∀ x b, (s.call c).item = some x → s.itemBelow x = some b →
    b ≤ c ∧ ∀ e, (s.call c).oldExecutor = .executor e → b ≤ e

variable {env : Env} {s s' : State} {a : Action} {as : List Action}

theorem notOlder_init (contexts : List Context) : NotOlder (init contexts) where
  main k c hc := by cases hc
  task k hk := absurd hk (Nat.not_lt_zero k)
  item x hx := absurd hx (Nat.not_lt_zero x)
  captured c hc := absurd hc (Nat.not_lt_zero c)
  old c hc := absurd hc (Nat.not_lt_zero c)

section

variable {below : Option CallId} {c d : Context}

theorem AtLeast.congr (h : AtLeast below c) (hcd : currentOf d = currentOf c) : AtLeast below d :=
  fun b e hb he => h b e hb (hcd ▸ he)

theorem AtLeast.setDeadlock (h : AtLeast below c) (b : Bool) :
    AtLeast below (setDeadlock c b) :=
  h.congr (currentOf_setDeadlock c b)

theorem AtLeast.setattr {o : Obj} (i : Nat) (c : Context)
    (ho : ∀ b e, below = some b → o = .executor e → b ≤ e) :
    AtLeast below (Local.setattr i c executors "current" o) := by
  intro b e hb he
  rw [currentOf_setattr] at he
  exact ho b e hb (Option.some.inj he)

theorem AtLeast.restoreContext (h : AtLeast below c) {moved : Context}
    (hmoved : AtLeast below moved)
    (ne : Comparison) (i : Nat) : AtLeast below (restoreContext ne i c moved).1 := by
  rcases currentOf_restoreContext ne i c moved with heq | heq
  · exact h.congr heq
  · exact hmoved.congr heq

end

/-- The context of a task is not older than its call: for the task of a `main_wrap` after restoring
the caller's context. -/
theorem NotOlder.setContext (h : NotOlder s) {k : TaskId} {c : Context}
    (hc : AtLeast (s.task k).spawnedBelow c) :
    ∀ k', k' < s.nextTask →
      AtLeast (s.task k').spawnedBelow (Function.update s.context k c k') := by
  intro k' hk'
  by_cases heq : k' = k
  · subst heq
    rw [Function.update_self]
    exact hc
  · rw [Function.update_of_ne heq]
    exact h.task k' hk'

/-- The context of a function changes. -/
theorem NotOlder.setItemContext (h : NotOlder s) {frame : SyncFrame} {c : Context}
    (hc : ∀ x, frame.item = some x → AtLeast (s.itemBelow x) c) :
    ∀ x, x < s.nextItem → AtLeast (s.itemBelow x) (setItemContext frame c s x) := by
  intro x hx
  rw [setItemContext_apply]
  split
  · rename_i hitem
    exact hc x hitem
  · exact h.item x hx

/-- A call is made by a frame of thread `t`. -/
theorem NotOlder.call (h : NotOlder s) (hinv : LayerInv env s) {t : ThreadId} {frame : SyncFrame}
    {rest : List SyncFrame} (hstack : s.stack t = frame :: rest) {made : Call}
    (hitem : made.item = frame.item)
    (hold : made.oldExecutor = currentExecutor (env.getIdent t) (s.frameContext t frame))
    {base : Context} (hbase : AtLeast (some s.nextCall) base) (p : TaskStatus) :
    NotOlder (park env t frame rest made base p s) := by
  have hcall : ∀ below, AtLeast below (callContext env t frame s) ↔
      ∀ b, below = some b → b ≤ s.nextCall := fun below => by
    refine ⟨fun hc b hb => hc b s.nextCall hb (currentOf_setattr _ _ _), fun hle => ?_⟩
    refine AtLeast.setattr _ _ fun b e hb he => ?_
    cases he
    exact hle b hb
  -- the items there are have tasks that are there, too
  have hbelow : ∀ x, x < s.nextItem →
      (park env t frame rest made base p s).itemBelow x = s.itemBelow x := fun x hx => by
    have hne := (hinv.known.numbers.item x hx).1.ne
    simp only [State.itemBelow, park, Function.update_of_ne hne]
  have hframe : ∀ x, frame.item = some x → x < s.nextItem := fun x hx => by
    refine hinv.known.frames.lt_nextItem ?_
    rw [hinv.known.frames.frame t frame (hstack ▸ List.mem_cons_self) x hx]
    simp
  refine ⟨fun k c hc => ?_, fun k hk => ?_, fun x hx => ?_, fun c hc => ?_,
    fun c hc x b hx hb => ?_⟩
  · simp only [park] at hc ⊢
    by_cases heq : k = s.nextTask
    · subst heq
      rw [Function.update_self] at hc ⊢
      exact hc
    · rw [Function.update_of_ne heq] at hc ⊢
      exact h.main k c hc
  · simp only [park] at hk ⊢
    by_cases heq : k = s.nextTask
    · subst heq
      rw [Function.update_self, Function.update_self]
      exact hbase
    · rw [Function.update_of_ne heq, Function.update_of_ne heq]
      exact h.task k (lt_of_le_of_ne (Nat.lt_succ_iff.mp hk) heq)
  · rw [hbelow x hx]
    have hitemCall : ∀ y, frame.item = some y →
        AtLeast (s.itemBelow y) (callContext env t frame s) :=
      fun y _ => (hcall _).mpr fun b hb => (hinv.below _ b hb).le
    exact h.setItemContext hitemCall x hx
  · simp only [park] at hc ⊢
    by_cases heq : c = s.nextCall
    · subst heq
      rw [Function.update_self]
      exact (hcall _).mpr fun b hb => (Option.some.inj hb).symm.le
    · rw [Function.update_of_ne heq]
      exact h.captured c (lt_of_le_of_ne (Nat.lt_succ_iff.mp hc) heq)
  · simp only [park] at hc hx ⊢
    by_cases heq : c = s.nextCall
    · subst heq
      rw [Function.update_self] at hx ⊢
      have hxframe : frame.item = some x := hitem ▸ hx
      rw [hbelow x (hframe x hxframe)] at hb
      refine ⟨(hinv.below _ b hb).le, fun e he => ?_⟩
      rw [hold, s.frameContext_item t hxframe] at he
      exact h.item x (hframe x hxframe) b e hb (currentOf_of_currentExecutor he)
    · rw [Function.update_of_ne heq] at hx ⊢
      have hlt := lt_of_le_of_ne (Nat.lt_succ_iff.mp hc) heq
      rw [hbelow x (hinv.known.callItems c hlt x hx)] at hb
      exact h.old c hlt x b hx hb

/-- What the `finally` block of a call leaves in its frame. -/
theorem NotOlder.leaveContext (h : NotOlder s) {frame : SyncFrame} {x : ItemId} {c : CallId}
    (hframe : frame.item = some x) (hx : x < s.nextItem) (hc : c < s.nextCall)
    (hitem : (s.call c).item = some x) (t : ThreadId) :
    AtLeast (s.itemBelow x) (leaveContext env t frame c s) := by
  unfold Runtime.leaveContext
  have hframeContext : AtLeast (s.itemBelow x) (s.frameContext t frame) := by
    rw [s.frameContext_item t hframe]
    exact h.item x hx
  have hcaptured : AtLeast (s.itemBelow x) (s.captured c) := fun b e hb he =>
    (h.old c hc x b hitem hb).1.trans (h.captured c hc c e rfl he)
  have hrestore := hframeContext.restoreContext hcaptured env.ne (env.getIdent t)
  split
  · exact AtLeast.setattr _ _ fun b e hb he => (h.old c hc x b hitem hb).2 e he
  · rename_i context e heq
    rwa [heq] at hrestore

/-- A task is made that runs no `main_wrap`. -/
theorem NotOlder.addTask (h : NotOlder s) (hknown : Known env s) {task : Task}
    (hcall : task.call = none) (p : TaskStatus) {c : Context}
    (hc : AtLeast task.spawnedBelow c) : NotOlder (addTask task p c s) := by
  have hbelow : ∀ x, x < s.nextItem → (Runtime.addTask task p c s).itemBelow x = s.itemBelow x :=
    fun x hx => by
      simp only [State.itemBelow, Runtime.addTask,
        Function.update_of_ne (hknown.numbers.item x hx).1.ne]
  refine ⟨fun k c' hk => ?_, fun k hk => ?_, fun x hx => ?_, h.captured, fun c' hc' x b hx hb => ?_⟩
  · simp only [Runtime.addTask] at hk ⊢
    by_cases heq : k = s.nextTask
    · subst heq
      rw [Function.update_self, hcall] at hk
      cases hk
    · rw [Function.update_of_ne heq] at hk ⊢
      exact h.main k c' hk
  · simp only [Runtime.addTask] at hk ⊢
    by_cases heq : k = s.nextTask
    · subst heq
      rw [Function.update_self, Function.update_self]
      exact hc
    · rw [Function.update_of_ne heq, Function.update_of_ne heq]
      exact h.task k (lt_of_le_of_ne (Nat.lt_succ_iff.mp hk) heq)
  · rw [hbelow x hx]
    exact h.item x hx
  · rw [hbelow x (hknown.callItems c' hc' x hx)] at hb
    exact h.old c' hc' x b hx hb

/-- A function's context is restored in itself. -/
theorem NotOlder.restoreItem (h : NotOlder s) {x : ItemId} (hx : x < s.nextItem) (t : ThreadId)
    {c : Context} {raised : Option PyError}
    (hrestore : restoreContext env.ne (env.getIdent t) (s.itemContext x) (s.itemContext x)
      = (c, raised)) :
    ∀ y, y < s.nextItem → AtLeast (s.itemBelow y) (Function.update s.itemContext x c y) := by
  intro y hy
  by_cases heq : y = x
  · subst heq
    have hc := (h.item y hx).restoreContext (h.item y hx) env.ne (env.getIdent t)
    rw [hrestore] at hc
    rwa [Function.update_self]
  · rw [Function.update_of_ne heq]
    exact h.item y hy

/-- The caller's context is restored in the task of a `main_wrap`. -/
theorem NotOlder.restoreMain (h : NotOlder s) (hinv : LayerInv env s) {k : TaskId} {c : CallId}
    (hk : k < s.nextTask) (hcall : (s.task k).call = some c) {d : Context}
    {raised : Option PyError}
    (hrestore : restoreContext env.ne (env.getIdent (s.taskThread k)) (s.context k) (s.captured c)
      = (d, raised)) : AtLeast (s.task k).spawnedBelow d := by
  have hbelow := h.main k c hcall
  have hcaptured := h.captured c (hinv.below k c hbelow)
  have htask := h.task k hk
  rw [hbelow] at htask ⊢
  have hd := htask.restoreContext hcaptured env.ne (env.getIdent (s.taskThread k))
  rwa [hrestore] at hd

/-- The choice of an executor changes no more of the context than the flag of the deadlock guard. -/
theorem selectExecutor_context {k : TaskId} {b : Bool} {selection : Selection}
    (h : selectExecutor env b k s = some selection) :
    selection.context = s.context k ∨ selection.context = setDeadlock (s.context k) true := by
  unfold selectExecutor at h
  split at h
  · split at h
    · cases h
      exact .inl rfl
    · split at h
      · cases h
        unfold sensitiveWorker
        split <;> exact .inl rfl
      · split at h
        · cases h
          exact .inl rfl
        · split at h
          · cases h
          · cases h
            exact .inr rfl
  · cases h
    exact .inl rfl

/-- A call ends, and the function's context is restored in the task. -/
theorem NotOlder.endItem (h : NotOlder s) (hnumbers : Numbers s) {x : ItemId} (hx : x < s.nextItem)
    (r : Result) : NotOlder (endItem env x r s) := by
  have htask := h.task _ (hnumbers.item x hx).1
  have hfinally : AtLeast (s.itemBelow x) (finallyContext env x r s).1 := by
    unfold finallyContext
    split
    · exact htask.setDeadlock false
    · have hrestore := htask.restoreContext (h.item x hx) env.ne
        (env.getIdent (s.taskThread (s.item x).task))
      split
      · rename_i c heq
        rw [heq] at hrestore
        exact hrestore.setDeadlock false
      · rename_i c e heq
        rwa [heq] at hrestore
  exact { h with task := h.setContext hfinally }

/-- An item is accepted whose function runs in a copy of the task's context. -/
theorem NotOlder.awaitItem (h : NotOlder s) (hknown : Known env s) {k : TaskId} {c : Context}
    (hc : AtLeast (s.task k).spawnedBelow c)
    (executor : ExecutorRef) : NotOlder (awaitItem k executor none c s) := by
  have hbelow : ∀ x, x < s.nextItem →
      (Runtime.awaitItem k executor none c s).itemBelow x = s.itemBelow x := fun x hx => by
    simp only [State.itemBelow, Runtime.awaitItem, Function.update_of_ne hx.ne]
  refine ⟨h.main, h.setContext hc, fun x hx => ?_, h.captured, fun c' hc' x b hx hb => ?_⟩
  · by_cases heq : x = s.nextItem
    · subst heq
      simp only [State.itemBelow, Runtime.awaitItem, Function.update_self]
      exact hc
    · have hlt := lt_of_le_of_ne (Nat.lt_succ_iff.mp hx) heq
      rw [hbelow x hlt]
      simp only [Runtime.awaitItem, Function.update_of_ne heq]
      exact h.item x hlt
  · rw [hbelow x (hknown.callItems c' hc' x hx)] at hb
    exact h.old c' hc' x b hx hb

/-- **Every step with copied contexts keeps the ages.** -/
theorem NotOlder.step (h : NotOlder s) (hinv : LayerInv env s) (hcopies : Copies s a)
    (hs : (machine env).step s a = some s') : NotOlder s' := by
  have hnumbers := hinv.known.numbers
  have hframes := hinv.known.frames
  have hlt : ∀ {x}, s.phase x = .queued → x < s.nextItem := fun hqueued =>
    hframes.lt_nextItem (by rw [hqueued]; simp)
  have hcase := step_inv hs
  cases hcase with
  | callParent t frame rest force l hstack hcall hparent =>
      -- the task starts in the context of the call, which shows the call's own executor
      refine h.call hinv hstack rfl rfl (AtLeast.setattr _ _ fun b e hb he => ?_) .queued
      cases hb
      cases he
      exact Nat.le_refl _
  | callNewLoop t frame rest force hstack hcall hparent =>
      have hbase : AtLeast (some s.nextCall)
          (if env.threadInheritContext then callContext env t frame s else ∅) := by
        split
        · refine AtLeast.setattr _ _ fun b e hb he => ?_
          cases hb
          cases he
          exact Nat.le_refl _
        · intro b e hb he
          cases he
      have hitem : (newCall env t frame force s.nextLoop true s).item = frame.item := rfl
      have hpark := h.call hinv hstack hitem rfl hbase (.created false)
      exact { hpark with }
  | leave t frame rest c hstack hcall hbroken hempty =>
      have hmem : frame ∈ s.stack t := hstack ▸ List.mem_cons_self
      obtain ⟨hc, -, hitem⟩ := hinv.parked.call t frame hmem c hcall
      refine { h with item := h.setItemContext fun x hx => ?_ }
      exact h.leaveContext hx (hinv.known.callItems c hc x (hitem.trans hx)) hc (hitem.trans hx) t
  | take t x q q' context hdequeue hqueued hrestore =>
      exact ⟨h.main, h.task, h.restoreItem (hlt hqueued) t hrestore, h.captured, h.old⟩
  | takeRaising t x q q' context e hdequeue hqueued hrestore =>
      exact ⟨h.main, h.task, h.restoreItem (hlt hqueued) t hrestore, h.captured, h.old⟩
  | work t frame rest context hstack hcall hstorage =>
      refine { h with item := h.setItemContext fun x hx => ?_ }
      have hmem : frame ∈ s.stack t := hstack ▸ List.mem_cons_self
      have hrunning := hframes.frame t frame hmem x hx
      rw [s.frameContext_item t hx] at hstorage
      exact (h.item x (hframes.lt_nextItem (by rw [hrunning]; simp))).congr
        (currentOf_congr hstorage)
  | spawnThreadsafe t frame rest l hstack hcall hl =>
      exact h.addTask hinv.known rfl _ fun b e hb => by cases hb
  | startLoop context =>
      have hcontext : AtLeast (⟨s.nextLoop, none, none⟩ : Task).spawnedBelow context :=
        fun b e hb => by cases hb
      have hadd := h.addTask hinv.known rfl .running hcontext
      exact { hadd with }
  | spawn k custom hstatus hlive =>
      obtain rfl : custom = none := hcopies
      exact h.addTask hinv.known rfl _ (h.task k (hnumbers.lt_nextTask hstatus (by simp)))
  | closeGenerator l c context hshutting =>
      exact h.addTask hinv.known rfl _ fun b e hb => by cases hb
  | startMain k c context hlive hstatus hcall hrestore =>
      have hk := hnumbers.lt_nextTask hstatus (by simp)
      exact { h with task := h.setContext (h.restoreMain hinv hk hcall hrestore) }
  | failMain k c context e hlive hstatus hcall hrestore =>
      have hk := hnumbers.lt_nextTask hstatus (by simp)
      exact { h with task := h.setContext (h.restoreMain hinv hk hcall hrestore) }
  | taskWork k context hstatus hlive hstorage =>
      have hk := hnumbers.lt_nextTask hstatus (by simp)
      exact { h with task := h.setContext ((h.task k hk).congr (currentOf_congr hstorage)) }
  | finishMain k c r mustCancel hstatus hlive hcall =>
      refine { h with captured := fun c' hc' => ?_ }
      simp only [finishMain]
      by_cases heq : c' = c
      · subst heq
        rw [Function.update_self, ← h.main k c' hcall]
        exact h.task k (hnumbers.lt_nextTask hstatus (by simp))
      · rw [Function.update_of_ne heq]
        exact h.captured c' hc'
  | syncToAsync k b custom selection executor hstatus hlive hselect hsubmit =>
      obtain rfl : custom = none := hcopies
      have hk := hnumbers.lt_nextTask hstatus (by simp)
      have hc : AtLeast (s.task k).spawnedBelow selection.context := by
        rcases selectExecutor_context hselect with heq | heq
        · exact heq ▸ h.task k hk
        · exact heq ▸ (h.task k hk).setDeadlock true
      have hawait := h.awaitItem hinv.known hc executor
      exact { hawait with }
  | complete x r hlive hawait hresult =>
      rcases hawait with hawait | hawait
      · exact h.endItem hnumbers (hnumbers.lt_nextItem hawait (by simp)) r
      · exact h.endItem hnumbers (hnumbers.lt_nextItem hawait (by simp)) r
  | passOnOther x k rest hawait hlive htasks hloop =>
      have hx := hnumbers.lt_nextItem hawait (by simp)
      have hold : NotOlder (setDelivered x k (cancelTask k s)) :=
        { h with }
      exact hold.endItem ((hnumbers.cancelTask k).setDelivered hx k) hx _
  | deliverDone x hawait hlive htasks hresult =>
      exact h.endItem hnumbers (hnumbers.lt_nextItem hawait (by simp)) _
  | resumeDone x k b hawait hstatus hlive hresult =>
      exact h.endItem hnumbers (hnumbers.lt_nextItem hawait (by simp)) _
  | _ => exact { h with }

/-- **Copied contexts.** As long as nobody brings a context of their own, the current executor of a
task is never older than the call below which the task was spawned. -/
theorem notOlder_run {contexts : List Context}
    (h : (machine env).Run Copies (init contexts) as s) {k : TaskId} (hk : k < s.nextTask)
    {e : CallId}
    (he : currentExecutor (env.getIdent (s.taskThread k)) (s.context k) = .executor e) :
    ∀ b, (s.task k).spawnedBelow = some b → b ≤ e := by
  have hinv : NotOlder s :=
    h.invariant_of (J := LayerInv env)
      (fun _ _ hrun => LayerInv.run (hrun.mono fun _ _ _ => trivial))
      (notOlder_init contexts) fun _ _ _ hJ hI hG hs => hI.step hJ hG hs
  exact fun b hb => hinv.task k hk b e hb (currentOf_of_currentExecutor he)

end Runtime

end Asgiref
