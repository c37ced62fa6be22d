import Asgiref.Runtime.Currents
import Asgiref.Runtime.Lists

/-! # Thread-sensitive code below a call on the main thread

A process starts with code on its main thread, which sees no current executor. Below its calls of
`async_to_sync` all sync functions are called thread-sensitively and without contexts of their own,
only asgiref starts threads and loops, and tasks are created by coroutines, in copies of their
contexts.

* **`Confined`** — these conditions on the steps of a run.
* **`Sees`**, **`Holds`** — a context shows a current executor to the thread with an ident, or holds
  one for whoever owns it.
* **`Affine`** — every call is made on the main thread, and every frame below a call sees the
  executor of a call, with **`Affine.step`** and **`Affine.run`**.
* **`threadAffinity`** — no function runs on another thread, and every frame sees a chain of
  executors of the main thread. -/

namespace Asgiref

namespace Runtime

/-- Sync functions are called thread-sensitively and in a copy of the caller's context, and only
asgiref starts threads and loops. -/
def Sensitive : State → Action → Prop
  | _, .syncToAsync _ threadSensitive custom => threadSensitive = true ∧ custom = none
  | _, .spawn _ custom => custom = none
  | _, .startLoop _ => False
  | _, .closeGenerator .. => False
  | _, _ => True

/-- Besides, only coroutines create tasks. -/
def Confined (s : State) (a : Action) : Prop := Sensitive s a ∧ ∀ t l, a ≠ .spawnThreadsafe t l

/-! ## Current executors -/

/-- The thread with this ident sees the executor of one of the first calls in the context. -/
def Sees (i : Nat) (c : Context) (n : CallId) : Prop :=
  ∃ e, e < n ∧ currentExecutor i c = .executor e

/-- In this context thread `t` sees an executor that heads a chain of executors of the main
thread. -/
def State.MainExecutor (s : State) (env : Env) (t : ThreadId) (c : Context) : Prop :=
  ∃ e, currentExecutor (env.getIdent t) c = .executor e ∧
    ∀ e' ∈ s.chain (.executor e), (s.call e').thread = mainThread

/-- The context holds the executor of one of the first calls as the current one. -/
def Holds (c : Context) (n : CallId) : Prop := ∃ e, e < n ∧ currentOf c = some (.executor e)

section

variable {i : Nat} {c d moved : Context} {n m : CallId} {ne : Comparison}

theorem currentExecutor_eq_executor_iff {e : CallId} : currentExecutor i c = .executor e ↔
    ∃ s, Local.storage c executors = some s ∧ s.owner = i ∧
      s.data.lookup "current" = some (.executor e) := by
  unfold currentExecutor
  rw [Local.getattr_eq, Local.view]
  cases hs : Local.storage c executors with
  | none => simp
  | some s =>
      by_cases howner : s.owner = i
      · cases hlookup : s.data.lookup "current" with
        | none => simp [howner, hlookup]
        | some o => simp [howner, hlookup]
      · simp [howner]

theorem Sees.holds (h : Sees i c n) : Holds c n := by
  obtain ⟨e, he, hcurrent⟩ := h
  exact ⟨e, he, currentOf_of_currentExecutor hcurrent⟩

theorem Sees.mono (h : Sees i c n) (hnm : n ≤ m) : Sees i c m := by
  obtain ⟨e, he, hcurrent⟩ := h
  exact ⟨e, he.trans_le hnm, hcurrent⟩

theorem Holds.mono (h : Holds c n) (hnm : n ≤ m) : Holds c m := by
  obtain ⟨e, he, hcurrent⟩ := h
  exact ⟨e, he.trans_le hnm, hcurrent⟩

/-- What is seen depends on asgiref's own `Local` only. -/
theorem currentExecutor_congr (h : Local.storage d executors = Local.storage c executors) :
    currentExecutor i d = currentExecutor i c := by
  unfold currentExecutor
  rw [Local.getattr_eq, Local.getattr_eq, Local.view_congr h]

theorem Sees.congr (h : Sees i c n) (hcd : Local.storage d executors = Local.storage c executors) :
    Sees i d n := by
  obtain ⟨e, he, hcurrent⟩ := h
  exact ⟨e, he, (currentExecutor_congr hcd).trans hcurrent⟩

theorem Holds.congr (h : Holds c n) (hcd : currentOf d = currentOf c) : Holds d n := by
  obtain ⟨e, he, hcurrent⟩ := h
  exact ⟨e, he, hcd.trans hcurrent⟩

theorem Sees.setattr (i : Nat) (c : Context) {e : CallId} (he : e < n) :
    Sees i (Local.setattr i c executors "current" (.executor e)) n :=
  ⟨e, he, currentExecutor_setattr i c _⟩

theorem Sees.setDeadlock (h : Sees i c n) (b : Bool) : Sees i (setDeadlock c b) n :=
  h.congr (storage_setDeadlock c b executors)

/-- A context that holds an executor shows it to the thread to which it is moved. -/
theorem Holds.sees_of_storage (h : Holds moved n) {s : Storage}
    (hs : Local.storage moved executors = some s)
    (hc : Local.storage c executors = some ⟨i, s.data⟩) : Sees i c n := by
  obtain ⟨e, he, hcurrent⟩ := h
  refine ⟨e, he, currentExecutor_eq_executor_iff.mpr ⟨_, hc, rfl, ?_⟩⟩
  simpa [currentOf, hs] using hcurrent

/-- Whatever restoring does, a thread that has seen an executor sees one. -/
theorem Sees.restoreContext (h : Sees i c n) (hmoved : Holds moved n) (ne : Comparison) :
    Sees i (restoreContext ne i c moved).1 n := by
  rcases Local.storage_restoreContext_or ne i c moved executors with hkeep | ⟨s, hs, hnew⟩
  · exact h.congr hkeep
  · exact hmoved.sees_of_storage hs hnew

/-- Restoring that does not raise shows the thread what the moved context holds. -/
theorem Holds.restoreContext (h : Holds moved n) (hne : ne.LawfulAt (.cvar executors))
    (hrestore : Asgiref.restoreContext ne i c moved = (d, none)) : Sees i d n := by
  obtain ⟨e, he, hcurrent⟩ := id h
  cases hs : Local.storage moved executors with
  | none => simp [currentOf, hs] at hcurrent
  | some s => exact h.sees_of_storage hs (Local.storage_restoreContext_at hne hrestore hs)

/-- What a context holds before and after it is restored in itself. -/
theorem Holds.restoreSelf (h : Holds c n) (ne : Comparison) (i : Nat) :
    Holds (Asgiref.restoreContext ne i c c).1 n := by
  rcases currentOf_restoreContext ne i c c with heq | heq
  · exact h.congr heq
  · exact h.congr heq

end

/-! ## The invariant -/

/-- Calls are made on the main thread, and the frames below them see the executors of calls. -/
structure Affine (env : Env) (s : State) : Prop where
  stack : ∀ t, s.stack t ≠ [] → t = mainThread
  worker : ∀ t, s.workerItems t = []
  thread : ∀ c, c < s.nextCall → (s.call c).thread = mainThread
  chain : ∀ c, c < s.nextCall → ∀ e ∈ (s.call c).oldExecutors, e < s.nextCall
  old : ∀ c, c < s.nextCall → ∀ e, (s.call c).oldExecutor = .executor e → e < s.nextCall
  oldItem : ∀ c, c < s.nextCall → ∀ x, (s.call c).item = some x →
    ∃ e, (s.call c).oldExecutor = .executor e
  base : ∀ e, currentExecutor (env.getIdent mainThread) (s.baseContext mainThread) = .executor e →
    e < s.nextCall
  captured : ∀ c, c < s.nextCall → Holds (s.captured c) s.nextCall
  /-- A task sees one from its start on, that of a `main_wrap` after restoring. -/
  task : ∀ k, k < s.nextTask → (s.task k).call = none ∨ (s.status k).underWay = true →
    Sees (env.getIdent (s.taskThread k)) (s.context k) s.nextCall
  item : ∀ x, x < s.nextItem → Holds (s.itemContext x) s.nextCall
  running : ∀ x t, s.phase x = .running t →
    t = mainThread ∧ Sees (env.getIdent mainThread) (s.itemContext x) s.nextCall
  ranOn : ∀ x t, s.ranOn x = some t → t = mainThread
  executor : ∀ x, x < s.nextItem → ∃ e, e < s.nextCall ∧ (s.item x).executor = .currentThread e

variable {env : Env} {s s' : State} {a : Action} {as : List Action}

theorem affine_init {context : Context}
    (h : ∀ e, currentExecutor (env.getIdent mainThread) context ≠ .executor e) :
    Affine env (init [context]) where
  stack t ht := by
    simp only [init] at ht
    by_cases hlt : 0 < t ∧ t ≤ [context].length
    · exact le_antisymm hlt.2 hlt.1
    · rw [if_neg hlt] at ht
      exact absurd rfl ht
  worker t := rfl
  thread c hc := absurd hc (Nat.not_lt_zero c)
  chain c hc := absurd hc (Nat.not_lt_zero c)
  old c hc := absurd hc (Nat.not_lt_zero c)
  oldItem c hc := absurd hc (Nat.not_lt_zero c)
  base e he := absurd he (h e)
  captured c hc := absurd hc (Nat.not_lt_zero c)
  task k hk := absurd hk (Nat.not_lt_zero k)
  item x hx := absurd hx (Nat.not_lt_zero x)
  running x t hx := by cases hx
  ranOn x t hx := by cases hx
  executor x hx := absurd hx (Nat.not_lt_zero x)

namespace Affine

/-- The frame of the main thread sees the executor that its calls then put back. -/
theorem frame_lt (h : Affine env s) (hframes : Frames s.stack s.phase s.nextItem)
    {frame : SyncFrame} {rest : List SyncFrame} (hstack : s.stack mainThread = frame :: rest)
    {e : CallId}
    (he : currentExecutor (env.getIdent mainThread) (s.frameContext mainThread frame) =
      .executor e) : e < s.nextCall := by
  cases hitem : frame.item with
  | none =>
      rw [s.frameContext_base mainThread hitem] at he
      exact h.base e he
  | some x =>
      rw [s.frameContext_item mainThread hitem] at he
      have hrunning := hframes.frame mainThread frame (hstack ▸ List.mem_cons_self) x hitem
      obtain ⟨e', hlt, he'⟩ := (h.running x mainThread hrunning).2
      rw [he] at he'
      cases he'
      exact hlt

/-- The contexts of frames, after a change in that of one of them. -/
theorem setContexts (h : Affine env s) (frame : SyncFrame) {context : Context} {n : CallId}
    (hn : s.nextCall ≤ n)
    (hitem : ∀ x, frame.item = some x → Sees (env.getIdent mainThread) context n)
    (hbase : frame.item = none → ∀ e,
      currentExecutor (env.getIdent mainThread) context = .executor e → e < n) :
    (∀ x, x < s.nextItem → Holds (setItemContext frame context s x) n) ∧
      (∀ x t, s.phase x = .running t → t = mainThread ∧
        Sees (env.getIdent mainThread) (setItemContext frame context s x) n) ∧
      ∀ e, currentExecutor (env.getIdent mainThread)
        (setBaseContext mainThread frame context s mainThread) = .executor e → e < n := by
  refine ⟨fun x hx => ?_, fun x t hx => ?_, fun e he => ?_⟩
  · rw [setItemContext_apply]
    split
    · rename_i hframe
      exact (hitem x hframe).holds
    · exact (h.item x hx).mono hn
  · rw [setItemContext_apply]
    obtain ⟨ht, hsees⟩ := h.running x t hx
    refine ⟨ht, ?_⟩
    split
    · rename_i hframe
      exact hitem x hframe
    · exact hsees.mono hn
  · rw [setBaseContext_apply] at he
    split at he
    · rename_i hframe
      exact hbase hframe.1 e he
    · exact (h.base e he).trans_le hn

/-- The innermost frame of the main thread makes a call. -/
theorem park (h : Affine env s) (hframes : Frames s.stack s.phase s.nextItem)
    {frame : SyncFrame} {rest : List SyncFrame}
    (hstack : s.stack mainThread = frame :: rest) (force : Bool) (l : LoopId) (newLoop : Bool)
    (base : Context) {p : TaskStatus} (hp : p.underWay = false) :
    Affine env (park env mainThread frame rest
      (newCall env mainThread frame force l newLoop s) base p s) := by
  have hle : s.nextCall ≤ s.nextCall + 1 := Nat.le_succ _
  have hcall : Sees (env.getIdent mainThread) (callContext env mainThread frame s)
      (s.nextCall + 1) := Sees.setattr _ _ (Nat.lt_succ_self _)
  obtain ⟨hitems, hrunning, hbase⟩ := h.setContexts frame hle (fun _ _ => hcall) fun _ e he => by
    rw [callContext, currentExecutor_setattr] at he
    cases he
    exact Nat.lt_succ_self _
  have hold : ∀ e, currentExecutor (env.getIdent mainThread) (s.frameContext mainThread frame) =
      .executor e → e < s.nextCall := fun e he => h.frame_lt hframes hstack he
  have hmade : ∀ {P : Call → Prop}, (∀ c, c < s.nextCall → P (s.call c)) →
      P (newCall env mainThread frame force l newLoop s) →
      ∀ c, c < s.nextCall + 1 → P (Function.update s.call s.nextCall
        (newCall env mainThread frame force l newLoop s) c) := fun hP hnew =>
    forall_lt_update_iff.mpr ⟨hP, hnew⟩
  exact {
    stack := fun t ht => by
      simp only [Runtime.park] at ht
      by_cases heq : t = mainThread
      · exact heq
      · rw [Function.update_of_ne heq] at ht
        exact h.stack t ht
    worker := h.worker
    thread := hmade (P := fun made => made.thread = mainThread) h.thread rfl
    chain := by
      refine hmade (P := fun made => ∀ e ∈ made.oldExecutors, e < s.nextCall + 1)
        (fun c hc e he => (h.chain c hc e he).trans_le hle) fun e he => ?_
      -- the chain of the new call goes on with that of the executor it replaces
      have he' : e ∈ s.chain (currentExecutor (env.getIdent mainThread)
        (s.frameContext mainThread frame)) := he
      cases hcurrent : currentExecutor (env.getIdent mainThread)
          (s.frameContext mainThread frame) with
      | executor e' =>
          rw [hcurrent] at he'
          have hlt := hold e' hcurrent
          rcases List.mem_cons.mp he' with rfl | hmem
          · exact hlt.trans_le hle
          · exact (h.chain e' hlt e hmem).trans_le hle
      | _ =>
          rw [hcurrent] at he'
          cases he'
    old := hmade (P := fun made => ∀ e, made.oldExecutor = .executor e → e < s.nextCall + 1)
      (fun c hc e he => (h.old c hc e he).trans_le hle) fun e he => (hold e he).trans_le hle
    oldItem := by
      refine hmade (P := fun made => ∀ x, made.item = some x →
        ∃ e, made.oldExecutor = .executor e) h.oldItem fun x hx => ?_
      have hrun := hframes.frame mainThread frame (hstack ▸ List.mem_cons_self) x hx
      obtain ⟨e, -, he⟩ := (h.running x mainThread hrun).2
      refine ⟨e, ?_⟩
      show currentExecutor _ (s.frameContext mainThread frame) = .executor e
      rw [s.frameContext_item mainThread hx]
      exact he
    base := hbase
    captured := fun c hc => by
      simp only [Runtime.park] at hc ⊢
      by_cases heq : c = s.nextCall
      · subst heq
        rw [Function.update_self]
        exact hcall.holds
      · rw [Function.update_of_ne heq]
        exact (h.captured c (lt_of_le_of_ne (Nat.lt_succ_iff.mp hc) heq)).mono hle
    task := fun k hk hstart => by
      simp only [Runtime.park, State.taskThread] at hk hstart ⊢
      by_cases heq : k = s.nextTask
      · subst heq
        rw [Function.update_self, Function.update_self, hp] at hstart
        rcases hstart with hstart | hstart <;> cases hstart
      · rw [Function.update_of_ne heq, Function.update_of_ne heq] at hstart
        rw [Function.update_of_ne heq, Function.update_of_ne heq]
        exact (h.task k (lt_of_le_of_ne (Nat.lt_succ_iff.mp hk) heq) hstart).mono hle
    item := hitems
    running := hrunning
    ranOn := h.ranOn
    executor := fun x hx => by
      obtain ⟨e, he, hex⟩ := h.executor x hx
      exact ⟨e, he.trans_le hle, hex⟩ }

/-- What the `finally` block of a call leaves in the frame on the main thread. -/
theorem leaveContext (h : Affine env s) (hframes : Frames s.stack s.phase s.nextItem)
    (hparked : Parked s.stack s.call s.nextCall) {frame : SyncFrame} {rest : List SyncFrame}
    {c : CallId} (hstack : s.stack mainThread = frame :: rest) (hcall : frame.call = some c) :
    (∀ x, frame.item = some x →
      Sees (env.getIdent mainThread) (leaveContext env mainThread frame c s) s.nextCall) ∧
    (frame.item = none → ∀ e, currentExecutor (env.getIdent mainThread)
      (Runtime.leaveContext env mainThread frame c s) = .executor e → e < s.nextCall) := by
  have hmem : frame ∈ s.stack mainThread := hstack ▸ List.mem_cons_self
  obtain ⟨hc, -, hitem⟩ := hparked.call mainThread frame hmem c hcall
  have hcaptured := h.captured c hc
  unfold Runtime.leaveContext
  constructor
  · intro x hx
    have hsees : Sees (env.getIdent mainThread) (s.frameContext mainThread frame) s.nextCall := by
      rw [s.frameContext_item mainThread hx]
      exact (h.running x mainThread (hframes.frame mainThread frame hmem x hx)).2
    have hrestore := hsees.restoreContext hcaptured env.ne
    split
    -- a function gets the executor back that it saw before the call
    · obtain ⟨e, he⟩ := h.oldItem c hc x (hitem.trans hx)
      rw [he]
      exact Sees.setattr _ _ (h.old c hc e he)
    · rename_i context raised heq
      rwa [heq] at hrestore
  · intro hnone e
    split
    · intro he
      rw [currentExecutor_setattr] at he
      exact h.old c hc e he
    · rename_i context raised heq
      intro he
      have hcontext : context = (restoreContext env.ne (env.getIdent mainThread)
          (s.frameContext mainThread frame) (s.captured c)).1 := by rw [heq]
      rw [hcontext] at he
      rcases Local.storage_restoreContext_or env.ne (env.getIdent mainThread)
        (s.frameContext mainThread frame) (s.captured c) executors with hkeep | ⟨storage, hs, hnew⟩
      · rw [currentExecutor_congr hkeep] at he
        exact h.frame_lt hframes hstack he
      · obtain ⟨e', hlt, he'⟩ := hcaptured.sees_of_storage hs hnew
        rw [he] at he'
        cases he'
        exact hlt

/-- Only the main thread takes items, and none from the queue of a worker. -/
theorem dequeue (h : Affine env s) {t : ThreadId} {x : ItemId} {q : ThreadId → List ItemId}
    {q' : CallId → List ItemId} (hdequeue : dequeue t s = some (x, q, q')) :
    t = mainThread ∧ q = s.workerItems := by
  unfold Runtime.dequeue at hdequeue
  split at hdequeue
  · rw [h.worker t] at hdequeue
    cases hdequeue
  · rename_i frame rest hstack
    split at hdequeue
    · split at hdequeue
      · cases hdequeue
      · cases hdequeue
        exact ⟨h.stack t (by rw [hstack]; simp), rfl⟩
    · cases hdequeue

/-- A task comes to another point, where it has started only if it had before. -/
theorem setStatus (h : Affine env s) {k : TaskId} {p : TaskStatus}
    (hp : p.underWay = true → (s.task k).call = none ∨ (s.status k).underWay = true) :
    ∀ k', k' < s.nextTask →
      (s.task k').call = none ∨ (Function.update s.status k p k').underWay = true →
      Sees (env.getIdent (s.taskThread k')) (s.context k') s.nextCall := by
  intro k' hk' hstart
  by_cases heq : k' = k
  · subst heq
    rw [Function.update_self] at hstart
    exact h.task k' hk' (hstart.elim .inl hp)
  · rw [Function.update_of_ne heq] at hstart
    exact h.task k' hk' hstart

/-- The context of a task changes, and shows an executor if the task has started. -/
theorem setContext (h : Affine env s) {k : TaskId} {c : Context}
    {status : TaskId → TaskStatus}
    (hc : (s.task k).call = none ∨ (status k).underWay = true →
      Sees (env.getIdent (s.taskThread k)) c s.nextCall)
    (hstatus : ∀ k', k' ≠ k → (status k').underWay = true → (s.status k').underWay = true) :
    ∀ k', k' < s.nextTask → (s.task k').call = none ∨ (status k').underWay = true →
      Sees (env.getIdent (s.taskThread k')) (Function.update s.context k c k') s.nextCall := by
  intro k' hk' hstart
  by_cases heq : k' = k
  · subst heq
    rw [Function.update_self]
    exact hc hstart
  · rw [Function.update_of_ne heq]
    exact h.task k' hk' (hstart.imp id (hstatus k' heq))

/-- The task that awaits an item, and what restoring in it leaves. -/
theorem endItem (h : Affine env s) (hnumbers : Numbers s) (hawaiting : Awaiting s) {x : ItemId}
    (hover : ¬ s.Over x) (hx : x < s.nextItem) (r : Result) : Affine env (endItem env x r s) := by
  have hstatus := hawaiting.item x hover
  have hk := (hnumbers.item x hx).1
  have hsees := h.task _ hk (.inr (by rw [hstatus]; rfl))
  -- whether restoring raises or not, the task sees what it saw or what the function left
  have hfinally : Sees (env.getIdent (s.taskThread (s.item x).task)) (finallyContext env x r s).1
      s.nextCall := by
    have hrestore := hsees.restoreContext (h.item x hx) env.ne
    unfold finallyContext
    split
    · exact hsees.setDeadlock false
    · split
      · rename_i context heq
        rw [heq] at hrestore
        exact hrestore.setDeadlock false
      · rename_i context e heq
        rwa [heq] at hrestore
  refine { h with task := h.setContext (fun _ => hfinally) fun k hne hunder => ?_ }
  simp only [Runtime.endItem, Function.update_of_ne hne] at hunder
  exact hunder

/-- A task is made, in a context that shows an executor. -/
theorem addTask (h : Affine env s) (task : Task) (p : TaskStatus) {c : Context}
    (hc : Sees (env.getIdent (s.loop task.loop).thread) c s.nextCall) :
    Affine env (addTask task p c s) := by
  refine { h with task := fun k hk hstart => ?_ }
  simp only [Runtime.addTask, State.taskThread] at hk hstart ⊢
  by_cases heq : k = s.nextTask
  · subst heq
    rw [Function.update_self, Function.update_self]
    exact hc
  · rw [Function.update_of_ne heq, Function.update_of_ne heq] at hstart
    rw [Function.update_of_ne heq, Function.update_of_ne heq]
    exact h.task k (lt_of_le_of_ne (Nat.lt_succ_iff.mp hk) heq) hstart

/-- What a task awaits is taken by the executor of a call. -/
theorem awaitItem (h : Affine env s) {k : TaskId} (hk : k < s.nextTask)
    (hstatus : s.status k = .running) {selection : Selection} {executor : ExecutorRef}
    (hselect : selectExecutor env true k s = some selection)
    (hsubmit : submit (s.taskThread k) s selection.executor = some executor) :
    Affine env (addWorker true selection (awaitItem k executor none selection.context s)) := by
  obtain ⟨e, he, hcurrent⟩ := h.task k hk (.inr (by rw [hstatus]; rfl))
  have hselection : selection = ⟨.currentThread e, s.context k, false⟩ := by
    unfold selectExecutor at hselect
    rw [if_pos rfl, hcurrent] at hselect
    exact (Option.some.inj hselect).symm
  subst hselection
  -- `submit` walks along the chain, which consists of executors of calls
  obtain ⟨e', he', rfl⟩ : ∃ e', e' < s.nextCall ∧ executor = .currentThread e' := by
    simp only [submit] at hsubmit
    split at hsubmit
    · cases hsubmit
    · cases hclosest : s.closest e with
      | none =>
          rw [hclosest] at hsubmit
          cases hsubmit
      | some e' =>
          rw [hclosest] at hsubmit
          cases hsubmit
          refine ⟨e', ?_, rfl⟩
          rcases List.mem_cons.mp (List.mem_of_find?_eq_some hclosest) with rfl | hmem
          · exact he
          · exact h.chain e he e' hmem
  have hsees : Sees (env.getIdent (s.taskThread k)) (s.context k) s.nextCall := ⟨e, he, hcurrent⟩
  have hcontext : Function.update s.context k (s.context k) = s.context :=
    Function.update_eq_self k s.context
  refine { h with task := ?_, item := fun x hx => ?_, running := fun x t hx => ?_,
                  ranOn := fun x t hx => ?_, executor := fun x hx => ?_ }
  · simp only [addWorker, Runtime.awaitItem, hcontext]
    exact h.setStatus fun _ => .inr (by rw [hstatus]; rfl)
  · simp only [addWorker, Runtime.awaitItem, Option.getD_none] at hx ⊢
    by_cases heq : x = s.nextItem
    · subst heq
      rw [Function.update_self]
      exact hsees.holds
    · rw [Function.update_of_ne heq]
      exact h.item x (lt_of_le_of_ne (Nat.lt_succ_iff.mp hx) heq)
  · simp only [addWorker, Runtime.awaitItem] at hx ⊢
    by_cases heq : x = s.nextItem
    · subst heq
      rw [Function.update_self] at hx
      cases hx
    · rw [Function.update_of_ne heq] at hx ⊢
      exact h.running x t hx
  · simp only [addWorker, Runtime.awaitItem] at hx
    by_cases heq : x = s.nextItem
    · subst heq
      rw [Function.update_self] at hx
      cases hx
    · rw [Function.update_of_ne heq] at hx
      exact h.ranOn x t hx
  · simp only [addWorker, Runtime.awaitItem] at hx ⊢
    by_cases heq : x = s.nextItem
    · subst heq
      rw [Function.update_self]
      exact ⟨e', he', rfl⟩
    · rw [Function.update_of_ne heq]
      exact h.executor x (lt_of_le_of_ne (Nat.lt_succ_iff.mp hx) heq)

/-- A new loop changes the thread of no task that has been made. -/
theorem addLoop (h : Affine env s) {made : Loop} {loopRunning : LoopId → Bool}
    {nextThread : ThreadId} {nextLoop : LoopId}
    (htask : ∀ k, k < s.nextTask → (s.task k).call = none ∨ (s.status k).underWay = true →
      (s.task k).loop ≠ s.nextLoop) :
    Affine env { s with
      loop := Function.update s.loop s.nextLoop made
      loopRunning := loopRunning
      nextThread := nextThread
      nextLoop := nextLoop } := by
  refine { h with task := fun k hk hstart => ?_ }
  simp only [State.taskThread] at hk hstart ⊢
  rw [Function.update_of_ne (htask k hk hstart)]
  exact h.task k hk hstart

/-- The task of a `main_wrap` starts, in a context that shows what its caller's holds. -/
theorem startMain (h : Affine env s) (hmains : Mains s) (hne : env.ne.LawfulAt (.cvar executors))
    {k : TaskId} {c : CallId} {context : Context} (hcall : (s.task k).call = some c)
    (hrestore : restoreContext env.ne (env.getIdent (s.taskThread k)) (s.context k) (s.captured c)
      = (context, none)) : Affine env (startMain k c context s) := by
  have hsees := (h.captured c (hmains.call k c hcall).1).restoreContext hne hrestore
  refine { h with task := h.setContext (fun _ => hsees) fun k' hne' hunder => ?_ }
  simp only [Runtime.startMain, Function.update_of_ne hne'] at hunder
  exact hunder

/-- The task of a `main_wrap` ends in its first step. -/
theorem failMain (h : Affine env s) {k : TaskId} {c : CallId} (hcall : (s.task k).call = some c)
    (context : Context) : Affine env (failMain k context s) := by
  refine { h with task := h.setContext (fun hstart => ?_) fun k' hne' hunder => ?_ }
  · simp only [Runtime.failMain, Function.update_self, hcall] at hstart
    rcases hstart with hstart | hstart <;> cases hstart
  · simp only [Runtime.failMain, Function.update_of_ne hne'] at hunder
    exact hunder

/-- The task of a `main_wrap` ends, and leaves its context to the caller. -/
theorem finishMain (h : Affine env s) {k : TaskId} (hk : k < s.nextTask)
    (hstatus : s.status k = .running) (c : CallId) (r : Result) (mustCancel : Bool) :
    Affine env (finishMain k c r mustCancel s) := by
  have hsees := h.task k hk (.inr (by rw [hstatus]; rfl))
  refine { h with
    captured := fun c' hc' => ?_
    task := h.setStatus fun hunder => (by cases hunder) }
  simp only [Runtime.finishMain]
  by_cases heq : c' = c
  · subst heq
    rw [Function.update_self]
    exact hsees.holds
  · rw [Function.update_of_ne heq]
    exact h.captured c' hc'

/-- A change of the context of an item that waits. -/
theorem itemContext (h : Affine env s) {x : ItemId} {context : Context}
    (hx : Holds context s.nextCall) :
    ∀ y, y < s.nextItem → Holds (Function.update s.itemContext x context y) s.nextCall := by
  intro y hy
  by_cases heq : y = x
  · subst heq
    rw [Function.update_self]
    exact hx
  · rw [Function.update_of_ne heq]
    exact h.item y hy

/-- The function of an item starts on the main thread. -/
theorem enterItem (h : Affine env s) (hne : env.ne.LawfulAt (.cvar executors)) {x : ItemId}
    (hx : x < s.nextItem) {context : Context}
    (hrestore : restoreContext env.ne (env.getIdent mainThread) (s.itemContext x) (s.itemContext x)
      = (context, none)) : Affine env (enterItem env mainThread x context s) := by
  have hsees := (h.item x hx).restoreContext hne hrestore
  refine { h with
    stack := fun t ht => ?_
    item := h.itemContext hsees.holds
    running := fun y t hy => ?_
    ranOn := fun y t hy => ?_ }
  · simp only [Runtime.enterItem] at ht
    by_cases heq : t = mainThread
    · exact heq
    · rw [Function.update_of_ne heq] at ht
      exact h.stack t ht
  · simp only [Runtime.enterItem] at hy ⊢
    by_cases heq : y = x
    · subst heq
      rw [Function.update_self] at hy ⊢
      cases hy
      exact ⟨rfl, hsees⟩
    · rw [Function.update_of_ne heq] at hy ⊢
      exact h.running y t hy
  · simp only [Runtime.enterItem] at hy
    by_cases heq : y = x
    · subst heq
      rw [Function.update_self] at hy
      cases hy
      rfl
    · rw [Function.update_of_ne heq] at hy
      exact h.ranOn y t hy

/-- An item comes to a point at which its function does not run. -/
theorem setPhase (h : Affine env s) (x : ItemId) {p : Phase} (hp : ∀ t, p ≠ .running t)
    {itemContext : ItemId → Context}
    (hitem : ∀ y, y < s.nextItem → Holds (itemContext y) s.nextCall)
    (hsame : ∀ y, y ≠ x → itemContext y = s.itemContext y) :
    Affine env { s with
      phase := Function.update s.phase x p
      itemContext := itemContext } := by
  refine { h with item := hitem, running := fun y t hy => ?_ }
  simp only at hy ⊢
  by_cases heq : y = x
  · subst heq
    rw [Function.update_self] at hy
    exact absurd hy (hp t)
  · rw [Function.update_of_ne heq] at hy
    rw [hsame y heq]
    exact h.running y t hy

/-- The queues change. -/
theorem setQueues (h : Affine env s) (q : CallId → List ItemId) :
    Affine env (setQueues s.workerItems q s) := { h with }

/-- A frame of the main thread goes on after its call, or works on its context. -/
theorem setFrame (h : Affine env s) {frame : SyncFrame} {context : Context}
    (hitem : ∀ x, frame.item = some x → Sees (env.getIdent mainThread) context s.nextCall)
    (hbase : frame.item = none → ∀ e,
      currentExecutor (env.getIdent mainThread) context = .executor e → e < s.nextCall) :
    Affine env { s with
      itemContext := setItemContext frame context s
      baseContext := setBaseContext mainThread frame context s } := by
  obtain ⟨hitems, hrunning, hbases⟩ := h.setContexts frame (Nat.le_refl _) hitem hbase
  exact { h with base := hbases, item := hitems, running := hrunning }

/-- The frames of the main thread change. -/
theorem setStack (h : Affine env s) (frames : List SyncFrame) :
    Affine env { s with stack := Function.update s.stack mainThread frames } := by
  refine { h with stack := fun t ht => ?_ }
  by_cases heq : t = mainThread
  · exact heq
  · simp only [Function.update_of_ne heq] at ht
    exact h.stack t ht

/-- Where tasks stand changes, but for the ones that have started. -/
theorem setStatuses (h : Affine env s) {status : TaskId → TaskStatus} {await : ItemId → Await}
    {target : ItemId → Option TaskId} {delivered : ItemId → List TaskId}
    {execCoro : ItemId → ExecCoro}
    (hstatus : ∀ k, (status k).underWay = (s.status k).underWay) :
    Affine env { s with
      status := status
      await := await
      target := target
      delivered := delivered
      execCoro := execCoro } :=
  { h with
    task := fun k hk hstart =>
      h.task k hk (hstart.imp id fun hunder => (hstatus k).symm.trans hunder) }

/-- A task is cancelled. -/
theorem cancelTask (h : Affine env s) (k : TaskId) : Affine env (cancelTask k s) := by
  refine h.setStatuses fun k' => ?_
  by_cases heq : k' = k
  · subst heq
    rw [Function.update_self, TaskStatus.cancel_underWay]
  · rw [Function.update_of_ne heq]

/-- **Every step of thread-sensitive code below the main thread keeps it there.** -/
theorem step (h : Affine env s) (hinv : LayerInv env s) (hlisted : Listed s)
    (hne : env.ne.LawfulAt (.cvar executors)) (hconfined : Confined s a)
    (hs : (machine env).step s a = some s') : Affine env s' := by
  have hnumbers := hinv.known.numbers
  have hframes := hinv.known.frames
  have hawaiting := hlisted.awaiting
  have hstarted : ∀ {k}, s.status k = .running → (s.status k).underWay = true := fun hstatus => by
    rw [hstatus]
    rfl
  have hmain : ∀ {t frame rest}, s.stack t = frame :: rest → t = mainThread := fun hstack =>
    h.stack _ (by rw [hstack]; exact List.cons_ne_nil _ _)
  have hqueued : ∀ {x}, s.phase x = .queued → x < s.nextItem := fun hphase =>
    hframes.lt_nextItem (by rw [hphase]; simp)
  have hcase := step_inv hs
  cases hcase with
  | callParent t frame rest force l hstack hcall hparent =>
      obtain rfl := hmain hstack
      exact h.park hframes hstack force l false _ rfl
  | callNewLoop t frame rest force hstack hcall hparent =>
      obtain rfl := hmain hstack
      have hpark := h.park hframes hstack force s.nextLoop true
        (if env.threadInheritContext then callContext env mainThread frame s else ∅)
        (p := .created false) rfl
      refine hpark.addLoop fun k hk hstart => ?_
      simp only [Runtime.park] at hk hstart ⊢
      by_cases heq : k = s.nextTask
      · -- the new task has not started
        subst heq
        rw [Function.update_self, Function.update_self] at hstart
        rcases hstart with hstart | hstart <;> cases hstart
      · rw [Function.update_of_ne heq]
        exact (hnumbers.task k (lt_of_le_of_ne (Nat.lt_succ_iff.mp hk) heq)).ne
  | leave t frame rest c hstack hcall hbroken hempty =>
      obtain rfl := hmain hstack
      obtain ⟨hitem, hbase⟩ := h.leaveContext hframes hinv.parked hstack hcall
      exact (h.setFrame hitem hbase).setStack _
  | takeCancelled t x q q' hdequeue hnot =>
      obtain ⟨-, rfl⟩ := h.dequeue hdequeue
      exact h.setQueues q'
  | take t x q q' context hdequeue hphase hrestore =>
      obtain ⟨rfl, rfl⟩ := h.dequeue hdequeue
      exact (h.setQueues q').enterItem hne (hqueued hphase) hrestore
  | takeRaising t x q q' context e hdequeue hphase hrestore =>
      obtain ⟨-, rfl⟩ := h.dequeue hdequeue
      have hcontext : Holds context s.nextCall := by
        have hself := (h.item x (hqueued hphase)).restoreSelf env.ne (env.getIdent t)
        rwa [hrestore] at hself
      have hset := (h.setQueues q').setPhase x (p := .returned (.error e)) (by simp)
        (h.itemContext hcontext) fun y hy => Function.update_of_ne hy _ _
      exact { hset with }
  | ret t frame rest x r hstack hitem hcall =>
      obtain rfl := hmain hstack
      exact (h.setPhase x (by simp) h.item fun _ _ => rfl).setStack rest
  | work t frame rest context hstack hcall hstorage =>
      obtain rfl := hmain hstack
      refine h.setFrame (fun x hx => ?_) fun _ e he => ?_
      · rw [s.frameContext_item mainThread hx] at hstorage
        have hrunning := hframes.frame mainThread frame (hstack ▸ List.mem_cons_self) x hx
        exact (h.running x mainThread hrunning).2.congr hstorage
      · rw [currentExecutor_congr hstorage] at he
        exact h.frame_lt hframes hstack he
  | spawnThreadsafe t frame rest l hstack hcall hl => exact absurd rfl (hconfined.2 t l)
  | startLoop context => exact absurd hconfined.1 id
  | closeGenerator l c context hshutting => exact absurd hconfined.1 id
  | create k hstatus hlive =>
      refine { h with task := h.setStatus fun hunder => (by cases hunder) }
  | startCancelled k hlive hstatus =>
      exact { h with task := h.setStatus fun hunder => (by cases hunder) }
  | startMain k c context hlive hstatus hcall hrestore =>
      exact h.startMain hlisted.mains hne hcall hrestore
  | failMain k c context e hlive hstatus hcall hrestore => exact h.failMain hcall context
  | startTask k hlive hstatus hcall =>
      exact { h with task := h.setStatus fun _ => .inl hcall }
  | taskWork k context hstatus hlive hstorage =>
      have hk := hnumbers.lt_nextTask hstatus (by simp)
      exact { h with
        task := h.setContext (fun hstart => (h.task k hk hstart).congr hstorage)
          fun _ _ hunder => hunder }
  | spawn k custom hstatus hlive =>
      obtain rfl : custom = none := hconfined.1
      have hk := hnumbers.lt_nextTask hstatus (by simp)
      exact h.addTask _ _ (h.task k hk (.inr (hstarted hstatus)))
  | awaitTask k k' hstatus hlive hk' =>
      exact { h with task := h.setStatus fun _ => .inr (hstarted hstatus) }
  | resumeTask k k' hstatus hlive =>
      exact { h with task := h.setStatus fun _ => .inr (by rw [hstatus]; rfl) }
  | finishMain k c r mustCancel hstatus hlive hcall =>
      exact h.finishMain (hnumbers.lt_nextTask hstatus (by simp)) hstatus c r mustCancel
  | finishTask k r mustCancel hstatus hlive hcall =>
      exact { h with task := h.setStatus fun hunder => (by cases hunder) }
  | syncToAsync k b custom selection executor hstatus hlive hselect hsubmit =>
      obtain ⟨rfl, rfl⟩ : b = true ∧ custom = none := hconfined.1
      exact h.awaitItem (hnumbers.lt_nextTask hstatus (by simp)) hstatus hselect hsubmit
  | complete x r hlive hawait hresult =>
      rcases hawait with hawait | hawait
      · exact h.endItem hnumbers hawaiting (not_over hawait (by simp))
          (hnumbers.lt_nextItem hawait (by simp)) r
      · exact h.endItem hnumbers hawaiting (not_over hawait (by simp))
          (hnumbers.lt_nextItem hawait (by simp)) r
  | cancel k => exact h.cancelTask k
  | passOn x k rest hawait hlive htasks hloop =>
      exact (h.cancelTask k).setStatuses fun _ => rfl
  | passOnOther x k rest hawait hlive htasks hloop =>
      have hx := hnumbers.lt_nextItem hawait (by simp)
      have hset : Affine env (setDelivered x k (Runtime.cancelTask k s)) :=
        (h.cancelTask k).setStatuses fun _ => rfl
      exact hset.endItem ((hnumbers.cancelTask k).setDelivered hx k) (hawaiting.passOn hawait k)
        (setDelivered_not_over x k _) hx _
  | deliverDone x hawait hlive htasks hresult =>
      exact h.endItem hnumbers hawaiting (not_over hawait (by simp))
        (hnumbers.lt_nextItem hawait (by simp)) _
  | resumeDone x k b hawait hstatus hlive hresult =>
      exact h.endItem hnumbers hawaiting (not_over hawait (by simp))
        (hnumbers.lt_nextItem hawait (by simp)) _
  | dropItem x hcancelled hphase =>
      exact h.setPhase x (by simp) h.item fun _ _ => rfl
  | _ => exact { h with }

/-- **Every run of thread-sensitive code below the main thread keeps it there.** -/
theorem run {context : Context}
    (hoff : ∀ e, currentExecutor (env.getIdent mainThread) context ≠ .executor e)
    (hne : env.ne.LawfulAt (.cvar executors))
    (h : (machine env).Run Confined (init [context]) as s) : Affine env s :=
  h.invariant_of (J := fun s => LayerInv env s ∧ Listed s)
    (fun _ _ hrun => ⟨LayerInv.run (hrun.mono fun _ _ _ => trivial),
      Listed.run (hrun.mono fun _ _ _ => trivial)⟩)
    (affine_init hoff) fun _ _ _ hJ hI hconfined hs => hI.step hJ.1 hJ.2 hne hconfined hs

/-- The executors from a visible one on belong to the main thread. -/
theorem chain_thread (h : Affine env s) {e : CallId} (he : e < s.nextCall) :
    ∀ e' ∈ s.chain (.executor e), (s.call e').thread = mainThread := by
  intro e' hmem
  rcases List.mem_cons.mp hmem with rfl | hrest
  · exact h.thread e' he
  · exact h.thread e' (h.chain e he e' hrest)

/-- What is seen in the context of a frame. -/
theorem sees (h : Affine env s) {t : ThreadId} {c : Context}
    (hc : Sees (env.getIdent t) c s.nextCall) : s.MainExecutor env t c := by
  obtain ⟨e, he, hcurrent⟩ := hc
  exact ⟨e, hcurrent, h.chain_thread he⟩

end Affine

/-- **Thread affinity.** Below a call of `async_to_sync` on the main thread, which sees no executor
itself, thread-sensitive functions run on the main thread only: whatever a call of `sync_to_async`
submits is taken by an executor of the main thread. Every function, from its start on, and every
task, from its first step on, sees a chain of such executors. -/
theorem threadAffinity {context : Context}
    (hoff : ∀ e, currentExecutor (env.getIdent mainThread) context ≠ .executor e)
    (hne : env.ne.LawfulAt (.cvar executors))
    (h : (machine env).Run Confined (init [context]) as s) :
    (∀ x t, s.ranOn x = some t → t = mainThread) ∧
      (∀ x, x < s.nextItem → ∃ e, (s.item x).executor = .currentThread e ∧
        (s.call e).thread = mainThread) ∧
      (∀ x t, s.phase x = .running t → t = mainThread ∧ s.MainExecutor env t (s.itemContext x)) ∧
      ∀ k, (s.status k).underWay = true → s.MainExecutor env (s.taskThread k) (s.context k) := by
  have haffine := Affine.run hoff hne h
  have hknown := Known.run (h.mono fun _ _ _ => trivial)
  refine ⟨haffine.ranOn, fun x hx => ?_, fun x t hx => ?_, fun k hk => ?_⟩
  · obtain ⟨e, he, hexecutor⟩ := haffine.executor x hx
    exact ⟨e, hexecutor, haffine.thread e he⟩
  · obtain ⟨rfl, hsees⟩ := haffine.running x t hx
    exact ⟨rfl, haffine.sees hsees⟩
  · have hlt : k < s.nextTask := hknown.numbers.lt_nextTask rfl fun hdone => by
      rw [hdone] at hk
      cases hk
    exact haffine.sees (haffine.task k hlt (.inr hk))

/-- A sync function below a call on the main thread makes a call itself, whose awaitable awaits
another sync function. -/
def nestedCalls : List Action :=
  [.call 1 false, .startTask 0, .syncToAsync 0 true none, .take 1, .call 1 false, .create 1,
    .startTask 1, .syncToAsync 1 true none, .take 1]

theorem nestedCalls_confined : ∀ a ∈ nestedCalls, ∀ s, Confined s a := by
  simp [nestedCalls, Confined, Sensitive]

theorem threadAffinity_nestedCalls :
    ∃ s, (machine plainEnv).exec (init [∅]) nestedCalls = some s ∧ s.ranOn 1 = some mainThread ∧
      ∀ x t, s.ranOn x = some t → t = mainThread := by
  have hoff : ∀ e, currentExecutor (plainEnv.getIdent mainThread) ∅ ≠ .executor e := fun e he => by
    cases he
  exact ⟨_, rfl, rfl, (threadAffinity hoff (Comparison.plain_lawful _)
    (Machine.exec_run_of nestedCalls_confined rfl)).1⟩

/-- The context of an awaitable of the main thread that has entered a `ThreadSensitiveContext`. -/
def enteredContext : Context :=
  (Local.setattr 2 ∅ executors "current" (.executor 0)).insert threadSensitiveContext
    (Value.obj (.bool true))

/-- A sync function has the loop create a task, in a copy of its context. -/
def createdThreadsafe : List Action :=
  [.call 1 false, .startTask 0, .taskWork 0 enteredContext, .syncToAsync 0 true none, .take 1,
    .spawnThreadsafe 1 0, .create 1, .startTask 1, .syncToAsync 1 true none, .take 3]

theorem createdThreadsafe_sensitive : ∀ a ∈ createdThreadsafe, ∀ s, Sensitive s a := by
  simp [createdThreadsafe, Sensitive]

/-- The task does not see the executor, which the context shows to the main thread only. -/
theorem createdThreadsafe_ranOn :
    ∃ s, (machine plainEnv).Run Sensitive (init [∅]) createdThreadsafe s ∧
      s.ranOn 1 = some 3 :=
  ⟨_, Machine.exec_run_of createdThreadsafe_sensitive rfl, rfl⟩

end Runtime

end Asgiref
