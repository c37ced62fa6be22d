import Asgiref.Runtime.Lists

/-! # The loops that `AsyncToSync` starts

* **`ThreadsMade`** — the threads that run code have been made.
* **`NewLoops`** — a call on a new loop and the loop belong to each other; the loop runs on a thread
  other than the caller's, the executor of the call is not broken while it runs, and the loop has an
  entry in `loop_thread_executors` exactly while the task of `new_loop_wrap` is under way. -/

namespace Asgiref

namespace Runtime

variable {env : Env} {s s' : State} {a : Action} {as : List Action}

/-! ## Threads -/

/-- The threads with frames or items, and those of `ThreadSensitiveContext`s, have been made. -/
structure ThreadsMade (s : State) : Prop where
  stack : ∀ t, s.stack t ≠ [] → t < s.nextThread
  worker : ∀ t, s.workerItems t ≠ [] → t < s.nextThread
  sensitive : ∀ v t, s.contextToThreadExecutor v = some t → t < s.nextThread
  single : SyncToAsync.singleThread < s.nextThread

theorem threadsMade_init (contexts : List Context) : ThreadsMade (init contexts) where
  stack t ht := by
    simp only [init] at ht ⊢
    by_cases hlt : 0 < t ∧ t ≤ contexts.length
    · exact Nat.lt_succ_of_le hlt.2
    · rw [if_neg hlt] at ht
      exact absurd rfl ht
  worker t ht := absurd rfl ht
  sensitive v t ht := by cases ht
  single := Nat.succ_pos _

/-- A thread that has been made gets other frames or items. -/
theorem lt_of_update {α : Type} {f : ThreadId → List α} {n t : ThreadId} {v : List α}
    (hf : ∀ t, f t ≠ [] → t < n) (ht : t < n) :
    ∀ t', Function.update f t v t' ≠ [] → t' < n := by
  intro t' ht'
  by_cases heq : t' = t
  · exact heq ▸ ht
  · rw [Function.update_of_ne heq] at ht'
    exact hf t' ht'

/-- The thread that takes an item has been made, and so have those with items afterwards. -/
theorem ThreadsMade.dequeue (h : ThreadsMade s) {t : ThreadId} {x : ItemId}
    {q : ThreadId → List ItemId} {q' : CallId → List ItemId}
    (hdequeue : dequeue t s = some (x, q, q')) :
    t < s.nextThread ∧ ∀ t', q t' ≠ [] → t' < s.nextThread := by
  unfold Runtime.dequeue at hdequeue
  split at hdequeue
  -- a thread without frames is a worker, the others take items of the call they wait in
  · split at hdequeue
    · cases hdequeue
    · rename_i y queue hqueue
      cases hdequeue
      have ht := h.worker t (by rw [hqueue]; simp)
      exact ⟨ht, lt_of_update h.worker ht⟩
  · rename_i frame rest hstack
    split at hdequeue
    · split at hdequeue
      · cases hdequeue
      · cases hdequeue
        exact ⟨h.stack t (by rw [hstack]; simp), h.worker⟩
    · cases hdequeue

/-- What the choice of an executor says about threads. -/
theorem selectExecutor_thread (h : ThreadsMade s) {k : TaskId} {b : Bool} {selection : Selection}
    (hselect : selectExecutor env b k s = some selection) :
    (selection.newThread = false → ∀ t, selection.executor = .worker t → t < s.nextThread) ∧
      (selection.newThread = true → selection.executor = .worker s.nextThread) := by
  unfold selectExecutor at hselect
  split at hselect
  · split at hselect
    · cases hselect
      exact ⟨fun _ t ht => (by cases ht), fun hnew => (by cases hnew)⟩
    · split at hselect
      · rename_i v hcontext
        cases hselect
        unfold sensitiveWorker
        cases hworker : s.contextToThreadExecutor v with
        | none => exact ⟨fun hnew => (by cases hnew), fun _ => rfl⟩
        | some t =>
            refine ⟨fun _ t' ht' => ?_, fun hnew => (by cases hnew)⟩
            cases ht'
            exact h.sensitive v t hworker
      · split at hselect
        · cases hselect
          exact ⟨fun _ t ht => (by cases ht), fun hnew => (by cases hnew)⟩
        · split at hselect
          · cases hselect
          · cases hselect
            refine ⟨fun _ t ht => ?_, fun hnew => (by cases hnew)⟩
            cases ht
            exact h.single
  · cases hselect
    exact ⟨fun hnew => (by cases hnew), fun _ => rfl⟩

/-- A worker takes what is submitted to it. -/
theorem submit_worker {t t' : ThreadId} {e : ExecutorRef} (h : submit t s e = some (.worker t')) :
    e = .worker t' := by
  cases e with
  | worker t'' =>
      cases h
      rfl
  | currentThread e =>
      simp only [submit] at h
      split at h
      · cases h
      · cases hclosest : s.closest e with
        | none => simp [hclosest] at h
        | some e' => simp [hclosest] at h
  | pool => cases h

/-- **Every step keeps the threads.** -/
theorem ThreadsMade.step (h : ThreadsMade s) (hs : (machine env).step s a = some s') :
    ThreadsMade s' := by
  have hmore : ∀ {t : ThreadId}, t < s.nextThread → t < s.nextThread + 1 := fun ht =>
    ht.trans (Nat.lt_succ_self _)
  have hframe : ∀ {t : ThreadId} {frame : SyncFrame} {rest : List SyncFrame},
      s.stack t = frame :: rest → t < s.nextThread := fun hstack => h.stack _ (by rw [hstack]; simp)
  have hcase := step_inv hs
  cases hcase with
  | callParent t frame rest force l hstack hcall hparent =>
      exact ⟨lt_of_update h.stack (hframe hstack), h.worker, h.sensitive, h.single⟩
  | callNewLoop t frame rest force hstack hcall hparent =>
      exact ⟨fun t' ht' => hmore (lt_of_update h.stack (hframe hstack) t' ht'),
        fun t' ht' => hmore (h.worker t' ht'), fun v t' ht' => hmore (h.sensitive v t' ht'),
        hmore h.single⟩
  | leave t frame rest c hstack hcall hbroken hempty =>
      exact ⟨lt_of_update h.stack (hframe hstack), h.worker, h.sensitive, h.single⟩
  | takeCancelled t x q q' hdequeue hphase =>
      exact ⟨h.stack, (h.dequeue hdequeue).2, h.sensitive, h.single⟩
  | take t x q q' context hdequeue hqueued hrestore =>
      obtain ⟨ht, hq⟩ := h.dequeue hdequeue
      exact ⟨lt_of_update h.stack ht, hq, h.sensitive, h.single⟩
  | takeRaising t x q q' context e hdequeue hqueued hrestore =>
      exact ⟨h.stack, (h.dequeue hdequeue).2, h.sensitive, h.single⟩
  | ret t frame rest x r hstack hitem hcall =>
      exact ⟨lt_of_update h.stack (hframe hstack), h.worker, h.sensitive, h.single⟩
  | startLoop context =>
      exact ⟨fun t' ht' => hmore (h.stack t' ht'), fun t' ht' => hmore (h.worker t' ht'),
        fun v t' ht' => hmore (h.sensitive v t' ht'), hmore h.single⟩
  | syncToAsync k b custom selection executor hstatus hlive hselect hsubmit =>
      obtain ⟨hold, hnew⟩ := selectExecutor_thread h hselect
      cases hthread : selection.newThread with
      | false =>
          simp only [addWorker, awaitItem, hthread]
          refine ⟨h.stack, ?_, h.sensitive, h.single⟩
          cases executor with
          | worker t' =>
              exact lt_of_update h.worker (hold hthread t' (submit_worker hsubmit))
          | currentThread e => exact h.worker
          | pool => exact h.worker
      | true =>
          simp only [addWorker, awaitItem, hthread]
          refine ⟨fun t' ht' => hmore (h.stack t' ht'), ?_, fun v t' ht' => ?_, hmore h.single⟩
          · -- the new worker has the number that is taken now
            rw [hnew hthread] at hsubmit
            cases hsubmit
            exact lt_of_update (fun t' ht' => hmore (h.worker t' ht')) (Nat.lt_succ_self _)
          · cases b with
            | false => exact hmore (h.sensitive v t' ht')
            | true =>
                cases hcontext : sensitiveContext selection.context with
                | none =>
                    rw [hcontext] at ht'
                    exact hmore (h.sensitive v t' ht')
                | some v' =>
                    rw [hcontext] at ht'
                    simp only at ht'
                    by_cases heq : v = v'
                    · subst heq
                      rw [Function.update_self] at ht'
                      cases ht'
                      exact Nat.lt_succ_self _
                    · rw [Function.update_of_ne heq] at ht'
                      exact hmore (h.sensitive v t' ht')
  | _ => exact { h with }

/-! ## Loops and their calls -/

/-- The loops that calls have started. -/
structure NewLoops (s : State) : Prop where
  made : ∀ l c, (s.loop l).call = some c →
    l < s.nextLoop ∧ c < s.nextCall ∧ (s.call c).newLoop = true ∧ (s.call c).loop = l
  loop : ∀ c, c < s.nextCall → (s.call c).newLoop = true → (s.loop (s.call c).loop).call = some c
  thread : ∀ l c, (s.loop l).call = some c → (s.loop l).thread ≠ (s.call c).thread
  broken : ∀ l c, (s.loop l).call = some c → s.loopRunning l = true → s.broken c = false
  executor : ∀ l c, s.loopExecutor l = some c ↔
    (s.loop l).call = some c ∧ (s.status (s.call c).main).underWay = true

theorem newLoops_init (contexts : List Context) : NewLoops (init contexts) where
  made l c hc := by cases hc
  loop c hc := absurd hc (Nat.not_lt_zero c)
  thread l c hc := by cases hc
  broken l c hc := by cases hc
  executor l c := by simp [init]

namespace NewLoops

/-- A task comes to another point, and is under way as before, or runs no `main_wrap`. -/
theorem setStatus (h : NewLoops s) (hmains : Mains s) {k : TaskId} {p : TaskStatus}
    (hk : p.underWay = (s.status k).underWay ∨ (s.task k).call = none) :
    NewLoops (setStatus k p s) := by
  refine { h with executor := fun l c => ?_ }
  rw [show (Runtime.setStatus k p s).loopExecutor = s.loopExecutor from rfl, h.executor l c]
  refine and_congr_right fun hcall => ?_
  have hmain := hmains.main c (h.made l c hcall).2.1
  simp only [Runtime.setStatus]
  by_cases heq : (s.call c).main = k
  · subst heq
    rw [Function.update_self]
    rcases hk with hp | hnone
    · rw [hp]
    · rw [hnone] at hmain
      cases hmain
  · rw [Function.update_of_ne heq]

/-- A task is made. -/
theorem addTask (h : NewLoops s) (hmains : Mains s) (task : Task) (p : TaskStatus)
    (context : Context) : NewLoops (addTask task p context s) := by
  refine { h with executor := fun l c => ?_ }
  rw [show (Runtime.addTask task p context s).loopExecutor = s.loopExecutor from rfl,
    h.executor l c]
  refine and_congr_right fun hcall => ?_
  have hlt := (hmains.call _ c (hmains.main c (h.made l c hcall).2.1)).2.1
  simp only [Runtime.addTask]
  rw [Function.update_of_ne hlt.ne]

/-- A loop of the user's own starts. -/
theorem startLoop (h : NewLoops s) (t : ThreadId) (running : LoopId → Bool)
    (hrunning : ∀ l, l < s.nextLoop → running l = s.loopRunning l) :
    NewLoops { s with
      loop := Function.update s.loop s.nextLoop ⟨t, none⟩
      loopRunning := running
      nextLoop := s.nextLoop + 1 } := by
  have hold : ∀ l c, (Function.update s.loop s.nextLoop ⟨t, none⟩ l).call = some c ↔
      (s.loop l).call = some c := fun l c => by
    by_cases heq : l = s.nextLoop
    · subst heq
      rw [Function.update_self]
      refine ⟨fun hc => (by cases hc), fun hc => ?_⟩
      exact absurd (h.made _ c hc).1 (lt_irrefl _)
    · rw [Function.update_of_ne heq]
  refine ⟨fun l c hc => ?_, fun c hc hnew => ?_, fun l c hc => ?_, fun l c hc hl => ?_,
    fun l c => ?_⟩
  · obtain ⟨hl, hrest⟩ := h.made l c ((hold l c).mp hc)
    exact ⟨hl.trans (Nat.lt_succ_self _), hrest⟩
  · exact (hold _ c).mpr (h.loop c hc hnew)
  · have hc' := (hold l c).mp hc
    show (Function.update s.loop s.nextLoop _ l).thread ≠ (s.call c).thread
    rw [Function.update_of_ne (h.made l c hc').1.ne]
    exact h.thread l c hc'
  · have hc' := (hold l c).mp hc
    exact h.broken l c hc' ((hrunning l (h.made l c hc').1).symm.trans hl)
  · exact (h.executor l c).trans (and_congr_left fun _ => (hold l c).symm)

/-- A frame makes a call on its parent loop. -/
theorem callParent (h : NewLoops s) (hmains : Mains s) {t : ThreadId} {frame : SyncFrame}
    {rest : List SyncFrame} {made : Call} (hmade : made.newLoop = false) (base : Context)
    (p : TaskStatus) : NewLoops (park env t frame rest made base p s) := by
  have hne : ∀ {l c}, (s.loop l).call = some c → c ≠ s.nextCall := fun {l c} hc =>
    (h.made l c hc).2.1.ne
  refine ⟨fun l c hc => ?_, fun c hc hnew => ?_, fun l c hc => ?_, fun l c hc hl => ?_,
    fun l c => ?_⟩
  · obtain ⟨hl, hlt, hrest⟩ := h.made l c hc
    simp only [park]
    rw [Function.update_of_ne hlt.ne]
    exact ⟨hl, hlt.trans (Nat.lt_succ_self _), hrest⟩
  · simp only [park] at hc hnew ⊢
    by_cases heq : c = s.nextCall
    · subst heq
      rw [Function.update_self, hmade] at hnew
      cases hnew
    · rw [Function.update_of_ne heq] at hnew ⊢
      exact h.loop c (lt_of_le_of_ne (Nat.lt_succ_iff.mp hc) heq) hnew
  · simp only [park]
    rw [Function.update_of_ne (hne hc)]
    exact h.thread l c hc
  · simp only [park]
    rw [Function.update_of_ne (hne hc)]
    exact h.broken l c hc hl
  · refine (h.executor l c).trans (and_congr_right fun hc => ?_)
    have hlt := (hmains.call _ c (hmains.main c (h.made l c hc).2.1)).2.1
    simp only [park]
    rw [Function.update_of_ne (hne hc), Function.update_of_ne hlt.ne]

/-- A call that a frame has made gets a loop of its own, on a new thread. -/
theorem callNewLoop (h : NewLoops s) (hmains : Mains s) (t : ThreadId) (frame : SyncFrame)
    (rest : List SyncFrame) (made : Call) (hnew : made.newLoop = true)
    (hloop : made.loop = s.nextLoop) (hmain : made.main = s.nextTask)
    (hthread : made.thread < s.nextThread) (base : Context) {p : TaskStatus}
    (hp : p.underWay = false) :
    NewLoops { park env t frame rest made base p s with
      loop := Function.update s.loop s.nextLoop ⟨s.nextThread, some s.nextCall⟩
      loopRunning := Function.update s.loopRunning s.nextLoop true
      nextThread := s.nextThread + 1
      nextLoop := s.nextLoop + 1 } := by
  have hne : ∀ {l c}, (s.loop l).call = some c → l ≠ s.nextLoop ∧ c ≠ s.nextCall := fun {l c} hc =>
    ⟨(h.made l c hc).1.ne, (h.made l c hc).2.1.ne⟩
  have hcall : ∀ {l c}, (Function.update s.loop s.nextLoop ⟨s.nextThread, some s.nextCall⟩ l).call
      = some c → (l = s.nextLoop ∧ c = s.nextCall) ∨ (s.loop l).call = some c := fun {l c} hc => by
    by_cases heq : l = s.nextLoop
    · subst heq
      rw [Function.update_self] at hc
      exact .inl ⟨rfl, (Option.some.inj hc).symm⟩
    · rw [Function.update_of_ne heq] at hc
      exact .inr hc
  refine ⟨fun l c hc => ?_, fun c hc hnew' => ?_, fun l c hc => ?_, fun l c hc hl => ?_,
    fun l c => ?_⟩
  · rcases hcall hc with ⟨rfl, rfl⟩ | hold
    · simp only [park, Function.update_self]
      exact ⟨Nat.lt_succ_self _, Nat.lt_succ_self _, hnew, hloop⟩
    · obtain ⟨hl, hlt, hrest⟩ := h.made l c hold
      simp only [park]
      rw [Function.update_of_ne hlt.ne]
      exact ⟨hl.trans (Nat.lt_succ_self _), hlt.trans (Nat.lt_succ_self _), hrest⟩
  · simp only [park] at hc hnew' ⊢
    by_cases heq : c = s.nextCall
    · subst heq
      rw [Function.update_self, hloop, Function.update_self]
    · rw [Function.update_of_ne heq] at hnew' ⊢
      have hold := h.loop c (lt_of_le_of_ne (Nat.lt_succ_iff.mp hc) heq) hnew'
      rwa [Function.update_of_ne (hne hold).1]
  · rcases hcall hc with ⟨rfl, rfl⟩ | hold
    · simp only [park, Function.update_self]
      exact hthread.ne'
    · simp only [park]
      rw [Function.update_of_ne (hne hold).1, Function.update_of_ne (hne hold).2]
      exact h.thread l c hold
  · rcases hcall hc with ⟨rfl, rfl⟩ | hold
    · simp only [park, Function.update_self]
    · simp only [park] at hl ⊢
      rw [Function.update_of_ne (hne hold).1] at hl
      rw [Function.update_of_ne (hne hold).2]
      exact h.broken l c hold hl
  · simp only [park]
    rw [h.executor l c]
    by_cases heq : l = s.nextLoop
    · -- the new loop has no entry, since its task has not begun
      subst heq
      rw [Function.update_self]
      constructor
      · rintro ⟨hold, -⟩
        exact absurd rfl (hne hold).1
      · rintro ⟨hc, hunder⟩
        obtain rfl := (Option.some.inj hc).symm
        rw [Function.update_self, hmain, Function.update_self, hp] at hunder
        cases hunder
    · rw [Function.update_of_ne heq]
      refine and_congr_right fun hold => ?_
      have hlt := (hmains.call _ c (hmains.main c (h.made l c hold).2.1)).2.1
      rw [Function.update_of_ne (hne hold).2, Function.update_of_ne hlt.ne]

/-- An entry at the loop of call `c` is made or removed: the entries of other calls are those there
were. -/
theorem entry_other (h : NewLoops s) {c c' : CallId} (hc : c < s.nextCall) (hne : c' ≠ c)
    {entry : Option CallId} (hentry : entry ≠ some c') (l : LoopId) :
    (if (s.call c).newLoop then Function.update s.loopExecutor (s.call c).loop entry
      else s.loopExecutor) l = some c' ↔ s.loopExecutor l = some c' := by
  split
  · rename_i hnew
    by_cases hl : l = (s.call c).loop
    · subst hl
      rw [Function.update_self]
      refine ⟨fun heq => absurd heq hentry, fun hold => ?_⟩
      -- an entry of `c'` is at the loop of `c'`, which is not that of `c`
      have hcall := ((h.executor _ c').mp hold).1
      rw [h.loop c hc hnew] at hcall
      exact absurd (Option.some.inj hcall).symm hne
    · rw [Function.update_of_ne hl]
  · rfl

/-- The task of one call is not that of another. -/
theorem main_ne (h : NewLoops s) (hmains : Mains s) {k : TaskId} {c c' : CallId} {l : LoopId}
    (hcall : (s.task k).call = some c) (hne : c' ≠ c) (hc' : (s.loop l).call = some c') :
    (s.call c').main ≠ k := by
  intro hk
  have hmain := hmains.main c' (h.made l c' hc').2.1
  rw [hk, hcall] at hmain
  exact hne (Option.some.inj hmain).symm

/-- The first step of `new_loop_wrap` makes the entry. -/
theorem startMain (h : NewLoops s) (hmains : Mains s) {k : TaskId} {c : CallId}
    (hcall : (s.task k).call = some c) (context : Context) :
    NewLoops (startMain k c context s) := by
  obtain ⟨hc, -, hmain, -⟩ := hmains.call k c hcall
  refine { h with executor := fun l c' => ?_ }
  simp only [Runtime.startMain, registerExecutor]
  by_cases heq : c' = c
  · subst heq
    rw [hmain, Function.update_self]
    have hiff : (s.loop l).call = some c' ↔ (s.call c').newLoop = true ∧ l = (s.call c').loop := by
      constructor
      · intro hcall'
        obtain ⟨-, -, hnew, hloop⟩ := h.made l c' hcall'
        exact ⟨hnew, hloop.symm⟩
      · rintro ⟨hnew, rfl⟩
        exact h.loop c' hc hnew
    rw [hiff]
    by_cases hnew : (s.call c').newLoop = true
    · rw [if_pos hnew]
      by_cases hl : l = (s.call c').loop
      · subst hl
        rw [Function.update_self]
        exact ⟨fun _ => ⟨⟨hnew, rfl⟩, rfl⟩, fun _ => rfl⟩
      · rw [Function.update_of_ne hl, h.executor l c', hiff]
        exact ⟨fun hold => absurd hold.1.2 hl, fun hold => absurd hold.1.2 hl⟩
    · rw [if_neg hnew, h.executor l c', hiff]
      exact ⟨fun hold => absurd hold.1.1 hnew, fun hold => absurd hold.1.1 hnew⟩
  · rw [h.entry_other hc heq (fun hsome => heq (Option.some.inj hsome).symm) l, h.executor l c']
    refine and_congr_right fun hcall' => ?_
    rw [Function.update_of_ne (h.main_ne hmains hcall heq hcall')]

/-- The `finally` block of `new_loop_wrap` removes the entry. -/
theorem finishMain (h : NewLoops s) (hmains : Mains s) {k : TaskId} {c : CallId}
    (hcall : (s.task k).call = some c) (r : Result) (mustCancel : Bool) :
    NewLoops (finishMain k c r mustCancel s) := by
  obtain ⟨hc, -, hmain, -⟩ := hmains.call k c hcall
  refine { h with broken := fun l c' hcall' hl => ?_, executor := fun l c' => ?_ }
  · simp only [Runtime.finishMain]
    by_cases heq : c' = c
    -- on a new loop the executor is broken by `loop_future`, not by `call_result`
    · subst heq
      rw [Function.update_self, h.broken l c' hcall' hl, (h.made l c' hcall').2.2.1]
      rfl
    · rw [Function.update_of_ne heq]
      exact h.broken l c' hcall' hl
  · simp only [Runtime.finishMain, removeExecutor]
    by_cases heq : c' = c
    · subst heq
      rw [hmain, Function.update_self]
      refine ⟨fun hentry => ?_, fun hunder => (by cases hunder.2)⟩
      -- an entry of this call is at its loop, from where it is removed
      split at hentry
      · rename_i hnew
        by_cases hl : l = (s.call c').loop
        · subst hl
          rw [Function.update_self] at hentry
          cases hentry
        · rw [Function.update_of_ne hl] at hentry
          exact absurd (h.made l c' ((h.executor l c').mp hentry).1).2.2.2.symm hl
      · rename_i hnew
        exact absurd (h.made l c' ((h.executor l c').mp hentry).1).2.2.1 hnew
    · rw [h.entry_other hc heq (by simp) l, h.executor l c']
      refine and_congr_right fun hcall' => ?_
      rw [Function.update_of_ne (h.main_ne hmains hcall heq hcall')]

/-- `asyncio.run` returns. -/
theorem closeLoop (h : NewLoops s) {l : LoopId} {c : CallId} (hcall : (s.loop l).call = some c) :
    NewLoops { s with
      loopRunning := Function.update s.loopRunning l false
      broken := Function.update s.broken c true } := by
  refine { h with broken := fun l' c' hcall' hl' => ?_ }
  have hrunning : Function.update s.loopRunning l false l' = true := hl'
  have hl : l' ≠ l := by
    rintro rfl
    rw [Function.update_self] at hrunning
    cases hrunning
  have hc : c' ≠ c := by
    rintro rfl
    exact hl ((h.made l' c' hcall').2.2.2.symm.trans (h.made l c' hcall).2.2.2)
  rw [Function.update_of_ne hl] at hrunning
  show Function.update s.broken c true c' = false
  rw [Function.update_of_ne hc]
  exact h.broken l' c' hcall' hrunning

/-- A loop of the user's own stops or runs again. -/
theorem toggleLoop (h : NewLoops s) {l : LoopId} (hown : (s.loop l).call = none) (b : Bool) :
    NewLoops { s with loopRunning := Function.update s.loopRunning l b } := by
  refine { h with broken := fun l' c' hcall' hl' => h.broken l' c' hcall' ?_ }
  have hne : l' ≠ l := by
    rintro rfl
    rw [hown] at hcall'
    cases hcall'
  rw [← hl']
  exact (Function.update_of_ne hne b s.loopRunning).symm

end NewLoops

/-- **Every step keeps the new loops.** -/
theorem NewLoops.step (h : NewLoops s) (hmains : Mains s) (hawaiting : Awaiting s)
    (hthreads : ThreadsMade s) (hs : (machine env).step s a = some s') : NewLoops s' := by
  have hend : ∀ {s : State} {x : ItemId} (r : Result), NewLoops s → Mains s → Awaiting s →
      ¬ s.Over x → NewLoops (endItem env x r s) := fun {s x} r h hmains hawaiting hx => by
    have hset := h.setStatus hmains (k := (s.item x).task) (p := .running)
      (.inl (by rw [hawaiting.item x hx]; rfl))
    exact { hset with }
  have hcancel : ∀ k, NewLoops (cancelTask k s) := fun k => by
    have hset := h.setStatus hmains (k := k) (p := (s.status k).cancel)
      (.inl (TaskStatus.cancel_underWay _))
    exact { hset with }
  have hcase := step_inv hs
  cases hcase with
  | callParent t frame rest force l hstack hcall hparent => exact h.callParent hmains rfl _ _
  | callNewLoop t frame rest force hstack hcall hparent =>
      have ht : t < s.nextThread := hthreads.stack t (by rw [hstack]; simp)
      exact h.callNewLoop hmains t frame rest (newCall env t frame force s.nextLoop true s) rfl rfl
        rfl ht _ rfl
  | spawnThreadsafe t frame rest l hstack hcall hl => exact h.addTask hmains _ _ _
  | startLoop context =>
      have hstart := h.startLoop s.nextThread (Function.update s.loopRunning s.nextLoop true)
        fun l hl => Function.update_of_ne hl.ne _ _
      have hmains' : Mains { s with
          loop := Function.update s.loop s.nextLoop ⟨s.nextThread, none⟩
          loopRunning := Function.update s.loopRunning s.nextLoop true
          nextLoop := s.nextLoop + 1 } := { hmains with }
      have hadd := hstart.addTask hmains' ⟨s.nextLoop, none, none⟩ .running context
      exact { hadd with }
  | spawn k custom hstatus hlive => exact h.addTask hmains _ _ _
  | closeGenerator l c context hshutting => exact h.addTask hmains _ _ _
  | create k hstatus hlive => exact h.setStatus hmains (.inl (by rw [hstatus]; rfl))
  | startCancelled k hlive hstatus => exact h.setStatus hmains (.inl (by rw [hstatus]; rfl))
  | startMain k c context hlive hstatus hcall hrestore => exact h.startMain hmains hcall context
  | failMain k c context e hlive hstatus hcall hrestore =>
      have hset := h.setStatus hmains (k := k) (p := .done false) (.inl (by rw [hstatus]; rfl))
      exact { hset with }
  | startTask k hlive hstatus hcall => exact h.setStatus hmains (.inr hcall)
  | awaitTask k k' hstatus hlive hk' => exact h.setStatus hmains (.inl (by rw [hstatus]; rfl))
  | resumeTask k k' hstatus hlive => exact h.setStatus hmains (.inl (by rw [hstatus]; rfl))
  | finishMain k c r mustCancel hstatus hlive hcall => exact h.finishMain hmains hcall r mustCancel
  | finishTask k r mustCancel hstatus hlive hcall => exact h.setStatus hmains (.inr hcall)
  | syncToAsync k b custom selection executor hstatus hlive hselect hsubmit =>
      have hset := h.setStatus hmains (k := k) (p := .awaitingItem s.nextItem)
        (.inl (by rw [hstatus]; rfl))
      exact { hset with }
  | complete x r hlive hawait hresult =>
      rcases hawait with hawait | hawait
      · exact hend r h hmains hawaiting (not_over hawait (by simp))
      · exact hend r h hmains hawaiting (not_over hawait (by simp))
  | cancel k => exact hcancel k
  | passOn x k rest hawait hlive htasks hloop =>
      have hset := hcancel k
      exact { hset with }
  | passOnOther x k rest hawait hlive htasks hloop =>
      have hover : ¬ (cancelTask k s).Over x :=
        mt (cancelTask_over k x).mp (not_over hawait (by simp))
      have hmains' : Mains (cancelTask k s) := { hmains with }
      have hended := hend (.error otherLoop) (hcancel k) hmains' (hawaiting.cancelTask k) hover
      exact { hended with }
  | deliverDone x hawait hlive htasks hresult =>
      exact hend _ h hmains hawaiting (not_over hawait (by simp))
  | resumeDone x k b hawait hstatus hlive hresult =>
      exact hend _ h hmains hawaiting (not_over hawait (by simp))
  | closeLoop l c hshutting => exact h.closeLoop hshutting.2.1
  | toggleLoop l hl hown => exact h.toggleLoop hown _
  | _ => exact { h with }

/-- **Every run keeps the threads and the new loops.** -/
theorem NewLoops.run {contexts : List Context}
    (h : (machine env).Run Machine.Any (init contexts) as s) : ThreadsMade s ∧ NewLoops s :=
  h.invariant_of (J := Listed) (I := fun s => ThreadsMade s ∧ NewLoops s) (fun _ _ => Listed.run)
    ⟨threadsMade_init contexts, newLoops_init contexts⟩
    fun _ _ _ hJ hI _ hs => ⟨hI.1.step hs, hI.2.step hJ.mains hJ.awaiting hI.1 hs⟩

end Runtime

end Asgiref
