import Asgiref.Calls.Frames

/-! # What a call of `AsyncToSync` leaves behind

A call makes itself the current executor of its thread's context, enters a new loop in
`loop_thread_executors`, and gives its executor to `run_until_future`. All of that is undone by the
end of the call, whatever the awaitable, the callable and the loops do, and whatever calls are made
below it.

* **`Finishes`** — what is assumed of `asyncio.run`: it does not return while its coroutine has
  begun and not ended.
* **`Table`** — what always holds of `loop_thread_executors` then: the loops in it are those whose
  coroutines are under way, and their calls have not ended.
* **`table_run`**, **`oldExecutor_run`** — what of its entries, and of what a call keeps, stays.
* **`LeftAsFound`**, **`leaves_as_found`** — what a call leaves. -/

namespace Asgiref

namespace Calls

open CurrentThreadExecutor (Chain step_change)

variable {env : Env} {chain : Chain} {context : ThreadId → Context} {s s' : State} {a : Action}

/-- The `asyncio.run` of a new loop does not return or raise while its main coroutine is under
way. -/
def Finishes (s : State) : Action → Prop
  | .executor (.resolve c) =>
      (s.call c).path = some .newLoop → (s.call c).coroutine.active = false
  | _ => True

/-! ## The table of loops -/

/-- What always holds of the table. -/
structure Table (s : State) : Prop where
  idle : ∀ c, (s.call c).path = none → (s.call c).coroutine.active = false
  entered : ∀ c, (s.loopThreadExecutors c).isSome →
    (s.call c).path = some .newLoop ∧ (s.call c).coroutine.active = true
  finished : ∀ c, (s.call c).path = some .newLoop → (s.executors.executor c).futureDone = true →
    (s.call c).coroutine.active = false

theorem table_init (context : ThreadId → Context) : Table (init context) where
  idle c _ := rfl
  entered c hc := by cases hc
  finished c hpath := by cases hpath

/-- A call without a frame has no entry. -/
theorem Table.none_of_over (h : Table s) (hinv : Inv chain s) {c : CallId}
    (hc : c ∉ s.stack (chain.workThread c)) : s.loopThreadExecutors c = none := by
  by_contra hsome
  obtain ⟨hpath, hactive⟩ := h.entered c (Option.isSome_iff_ne_none.mpr hsome)
  rcases hinv.frameless c hc with hnone | hdone
  · rw [hpath] at hnone
    cases hnone
  · rw [h.finished c hpath hdone] at hactive
    cases hactive

/-- One call changes. -/
theorem Table.setCall (h : Table s) {c : CallId} {call : Call} {entry : Option CallId}
    (hidle : call.path = none → call.coroutine.active = false)
    (hentered : entry.isSome → call.path = some .newLoop ∧ call.coroutine.active = true)
    (hfinished : call.path = some .newLoop → (s.executors.executor c).futureDone = true →
      call.coroutine.active = false) :
    Table { s.setCall c call with
      loopThreadExecutors := Function.update s.loopThreadExecutors c entry } where
  idle := (Function.forall_update_iff s.call fun _ call =>
    call.path = none → call.coroutine.active = false).mpr ⟨hidle, fun c' _ => h.idle c'⟩
  entered c' hsome := by
    revert hsome
    show (Function.update s.loopThreadExecutors c entry c').isSome →
      (Function.update s.call c call c').path = some .newLoop ∧
        (Function.update s.call c call c').coroutine.active = true
    by_cases hc : c' = c
    · subst hc
      rw [Function.update_self, Function.update_self]
      exact hentered
    · rw [Function.update_of_ne hc, Function.update_of_ne hc]
      exact h.entered c'
  finished := (Function.forall_update_iff s.call fun c' call => call.path = some .newLoop →
    (s.executors.executor c').futureDone = true → call.coroutine.active = false).mpr
    ⟨hfinished, fun c' _ => h.finished c'⟩

/-- One call changes, and its entry does not. -/
theorem Table.setCall_same (h : Table s) {c : CallId} {call : Call}
    (hidle : call.path = none → call.coroutine.active = false)
    (hentered : (s.loopThreadExecutors c).isSome →
      call.path = some .newLoop ∧ call.coroutine.active = true)
    (hfinished : call.path = some .newLoop → (s.executors.executor c).futureDone = true →
      call.coroutine.active = false) : Table (s.setCall c call) := by
  have hsame := h.setCall hidle hentered hfinished
  rwa [Function.update_eq_self] at hsame

/-- A step of the executors alone. -/
theorem Table.setExecutors (h : Table s) {b : CurrentThreadExecutor.Action}
    {executors : CurrentThreadExecutor.State}
    (hstep : (CurrentThreadExecutor.machine chain).step s.executors b = some executors)
    (hfinishes : ∀ c, b = .resolve c → (s.call c).path = some .newLoop →
      (s.call c).coroutine.active = false) (entered : ThreadId → List Context) :
    Table { s with executors := executors, entered := entered } :=
  { h with
    finished := fun c hpath hdone => by
      rcases (step_change hstep c).futureDone with hsame | ⟨hb, -⟩
      · exact h.finished c hpath (hsame.symm.trans hdone)
      · exact hfinishes c hb hpath }

/-- **Every step keeps the table.** -/
theorem Table.step (h : Table s) (hinv : Inv chain s) (hfinishes : Finishes s a)
    (hs : (machine env chain).step s a = some s') : Table s' := by
  cases step_inv hs with
  | @call t hfree hthread =>
      -- the new call has had no frame so far, and so no entry
      have hnone : s.loopThreadExecutors s.next = none := by
        refine h.none_of_over hinv fun hmem => ?_
        exact Nat.lt_irrefl _ (hinv.below _ _ hmem).1
      have hcall : Table (s.setCall s.next ⟨s.current env t, Local.setattr (env.getIdent t)
          (s.context t) executors "current" (.executor s.next), none, .notStarted⟩) := by
        refine h.setCall_same (fun _ => rfl) (fun hsome => ?_) fun hpath => by cases hpath
        rw [hnone] at hsome
        cases hsome
      exact { hcall with }
  | work => exact { h with }
  | @schedule t c rest path hstack hpath =>
      refine h.setCall_same (fun _ => h.idle c hpath) (fun hsome => ?_) fun _ _ => h.idle c hpath
      rw [(h.entered c hsome).1] at hpath
      cases hpath
  | leave => exact { h with }
  | enterItem context hstack hstart => exact h.setExecutors hstart (fun _ heq => by cases heq) _
  | dropItem context hstack hstart => exact h.setExecutors hstart (fun _ heq => by cases heq) _
  | leaveItem hstack hfinish => exact h.setExecutors hfinish (fun _ heq => by cases heq) _
  | @startOnParent c hpath hcoroutine =>
      refine h.setCall_same (fun hnone => ?_) (fun hsome => ⟨(h.entered c hsome).1, rfl⟩)
        fun hnew => ?_
      · rw [hpath] at hnone
        cases hnone
      · rw [hpath] at hnew
        cases hnew
  | @startOnNew c hpath hcoroutine hdone =>
      refine h.setCall (fun hnone => ?_) (fun _ => ⟨hpath, rfl⟩) fun _ hdone' => ?_
      · rw [hpath] at hnone
        cases hnone
      · rw [hdone] at hdone'
        cases hdone'
  | @capture c context hcoroutine =>
      have hactive : (s.call c).coroutine.active = true := by rw [hcoroutine]; rfl
      refine h.setCall_same (fun hnone => ?_) (fun hsome => ⟨(h.entered c hsome).1, rfl⟩)
        fun hnew hdone => ?_
      · rw [h.idle c hnone] at hactive
        cases hactive
      · rw [h.finished c hnew hdone] at hactive
        cases hactive
  | finishOnNew hpath hactive =>
      exact h.setCall (fun _ => rfl) (fun hsome => by cases hsome) fun _ _ => rfl
  | @finish c hpath hactive =>
      exact h.setCall_same (fun _ => rfl) (fun hsome => absurd (h.entered c hsome).1 hpath)
        fun _ _ => rfl
  | executor hallows hstep =>
      refine h.setExecutors hstep (fun c heq => ?_) _
      subst heq
      exact hfinishes

theorem Table.run {as : List Action}
    (h : (machine env chain).Run Finishes (init context) as s) : Table s :=
  h.invariant_of (J := Inv chain) (fun _ _ hrun => Inv.run (hrun.mono fun _ _ _ => trivial))
    (table_init context) fun _ _ _ hJ hI hG hs => hI.step hJ hG hs

/-- An entry is made and deleted by the coroutine of the loop's own call. -/
theorem table_step (hs : (machine env chain).step s a = some s') (l : LoopId) :
    s'.loopThreadExecutors l = s.loopThreadExecutors l ∨
      a = .startCoroutine l ∨ a = .finishCoroutine l := by
  cases step_inv hs with
  | @startOnNew c =>
      by_cases hl : l = c
      · exact .inr (.inl (by rw [hl]))
      · exact .inl (Function.update_of_ne hl _ _)
  | @finishOnNew c =>
      by_cases hl : l = c
      · exact .inr (.inr (by rw [hl]))
      · exact .inl (Function.update_of_ne hl _ _)
  | _ => exact .inl rfl

theorem table_run {bs : List Action} (h : (machine env chain).Run Machine.Any s bs s') (l : LoopId)
    (hl : Action.startCoroutine l ∉ bs ∧ Action.finishCoroutine l ∉ bs) :
    s'.loopThreadExecutors l = s.loopThreadExecutors l := by
  induction h with
  | nil => rfl
  | @snoc bs s₁ s₂ a _ _ hs ih =>
      rw [List.mem_append, List.mem_append, not_or, not_or] at hl
      rcases table_step hs l with hsame | rfl | rfl
      · exact hsame.trans (ih ⟨hl.1.1, hl.2.1⟩)
      · exact absurd List.mem_cons_self hl.1.2
      · exact absurd List.mem_cons_self hl.2.2

/-! ## What a call keeps -/

theorem oldExecutor_step {c : CallId} (hc : c < s.next)
    (hs : (machine env chain).step s a = some s') :
    (s'.call c).oldExecutor = (s.call c).oldExecutor := by
  have hset : ∀ (c' : CallId) (call : Call), call.oldExecutor = (s.call c').oldExecutor →
      (Function.update s.call c' call c).oldExecutor = (s.call c).oldExecutor := by
    intro c' call hsame
    exact (Function.forall_update_iff s.call fun c call =>
      call.oldExecutor = (s.call c).oldExecutor).mpr ⟨hsame, fun _ _ => rfl⟩ c
  cases step_inv hs with
  | call =>
      show (Function.update s.call s.next _ c).oldExecutor = _
      rw [Function.update_of_ne (Nat.ne_of_lt hc)]
  | schedule | startOnParent | startOnNew | capture | finishOnNew | finish => exact hset _ _ rfl
  | work | leave | enterItem | dropItem | leaveItem | executor => rfl

/-- `old_executor` is what was the current executor when the call began. -/
theorem oldExecutor_run {t : ThreadId} {s₁ s₂ : State} {bs : List Action}
    (hcall : (machine env chain).step s₁ (.call t) = some s₂)
    (hrun : (machine env chain).Run Machine.Any s₂ bs s) :
    (s.call s₁.next).oldExecutor = s₁.current env t := by
  refine (hrun.invariant (I := fun s => s₁.next < s.next ∧
    (s.call s₁.next).oldExecutor = s₁.current env t) ?_ fun s a s' hI _ hs =>
      ⟨Nat.lt_of_lt_of_le hI.1 (next_step hs), (oldExecutor_step hI.1 hs).trans hI.2⟩).2
  cases step_inv hcall with
  | call =>
      refine ⟨Nat.lt_succ_self _, ?_⟩
      show (Function.update s₁.call s₁.next _ s₁.next).oldExecutor = _
      rw [Function.update_self]

/-! ## What a call leaves -/

/-- Thread `t` makes a call after the actions `as`, and ends it after `bs`. -/
structure Spans (env : Env) (chain : Chain) (context : ThreadId → Context)
    (G : State → Action → Prop) (t : ThreadId) (as bs : List Action) (s₁ s₃ s₄ : State) : Prop where
  before : (machine env chain).Run G (init context) as s₁
  during : (machine env chain).Run G s₁ (.call t :: bs) s₃
  innermost : (s₃.stack t).head? = some s₁.next
  leave : (machine env chain).step s₃ (.leave t) = some s₄

/-- What thread `t` finds when it has ended the call that it made in state `s₁`. -/
structure LeftAsFound (env : Env) (chain : Chain) (t : ThreadId) (bs : List Action)
    (s₁ s₃ s₄ : State) : Prop where
  /-- The thread is in the frames and in the context that it was in, ... -/
  stack : s₄.stack t = s₁.stack t
  entered : (s₄.entered t).tail = (s₁.entered t).tail
  /-- ... where it has the same current executor. -/
  current : s₄.current env t = s₁.current env t
  /-- The table has the same entries for the thread's calls but those around this one, ... -/
  table : ∀ l, chain.workThread l = t → l ∉ s₁.stack t →
    s₄.loopThreadExecutors l = s₁.loopThreadExecutors l
  /-- ... and for every call whose own coroutine has neither begun nor ended in between. -/
  others : ∀ l, Action.startCoroutine l ∉ bs ∧ Action.finishCoroutine l ∉ bs →
    s₄.loopThreadExecutors l = s₁.loopThreadExecutors l
  /-- If `run_until_future` was entered, the call's executor is broken and has an empty queue. -/
  executor : s₃.loop s₁.next ≠ .notCalled →
    (s₄.executors.executor s₁.next).broken = true ∧
      (s₄.executors.executor s₁.next).workItems = []

/-- **A call leaves the bookkeeping as it found it**, in every run and at every depth, if what
`context[0]` holds at its end can be restored and every `asyncio.run` ends its coroutine. -/
theorem leaves_as_found {as bs : List Action} {t : ThreadId} {s₁ s₃ s₄ : State}
    (h : Spans env chain context Finishes t as bs s₁ s₃ s₄)
    (hrestorable : Restorable env.ne (env.getIdent t) (s₃.context t) (s₃.call s₁.next).context) :
    LeftAsFound env chain t bs s₁ s₃ s₄ := by
  obtain ⟨s₂, hcall, hrun⟩ := h.during.cons_inv
  have hinv₁ := Inv.run (h.before.mono fun _ _ _ => trivial)
  have hrun' : (machine env chain).Run Machine.Any s₂ bs s₃ := hrun.mono fun _ _ _ => trivial
  obtain ⟨hinv₃, -, hframed⟩ := framed_run hinv₁ hcall hrun'
  have hinv₄ := hinv₃.step h.leave
  have hfinishes : Finishes s₃ (.leave t) := trivial
  have htable₁ := Table.run h.before
  have htable₄ := (Table.run (h.before.append h.during)).step hinv₃ hfinishes h.leave
  have hold := oldExecutor_run hcall hrun'
  cases step_inv h.leave with
  | @leave _ c rest hstack hover =>
      obtain rfl : c = s₁.next := by
        have htop := h.innermost
        rw [hstack] at htop
        exact Option.some.inj htop
      have hidle : (s₃.loop s₁.next).isRunning = false := by
        rcases hover with ⟨hnot, -⟩ | hreturned
        · rw [hnot]
          rfl
        · rw [hreturned]
          rfl
      obtain ⟨rfl, houter⟩ := hframed.top hinv₃ hstack hidle
      have hstack₄ : Function.update s₃.stack t (s₁.stack t) t = s₁.stack t :=
        Function.update_self ..
      refine ⟨hstack₄, ?_, ?_, fun l hthread hl => ?_, fun l hl => ?_, fun hentered => ?_⟩
      · show (Function.update s₃.entered t _ t).tail = _
        rw [Function.update_self, List.tail_cons, houter]
      · -- restoring reaches its end, and the old executor is set after it
        have hrestored := restoreContext_none_iff.mpr hrestorable
        show currentExecutor (env.getIdent t) ((Function.update s₃.entered t _ t).headD ∅) = _
        rw [Function.update_self, List.headD_cons]
        unfold leaveContext
        generalize restoreContext env.ne (env.getIdent t) (s₃.context t)
          (s₃.call s₁.next).context = restored at hrestored ⊢
        obtain ⟨c, raised⟩ := restored
        obtain rfl : raised = none := hrestored
        rw [currentExecutor_setattr, hold]
      · -- such a call has no frame, before or after
        subst hthread
        rw [htable₁.none_of_over hinv₁ hl]
        refine htable₄.none_of_over hinv₄ fun hmem => hl ?_
        rw [← hstack₄]
        exact hmem
      · exact table_run (h.during.mono fun _ _ _ => trivial) l (by simpa using hl)
      · have hreturned : (s₃.executors.executor s₁.next).loop = .returned :=
          hover.resolve_left fun hnot => hentered hnot.1
        exact ((hinv₃.executors.executor s₁.next).returned hreturned).symm

/-- Thread 7 runs an item in the frame of a call that has started a loop. -/
def inLoop : List Action :=
  [.call 7, .schedule 7 .newLoop, .executor (.enter 0 7), .startCoroutine 0,
    .executor (.submit 0 9 0), .executor (.walk 0), .executor (.check 0), .enterItem 7 inItem]

/-- A call on the parent loop, which is the first call's, and returns from `run_until_future`. -/
def onParentLoop : List Action :=
  [.schedule 7 .parentLoop, .executor (.enter 1 7), .startCoroutine 1, .capture 1 inItem,
    .executor (.resolve 1), .executor (.done 1), .executor (.check 1)]

/-- The second call does all that stands between its begin and its end. -/
theorem onParentLoop_spans :
    ∃ s₁ s₃ s₄, (machine plainEnv nestedFrames).exec (init fun _ => ∅) inLoop = some s₁ ∧
      (machine plainEnv nestedFrames).exec s₁ (.call 7 :: onParentLoop) = some s₃ ∧
      Restorable plainEnv.ne (plainEnv.getIdent 7) (s₃.context 7) (s₃.call s₁.next).context ∧
      Spans plainEnv nestedFrames (fun _ => ∅) Finishes 7 inLoop onParentLoop s₁ s₃ s₄ := by
  have hfinishes : ∀ a ∈ inLoop, ∀ s, Finishes s a := by
    simp [inLoop, Finishes]
  have hbefore : ∀ a ∈ Action.call 7 :: onParentLoop.take 4, ∀ s, Finishes s a := by
    simp [onParentLoop, Finishes]
  have hafter : ∀ a ∈ onParentLoop.drop 5, ∀ s, Finishes s a := by
    simp [onParentLoop, Finishes]
  refine ⟨_, _, _, rfl, rfl, restoreContext_none_iff.mp rfl, ?_, ?_, rfl, rfl⟩
  · exact Machine.exec_run_of hfinishes rfl
  · show (machine plainEnv nestedFrames).Run Finishes _ (Action.call 7 :: onParentLoop.take 4 ++
      [.executor (.resolve 1)] ++ onParentLoop.drop 5) _
    have hresolve : ∀ s : State, (s.call 1).path = some .parentLoop →
        Finishes s (.executor (.resolve 1)) := by
      intro s hparent hnew
      rw [hparent] at hnew
      cases hnew
    exact (Machine.Run.snoc (Machine.exec_run_of hbefore rfl) (hresolve _ rfl) rfl).append
      (Machine.exec_run_of hafter rfl)

theorem leaves_as_found_nested :
    ∃ s₁ s₃ s₄, (machine plainEnv nestedFrames).exec (init fun _ => ∅) inLoop = some s₁ ∧
      (machine plainEnv nestedFrames).exec s₁ (.call 7 :: onParentLoop) = some s₃ ∧
      (machine plainEnv nestedFrames).step s₃ (.leave 7) = some s₄ ∧
      LeftAsFound plainEnv nestedFrames 7 onParentLoop s₁ s₃ s₄ := by
  obtain ⟨s₁, s₃, s₄, hbefore, hduring, hrestorable, hspans⟩ := onParentLoop_spans
  exact ⟨s₁, s₃, s₄, hbefore, hduring, hspans.leave, leaves_as_found hspans hrestorable⟩

/-- The first call's coroutine ends on its loop, which has only begun the item. -/
def outerEnds : List Action := [.capture 0 inItem, .finishCoroutine 0]

/-- A context with a tuple of one item in a variable of other code that has the name of a
`Local`'s. -/
def foreignStorage : Context :=
  (∅ : Context).insert (.user "asgiref.local" ⟨5, none⟩) (.tuple [.int 8])

/-- A call can find its thread's table changed, by the coroutine of a call around it; and where
`_restore_context` raises, the old executor is not set. -/
theorem not_left_as_found :
    (∃ s₁ s₃ s₄, (machine plainEnv nestedFrames).exec (init fun _ => ∅) inLoop = some s₁ ∧
      (machine plainEnv nestedFrames).exec s₁ (.call 7 :: outerEnds) = some s₃ ∧
      (machine plainEnv nestedFrames).step s₃ (.leave 7) = some s₄ ∧
      nestedFrames.workThread 0 = 7 ∧
      s₁.loopThreadExecutors 0 = some 0 ∧ s₄.loopThreadExecutors 0 = none) ∧
    ∃ s₃ s₄,
      (machine plainEnv nestedFrames).exec (init fun _ => foreignStorage) [.call 7] = some s₃ ∧
      (machine plainEnv nestedFrames).step s₃ (.leave 7) = some s₄ ∧
      (init fun _ => foreignStorage).current plainEnv 7 = .none ∧
      s₄.current plainEnv 7 = .executor 0 :=
  ⟨⟨_, _, _, rfl, rfl, rfl, rfl, rfl, rfl⟩, _, _, rfl, rfl, rfl, rfl⟩

end Calls

end Asgiref
