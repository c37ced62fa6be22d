import Asgiref.Handshake.Machine

/-! # When the caller is released

The caller of `AsyncToSync` waits for `call_result`, which only `main_wrap` resolves, inside its
`try` and after it. A task that ends before it is there, and a loop that is closed while the task is
under way, leave the caller parked for good.

* **`Stranded`** — the caller is parked, and nothing will resolve `call_result`.
* **`Reaches`** — the condition on a step that `main_wrap` gets into its `try` and ends before the
  loop is closed.
* **`stranded_iff`** — on the parent loop a run strands the caller exactly where one of its steps
  breaks that condition. -/

namespace Asgiref

namespace Handshake

/-- The task is finished or the loop closed, and the caller is parked with `call_result`
unresolved. -/
def Stranded (s : State) : Prop :=
  (s.task.done = true ∨ s.loop = .closed) ∧ s.callResult = none ∧ s.caller = .parked

/-- The first step of the task is not one of a cancelled task, and the context it restores can be
restored there; the loop is closed after the task has finished. -/
def Reaches (config : Config) (s : State) : Action → Prop
  | .start => s.task ≠ .created true ∧
      Restorable config.ne config.loopIdent s.taskContext s.slot
  | .close => s.task.done = true
  | _ => True

variable {config : Config} {s s' : State} {a : Action} {as : List Action}

/-- What steps that meet the condition keep: a finished task has resolved `call_result`, and a
closed loop has finished its task. -/
structure Resolving (s : State) : Prop where
  resolved : s.task.done = true → s.callResult ≠ none
  closed : s.loop = .closed → s.task.done = true

theorem Resolving.not_stranded (h : Resolving s) : ¬ Stranded s := by
  rintro ⟨hdone | hclosed, hunresolved, -⟩
  · exact h.resolved hdone hunresolved
  · exact h.resolved (h.closed hclosed) hunresolved

theorem resolving_init (config : Config) : Resolving (init config) where
  resolved hdone := by cases hdone
  closed hclosed := by cases hclosed

/-- **A step that meets the condition strands nobody.** -/
theorem Resolving.step (h : Resolving s) (ha : Reaches config s a)
    (hs : (machine config).step s a = some s') : Resolving s' := by
  obtain ⟨hresolved, hclosed⟩ := h
  have hrunning : s.loop = .running → s.loop ≠ .closed := fun hloop heq => by
    rw [hloop] at heq
    cases heq
  have hcase := step_inv hs
  cases hcase with
  | create hloop htask =>
      exact ⟨fun hdone => (by cases hdone), fun hloop' => absurd hloop' (hrunning hloop)⟩
  | cancel b htask =>
      refine ⟨fun hdone => (by cases hdone), fun hloop => ?_⟩
      have hdone := hclosed hloop
      rw [htask] at hdone
      cases hdone
  | cancelStarted htask => exact ⟨hresolved, hclosed⟩
  | startCancelled hloop htask => exact absurd htask ha.1
  | start c hloop htask hrestore =>
      exact ⟨fun hdone => (by cases hdone), fun hloop' => absurd hloop' (hrunning hloop)⟩
  | startRaising c e hloop htask hrestore =>
      have hnone := restoreContext_none_iff.mpr ha.2
      rw [hrestore] at hnone
      cases hnone
  | work c hloop htask => exact ⟨hresolved, hclosed⟩
  | otherWork i c => exact ⟨hresolved, hclosed⟩
  | finish r hloop htask =>
      exact ⟨fun hdone => (by cases hdone), fun hloop' => absurd hloop' (hrunning hloop)⟩
  | capture r htask =>
      refine ⟨fun hdone => (by cases hdone), fun hloop => ?_⟩
      have hdone := hclosed hloop
      rw [htask] at hdone
      cases hdone
  | resolve mustCancel r raised htask => exact ⟨fun _ => by simp, fun _ => rfl⟩
  | stop hloop hmid => exact ⟨hresolved, fun hloop' => by cases hloop'⟩
  | rerun hloop => exact ⟨hresolved, fun hloop' => by cases hloop'⟩
  | close hloop => exact ⟨hresolved, fun _ => ha⟩
  | wake hcaller hdone => exact ⟨hresolved, hclosed⟩
  | exit c hcaller hrestore => exact ⟨hresolved, hclosed⟩
  | exitRaising c e hcaller hrestore => exact ⟨hresolved, hclosed⟩

/-- On the parent loop a caller whose result is unresolved is parked. -/
theorem Inv.parked (h : Inv config s) (hpath : config.path = .parentLoop)
    (hunresolved : s.callResult = none) : s.caller = .parked := by
  by_contra hcaller
  have hawaited := h.awaited hcaller
  simp only [Awaited, hpath] at hawaited
  exact hawaited hunresolved

/-- **A step that breaks the condition strands the caller.** -/
theorem Inv.stranded (h : Inv config s) (hpath : config.path = .parentLoop)
    (ha : ¬ Reaches config s a) (hs : (machine config).step s a = some s') : Stranded s' := by
  have hcase := step_inv hs
  cases hcase with
  | startCancelled hloop htask =>
      have hunresolved := h.unresolved (by rw [htask]; rfl)
      exact ⟨.inl rfl, hunresolved, h.parked hpath hunresolved⟩
  | start c hloop htask hrestore =>
      refine absurd ⟨?_, restoreContext_none_iff.mp (by rw [hrestore])⟩ ha
      rw [htask]
      simp
  | startRaising c e hloop htask hrestore =>
      have hunresolved := h.unresolved (by rw [htask]; rfl)
      exact ⟨.inl rfl, hunresolved, h.parked hpath hunresolved⟩
  | close hloop =>
      have hunresolved := h.unresolved (Bool.eq_false_iff.mpr ha)
      exact ⟨.inr rfl, hunresolved, h.parked hpath hunresolved⟩
  | _ => exact absurd trivial ha

/-- **A stranded caller stays so.** No step of the task is left, and the caller waits for one. -/
theorem Stranded.step (h : Stranded s) (hinv : Inv config s) (hpath : config.path = .parentLoop)
    (hs : (machine config).step s a = some s') : Stranded s' := by
  obtain ⟨hover, hunresolved, hparked⟩ := h
  -- neither a finished task nor a closed loop allows a step of the task
  have hstuck : s.loop = .running → s.task.done = false → False := fun hloop hdone => by
    rcases hover with hdone' | hclosed
    · rw [hdone] at hdone'
      cases hdone'
    · rw [hloop] at hclosed
      cases hclosed
  have hcase := step_inv hs
  cases hcase with
  | create hloop htask => exact (hstuck hloop (by rw [htask]; rfl)).elim
  | cancel b htask =>
      rcases hover with hdone | hclosed
      · rw [htask] at hdone
        cases hdone
      · exact ⟨.inr hclosed, hunresolved, hparked⟩
  | cancelStarted htask => exact ⟨hover, hunresolved, hparked⟩
  | startCancelled hloop htask => exact (hstuck hloop (by rw [htask]; rfl)).elim
  | start c hloop htask hrestore => exact (hstuck hloop (by rw [htask]; rfl)).elim
  | startRaising c e hloop htask hrestore => exact (hstuck hloop (by rw [htask]; rfl)).elim
  | work c hloop htask => exact (hstuck hloop (by rw [htask]; rfl)).elim
  | otherWork i c => exact ⟨hover, hunresolved, hparked⟩
  | finish r hloop htask => exact (hstuck hloop (by rw [htask]; rfl)).elim
  | capture r htask =>
      exact (hstuck (hinv.midStep (by rw [htask]; rfl)) (by rw [htask]; rfl)).elim
  | resolve mustCancel r raised htask =>
      exact (hstuck (hinv.midStep (by rw [htask]; rfl)) (by rw [htask]; rfl)).elim
  | stop hloop hmid =>
      cases hdone : s.task.done with
      | true => exact ⟨.inl hdone, hunresolved, hparked⟩
      | false => exact (hstuck hloop hdone).elim
  | rerun hloop =>
      rcases hover with hdone | hclosed
      · exact ⟨.inl hdone, hunresolved, hparked⟩
      · rw [hloop] at hclosed
        cases hclosed
  | close hloop => exact ⟨.inr rfl, hunresolved, hparked⟩
  | wake hcaller hdone =>
      simp only [Awaited, hpath] at hdone
      exact absurd hunresolved hdone
  | exit c hcaller hrestore =>
      rw [hparked] at hcaller
      cases hcaller
  | exitRaising c e hcaller hrestore =>
      rw [hparked] at hcaller
      cases hcaller

/-- On the parent loop the caller is not stranded exactly if a finished task has resolved
`call_result`, and a closed loop has finished its task. -/
theorem Inv.not_stranded_iff (h : Inv config s) (hpath : config.path = .parentLoop) :
    ¬ Stranded s ↔ Resolving s := by
  constructor
  · intro hnot
    refine ⟨fun hdone hunresolved => ?_, fun hclosed => ?_⟩
    · exact hnot ⟨.inl hdone, hunresolved, h.parked hpath hunresolved⟩
    · by_contra hdone
      have hunresolved := h.unresolved (Bool.eq_false_iff.mpr hdone)
      exact hnot ⟨.inr hclosed, hunresolved, h.parked hpath hunresolved⟩
  · exact Resolving.not_stranded

/-- **When the caller is released.** For a call whose awaitable was scheduled on the parent loop: a
run strands the caller exactly if a step of it breaks the condition. -/
theorem released_iff (hpath : config.path = .parentLoop)
    (h : (machine config).Run Machine.Any (init config) as s) :
    ¬ Stranded s ↔ (machine config).Run (Reaches config) (init config) as s := by
  refine h.iff_of_step (P := fun s => ¬ Stranded s) (fun _ _ => Inv.run)
    (resolving_init config).not_stranded fun s a s' hinv hs => ?_
  constructor
  · intro hreleased
    refine ⟨fun hstranded => hreleased (hstranded.step hinv hpath hs), ?_⟩
    by_contra ha
    exact hreleased (hinv.stranded hpath ha hs)
  · rintro ⟨hreleased, ha⟩
    have hresolving := (hinv.not_stranded_iff hpath).mp hreleased
    exact (hresolving.step ha hs).not_stranded

/-- A call on a parent loop that runs on thread 2. -/
def onParentLoop (ne : Comparison) (context : Context) : Config where
  path := .parentLoop
  ne := ne
  callerIdent := 1
  loopIdent := 2
  base := context
  callerContext := context
  executors := 0
  oldExecutor := .none

/-- A call that goes through. -/
def plainCall : List Action :=
  [.create, .start, .finish (.ok .none), .capture, .resolve false, .wake, .exit]

/-- A context with one variable. -/
def oneVariable : Context := (∅ : Context).insert (ContextVar.user "x" ⟨0, none⟩) (.obj (.int 1))

/-- It is restored in the task, and the caller is released. -/
theorem released_plainCall :
    ∃ s, (machine (onParentLoop .plain oneVariable)).exec (init (onParentLoop .plain oneVariable))
        plainCall = some s ∧
      (machine (onParentLoop .plain oneVariable)).Run (Reaches (onParentLoop .plain oneVariable))
        (init (onParentLoop .plain oneVariable)) plainCall s ∧ ¬ Stranded s := by
  obtain ⟨s₁, hs₁⟩ : ∃ s₁, (machine (onParentLoop .plain oneVariable)).step
      (init (onParentLoop .plain oneVariable)) .create = some s₁ := ⟨_, rfl⟩
  obtain ⟨s₂, hs₂⟩ : ∃ s₂, (machine (onParentLoop .plain oneVariable)).step s₁ .start =
      some s₂ := by
    cases hs₁
    exact ⟨_, rfl⟩
  obtain ⟨s, hs⟩ : ∃ s, (machine (onParentLoop .plain oneVariable)).exec s₂ (plainCall.drop 2) =
      some s := by
    cases hs₁
    cases hs₂
    exact ⟨_, rfl⟩
  have hcreate : Reaches (onParentLoop .plain oneVariable) (init (onParentLoop .plain oneVariable))
      .create := trivial
  have hstart : Reaches (onParentLoop .plain oneVariable) s₁ .start := by
    cases hs₁
    exact ⟨by decide, restoreContext_none_iff.mp rfl⟩
  have hrest : ∀ a ∈ plainCall.drop 2, ∀ s, Reaches (onParentLoop .plain oneVariable) s a := by
    simp [plainCall, Reaches]
  have hrun : (machine (onParentLoop .plain oneVariable)).Run
      (Reaches (onParentLoop .plain oneVariable)) (init (onParentLoop .plain oneVariable))
      plainCall s :=
    ((Machine.Run.single hcreate hs₁).append (.single hstart hs₂)).append
      (Machine.exec_run_of hrest hs)
  have hreleased := (released_iff rfl (hrun.mono fun _ _ _ => trivial)).mpr hrun
  cases hs₁
  cases hs₂
  cases hs
  exact ⟨_, rfl, hrun, hreleased⟩

/-- A comparison that raises. -/
def raisingNe : Comparison := fun _ _ _ => .error (.other 0)

/-- The caller is stranded where the task is cancelled before its first step, where the context
cannot be restored, and where the loop is closed with `create_task` still queued. -/
theorem stranded_caller :
    (∃ s, (machine (onParentLoop .plain ∅)).exec (init (onParentLoop .plain ∅))
        [.create, .cancel, .start] = some s ∧ Stranded s) ∧
    (∃ s, (machine (onParentLoop raisingNe oneVariable)).exec
        (init (onParentLoop raisingNe oneVariable)) [.create, .start] = some s ∧ Stranded s) ∧
    (∃ s, (machine (onParentLoop .plain ∅)).exec (init (onParentLoop .plain ∅))
        [.stop, .close] = some s ∧ Stranded s) :=
  ⟨⟨_, rfl, .inl rfl, rfl, rfl⟩, ⟨_, rfl, .inl rfl, rfl, rfl⟩, ⟨_, rfl, .inr rfl, rfl, rfl⟩⟩

end Handshake

end Asgiref
