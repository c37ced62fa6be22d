import Asgiref.Testing.Calls

/-! # How `wait` and `receive_output` end

* **`wait_ends`** — `wait` ends only when the application has, and raises nothing but what that
  raised; its `finally` has nothing to clean up.
* **`wait_reports_iff`** — the runs in which it raises whatever the application has raised.
* **`receive_failed`** — a `receive_output` that fails has not given up early, and leaves an
  application that has ended. -/

namespace Asgiref.ApplicationCommunicator

open AsyncTimeout (ExcType)

variable {M : Type} {resolution : Nat} {time : Int} {s s' : State M} {as : List (Action M)}

/-- **How `wait` ends.** In no run does the `finally` of `wait` find an application that has not
ended. When `wait` has ended, so has the application; and `wait` has raised what that raised, or
nothing, so no `TimeoutError` and no cancellation of its own. -/
theorem wait_ends (hrun : (machine M resolution).Run Machine.Any (init M time) as s) :
    (∀ t left, s.point ≠ .waitCancelled t left) ∧
      ∀ t r, s.point = .outside (some (.wait t, r)) → ∃ o, s.outcome = some o ∧
        (r = .returned .none ∨ ∃ e, e ≠ .cancelledError ∧ o = .raised e ∧ r = .raised e) := by
  have hinv : Inv resolution False s := inv_run False (hrun.mono fun _ _ _ h => h.elim)
  unfold Inv at hinv
  constructor
  · intro t left hpoint
    rw [hpoint] at hinv
    exact hinv
  · intro t r hpoint
    rw [hpoint] at hinv
    exact hinv.2.2 _ rfl

/-- The application fails while `wait` waits for it. -/
def failing : List (Action Nat) :=
  [.call (.wait (some 5)), .start, .complete (.raised (.other 3)), .resume]

/-- Then `wait` raises that. -/
theorem wait_ends_failing : ∃ s, (machine Nat 1).Run Machine.Any (init Nat 0) failing s ∧
    (∀ t left, s.point ≠ .waitCancelled t left) ∧
    s.point = .outside (some (.wait (some 5), .raised (.other 3))) ∧
    ∃ e, e ≠ .cancelledError ∧ s.outcome = some (.raised e) ∧
      (.raised e : Result Nat) = .raised (.other 3) := by
  have hrun : (machine Nat 1).Run Machine.Any (init Nat 0) failing _ := Machine.exec_run rfl
  obtain ⟨hnot, hends⟩ := wait_ends hrun
  obtain ⟨o, houtcome, hnone | ⟨e, hne, rfl, he⟩⟩ := hends _ _ rfl
  · cases hnone
  · exact ⟨_, hrun, hnot, rfl, e, hne, houtcome, he.symm⟩

/-! ## What `wait` reports -/

/-- If `wait` was the last call, it has raised whatever the application has raised, but for its
cancellation. -/
def Reported (s : State M) : Prop :=
  ∀ t r e, s.point = .outside (some (.wait t, r)) → s.outcome = some (.raised e) →
    e ≠ .cancelledError → r = .raised e

/-- A tester that is woken in `wait` by the failure of the application has not been cancelled in the
meantime. -/
def Heard (s : State M) (a : Action M) : Prop :=
  a = .resume → (∃ t, s.point = .waiting t) →
    (∃ e, e ≠ .cancelledError ∧ s.outcome = some (.raised e)) → s.task.throws = false

/-- How `wait` ends where the application has ended. -/
theorem afterWait_point {o : Outcome} (houtcome : s.outcome = some o) (t : Option Int)
    (raised : Option ExcType) :
    (afterWait t raised s).point = .outside (some (.wait t,
      .of (if raised = some .cancelledError then none else raised) .none)) := by
  unfold afterWait
  simp only
  obtain ⟨self, hexit⟩ :=
    exitBlock_spec (if raised = some .cancelledError then none else raised) s
  rw [hexit]
  have houtcome' : State.outcome { s with timeout := self, timer := none } = some o := houtcome
  simp only [houtcome', State.finish]
  by_cases hcancelled : raised = some .cancelledError
  · simp [hcancelled]
  · simp [hcancelled]

/-- The call of `wait` where the application has ended. -/
theorem reported_wait (t : Option Int) (s : State M) : Reported (wait t s) := by
  have hkeeps := (keeps_enterBlock t s).trans (keeps_getFuture _)
  intro t' r e hpoint houtcome hne
  have houtcome' : (s.enterBlock t).getFuture.outcome = some (.raised e) := by
    rw [hkeeps.outcome, ← (turn_wait t s).outcome]
    exact houtcome
  unfold wait at hpoint
  simp only [houtcome'] at hpoint
  rw [afterWait_point houtcome'] at hpoint
  have hexception : Outcome.exception (.raised e) ≠ some .cancelledError :=
    fun h => hne (Option.some.inj h)
  rw [if_neg hexception] at hpoint
  cases hpoint
  rfl

/-- A step keeps the promise exactly if it hears of the failure. -/
theorem reported_step {a : Action M} (hinv : Inv resolution False s) (hreported : Reported s)
    (hs : (machine M resolution).step s a = some s') : Reported s' ↔ Heard s a := by
  by_cases hcall : ∃ method, a = .call method
  · obtain ⟨method, rfl⟩ := hcall
    refine iff_of_true ?_ nofun
    obtain ⟨-, rfl⟩ := step_call hs
    intro t r e hpoint
    -- only a call of `wait` ends one
    rcases (turn_callMethod method s).inCall with hmethod | ⟨r', hpoint'⟩
    · rw [hpoint] at hmethod
      cases hmethod
    · rw [hpoint] at hpoint'
      cases hpoint'
      exact reported_wait t _ t r e hpoint
  · by_cases hresume : a = .resume
    · subst hresume
      replace hs := (step_resume hs).2
      obtain ⟨method, hmethod, hturn⟩ := turn_resumeTester hs
      by_cases hwaiting : ∃ t, s.point = .waiting t
      · obtain ⟨t, hpoint⟩ := hwaiting
        obtain ⟨o, houtcome⟩ : ∃ o, s.outcome = some o := by
          cases houtcome : s.outcome with
          | some o => exact ⟨o, rfl⟩
          | none =>
              have heq := hs
              unfold resumeTester at heq
              simp only [hpoint, houtcome] at heq
              cases heq
        have hs' : s'.point = .outside (some (.wait t, .of
            (if s.awaited o = some .cancelledError then none else s.awaited o) .none)) := by
          have heq := hs
          unfold resumeTester at heq
          simp only [hpoint, houtcome, Option.some.injEq] at heq
          rw [← heq]
          exact afterWait_point (s := { s with point := .waiting t, task := s.task.resume })
            houtcome t _
        have houtcome' : s'.outcome = some o := hturn.outcome.trans houtcome
        unfold Reported Heard
        simp only [hs', houtcome', houtcome, Point.outside.injEq, Option.some.injEq,
          Prod.mk.injEq, Method.wait.injEq]
        constructor
        · rintro hreport - - ⟨e, hne, rfl⟩
          have hr := hreport t _ e ⟨rfl, rfl⟩ rfl hne
          unfold State.awaited at hr
          cases hthrows : s.task.throws with
          | false => rfl
          | true =>
              simp only [hthrows] at hr
              cases hr
        · rintro hheard t' r e ⟨rfl, rfl⟩ rfl hne
          have hthrows := hheard trivial ⟨t, hpoint⟩ ⟨e, hne, rfl⟩
          have hawaited : s.awaited (.raised e) = some e := by
            unfold State.awaited
            simp only [hthrows]
            rfl
          rw [hawaited, if_neg fun h => hne (Option.some.inj h)]
          rfl
      · refine iff_of_true ?_ fun _ h => absurd h hwaiting
        intro t r e hpoint
        rcases hturn.inCall with hmethod' | ⟨r', hpoint'⟩
        · rw [hpoint] at hmethod'
          cases hmethod'
        · rw [hpoint] at hpoint'
          cases hpoint'
          -- the tester would have been in the `finally` of `wait`
          unfold Inv at hinv
          generalize s.point = point at hinv hmethod hwaiting
          cases point with
          | waiting t' => exact absurd ⟨t', rfl⟩ hwaiting
          | waitCancelled => exact hinv.elim
          | outside | receiving | receiveCancelled | sleeping => cases hmethod
    · refine iff_of_true ?_ fun h => absurd h hresume
      obtain ⟨hpoint, houtcome, -⟩ := step_frame hs (fun method h => hcall ⟨method, h⟩) hresume
      intro t r e hend hraised hne
      rw [hpoint] at hend
      unfold Inv at hinv
      rw [hend] at hinv
      -- an application that has ended is as it was
      obtain ⟨o, ho, -⟩ := hinv.2.2 _ rfl
      rw [houtcome o ho] at hraised
      exact hreported t r e hend (ho.trans hraised) hne

/-- **What `wait` reports.** All along a run, whenever `wait` was the last call, it has raised
whatever the application has raised, exactly if it was never cancelled, by its timer or by anybody
else, between the failure of the application and its own next turn. -/
theorem wait_reports_iff (hrun : (machine M resolution).Run Machine.Any (init M time) as s) :
    (machine M resolution).Always Reported (init M time) as ↔
      (machine M resolution).Run Heard (init M time) as s := by
  refine hrun.always_iff (J := Inv resolution False) ?_ ?_ ?_
  · intro as s hrun
    exact inv_run False (hrun.mono fun _ _ _ h => h.elim)
  · intro t r e hpoint
    cases hpoint
  · intro s a s' hinv hreported hs
    exact reported_step hinv hreported hs

/-- The failure of the application is heard in time. -/
theorem wait_reports_failing : ∃ s, (machine Nat 1).Run Heard (init Nat 0) failing s ∧
    (machine Nat 1).Always Reported (init Nat 0) failing := by
  have hbefore : ∀ a ∈ failing.take 3, ∀ s, Heard s a := by simp [failing, Heard]
  have hresume : Heard (((machine Nat 1).exec (init Nat 0) (failing.take 3)).getD (init Nat 0))
      .resume := fun _ _ _ => rfl
  have hrun : (machine Nat 1).Run Heard (init Nat 0) failing _ :=
    (Machine.exec_run_of hbefore rfl).append (.single hresume rfl)
  exact ⟨_, hrun, (wait_reports_iff (hrun.mono fun _ _ _ => trivial)).mpr hrun⟩

/-- A timer that is called in the turn between hides the failure: `wait` returns. -/
example : ((machine Nat 1).exec (init Nat 0)
      [.call (.wait (some 5)), .start, .tick 5, .complete (.raised (.other 3)), .timer,
        .resume]).map (fun s => s.point) =
    some (.outside (some (.wait (some 5), .returned .none))) := rfl

/-! ## What a `receive_output` that fails leaves -/

/-- **A `receive_output` that fails.** Where nobody else cancels the tester, a `receive_output` that
has raised leaves an application that has ended. It has raised what the application raised, or else
a `TimeoutError` when its time was up. -/
theorem receive_failed
    (hrun : (machine M resolution).Run (Quiet True) (init M time) as s) {t : Option Int}
    {e : ExcType} (hpoint : s.point = .outside (some (.receiveOutput t, .raised e))) :
    ∃ o, s.outcome = some o ∧ (o = .raised e ∨ e = .timeoutError ∧
      ∃ d, t = some d ∧ (0 < d → s.calledAt + d < s.time + resolution)) := by
  have hinv : Inv resolution True s := inv_run True hrun
  unfold Inv at hinv
  rw [hpoint] at hinv
  rcases hinv.2.2 _ rfl with hended | ⟨-, hnot⟩
  · exact hended
  · exact absurd trivial hnot

/-- A tester that waits for a message in vain. -/
def starved : List (Action Nat) :=
  [.call (.receiveOutput (some 5)), .start, .tick 5, .timer, .resume,
    .complete (.raised .cancelledError), .resume]

/-- The application was cancelled, and the timeout was over. -/
theorem receive_failed_starved : ∃ s, (machine Nat 1).Run (Quiet True) (init Nat 0) starved s ∧
    s.point = .outside (some (.receiveOutput (some 5), .raised .timeoutError)) ∧
    ∃ o, s.outcome = some o ∧ (o = .raised .timeoutError ∨
      ExcType.timeoutError = .timeoutError ∧
        ∃ d, some 5 = some d ∧ (0 < d → s.calledAt + d < s.time + (1 : Nat))) := by
  have hquiet : ∀ a ∈ starved, ∀ s : State Nat, Quiet True s a := by
    intro a ha _ _
    revert a
    decide
  have hrun : (machine Nat 1).Run (Quiet True) (init Nat 0) starved _ :=
    Machine.exec_run_of hquiet rfl
  exact ⟨_, hrun, rfl, receive_failed hrun rfl⟩

end Asgiref.ApplicationCommunicator
