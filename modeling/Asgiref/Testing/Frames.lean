import Asgiref.Testing.Machine

/-! # What a turn of the tester leaves alone

* **`Keeps`** — the queues, the outcome of the application and the clock are the same. All parts of
  the methods keep them, but for the three that put or take a message (**`Moves`**).
* **`InCall`** — a turn of a method is followed by the next one, or ends the call of that method.
* **`step_frame`** — the other steps leave the tester at its point, and an application that has
  ended as it is. -/

namespace Asgiref.ApplicationCommunicator

open AsyncTimeout (ExcType)

variable {M : Type} {resolution : Nat} {s s' s'' : State M} {a : Action M}

/-- The queues, the outcome of the application and the clock are the same. -/
structure Keeps (s s' : State M) : Prop where
  inputQueue : s'.inputQueue = s.inputQueue
  outputQueue : s'.outputQueue = s.outputQueue
  outcome : s'.outcome = s.outcome
  time : s'.time = s.time

theorem Keeps.trans (h : Keeps s s') (h' : Keeps s' s'') : Keeps s s'' where
  inputQueue := h'.inputQueue.trans h.inputQueue
  outputQueue := h'.outputQueue.trans h.outputQueue
  outcome := h'.outcome.trans h.outcome
  time := h'.time.trans h.time

theorem keeps_getFuture (s : State M) : Keeps s s.getFuture := by
  unfold State.getFuture
  cases h : s.future with
  | none => exact ⟨rfl, rfl, by simp [State.outcome, h], rfl⟩
  | some future => exact ⟨rfl, rfl, rfl, rfl⟩

theorem keeps_cancelFuture (s : State M) : Keeps s s.cancelFuture := by
  refine ⟨rfl, rfl, ?_, rfl⟩
  unfold State.cancelFuture State.outcome
  cases s.future with
  | none => rfl
  | some future =>
      by_cases h : future.outcome = none <;> simp [h]

theorem keeps_enterBlock (t : Option Int) (s : State M) : Keeps s (s.enterBlock t) := by
  unfold State.enterBlock
  split <;> exact ⟨rfl, rfl, rfl, rfl⟩

theorem keeps_exitBlock (excType : Option ExcType) (s : State M) :
    Keeps s (s.exitBlock excType).1 := ⟨rfl, rfl, rfl, rfl⟩

theorem keeps_finish (method : Method M) (r : Result M) (s : State M) :
    Keeps s (s.finish method r) := ⟨rfl, rfl, rfl, rfl⟩

theorem keeps_awaitFuture (point : Point M) (s : State M) : Keeps s (s.awaitFuture point) :=
  ⟨rfl, rfl, rfl, rfl⟩

/-- A call may have been checked and ended there, or else goes on. -/
theorem checked_cases (method : Method M) (s : State M) (rest : State M → State M) :
    (∃ e, s.outcome = some (.raised e) ∧
        checked method s rest = s.getFuture.finish method (.raised e)) ∨
      (∀ e, s.outcome ≠ some (.raised e)) ∧ checked method s rest = rest s.getFuture := by
  unfold checked
  simp only [(keeps_getFuture s).outcome]
  split
  · rename_i e h
    exact .inl ⟨e, h, rfl⟩
  · rename_i h
    exact .inr ⟨h, rfl⟩

/-! ## A turn -/

/-- The method that the tester is in. -/
def Point.method : Point M → Option (Method M)
  | .outside _ => none
  | .waiting t | .waitCancelled t _ => some (.wait t)
  | .receiving t | .receiveCancelled t => some (.receiveOutput t)
  | .sleeping timeout interval _ _ => some (.receiveNothing timeout interval)

/-- The tester is in a call of this method, or has just ended one. -/
def InCall (method : Method M) (s : State M) : Prop :=
  s.point.method = some method ∨ ∃ r, s.point = .outside (some (method, r))

/-- What a turn of a method does with the queues, and how that shows in its result: a message goes
in or comes out exactly where the call ends so. -/
inductive Moves (method : Method M) (s s' : State M) : Prop
  | none (hkeeps : Keeps s s')
      (hinput : ∀ m, method = .sendInput m → ∀ v, s'.point ≠ .outside (some (method, .returned v)))
      (houtput : ∀ m, s'.point ≠ .outside (some (method, .returned (.message m))))
  | input (m : M) (hmethod : method = .sendInput m)
      (hpoint : s'.point = .outside (some (method, .returned .none)))
      (hkeeps : Keeps { s with inputQueue := s.inputQueue ++ [m] } s')
      (hraised : ∀ e, s.outcome ≠ some (.raised e))
  | output (t : Option Int) (m : M) (rest : List M) (hmethod : method = .receiveOutput t)
      (hpoint : s'.point = .outside (some (method, .returned (.message m))))
      (hqueue : s.outputQueue = m :: rest)
      (hkeeps : Keeps { s with outputQueue := rest } s')

/-- A turn of a method. -/
structure Turn (method : Method M) (s s' : State M) : Prop where
  inCall : InCall method s'
  moves : Moves method s s'

/-- A turn takes no time. -/
theorem Turn.time {method : Method M} (h : Turn method s s') : s'.time = s.time := by
  cases h.moves with
  | none hkeeps => exact hkeeps.time
  | input m _ _ hkeeps => exact hkeeps.time
  | output t m rest _ _ _ hkeeps => exact hkeeps.time

/-- The application ends in a turn of its own. -/
theorem Turn.outcome {method : Method M} (h : Turn method s s') : s'.outcome = s.outcome := by
  cases h.moves with
  | none hkeeps => exact hkeeps.outcome
  | input m _ _ hkeeps => exact hkeeps.outcome
  | output t m rest _ _ _ hkeeps => exact hkeeps.outcome

/-- A turn that ends the call without a message. -/
theorem turn_finish {method : Method M} {r : Result M} (h : Keeps s s')
    (hinput : ∀ m, method = .sendInput m → ∀ v, r ≠ .returned v)
    (houtput : ∀ m, r ≠ .returned (.message m)) : Turn method s (s'.finish method r) where
  inCall := .inr ⟨r, rfl⟩
  moves := by
    refine .none (h.trans (keeps_finish _ _ _)) (fun m hmethod v hpoint => ?_) fun m hpoint => ?_
    · cases hpoint
      exact hinput m hmethod v rfl
    · cases hpoint
      exact houtput m rfl

/-- A turn that suspends. -/
theorem turn_suspend {method : Method M} (h : Keeps s s')
    (hmethod : s'.point.method = some method) : Turn method s s' where
  inCall := .inl hmethod
  moves := by
    refine .none h (fun m _ v hpoint => ?_) fun m hpoint => ?_
    · rw [hpoint] at hmethod
      cases hmethod
    · rw [hpoint] at hmethod
      cases hmethod

/-- What came before a turn of a method, and did not move anything, may count as part of it. -/
theorem Turn.of_keeps {method : Method M} (h : Keeps s s') (hturn : Turn method s' s'') :
    Turn method s s'' where
  inCall := hturn.inCall
  moves := by
    cases hturn.moves with
    | none hkeeps hinput houtput => exact .none (h.trans hkeeps) hinput houtput
    | input m hmethod hpoint hkeeps hraised =>
        have h' : Keeps { s with inputQueue := s.inputQueue ++ [m] }
            { s' with inputQueue := s'.inputQueue ++ [m] } :=
          ⟨congrArg (· ++ [m]) h.inputQueue, h.outputQueue, h.outcome, h.time⟩
        refine .input m hmethod hpoint (h'.trans hkeeps) fun e => ?_
        rw [← h.outcome]
        exact hraised e
    | output t m rest hmethod hpoint hqueue hkeeps =>
        have h' : Keeps { s with outputQueue := rest } { s' with outputQueue := rest } :=
          ⟨h.inputQueue, rfl, h.outcome, h.time⟩
        exact .output t m rest hmethod hpoint (h.outputQueue.symm.trans hqueue) (h'.trans hkeeps)

theorem Result.of_ne_message (left : Option ExcType) (m : M) :
    Result.of left .none ≠ .returned (.message m) := by
  cases left <;> exact nofun

theorem turn_afterWait (t : Option Int) (raised : Option ExcType) (s : State M) :
    Turn (.wait t) s (afterWait t raised s) := by
  unfold afterWait
  simp only
  generalize (if raised = some .cancelledError then none else raised) = inner
  refine Turn.of_keeps (keeps_exitBlock inner s) ?_
  split
  · exact turn_finish ⟨rfl, rfl, rfl, rfl⟩ nofun (Result.of_ne_message _)
  · exact turn_suspend ((keeps_cancelFuture _).trans (keeps_awaitFuture _ _)) rfl

theorem turn_wait (t : Option Int) (s : State M) : Turn (.wait t) s (wait t s) := by
  refine Turn.of_keeps ((keeps_enterBlock t s).trans (keeps_getFuture _)) ?_
  unfold wait
  simp only
  split
  · exact turn_afterWait _ _ _
  · exact turn_suspend (keeps_awaitFuture _ _) rfl

theorem turn_getOutput (t : Option Int) (s : State M) :
    Turn (.receiveOutput t) s (getOutput t s) := by
  unfold getOutput
  split
  · rename_i m rest hqueue
    exact ⟨.inr ⟨_, rfl⟩, .output t m rest rfl rfl hqueue ⟨rfl, rfl, rfl, rfl⟩⟩
  · exact turn_suspend ⟨rfl, rfl, rfl, rfl⟩ rfl

theorem turn_outputTimedOut (t : Option Int) (s : State M) :
    Turn (.receiveOutput t) s (outputTimedOut t s) := by
  unfold outputTimedOut
  split
  · exact turn_finish ⟨rfl, rfl, rfl, rfl⟩ nofun nofun
  · exact turn_finish ⟨rfl, rfl, rfl, rfl⟩ nofun nofun
  · exact turn_suspend ((keeps_cancelFuture s).trans (keeps_awaitFuture _ _)) rfl

theorem turn_afterReceiving (t : Option Int) (throws : Bool) (s : State M) :
    Turn (.receiveOutput t) s (afterReceiving t throws s) := by
  unfold afterReceiving
  split
  · split
    · rename_i s₁ hexit
      obtain rfl : (s.exitBlock (some .cancelledError)).1 = s₁ := congrArg Prod.fst hexit
      exact Turn.of_keeps (keeps_exitBlock _ s) (turn_outputTimedOut t _)
    · rename_i s₁ left _ hexit
      obtain rfl : (s.exitBlock (some .cancelledError)).1 = s₁ := congrArg Prod.fst hexit
      exact turn_finish (keeps_exitBlock _ s) nofun (Result.of_ne_message _)
  · exact turn_getOutput t s

theorem turn_pollOutput (timeout interval start : Int) (s : State M) :
    Turn (.receiveNothing timeout interval) s (pollOutput timeout interval start s) := by
  unfold pollOutput
  simp only
  split
  · split
    · exact turn_finish ⟨rfl, rfl, rfl, rfl⟩ nofun nofun
    · exact turn_suspend ⟨rfl, rfl, rfl, rfl⟩ rfl
  · exact turn_finish ⟨rfl, rfl, rfl, rfl⟩ nofun nofun

/-- A call that was checked. -/
theorem turn_checked {method : Method M} {rest : State M → State M}
    (hrest : (∀ e, s.outcome ≠ some (.raised e)) → Turn method s.getFuture (rest s.getFuture)) :
    Turn method s (checked method s rest) := by
  rcases checked_cases method s rest with ⟨e, -, heq⟩ | ⟨hraised, heq⟩
  · rw [heq]
    exact turn_finish (keeps_getFuture s) (fun _ _ => nofun) nofun
  · rw [heq]
    exact Turn.of_keeps (keeps_getFuture s) (hrest hraised)

/-- The first turn of a method. -/
theorem turn_callMethod (method : Method M) (s : State M) :
    Turn method s (callMethod method s) := by
  have hcalled : Keeps s { s with calledAt := s.time } := ⟨rfl, rfl, rfl, rfl⟩
  refine Turn.of_keeps hcalled ?_
  cases method with
  | wait t => exact turn_wait t _
  | stop exceptions =>
      change Turn _ _ (stop exceptions _)
      unfold stop
      split
      · exact turn_finish ⟨rfl, rfl, rfl, rfl⟩ nofun nofun
      · split
        · exact turn_finish (keeps_cancelFuture _) nofun nofun
        · exact turn_finish ⟨rfl, rfl, rfl, rfl⟩ nofun (Result.of_ne_message _)
  | sendInput m =>
      change Turn _ _ (sendInput m _)
      unfold sendInput
      refine turn_checked fun hraised => ⟨.inr ⟨_, rfl⟩, ?_⟩
      refine .input m rfl rfl ⟨rfl, rfl, rfl, rfl⟩ fun e => ?_
      rw [(keeps_getFuture _).outcome]
      exact hraised e
  | receiveOutput t =>
      change Turn _ _ (receiveOutput t _)
      unfold receiveOutput
      exact turn_checked fun _ => Turn.of_keeps (keeps_enterBlock t _) (turn_getOutput t _)
  | receiveNothing timeout interval =>
      change Turn _ _ (receiveNothing timeout interval _)
      unfold receiveNothing
      exact turn_checked fun _ => turn_pollOutput timeout interval _ _

/-- A later turn of a method. -/
theorem turn_resumeTester (hs : resumeTester s = some s') :
    ∃ method, s.point.method = some method ∧ Turn method s s' := by
  have hresume : Keeps s { s with task := s.task.resume } := ⟨rfl, rfl, rfl, rfl⟩
  unfold resumeTester at hs
  simp only at hs
  split at hs
  · cases hs
  · rename_i t o hpoint _
    cases hs
    exact ⟨_, by rw [hpoint]; rfl, Turn.of_keeps hresume (turn_afterWait _ _ _)⟩
  · rename_i t left o hpoint _
    cases hs
    refine ⟨.wait t, by rw [hpoint]; rfl, ?_⟩
    exact turn_finish hresume nofun (Result.of_ne_message _)
  · rename_i t o hpoint _
    cases hs
    refine ⟨.receiveOutput t, by rw [hpoint]; rfl, ?_⟩
    unfold afterReceiveCancelled
    split <;> exact turn_finish hresume nofun nofun
  · cases hs
  · cases hs
  · cases hs
  · rename_i t hpoint
    cases hs
    exact ⟨_, by rw [hpoint]; rfl, Turn.of_keeps hresume (turn_afterReceiving _ _ _)⟩
  · rename_i timeout interval start wakeAt hpoint
    cases hs
    refine ⟨.receiveNothing timeout interval, by rw [hpoint]; rfl, ?_⟩
    split
    · exact turn_finish hresume nofun nofun
    · exact Turn.of_keeps hresume (turn_pollOutput _ _ _ _)

/-- The step of a call. -/
theorem step_call {method : Method M}
    (hs : (machine M resolution).step s (.call method) = some s') :
    (∃ last, s.point = .outside last) ∧ s' = callMethod method s := by
  unfold machine at hs
  simp only at hs
  split at hs
  · rename_i last hpoint
    exact ⟨⟨last, hpoint⟩, (Option.some.inj hs).symm⟩
  · cases hs

/-- The step of a later turn. -/
theorem step_resume (hs : (machine M resolution).step s .resume = some s') :
    s.task.phase = .ready ∧ resumeTester s = some s' := by
  simpa only [machine, Option.ite_none_right_eq_some] using hs

/-! ## The other steps -/

/-- Cancelling the tester leaves it where it is. -/
theorem cancelTester_frame (s : State M) : Keeps s s.cancelTester ∧
    s.cancelTester.point = s.point ∧ s.cancelTester.calledAt = s.calledAt := by
  unfold State.cancelTester
  split
  · have hkeeps := keeps_cancelFuture s
    exact ⟨⟨hkeeps.inputQueue, hkeeps.outputQueue, hkeeps.outcome, hkeeps.time⟩, rfl, rfl⟩
  · exact ⟨⟨rfl, rfl, rfl, rfl⟩, rfl, rfl⟩

/-- And so does its timer. -/
theorem callTimer_frame (s : State M) : Keeps s (callTimer s) ∧
    (callTimer s).point = s.point ∧ (callTimer s).calledAt = s.calledAt := by
  unfold callTimer
  split
  · rename_i self _ _
    obtain ⟨hkeeps, hrest⟩ := cancelTester_frame { s with timeout := self, timer := none }
    exact ⟨⟨hkeeps.inputQueue, hkeeps.outputQueue, hkeeps.outcome, hkeeps.time⟩, hrest⟩
  · exact ⟨⟨rfl, rfl, rfl, rfl⟩, rfl, rfl⟩

/-- A step of anybody but the tester. -/
theorem step_frame (hs : (machine M resolution).step s a = some s')
    (hcall : ∀ method, a ≠ .call method) (hresume : a ≠ .resume) :
    s'.point = s.point ∧ (∀ o, s.outcome = some o → s'.outcome = some o) ∧
      s'.calledAt = s.calledAt ∧ s.time ≤ s'.time ∧
      match a with
      | .send m => s'.inputQueue = s.inputQueue ∧ s'.outputQueue = s.outputQueue ++ [m]
      | .receive => (∃ m, s.inputQueue = m :: s'.inputQueue) ∧ s'.outputQueue = s.outputQueue
      | _ => s'.inputQueue = s.inputQueue ∧ s'.outputQueue = s.outputQueue := by
  cases a with
  | tick d =>
      cases hs
      have hle : s.time ≤ s.time + (d : Int) := by omega
      exact ⟨rfl, fun _ h => h, rfl, hle, rfl, rfl⟩
  | call method => exact absurd rfl (hcall method)
  | resume => exact absurd rfl hresume
  | start =>
      obtain ⟨future, hfuture, hs⟩ := Option.bind_eq_some_iff.mp hs
      have houtcome : s.outcome = future.outcome := by
        unfold State.outcome
        rw [hfuture, Option.bind_some]
      split at hs
      · cases hs
      · rename_i hnot
        have hnone : s.outcome = none := by
          rw [houtcome]
          tauto
        have hstable : ∀ o, s.outcome = some o → s'.outcome = some o := by
          intro o ho
          rw [hnone] at ho
          cases ho
        split at hs
        · cases hs
          exact ⟨rfl, hstable, rfl, le_rfl, rfl, rfl⟩
        · cases hs
          exact ⟨rfl, hstable, rfl, le_rfl, rfl, rfl⟩
  | send m =>
      simp only [machine, Option.ite_none_right_eq_some, Option.some.injEq] at hs
      obtain ⟨-, rfl⟩ := hs
      exact ⟨rfl, fun _ h => h, rfl, le_rfl, rfl, rfl⟩
  | receive =>
      simp only [machine, Option.ite_none_right_eq_some] at hs
      obtain ⟨-, hs⟩ := hs
      split at hs
      · rename_i m rest hqueue
        cases hs
        exact ⟨rfl, fun _ h => h, rfl, le_rfl, ⟨m, hqueue⟩, rfl⟩
      · cases hs
  | complete o =>
      obtain ⟨future, hfuture, hs⟩ := Option.bind_eq_some_iff.mp hs
      split at hs
      · rename_i hnone
        cases hs
        refine ⟨rfl, fun o' ho' => ?_, rfl, le_rfl, rfl, rfl⟩
        unfold State.outcome at ho'
        rw [hfuture, Option.bind_some, hnone.2] at ho'
        cases ho'
      · cases hs
  | cancelApplication =>
      cases hs
      exact ⟨rfl, fun o ho => (keeps_cancelFuture s).outcome.trans ho, rfl, le_rfl, rfl, rfl⟩
  | cancelTester =>
      unfold machine at hs
      simp only at hs
      split at hs
      · cases hs
      · cases hs
        obtain ⟨hkeeps, hpoint, hcalled⟩ := cancelTester_frame s
        exact ⟨hpoint, fun o ho => hkeeps.outcome.trans ho, hcalled, le_of_eq hkeeps.time.symm,
          hkeeps.inputQueue, hkeeps.outputQueue⟩
  | timer =>
      obtain ⟨schedule, -, hs⟩ := Option.bind_eq_some_iff.mp hs
      split at hs
      · cases hs
        obtain ⟨hkeeps, hpoint, hcalled⟩ := callTimer_frame s
        exact ⟨hpoint, fun o ho => hkeeps.outcome.trans ho, hcalled, le_of_eq hkeeps.time.symm,
          hkeeps.inputQueue, hkeeps.outputQueue⟩
      · cases hs
  | wake =>
      unfold machine at hs
      simp only at hs
      split at hs
      · split at hs
        · cases hs
          exact ⟨rfl, fun _ h => h, rfl, le_rfl, rfl, rfl⟩
        · cases hs
      · cases hs

end Asgiref.ApplicationCommunicator
