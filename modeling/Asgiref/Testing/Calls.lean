import Asgiref.Testing.Frames
import Asgiref.Timeout.Timers

/-! # How the calls of a communicator end

* **`InBlock`**, **`AwaitsApplication`**, **`AwaitsWake`** — what is known of the timer and the task
  of a tester that is suspended.
* **`Ended`** — how a call may have ended.
* **`Inv`** — what holds of the tester wherever it is. It is kept by every step (**`inv_run`**), a
  part of it only while nobody else cancels the tester (**`Quiet`**). -/

namespace Asgiref.ApplicationCommunicator

open AsyncTimeout (ExcType Timeout Schedule doExit doEnter cancelTask doExit_raises)

variable {M : Type} {resolution : Nat} {time : Int} {s s' : State M} {as : List (Action M)}
  {t : Option Int} {alone : Prop}

/-- Nobody else cancels the tester, if it is to be alone. -/
def Quiet (alone : Prop) (_ : State M) (a : Action M) : Prop := alone → a ≠ .cancelTester

/-- The timeout of the last call is over. -/
def TimeUp (resolution : Nat) (t : Option Int) (s : State M) : Prop :=
  ∃ d, t = some d ∧ (0 < d → s.calledAt + d < s.time + resolution)

/-- The tester runs. -/
def Running (s : State M) : Prop := s.task = ⟨.running, false, false⟩

/-- The tester awaits the application, or has been woken by its end. -/
def AwaitsApplication (s : State M) : Prop :=
  (∃ asked, s.task = ⟨.awaitingTask asked, false, false⟩ ∧ s.outcome = none) ∨
    s.task.phase = .ready ∧ ∃ o, s.outcome = some o ∧
      s.task.thrown = decide (o = .raised .cancelledError)

/-- The tester awaits a future, or has been woken. -/
def AwaitsWake (s : State M) : Prop :=
  s.task = ⟨.awaitingFuture, false, false⟩ ∨ s.task.phase = .ready

/-- The tester is in a block with this timeout. -/
structure InBlock (resolution : Nat) (t : Option Int) (s : State M) : Prop where
  task : s.timeout.task = t.map fun _ => 0
  expired : s.timeout.cancelled = true → TimeUp resolution t s
  soon : s.timer = some .callSoon → ∃ d ≤ 0, t = some d
  later : ∀ c, s.timer = some (.callAt c) → t = some (c - s.calledAt)

/-- How a call may have ended. -/
def Ended (resolution : Nat) (alone : Prop) (s : State M) : Method M × Result M → Prop
  | (.wait _, r) => ∃ o, s.outcome = some o ∧ (r = .returned .none ∨
      ∃ e, e ≠ .cancelledError ∧ o = .raised e ∧ r = .raised e)
  | (.receiveOutput _, .returned v) => ∃ m, v = .message m
  | (.receiveOutput t, .raised e) => (∃ o, s.outcome = some o ∧
      (o = .raised e ∨ e = .timeoutError ∧ TimeUp resolution t s)) ∨
        e = .cancelledError ∧ ¬ alone
  | _ => True

/-- What holds of the tester at each point. -/
def InvAt (resolution : Nat) (alone : Prop) (s : State M) : Point M → Prop
  | .outside last => Running s ∧ s.timer = none ∧ ∀ call, last = some call →
      Ended resolution alone s call
  | .waiting t => AwaitsApplication s ∧ InBlock resolution t s
  | .waitCancelled .. => False
  | .receiving t => AwaitsWake s ∧ InBlock resolution t s ∧
      (alone → s.task.throws = true → s.timeout.cancelled = true)
  | .receiveCancelled t => AwaitsApplication s ∧ s.timer = none ∧ TimeUp resolution t s
  | .sleeping _ _ start _ => AwaitsWake s ∧ s.timer = none ∧ start = s.calledAt

/-- What holds of the tester, wherever it is. -/
def Inv (resolution : Nat) (alone : Prop) (s : State M) : Prop :=
  InvAt resolution alone s s.point

/-! ## What the parts of the methods do -/

/-- The block is left: its timer is gone, and what comes out is what went in, unless it is a
cancellation of a block that has expired. -/
theorem exitBlock_spec (excType : Option ExcType) (s : State M) :
    ∃ self, s.exitBlock excType = ({ s with timeout := self, timer := none },
      if excType = some .cancelledError ∧ s.timeout.cancelled = true then some .timeoutError
      else excType) := by
  refine ⟨(doExit excType s.timeout).1, ?_⟩
  rw [← doExit_raises]
  rfl

/-- The block is entered, at the time of the call. -/
theorem enterBlock_spec (resolution : Nat) (t : Option Int) (s : State M)
    (hcalled : s.calledAt = s.time) :
    ∃ self timer, s.enterBlock t = { s with timeout := self, timer := timer } ∧
      self.cancelled = false ∧ InBlock resolution t (s.enterBlock t) := by
  unfold State.enterBlock doEnter
  cases t with
  | none =>
      exact ⟨_, _, rfl, rfl, rfl, nofun, nofun, nofun⟩
  | some d =>
      simp only [Timeout.new]
      by_cases hd : d ≤ 0
      · rw [if_pos hd]
        exact ⟨_, _, rfl, rfl, rfl, nofun, fun _ => ⟨d, hd, rfl⟩, nofun⟩
      · rw [if_neg hd]
        refine ⟨_, _, rfl, rfl, rfl, nofun, nofun, fun c hc => ?_⟩
        have hc' : s.time + d = c := by simpa using hc
        simp only [hcalled]
        congr 1
        omega

/-! ## What comes after the suspensions -/

/-- A call ends. -/
theorem inv_finish {method : Method M} {r : Result M} (hrunning : Running s)
    (htimer : s.timer = none) (hended : Ended resolution alone s (method, r)) :
    Inv resolution alone (s.finish method r) := by
  refine ⟨hrunning, htimer, ?_⟩
  intro call hcall
  cases hcall
  exact hended

/-- The tester has come to an `await self.future` while the application has not ended. -/
theorem awaitsApplication_awaitFuture (hrunning : Running s) (houtcome : s.outcome = none)
    (point : Point M) : AwaitsApplication (s.awaitFuture point) := by
  refine .inl ⟨false, ?_, houtcome⟩
  simp only [State.awaitFuture]
  rw [hrunning]
  rfl

theorem inv_afterWait {raised : Option ExcType} {o : Outcome} (hrunning : Running s)
    (houtcome : s.outcome = some o)
    (hraised : raised = some .cancelledError ∨ raised = o.exception) (t : Option Int) :
    Inv resolution alone (afterWait t raised s) := by
  unfold afterWait
  simp only
  obtain ⟨self, hexit⟩ :=
    exitBlock_spec (if raised = some .cancelledError then none else raised) s
  rw [hexit]
  have houtcome' : State.outcome { s with timeout := self, timer := none } = some o := houtcome
  simp only [houtcome']
  refine inv_finish hrunning rfl ⟨o, houtcome', ?_⟩
  by_cases hcancelled : raised = some .cancelledError
  · rw [if_pos hcancelled]
    exact .inl rfl
  · rw [if_neg hcancelled, if_neg (fun h => hcancelled h.1)]
    have hsame := hraised.resolve_left hcancelled
    cases o with
    | returned =>
        rw [hsame]
        exact .inl rfl
    | raised e =>
        rw [hsame]
        refine .inr ⟨e, ?_, rfl, rfl⟩
        rintro rfl
        exact hcancelled hsame

theorem inv_getOutput (hrunning : Running s) (hblock : InBlock resolution t s) :
    Inv resolution alone (getOutput t s) := by
  unfold getOutput
  split
  · rename_i message rest _
    obtain ⟨self, hexit⟩ := exitBlock_spec none { s with outputQueue := rest }
    rw [hexit]
    exact inv_finish hrunning rfl ⟨message, rfl⟩
  · have htask : s.task.awaitFuture = ⟨.awaitingFuture, false, false⟩ := by
      rw [hrunning]
      rfl
    refine ⟨.inl htask, ⟨hblock.task, hblock.expired, hblock.soon, hblock.later⟩, ?_⟩
    intro _ hthrows
    simp only at hthrows
    rw [htask] at hthrows
    cases hthrows

theorem inv_outputTimedOut (hrunning : Running s) (htimer : s.timer = none)
    (hup : TimeUp resolution t s) : Inv resolution alone (outputTimedOut t s) := by
  unfold outputTimedOut
  cases houtcome : s.outcome with
  | some o =>
      cases o with
      | returned =>
          exact inv_finish hrunning htimer (.inl ⟨_, houtcome, .inr ⟨rfl, hup⟩⟩)
      | raised e => exact inv_finish hrunning htimer (.inl ⟨_, houtcome, .inl rfl⟩)
  | none =>
      have hawaits := awaitsApplication_awaitFuture (s := s.cancelFuture) hrunning
        ((keeps_cancelFuture s).outcome.trans houtcome) (.receiveCancelled t)
      exact ⟨hawaits, htimer, hup⟩

theorem inv_afterReceiving {throws : Bool} (hrunning : Running s)
    (hblock : InBlock resolution t s)
    (halone : alone → throws = true → s.timeout.cancelled = true) :
    Inv resolution alone (afterReceiving t throws s) := by
  unfold afterReceiving
  cases throws with
  | false => exact inv_getOutput hrunning hblock
  | true =>
      obtain ⟨self, hexit⟩ := exitBlock_spec (some .cancelledError) s
      rw [if_pos rfl, hexit]
      cases hcancelled : s.timeout.cancelled with
      | true => exact inv_outputTimedOut hrunning rfl (hblock.expired hcancelled)
      | false =>
          refine inv_finish hrunning rfl (.inr ⟨rfl, fun h => ?_⟩)
          rw [halone h rfl] at hcancelled
          cases hcancelled

theorem inv_afterReceiveCancelled {raised : Option ExcType} {o : Outcome} (hrunning : Running s)
    (htimer : s.timer = none) (hup : TimeUp resolution t s) (houtcome : s.outcome = some o)
    (hraised : raised = some .cancelledError ∨ raised = o.exception) :
    Inv resolution alone (afterReceiveCancelled t raised s) := by
  unfold afterReceiveCancelled
  split
  · exact inv_finish hrunning htimer (.inl ⟨o, houtcome, .inr ⟨rfl, hup⟩⟩)
  · exact inv_finish hrunning htimer (.inl ⟨o, houtcome, .inr ⟨rfl, hup⟩⟩)
  · rename_i e hne
    have hsame := hraised.resolve_left fun h => hne (Option.some.inj h)
    cases o with
    | returned => cases hsame
    | raised e' =>
        cases hsame
        exact inv_finish hrunning htimer (.inl ⟨_, houtcome, .inl rfl⟩)

theorem inv_pollOutput (hrunning : Running s) (htimer : s.timer = none) (timeout interval : Int)
    {start : Int} (hstart : start = s.calledAt) :
    Inv resolution alone (pollOutput timeout interval start s) := by
  unfold pollOutput
  simp only
  split
  · split
    · exact inv_finish hrunning htimer trivial
    · refine ⟨?_, htimer, hstart⟩
      by_cases hinterval : interval ≤ 0
      · exact .inr (by simp [hinterval, Task.yield])
      · refine .inl ?_
        simp only [if_neg hinterval]
        rw [hrunning]
        rfl
  · exact inv_finish hrunning htimer trivial

theorem inv_checked {method : Method M} {rest : State M → State M} (hrunning : Running s)
    (htimer : s.timer = none)
    (hended : ∀ e, s.outcome = some (.raised e) →
      Ended resolution alone s.getFuture (method, .raised e))
    (hrest : Inv resolution alone (rest s.getFuture)) :
    Inv resolution alone (checked method s rest) := by
  have hframe : Running s.getFuture ∧ s.getFuture.timer = none := by
    unfold State.getFuture
    cases s.future <;> exact ⟨hrunning, htimer⟩
  rcases checked_cases method s rest with ⟨e, houtcome, heq⟩ | ⟨-, heq⟩
  · rw [heq]
    exact inv_finish hframe.1 hframe.2 (hended e houtcome)
  · rw [heq]
    exact hrest

/-- What asking for the future leaves as it is. -/
theorem getFuture_eq (s : State M) : ∃ future, s.getFuture = { s with future := future } := by
  unfold State.getFuture
  cases h : s.future with
  | none => exact ⟨_, rfl⟩
  | some future => exact ⟨s.future, rfl⟩

theorem inv_wait (hrunning : Running s) (hcalled : s.calledAt = s.time) (t : Option Int) :
    Inv resolution alone (wait t s) := by
  obtain ⟨self, timer, henter, -, hblock⟩ := enterBlock_spec resolution t s hcalled
  obtain ⟨future, hfuture⟩ := getFuture_eq (s.enterBlock t)
  unfold wait
  simp only
  cases houtcome : (s.enterBlock t).getFuture.outcome with
  | some o =>
      refine inv_afterWait ?_ houtcome (.inr rfl) t
      rw [hfuture, henter]
      exact hrunning
  | none =>
      have hrunning' : Running (s.enterBlock t).getFuture := by
        rw [hfuture, henter]
        exact hrunning
      refine ⟨awaitsApplication_awaitFuture hrunning' houtcome _, ?_⟩
      rw [hfuture]
      exact ⟨hblock.task, hblock.expired, hblock.soon, hblock.later⟩

theorem inv_receiveOutput (hrunning : Running s) (htimer : s.timer = none)
    (hcalled : s.calledAt = s.time) (t : Option Int) :
    Inv resolution alone (receiveOutput t s) := by
  refine inv_checked hrunning htimer (fun e he => ?_) ?_
  · exact .inl ⟨_, (keeps_getFuture s).outcome.trans he, .inl rfl⟩
  · obtain ⟨future, hfuture⟩ := getFuture_eq s
    rw [hfuture]
    obtain ⟨self, timer, henter, -, hblock⟩ :=
      enterBlock_spec resolution t { s with future := future } hcalled
    refine inv_getOutput ?_ hblock
    rw [henter]
    exact hrunning

theorem inv_stop (hrunning : Running s) (htimer : s.timer = none) (exceptions : Bool) :
    Inv resolution alone (stop exceptions s) := by
  unfold stop
  split
  · exact inv_finish hrunning htimer trivial
  · split
    · exact inv_finish hrunning htimer trivial
    · exact inv_finish hrunning htimer trivial

/-- A method is called. -/
theorem inv_callMethod (hrunning : Running s) (htimer : s.timer = none) (method : Method M) :
    Inv resolution alone (callMethod method s) := by
  have hrunning' : Running { s with calledAt := s.time } := hrunning
  obtain ⟨future, hfuture⟩ := getFuture_eq { s with calledAt := s.time }
  cases method with
  | wait t => exact inv_wait hrunning' rfl t
  | stop exceptions => exact inv_stop hrunning' htimer exceptions
  | sendInput m =>
      refine inv_checked hrunning' htimer (fun _ _ => trivial) ?_
      rw [hfuture]
      exact inv_finish hrunning htimer trivial
  | receiveOutput t => exact inv_receiveOutput hrunning' htimer rfl t
  | receiveNothing timeout interval =>
      refine inv_checked hrunning' htimer (fun _ _ => trivial) ?_
      rw [hfuture]
      exact inv_pollOutput (s := { s with calledAt := s.time, future := future }) hrunning htimer
        timeout interval rfl

/-! ## What happens while the tester is suspended -/

theorem TimeUp.mono (h : TimeUp resolution t s) (hcalled : s'.calledAt = s.calledAt)
    (htime : s.time ≤ s'.time) : TimeUp resolution t s' := by
  obtain ⟨d, hd, hup⟩ := h
  refine ⟨d, hd, fun hpos => ?_⟩
  have hlt := hup hpos
  rw [hcalled]
  omega

theorem InBlock.mono (h : InBlock resolution t s) (htimeout : s'.timeout = s.timeout)
    (htimer : s'.timer = s.timer) (hcalled : s'.calledAt = s.calledAt)
    (htime : s.time ≤ s'.time) : InBlock resolution t s' where
  task := by
    rw [htimeout]
    exact h.task
  expired := by
    rw [htimeout]
    exact fun hcancelled => (h.expired hcancelled).mono hcalled htime
  soon := by
    rw [htimer]
    exact h.soon
  later := by
    rw [htimer, hcalled]
    exact h.later

theorem Ended.mono {call : Method M × Result M} (h : Ended resolution alone s call)
    (houtcome : ∀ o, s.outcome = some o → s'.outcome = some o)
    (hcalled : s'.calledAt = s.calledAt) (htime : s.time ≤ s'.time) :
    Ended resolution alone s' call := by
  obtain ⟨method, r⟩ := call
  cases method with
  | wait t =>
      obtain ⟨o, ho, hr⟩ := h
      exact ⟨o, houtcome o ho, hr⟩
  | receiveOutput t =>
      cases r with
      | returned v => exact h
      | raised e =>
          rcases h with ⟨o, ho, he⟩ | hcancelled
          · exact .inl ⟨o, houtcome o ho, he.imp_right fun h => ⟨h.1, h.2.mono hcalled htime⟩⟩
          · exact .inr hcancelled
  | stop | sendInput | receiveNothing => exact trivial

/-- A step that the tester does not notice. -/
theorem Inv.of_eq (hinv : Inv resolution alone s) (hpoint : s'.point = s.point)
    (htask : s'.task = s.task) (houtcome : s'.outcome = s.outcome)
    (htimeout : s'.timeout = s.timeout) (htimer : s'.timer = s.timer)
    (hcalled : s'.calledAt = s.calledAt) (htime : s.time ≤ s'.time) :
    Inv resolution alone s' := by
  have hawaits : AwaitsApplication s → AwaitsApplication s' := by
    unfold AwaitsApplication
    rw [htask, houtcome]
    exact id
  have hwake : AwaitsWake s → AwaitsWake s' := by
    unfold AwaitsWake
    rw [htask]
    exact id
  unfold Inv at hinv ⊢
  rw [hpoint]
  generalize s.point = point at hinv
  cases point with
  | outside last =>
      obtain ⟨hrunning, hnone, hended⟩ := hinv
      refine ⟨htask.trans hrunning, htimer.trans hnone, fun call hcall => ?_⟩
      exact (hended call hcall).mono (fun o ho => houtcome.trans ho) hcalled htime
  | waiting t => exact ⟨hawaits hinv.1, hinv.2.mono htimeout htimer hcalled htime⟩
  | waitCancelled => exact hinv
  | receiving t =>
      refine ⟨hwake hinv.1, hinv.2.1.mono htimeout htimer hcalled htime, ?_⟩
      rw [htask, htimeout]
      exact hinv.2.2
  | receiveCancelled t =>
      exact ⟨hawaits hinv.1, htimer.trans hinv.2.1, hinv.2.2.mono hcalled htime⟩
  | sleeping timeout interval start wakeAt =>
      exact ⟨hwake hinv.1, htimer.trans hinv.2.1, hinv.2.2.trans hcalled.symm⟩

/-- The application ends. -/
theorem Inv.endApplication (hinv : Inv resolution alone s) {future : Future} {o : Outcome}
    (houtcome : s.outcome = none) : Inv resolution alone (endApplication future o s) := by
  -- a tester that awaits something else is not woken
  have hawaits : AwaitsApplication s →
      AwaitsApplication (ApplicationCommunicator.endApplication future o s) := by
    rintro (⟨asked, htask, -⟩ | ⟨-, o', ho', -⟩)
    · refine .inr ?_
      unfold ApplicationCommunicator.endApplication
      simp only [htask]
      exact ⟨rfl, o, rfl, rfl⟩
    · rw [houtcome] at ho'
      cases ho'
  have hsame : (∀ asked, s.task.phase ≠ .awaitingTask asked) →
      (ApplicationCommunicator.endApplication future o s).task = s.task := by
    intro hne
    unfold ApplicationCommunicator.endApplication
    cases hphase : s.task.phase with
    | awaitingTask asked => exact absurd hphase (hne asked)
    | running | ready | awaitingFuture => rfl
  have hwake : AwaitsWake s →
      (ApplicationCommunicator.endApplication future o s).task = s.task := by
    rintro (htask | hready)
    · exact hsame fun asked h => by
        rw [htask] at h
        cases h
    · exact hsame fun asked h => by
        rw [hready] at h
        cases h
  unfold Inv at hinv
  change InvAt resolution alone (ApplicationCommunicator.endApplication future o s) s.point
  generalize s.point = point at hinv
  cases point with
  | outside last =>
      obtain ⟨hrunning, hnone, hended⟩ := hinv
      refine ⟨?_, hnone, fun call hcall => ?_⟩
      · refine (hsame fun asked h => ?_).trans hrunning
        rw [hrunning] at h
        cases h
      · refine (hended call hcall).mono (fun o' ho' => ?_) rfl le_rfl
        rw [houtcome] at ho'
        cases ho'
  | waiting t => exact ⟨hawaits hinv.1, hinv.2.mono rfl rfl rfl le_rfl⟩
  | waitCancelled => exact hinv
  | receiving t =>
      have htask := hwake hinv.1
      refine ⟨?_, hinv.2.1.mono rfl rfl rfl le_rfl, ?_⟩
      · unfold AwaitsWake
        rw [htask]
        exact hinv.1
      · rw [htask]
        exact hinv.2.2
  | receiveCancelled t => exact ⟨hawaits hinv.1, hinv.2.1, hinv.2.2.mono rfl le_rfl⟩
  | sleeping timeout interval start wakeAt =>
      have htask := hwake hinv.1
      refine ⟨?_, hinv.2.1, hinv.2.2⟩
      unfold AwaitsWake
      rw [htask]
      exact hinv.1

/-- The tester is woken, or goes on as it did. -/
theorem AwaitsWake.complete (h : AwaitsWake s) :
    (s.task.complete false = s.task ∧ s.task.phase = .ready) ∨
      s.task.complete false = ⟨.ready, false, false⟩ := by
  rcases h with htask | hready
  · right
    rw [htask]
    rfl
  · left
    refine ⟨?_, hready⟩
    unfold Task.complete
    rw [hready]

/-- The application sends a message. -/
theorem Inv.putOutput (hinv : Inv resolution alone s) (m : M) :
    Inv resolution alone (putOutput m s) := by
  unfold ApplicationCommunicator.putOutput
  cases hpoint : s.point with
  | receiving t =>
      unfold Inv at hinv ⊢
      simp only [hpoint] at hinv ⊢
      obtain ⟨hwake, hblock, halone⟩ := hinv
      refine ⟨.inr ?_, hblock.mono rfl rfl rfl le_rfl, ?_⟩
      · rcases hwake.complete with ⟨hsame, hready⟩ | hwoken
        · exact (congrArg Task.phase hsame).trans hready
        · exact congrArg Task.phase hwoken
      · intro h hthrows
        rcases hwake.complete with ⟨hsame, -⟩ | hwoken
        · exact halone h (by rw [← hsame]; exact hthrows)
        · simp only [hwoken] at hthrows
          cases hthrows
  | outside | waiting | waitCancelled | receiveCancelled | sleeping =>
      exact hinv.of_eq hpoint.symm rfl rfl rfl rfl rfl le_rfl

/-- What is cancelled with the tester. -/
theorem cancelTester_spec (s : State M) : ∃ future, s.cancelTester =
      { s with task := s.task.cancel, future := future } := by
  unfold State.cancelTester
  split
  · exact ⟨s.cancelFuture.future, rfl⟩
  · exact ⟨s.future, rfl⟩

theorem AwaitsApplication.cancelTester (h : AwaitsApplication s) :
    AwaitsApplication s.cancelTester := by
  obtain ⟨future, heq⟩ := cancelTester_spec s
  unfold AwaitsApplication
  rw [(cancelTester_frame s).1.outcome, heq]
  rcases h with ⟨asked, htask, hnone⟩ | ⟨hready, o, ho, hthrown⟩
  · refine .inl ⟨true, ?_, hnone⟩
    simp only [htask, Task.cancel]
  · refine .inr ⟨?_, o, ho, ?_⟩
    · simp only [Task.cancel, hready]
    · simp only [Task.cancel, hready, hthrown]

theorem AwaitsWake.cancelTester (h : AwaitsWake s) : AwaitsWake s.cancelTester := by
  obtain ⟨future, heq⟩ := cancelTester_spec s
  rw [heq]
  right
  rcases h with htask | hready
  · simp only [htask, Task.cancel]
  · simp only [Task.cancel, hready]

/-- Somebody cancels the tester: the timer, or else somebody from whom it is not left alone. -/
theorem Inv.cancelTester (hinv : Inv resolution alone s)
    (hpoint : ∀ last, s.point ≠ .outside last)
    (hcancelled : alone → s.timeout.cancelled = true) :
    Inv resolution alone s.cancelTester := by
  obtain ⟨future, heq⟩ := cancelTester_spec s
  have hframe : s.cancelTester.point = s.point ∧ s.cancelTester.timeout = s.timeout ∧
      s.cancelTester.timer = s.timer ∧ s.cancelTester.calledAt = s.calledAt ∧
        s.cancelTester.time = s.time := by
    rw [heq]
    exact ⟨rfl, rfl, rfl, rfl, rfl⟩
  obtain ⟨hsame, htimeout, htimer, hcalled, htime⟩ := hframe
  have hle := le_of_eq htime.symm
  unfold Inv at hinv ⊢
  rw [hsame]
  generalize s.point = point at hinv hpoint
  cases point with
  | outside last => exact absurd rfl (hpoint last)
  | waiting t => exact ⟨hinv.1.cancelTester, hinv.2.mono htimeout htimer hcalled hle⟩
  | waitCancelled => exact hinv
  | receiving t =>
      refine ⟨hinv.1.cancelTester, hinv.2.1.mono htimeout htimer hcalled hle, ?_⟩
      intro h _
      rw [htimeout]
      exact hcancelled h
  | receiveCancelled t =>
      exact ⟨hinv.1.cancelTester, htimer.trans hinv.2.1, hinv.2.2.mono hcalled hle⟩
  | sleeping timeout interval start wakeAt =>
      exact ⟨hinv.1.cancelTester, htimer.trans hinv.2.1, hinv.2.2.trans hcalled.symm⟩

/-- The timer is called. -/
theorem Inv.callTimer (hinv : Inv resolution alone s) {schedule : Schedule}
    (htimer : s.timer = some schedule) (hdue : due resolution s.time schedule = true) :
    Inv resolution alone (callTimer s) := by
  -- then the tester is in a block, and its time is up
  obtain ⟨t, hblock, hpoint⟩ : ∃ t, InBlock resolution t s ∧
      (s.point = .waiting t ∨ s.point = .receiving t) := by
    unfold Inv at hinv
    cases hpoint : s.point with
    | waiting t =>
        rw [hpoint] at hinv
        exact ⟨t, hinv.2, .inl rfl⟩
    | receiving t =>
        rw [hpoint] at hinv
        exact ⟨t, hinv.2.1, .inr rfl⟩
    | waitCancelled =>
        rw [hpoint] at hinv
        exact hinv.elim
    | outside | receiveCancelled | sleeping =>
        rw [hpoint] at hinv
        rw [hinv.2.1] at htimer
        cases htimer
  have hup : TimeUp resolution t s := by
    cases schedule with
    | callSoon =>
        obtain ⟨d, hd, ht⟩ := hblock.soon htimer
        exact ⟨d, ht, fun hpos => by omega⟩
    | callAt c =>
        refine ⟨_, hblock.later c htimer, fun _ => ?_⟩
        have hlt : c < s.time + resolution := by simpa [due] using hdue
        omega
  have htask : s.timeout.task = some 0 := by
    obtain ⟨d, ht, -⟩ := hup
    rw [hblock.task, ht]
    rfl
  have hcall : ApplicationCommunicator.callTimer s =
      { s with timeout := { s.timeout with cancelled := true }, timer := none }.cancelTester := by
    unfold ApplicationCommunicator.callTimer cancelTask
    simp only [htask]
  rw [hcall]
  refine Inv.cancelTester ?_ (fun last h => ?_) fun _ => rfl
  · have hblock' : InBlock resolution t
        { s with timeout := { s.timeout with cancelled := true }, timer := none } :=
      ⟨hblock.task, fun _ => hup.mono rfl le_rfl, nofun, nofun⟩
    have hat : ∀ point, point = .waiting t ∨ point = .receiving t →
        InvAt resolution alone s point → InvAt resolution alone
          { s with timeout := { s.timeout with cancelled := true }, timer := none } point := by
      rintro point (rfl | rfl) hat
      · exact ⟨hat.1, hblock'⟩
      · exact ⟨hat.1, hblock', fun _ _ => rfl⟩
    exact hat s.point hpoint hinv
  · rcases hpoint with hpoint | hpoint
    · rw [hpoint] at h
      cases h
    · rw [hpoint] at h
      cases h

/-- The sleep of `receive_nothing` is over. -/
theorem Inv.wake (hinv : Inv resolution alone s) {timeout interval start wakeAt : Int}
    (hpoint : s.point = .sleeping timeout interval start wakeAt) :
    Inv resolution alone { s with task := s.task.complete false } := by
  unfold Inv at hinv ⊢
  simp only [hpoint] at hinv ⊢
  obtain ⟨hwake, htimer, hstart⟩ := hinv
  refine ⟨.inr ?_, htimer, hstart⟩
  rcases hwake.complete with ⟨hsame, hready⟩ | hwoken
  · exact (congrArg Task.phase hsame).trans hready
  · exact congrArg Task.phase hwoken

/-- What the application has raised is raised by an `await` of it, unless a cancellation is. -/
theorem awaited_or (s : State M) (o : Outcome) :
    s.awaited o = some .cancelledError ∨ s.awaited o = o.exception := by
  unfold State.awaited
  split
  · exact .inl rfl
  · exact .inr rfl

/-- The next turn of the tester. -/
theorem Inv.resumeTester (hinv : Inv resolution alone s) (hs : resumeTester s = some s') :
    Inv resolution alone s' := by
  have hrunning : Running { s with task := s.task.resume } := rfl
  unfold Inv at hinv
  unfold ApplicationCommunicator.resumeTester at hs
  cases hpoint : s.point with
  | outside last =>
      simp only [hpoint] at hs
      cases hs
  | waiting t =>
      cases houtcome : s.outcome with
      | none =>
          simp only [hpoint, houtcome] at hs
          cases hs
      | some o =>
          simp only [hpoint, houtcome] at hs
          cases hs
          exact inv_afterWait (s := { s with task := s.task.resume }) hrunning houtcome
            (awaited_or s o) t
  | waitCancelled t left =>
      rw [hpoint] at hinv
      exact hinv.elim
  | receiving t =>
      simp only [hpoint] at hs hinv
      cases hs
      exact inv_afterReceiving (s := { s with point := .receiving t, task := s.task.resume })
        hrunning (hinv.2.1.mono rfl rfl rfl le_rfl) hinv.2.2
  | receiveCancelled t =>
      cases houtcome : s.outcome with
      | none =>
          simp only [hpoint, houtcome] at hs
          cases hs
      | some o =>
          simp only [hpoint, houtcome] at hs hinv
          cases hs
          exact inv_afterReceiveCancelled (s := { s with task := s.task.resume }) hrunning
            hinv.2.1 (hinv.2.2.mono rfl le_rfl) houtcome (awaited_or s o)
  | sleeping timeout interval start wakeAt =>
      simp only [hpoint] at hs hinv
      cases hs
      split
      · exact inv_finish (s := { s with task := s.task.resume }) hrunning hinv.2.1 trivial
      · exact inv_pollOutput (s := { s with task := s.task.resume }) hrunning hinv.2.1 timeout
          interval hinv.2.2

theorem Inv.step {a : Action M} (hinv : Inv resolution alone s) (hquiet : Quiet alone s a)
    (hs : (machine M resolution).step s a = some s') : Inv resolution alone s' := by
  cases a with
  | tick d =>
      cases hs
      have hle : s.time ≤ s.time + (d : Int) := by omega
      exact hinv.of_eq rfl rfl rfl rfl rfl rfl hle
  | call method =>
      obtain ⟨⟨last, hpoint⟩, rfl⟩ := step_call hs
      unfold Inv at hinv
      rw [hpoint] at hinv
      exact inv_callMethod hinv.1 hinv.2.1 method
  | resume => exact hinv.resumeTester (step_resume hs).2
  | start =>
      obtain ⟨future, hfuture, hs⟩ := Option.bind_eq_some_iff.mp hs
      have houtcome : s.outcome = future.outcome := by
        unfold State.outcome
        rw [hfuture, Option.bind_some]
      split at hs
      · cases hs
      · rename_i hnot
        have hnone : future.outcome = none := by tauto
        split at hs
        · cases hs
          exact hinv.endApplication (houtcome.trans hnone)
        · cases hs
          exact hinv.of_eq rfl rfl (hnone.trans (houtcome.trans hnone).symm) rfl rfl rfl le_rfl
  | send m =>
      simp only [machine, Option.ite_none_right_eq_some, Option.some.injEq] at hs
      obtain ⟨-, rfl⟩ := hs
      exact hinv.putOutput m
  | receive =>
      simp only [machine, Option.ite_none_right_eq_some] at hs
      obtain ⟨-, hs⟩ := hs
      split at hs
      · cases hs
        exact hinv.of_eq rfl rfl rfl rfl rfl rfl le_rfl
      · cases hs
  | complete o =>
      obtain ⟨future, hfuture, hs⟩ := Option.bind_eq_some_iff.mp hs
      split at hs
      · rename_i hnone
        cases hs
        refine hinv.endApplication ?_
        unfold State.outcome
        rw [hfuture, Option.bind_some]
        exact hnone.2
      · cases hs
  | cancelApplication =>
      cases hs
      exact hinv.of_eq rfl rfl (keeps_cancelFuture s).outcome rfl rfl rfl le_rfl
  | cancelTester =>
      unfold machine at hs
      simp only at hs
      split at hs
      · cases hs
      · rename_i hpoint
        cases hs
        exact hinv.cancelTester hpoint fun h => absurd rfl (hquiet h)
  | timer =>
      obtain ⟨schedule, htimer, hs⟩ := Option.bind_eq_some_iff.mp hs
      split at hs
      · rename_i hdue
        cases hs
        exact hinv.callTimer htimer hdue
      · cases hs
  | wake =>
      unfold machine at hs
      simp only at hs
      split at hs
      · rename_i hpoint _
        split at hs
        · cases hs
          exact hinv.wake hpoint
        · cases hs
      · cases hs

theorem inv_run (alone : Prop)
    (hrun : (machine M resolution).Run (Quiet alone) (init M time) as s) :
    Inv resolution alone s := by
  refine hrun.invariant ?_ fun _ _ _ hinv hquiet hs => hinv.step hquiet hs
  exact ⟨rfl, rfl, nofun⟩

end Asgiref.ApplicationCommunicator
