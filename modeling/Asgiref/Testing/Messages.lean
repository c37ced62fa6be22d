import Asgiref.Testing.Results

/-! # The messages of a communicator

* **`simulates`** — the communicator refines the two queues, whatever is cancelled or times out, so
  **`delivered`** — nothing that goes through it is lost, doubled or reordered.
* **`receiveNothing_iff`** — what the answer of `receive_nothing` means.
* **`failed_closed`** — a communicator whose application has failed is closed. -/

namespace Asgiref.ApplicationCommunicator

open AsyncTimeout (ExcType)

variable {M : Type} {resolution : Nat} {time : Int} {s s' : State M} {as : List (Action M)}

/-! ## Delivery -/

/-- A message that goes in. -/
theorem contents_input {m : M} (hin : s'.inputQueue = s.inputQueue ++ [m])
    (hout : s'.outputQueue = s.outputQueue) :
    Queues.Moves s.contents s'.contents (some (.put .input m)) := by
  funext i
  cases i
  · exact hin
  · exact hout

/-- A message that comes out. -/
theorem contents_output {m : M} {rest : List M} (hin : s'.inputQueue = s.inputQueue)
    (hqueue : s.outputQueue = m :: rest) (hout : s'.outputQueue = rest) :
    Queues.Moves s.contents s'.contents (some (.take .output m)) := by
  refine ⟨rest, hqueue, ?_⟩
  funext i
  cases i
  · exact hin
  · exact hout

/-- The queues are as they were. -/
theorem contents_same (hin : s'.inputQueue = s.inputQueue)
    (hout : s'.outputQueue = s.outputQueue) : s'.contents = s.contents := by
  funext i
  cases i
  · exact hin
  · exact hout

/-- What a turn of the tester has done with the queues is seen from where it has come to. -/
theorem moves_turn {method : Method M} (hturn : Turn method s s') :
    Queues.Moves s.contents s'.contents (s'.point.last.bind moved) := by
  cases hturn.moves with
  | none hkeeps hinput houtput =>
      have hnone : s'.point.last.bind moved = none := by
        rcases hturn.inCall with hmethod | ⟨r, hpoint⟩
        · cases hpoint : s'.point with
          | outside last =>
              rw [hpoint] at hmethod
              cases hmethod
          | waiting | waitCancelled | receiving | receiveCancelled | sleeping => rfl
        · rw [hpoint]
          cases method with
          | wait | stop | receiveNothing => rfl
          | sendInput m =>
              cases r with
              | returned v => exact absurd hpoint (hinput m rfl v)
              | raised e => rfl
          | receiveOutput t =>
              cases r with
              | returned v =>
                  cases v with
                  | message m => exact absurd hpoint (houtput m)
                  | none | bool => rfl
              | raised e => rfl
      rw [hnone]
      exact contents_same hkeeps.inputQueue hkeeps.outputQueue
  | input m hmethod hpoint hkeeps =>
      rw [hpoint, hmethod]
      exact contents_input hkeeps.inputQueue hkeeps.outputQueue
  | output t m rest hmethod hpoint hqueue hkeeps =>
      rw [hpoint, hmethod]
      exact contents_output hkeeps.inputQueue hqueue hkeeps.outputQueue

/-- **What a step shows is what it does with the queues.** -/
theorem moves_step {a : Action M} (hs : (machine M resolution).step s a = some s') :
    Queues.Moves s.contents s'.contents (event resolution s a) := by
  cases a with
  | call method =>
      have hevent : event resolution s (.call method) = s'.point.last.bind moved := by
        unfold event
        rw [hs]
        rfl
      obtain ⟨-, rfl⟩ := step_call hs
      rw [hevent]
      exact moves_turn (turn_callMethod method s)
  | resume =>
      have hevent : event resolution s .resume = s'.point.last.bind moved := by
        unfold event
        rw [hs]
        rfl
      obtain ⟨method, -, hturn⟩ := turn_resumeTester (step_resume hs).2
      rw [hevent]
      exact moves_turn hturn
  | send m =>
      obtain ⟨-, -, -, -, hin, hout⟩ := step_frame hs (by simp) (by simp)
      funext i
      cases i
      · exact hin
      · exact hout
  | receive =>
      obtain ⟨-, -, -, -, ⟨m, hin⟩, hout⟩ := step_frame hs (by simp) (by simp)
      have hevent : event resolution s .receive = some (.take .input m) := by
        unfold event
        rw [hin]
        rfl
      rw [hevent]
      refine ⟨s'.inputQueue, hin, ?_⟩
      funext i
      cases i
      · rfl
      · exact hout
  | tick | start | complete | cancelApplication | cancelTester | timer | wake =>
      obtain ⟨-, -, -, -, hin, hout⟩ := step_frame hs (by simp) (by simp)
      exact contents_same hin hout

/-- **The communicator refines its two queues.** -/
theorem simulates (M : Type) (resolution : Nat) :
    (machine M resolution).Simulates (event resolution) Machine.Any (Queues.machine Queue M)
      fun s q => q = s.contents :=
  Queues.simulates_of fun _ _ _ _ hs => moves_step hs

/-- **Delivery.** In every run, with whatever timeouts and cancellations, the messages that
`receive_output` has returned are those that the application has sent, in this order, up to those
that are still in the queue; and likewise for what the application has got of the messages that
`send_input` has taken. -/
theorem delivered {es : List (Queues.Event Queue M)}
    (h : (machine M resolution).Shows (event resolution) Machine.Any (init M time) as es s) :
    Queues.puts .output es = Queues.takes .output es ++ s.outputQueue ∧
      Queues.puts .input es = Queues.takes .input es ++ s.inputQueue := by
  have hempty : ∀ i, (init M time).contents i = [] := by
    intro i
    cases i <;> rfl
  have hmoves : ∀ (s : State M) a s', Machine.Any s a → (machine M resolution).step s a = some s' →
      Queues.Moves s.contents s'.contents (event resolution s a) := fun _ _ _ _ hs => moves_step hs
  exact ⟨Queues.conservation_of hmoves hempty h .output,
    Queues.conservation_of hmoves hempty h .input⟩

/-- A message that comes while the tester waits for it, and one that comes too late. -/
def exchange : List (Action Nat) :=
  [.call (.sendInput 1), .start, .receive, .call (.receiveOutput none), .send 2, .send 3, .resume]

/-- The first of the two is returned, the second one is still there. -/
theorem delivered_exchange : ∃ es s,
    (machine Nat 1).Shows (event 1) Machine.Any (init Nat 0) exchange es s ∧
    Queues.takes .output es = [2] ∧ s.outputQueue = [3] ∧
    Queues.puts .output es = Queues.takes .output es ++ s.outputQueue := by
  have h : (machine Nat 1).Shows (event 1) Machine.Any (init Nat 0) exchange _ _ :=
    Machine.observe_shows rfl
  exact ⟨_, _, h, rfl, rfl, (delivered h).1⟩

/-! ## `receive_nothing` -/

/-- The messages that the application sends. -/
def sent (as : List (Action M)) : List M :=
  as.filterMap fun
    | .send m => some m
    | _ => none

/-- What the loop of `receive_nothing` answers. -/
theorem pollOutput_answer {timeout interval start : Int} {b : Bool}
    (h : (pollOutput timeout interval start s).point =
      .outside (some (.receiveNothing timeout interval, .returned (.bool b)))) :
    (b = true ↔ s.outputQueue = []) ∧ (b = true → start + timeout ≤ s.time) := by
  unfold pollOutput at h
  simp only at h
  split at h
  · split at h
    · rename_i hqueue
      cases h
      exact ⟨⟨nofun, fun hnil => absurd hnil hqueue⟩, nofun⟩
    · cases h
  · cases h
    refine ⟨List.isEmpty_iff, fun _ => ?_⟩
    omega

/-- Where a call of `receive_nothing` is, after these steps. -/
structure Polling (s : State M) (timeout interval : Int) (as : List (Action M)) (s' : State M) :
    Prop where
  queue : s'.outputQueue = s.outputQueue ++ sent as
  point : (∃ last, s'.point = .outside last) ∨
    ∃ wakeAt, s'.point = .sleeping timeout interval s.time wakeAt

/-- A turn of the loop leaves the queue, and comes back to the sleep or ends the call. -/
theorem pollOutput_point (timeout interval start : Int) (s : State M) :
    (pollOutput timeout interval start s).outputQueue = s.outputQueue ∧
      ((∃ last, (pollOutput timeout interval start s).point = .outside last) ∨
        ∃ wakeAt, (pollOutput timeout interval start s).point =
          .sleeping timeout interval start wakeAt) := by
  unfold pollOutput
  simp only
  split
  · split
    · exact ⟨rfl, .inl ⟨_, rfl⟩⟩
    · exact ⟨rfl, .inr ⟨_, rfl⟩⟩
  · exact ⟨rfl, .inl ⟨_, rfl⟩⟩

/-- The call itself. -/
theorem receiveNothing_cases (timeout interval : Int) (s : State M) :
    (∃ e, callMethod (.receiveNothing timeout interval) s =
        ({ s with calledAt := s.time } : State M).getFuture.finish
          (.receiveNothing timeout interval) (.raised e)) ∨
      callMethod (.receiveNothing timeout interval) s =
        pollOutput timeout interval s.time ({ s with calledAt := s.time } : State M).getFuture := by
  rcases checked_cases (.receiveNothing timeout interval) { s with calledAt := s.time }
      fun s => pollOutput timeout interval s.time s with ⟨e, -, heq⟩ | ⟨-, heq⟩
  · exact .inl ⟨e, heq⟩
  · refine .inr (heq.trans ?_)
    rw [(keeps_getFuture _).time]

/-- A later turn of it. -/
theorem resume_sleeping {timeout interval start wakeAt : Int}
    (hpoint : s.point = .sleeping timeout interval start wakeAt) :
    ∃ resumed, resumed.outputQueue = s.outputQueue ∧ resumed.time = s.time ∧
      (resumeTester s = some (resumed.finish (.receiveNothing timeout interval)
          (.raised .cancelledError)) ∨
        resumeTester s = some (pollOutput timeout interval start resumed)) := by
  refine ⟨{ s with
    task := s.task.resume, point := .sleeping timeout interval start wakeAt }, rfl, rfl, ?_⟩
  unfold resumeTester
  simp only [hpoint]
  cases s.task.throws
  · exact .inr rfl
  · exact .inl rfl

/-- The loop goes on, or has ended. -/
theorem polling_run {timeout interval : Int}
    (hrun : (machine M resolution).Run (fun _ a => ∀ method, a ≠ .call method)
      (callMethod (.receiveNothing timeout interval) s) as s') :
    Polling s timeout interval as s' := by
  refine hrun.history (P := Polling s timeout interval) ?_ ?_
  · rcases receiveNothing_cases timeout interval s with ⟨e, heq⟩ | heq
    · rw [heq]
      refine ⟨?_, .inl ⟨_, rfl⟩⟩
      rw [(keeps_finish _ _ _).outputQueue, (keeps_getFuture _).outputQueue]
      exact (List.append_nil _).symm
    · rw [heq]
      obtain ⟨hqueue, hpoint⟩ := pollOutput_point timeout interval s.time
        ({ s with calledAt := s.time } : State M).getFuture
      refine ⟨?_, hpoint⟩
      rw [hqueue, (keeps_getFuture _).outputQueue]
      exact (List.append_nil _).symm
  · intro bs s₁ a s₂ _ hpolling hcall hs
    by_cases hresume : a = .resume
    · subst hresume
      replace hs := (step_resume hs).2
      have hqueue : s.outputQueue ++ sent (bs ++ [.resume]) = s₁.outputQueue := by
        rw [hpolling.queue]
        simp [sent]
      rcases hpolling.point with ⟨last, hpoint⟩ | ⟨wakeAt, hpoint⟩
      · unfold resumeTester at hs
        simp only [hpoint] at hs
        cases hs
      · obtain ⟨resumed, hsame, -, heq | heq⟩ := resume_sleeping hpoint
        · rw [heq] at hs
          cases hs
          exact ⟨hsame.trans hqueue.symm, .inl ⟨_, rfl⟩⟩
        · rw [heq] at hs
          cases hs
          obtain ⟨hqueue', hpoint'⟩ := pollOutput_point timeout interval s.time resumed
          exact ⟨hqueue'.trans (hsame.trans hqueue.symm), hpoint'⟩
    · obtain ⟨hpoint, -, -, -, hqueues⟩ := step_frame hs hcall hresume
      refine ⟨?_, by rw [hpoint]; exact hpolling.point⟩
      have hout : s₂.outputQueue = s₁.outputQueue ++ sent [a] := by
        cases a with
        | send m => exact hqueues.2
        | _ => exact hqueues.2.trans (List.append_nil _).symm
      rw [hout, hpolling.queue, List.append_assoc]
      simp only [sent, List.filterMap_append]

/-- **What the answer of `receive_nothing` means.** It is `True` exactly if no message was there
when it was called and none was sent until it returned; and then it has taken all its time. It never
takes a message from the queue. -/
theorem receiveNothing_iff {timeout interval : Int} {b : Bool}
    (hrun : (machine M resolution).Run Machine.Any s
      (.call (.receiveNothing timeout interval) :: as) s')
    (hcalls : ∀ method, .call method ∉ as) (hlast : as = [] ∨ as.getLast? = some .resume)
    (hend : s'.point =
      .outside (some (.receiveNothing timeout interval, .returned (.bool b)))) :
    (b = true ↔ s.outputQueue = [] ∧ sent as = []) ∧ (b = true → s.time + timeout ≤ s'.time) ∧
      s'.outputQueue = s.outputQueue ++ sent as := by
  obtain ⟨s₁, hstep, hrest⟩ := hrun.cons_inv
  obtain ⟨-, rfl⟩ := step_call hstep
  have hsplit : s.outputQueue ++ sent as = [] ↔ s.outputQueue = [] ∧ sent as = [] :=
    List.append_eq_nil_iff
  -- the run goes without further calls
  have hquiet : ∀ bs s₂, bs <+: as → (machine M resolution).Run Machine.Any
      (callMethod (.receiveNothing timeout interval) s) bs s₂ →
        (machine M resolution).Run (fun _ a => ∀ method, a ≠ .call method)
          (callMethod (.receiveNothing timeout interval) s) bs s₂ := by
    intro bs s₂ hsub hrun
    refine Machine.exec_run_of (fun a ha _ method heq => ?_) hrun.exec
    exact hcalls method (heq ▸ hsub.subset ha)
  have hqueue := (polling_run (hquiet as s' (List.prefix_refl _) hrest)).queue
  rcases hlast with rfl | hlast
  · obtain rfl := hrest.unique (.nil (G := Machine.Any))
    rcases receiveNothing_cases timeout interval s with ⟨e, heq⟩ | heq
    · rw [heq] at hend
      cases hend
    · rw [heq] at hend
      obtain ⟨hanswer, htime⟩ := pollOutput_answer hend
      rw [(keeps_getFuture _).outputQueue] at hanswer
      rw [(keeps_getFuture _).time] at htime
      refine ⟨hanswer.trans ?_, fun hb => ?_, hqueue⟩
      · exact ⟨fun h => ⟨h, rfl⟩, And.left⟩
      · rw [(turn_callMethod (.receiveNothing timeout interval) s).time]
        exact htime hb
  · obtain ⟨bs, rfl⟩ := List.getLast?_eq_some_iff.1 hlast
    obtain ⟨s₂, hfirst, -, hs⟩ := hrest.snoc_inv
    have hpolling := polling_run (hquiet bs s₂ (List.prefix_append _ _) hfirst)
    replace hs := (step_resume hs).2
    have hsent : sent (bs ++ [.resume]) = sent bs := by simp [sent]
    rcases hpolling.point with ⟨last, hpoint⟩ | ⟨wakeAt, hpoint⟩
    · unfold resumeTester at hs
      simp only [hpoint] at hs
      cases hs
    · obtain ⟨resumed, hsame, htime, heq | heq⟩ := resume_sleeping hpoint
      · rw [heq] at hs
        cases hs
        cases hend
      · rw [heq] at hs
        cases hs
        obtain ⟨hanswer, hdone⟩ := pollOutput_answer hend
        rw [hsame, hpolling.queue, ← hsent, hsplit] at hanswer
        refine ⟨hanswer, fun hb => ?_, hqueue⟩
        rw [(turn_pollOutput timeout interval s.time resumed).time]
        exact hdone hb

/-- Nothing is sent while it waits. -/
def silence : List (Action Nat) := [.tick 2, .wake, .resume, .tick 2, .wake, .resume]

/-- The last look is at a time when the timeout is over. -/
theorem receiveNothing_iff_silence : ∃ s,
    (machine Nat 1).Run Machine.Any (init Nat 0) (.call (.receiveNothing 3 2) :: silence) s ∧
    (true = true ↔ (init Nat 0).outputQueue = [] ∧ sent silence = []) ∧
      (true = true → (init Nat 0).time + 3 ≤ s.time) ∧
      s.outputQueue = (init Nat 0).outputQueue ++ sent silence := by
  have hrun : (machine Nat 1).Run Machine.Any (init Nat 0)
      (.call (.receiveNothing 3 2) :: silence) _ := Machine.exec_run rfl
  have hcalls : ∀ method, .call method ∉ silence := by
    intro method
    simp [silence]
  exact ⟨_, hrun, receiveNothing_iff hrun hcalls (.inr rfl) rfl⟩

/-! ## A failed application -/

/-- What a call can end with once the application has failed with this exception: the exception
itself. A `stop` that was not asked for exceptions returns, and a `wait` where the exception is a
cancellation. -/
def FailedResult (e : ExcType) (method : Method M) (r : Result M) : Prop :=
  r = .raised e ∨ r = .returned .none ∧
    (method = .stop false ∨ e = .cancelledError ∧ ∃ t, method = .wait t)

/-- A call ends at once if the application has failed. -/
theorem call_failed {e : ExcType} (hfailed : s.outcome = some (.raised e)) (method : Method M) :
    ∃ r, (callMethod method s).point = .outside (some (method, r)) ∧ FailedResult e method r := by
  have hchecked : ∀ (method : Method M) (rest : State M → State M),
      ∃ r, (checked method { s with calledAt := s.time } rest).point =
        .outside (some (method, r)) ∧ FailedResult e method r := by
    intro method rest
    rcases checked_cases method { s with calledAt := s.time } rest with ⟨e', he', heq⟩ | ⟨hnot, -⟩
    · have houtcome : State.outcome { s with calledAt := s.time } = s.outcome := rfl
      rw [houtcome, hfailed] at he'
      cases he'
      rw [heq]
      exact ⟨_, rfl, .inl rfl⟩
    · exact absurd hfailed (hnot e)
  cases method with
  | wait t =>
      have houtcome : (({ s with calledAt := s.time } : State M).enterBlock t).getFuture.outcome =
          some (.raised e) := by
        rw [((keeps_enterBlock t _).trans (keeps_getFuture _)).outcome]
        exact hfailed
      refine ⟨.of (if some e = some .cancelledError then none else some e) .none, ?_, ?_⟩
      · change (wait t { s with calledAt := s.time }).point = _
        unfold wait
        simp only [houtcome]
        exact afterWait_point houtcome t _
      · by_cases hcancelled : e = .cancelledError
        · subst hcancelled
          exact .inr ⟨rfl, .inr ⟨rfl, t, rfl⟩⟩
        · rw [if_neg fun h => hcancelled (Option.some.inj h)]
          exact .inl rfl
  | stop exceptions =>
      obtain ⟨future, hfuture, houtcome⟩ := Option.bind_eq_some_iff.mp hfailed
      refine ⟨.of (if exceptions then some e else none) .none, ?_, ?_⟩
      · change (stop exceptions { s with calledAt := s.time }).point = _
        unfold stop
        simp only [hfuture, houtcome]
        rfl
      · cases exceptions
        · exact .inr ⟨rfl, .inl rfl⟩
        · exact .inl rfl
  | sendInput m => exact hchecked (.sendInput m) _
  | receiveOutput t => exact hchecked (.receiveOutput t) _
  | receiveNothing timeout interval => exact hchecked (.receiveNothing timeout interval) _

/-- A communicator whose application has failed with this exception, since it was like this. -/
structure Failed (e : ExcType) (s s' : State M) : Prop where
  outcome : s'.outcome = some (.raised e)
  point : s'.point = s.point ∨
    ∃ method r, s'.point = .outside (some (method, r)) ∧ FailedResult e method r
  /-- What is in the output queue stays there. -/
  output : s.outputQueue <+: s'.outputQueue
  /-- And the input queue gets nothing more. -/
  input : s'.inputQueue <:+ s.inputQueue

/-- A step leaves it failed. -/
theorem failed_step {e : ExcType} {s₀ : State M} {a : Action M}
    {last : Option (Method M × Result M)} (hout : s₀.point = .outside last)
    (hfailed : Failed e s₀ s) (hs : (machine M resolution).step s a = some s') :
    Failed e s₀ s' := by
  have houtside : ∃ last, s.point = .outside last := by
    rcases hfailed.point with hpoint | ⟨method, r, hpoint, -⟩
    · exact ⟨last, hpoint.trans hout⟩
    · exact ⟨_, hpoint⟩
  by_cases hcall : ∃ method, a = .call method
  · obtain ⟨method, rfl⟩ := hcall
    obtain ⟨-, rfl⟩ := step_call hs
    obtain ⟨r, hpoint, hr⟩ := call_failed hfailed.outcome method
    have hturn := turn_callMethod method s
    have hkeeps : Keeps s (callMethod method s) := by
      cases hturn.moves with
      | none hkeeps => exact hkeeps
      | input m _ _ _ hraised => exact absurd hfailed.outcome (hraised e)
      | output t m rest _ hpoint' =>
          -- a call that ended so would have returned a message
          rw [hpoint] at hpoint'
          cases hpoint'
          rcases hr with h | ⟨h, -⟩ <;> cases h
    refine ⟨hkeeps.outcome.trans hfailed.outcome, .inr ⟨method, r, hpoint, hr⟩, ?_, ?_⟩
    · rw [hkeeps.outputQueue]
      exact hfailed.output
    · rw [hkeeps.inputQueue]
      exact hfailed.input
  · by_cases hresume : a = .resume
    · subst hresume
      obtain ⟨method, hmethod, -⟩ := turn_resumeTester (step_resume hs).2
      obtain ⟨last', hpoint⟩ := houtside
      rw [hpoint] at hmethod
      cases hmethod
    · obtain ⟨hpoint, houtcome, -, -, hqueues⟩ :=
        step_frame hs (fun method h => hcall ⟨method, h⟩) hresume
      refine ⟨houtcome _ hfailed.outcome, by rw [hpoint]; exact hfailed.point, ?_, ?_⟩
      · have hsub : s.outputQueue <+: s'.outputQueue := by
          cases a with
          | send m => exact ⟨[m], hqueues.2.symm⟩
          | _ => exact ⟨[], (List.append_nil _).trans hqueues.2.symm⟩
        exact hfailed.output.trans hsub
      · have hsub : s'.inputQueue <:+ s.inputQueue := by
          cases a with
          | receive =>
              obtain ⟨m, hqueue⟩ := hqueues.1
              exact ⟨[m], hqueue.symm⟩
          | _ => exact ⟨[], hqueues.1⟩
        exact hsub.trans hfailed.input

/-- **A communicator whose application has failed is closed.** From there on, in every run, each
call ends at once and with the exception of the application, but for a `stop` that was not asked for
it and a `wait` for a cancelled application. No message is put in any more, and no message that was
sent before is ever returned. -/
theorem failed_closed {e : ExcType} {last : Option (Method M × Result M)}
    (hfailed : s.outcome = some (.raised e)) (hout : s.point = .outside last)
    (hrun : (machine M resolution).Run Machine.Any s as s') :
    (s'.point = .outside last ∨ ∃ method r, s'.point = .outside (some (method, r)) ∧
        (r = .raised e ∨ r = .returned .none ∧
          (method = .stop false ∨ e = .cancelledError ∧ ∃ t, method = .wait t))) ∧
      s.outputQueue <+: s'.outputQueue ∧ s'.inputQueue <:+ s.inputQueue := by
  have hinv : Failed e s s' := by
    refine hrun.invariant ⟨hfailed, .inl rfl, List.prefix_rfl, List.suffix_rfl⟩ ?_
    intro s₁ a s₂ hfailed₁ _ hs
    exact failed_step hout hfailed₁ hs
  refine ⟨?_, hinv.output, hinv.input⟩
  rw [← hout]
  exact hinv.point

/-- An application that fails after it has sent a message. -/
def failedAfter : List (Action Nat) :=
  [.call (.sendInput 1), .start, .send 2, .complete (.raised (.other 3))]

/-- What is called then. -/
def callsAfter : List (Action Nat) := [.call (.stop false), .call (.receiveOutput none)]

/-- The message is not returned any more. -/
theorem failed_closed_after : ∃ s s',
    (machine Nat 1).Run Machine.Any (init Nat 0) failedAfter s ∧ s.outputQueue = [2] ∧
    (machine Nat 1).Run Machine.Any s callsAfter s' ∧
    s'.point = .outside (some (.receiveOutput none, .raised (.other 3))) ∧
    s.outputQueue <+: s'.outputQueue := by
  have hrun : (machine Nat 1).Run Machine.Any (init Nat 0) (failedAfter ++ callsAfter) _ :=
    Machine.exec_run rfl
  obtain ⟨s, hbefore, hafter⟩ := hrun.append_inv
  obtain rfl := hbefore.unique (Machine.exec_run rfl)
  exact ⟨_, _, hbefore, rfl, hafter, rfl, (failed_closed rfl rfl hafter).2.1⟩

end Asgiref.ApplicationCommunicator
