import Asgiref.Runtime.Slots

/-! # The loop of an `AsyncToSync` call

A function that was called from a loop finds that loop in a slot of its thread, and every item
started on the thread fills the slot anew. So the function finds the loop of the last item started
there, which is its own only if no function has been served on its thread from another loop since.

* **`Scheduled`** — every call that is not forced onto a new loop runs on the loop from which the
  function that makes it was called, if that loop is running.
* **`LastFrom`** — the last item that a thread has started came from this loop.
* **`scheduled_iff`** — the first holds after exactly the runs whose calls find the second. -/

namespace Asgiref

namespace Runtime

/-- The calls that functions have made without `force_new_loop`, while the loops from which the
functions were called were running, have been scheduled on those loops. -/
def Scheduled (s : State) : Prop :=
  ∀ c, c < s.nextCall → ∀ x, (s.call c).item = some x → (s.call c).forceNewLoop = false →
    (s.call c).parentRunning = true → (s.call c).loop = (s.item x).loop ∧ (s.call c).newLoop = false

/-- The last item that the thread has started was served from this loop. -/
def LastFrom (s : State) (t : ThreadId) (l : LoopId) : Prop :=
  (s.taskContext t).map (fun x => (s.item x).loop) = some l

/-- A function whose loop is running makes a call, not forced onto a new loop, only while the last
item that its thread has started was served from the same loop. -/
def SameLoop (s : State) : Action → Prop
  | .call t false => ∀ f rest x, s.stack t = f :: rest → f.item = some x →
      s.loopRunning (s.item x).loop = true → LastFrom s t (s.item x).loop
  | _ => True

variable {env : Env} {s s' : State} {a : Action} {as : List Action}

/-- The loop that a call finds is that of the last item, if it is running. -/
theorem parentLoop_eq_some_iff (h : Slots env s) {t : ThreadId} {l : LoopId} :
    parentLoop env false t s = some l ↔ LastFrom s t l ∧ s.loopRunning l = true := by
  simp only [parentLoop, h.mainEventLoop t, LastFrom, Bool.false_eq_true, if_false]
  cases s.taskContext t with
  | none => simp
  | some x =>
      simp only [Option.map_some, true_and, Option.some.injEq]
      by_cases hrunning : s.loopRunning (s.item x).loop = true
      · rw [if_pos hrunning, Option.some.injEq]
        constructor
        · rintro rfl
          exact ⟨rfl, hrunning⟩
        · exact And.left
      · rw [if_neg hrunning]
        constructor
        · intro hnone
          cases hnone
        · rintro ⟨rfl, hl⟩
          exact absurd hl hrunning

/-- **What a call adds.** It runs on the caller's loop exactly if the last item came from there. -/
theorem scheduled_call_iff (h : Slots env s) {t : ThreadId} {frame : SyncFrame}
    {rest : List SyncFrame} {force : Bool} {found : Option LoopId} {l : LoopId} {newLoop : Bool}
    (hstack : s.stack t = frame :: rest) (hparent : parentLoop env force t s = found)
    (hl : found = some l ∧ newLoop = false ∨ found = none ∧ newLoop = true) :
    (∀ x, frame.item = some x → force = false → s.parentRunning frame.item = true →
      l = (s.item x).loop ∧ newLoop = false) ↔ SameLoop s (.call t force) := by
  cases force with
  | true => exact ⟨fun _ => trivial, fun _ x _ hforce => by cases hforce⟩
  | false =>
      constructor
      -- one way the call tells what it has found, the other way it finds what is in the slot
      · intro hmade f rest' x hstack' hitem hrunning
        rw [hstack] at hstack'
        cases hstack'
        obtain ⟨rfl, rfl⟩ := hmade x hitem rfl (by rw [hitem]; exact hrunning)
        rcases hl with ⟨rfl, -⟩ | ⟨-, hnew⟩
        · exact ((parentLoop_eq_some_iff h).mp hparent).1
        · cases hnew
      · intro hsame x hitem _ hrunning
        rw [hitem] at hrunning
        have hlast := hsame frame rest x hstack hitem hrunning
        have hfound := (parentLoop_eq_some_iff h).mpr ⟨hlast, hrunning⟩
        rw [hparent] at hfound
        rcases hl with ⟨rfl, hnew⟩ | ⟨rfl, -⟩
        · exact ⟨Option.some.inj hfound, hnew⟩
        · cases hfound

/-- **When a step keeps the calls on their loops.** -/
theorem scheduled_step (hknown : Known env s)
    (hs : (machine env).step s a = some s') : Scheduled s' ↔ Scheduled s ∧ SameLoop s a := by
  have hcase := step_inv hs
  cases hcase with
  | callParent t frame rest force l hstack hcall hparent =>
      rw [← scheduled_call_iff hknown.slots hstack hparent (.inl ⟨rfl, rfl⟩)]
      exact forall_lt_update_iff (P := fun made => ∀ x, made.item = some x →
        made.forceNewLoop = false → made.parentRunning = true →
        made.loop = (s.item x).loop ∧ made.newLoop = false)
  | callNewLoop t frame rest force hstack hcall hparent =>
      rw [← scheduled_call_iff (l := s.nextLoop) hknown.slots hstack hparent (.inr ⟨rfl, rfl⟩)]
      exact forall_lt_update_iff (P := fun made => ∀ x, made.item = some x →
        made.forceNewLoop = false → made.parentRunning = true →
        made.loop = (s.item x).loop ∧ made.newLoop = false)
  | syncToAsync k b custom selection executor hstatus hlive hselect hsubmit =>
      -- the new item is not one of the functions that have made calls
      have hold : ∀ c, c < s.nextCall → ∀ x, (s.call c).item = some x →
          Function.update s.item s.nextItem ⟨k, (s.task k).loop, executor, custom.isSome⟩ x
            = s.item x := fun c hc x hx => Function.update_of_ne (hknown.callItems c hc x hx).ne _ _
      constructor
      · intro h
        refine ⟨fun c hc x hx hforce hrunning => ?_, trivial⟩
        rw [← hold c hc x hx]
        exact h c hc x hx hforce hrunning
      · rintro ⟨h, -⟩ c hc x hx hforce hrunning
        have hloop := h c hc x hx hforce hrunning
        rw [← hold c hc x hx] at hloop
        exact hloop
  | _ => exact ⟨fun h => ⟨h, trivial⟩, And.left⟩

/-- **The loop of a call.** After a run every call that a function has made without
`force_new_loop`, while its loop was running, is on that loop, exactly if at every such call the
last item that the thread had started was served from that loop. -/
theorem scheduled_iff {contexts : List Context}
    (h : (machine env).Run Machine.Any (init contexts) as s) :
    Scheduled s ↔ (machine env).Run SameLoop (init contexts) as s :=
  h.iff_of_step (J := Known env) (fun _ _ => Known.run)
    (fun c hc => absurd hc (Nat.not_lt_zero c)) fun _ _ _ hJ hs => scheduled_step hJ hs

/-- A loop on which a task awaits a function on the single-thread executor, which makes a call. -/
def oneCall : List Action := [.startLoop ∅, .syncToAsync 0 true none, .take 0, .call 0 false]

/-- The call is on that loop. -/
theorem scheduled_oneCall :
    ∃ s, (machine plainEnv).exec (init []) oneCall = some s ∧
      (machine plainEnv).Run SameLoop (init []) oneCall s ∧ Scheduled s := by
  obtain ⟨s₁, hs₁⟩ : ∃ s₁, (machine plainEnv).exec (init [])
      [.startLoop ∅, .syncToAsync 0 true none, .take 0] = some s₁ := ⟨_, rfl⟩
  obtain ⟨s, hs⟩ : ∃ s, (machine plainEnv).step s₁ (.call 0 false) = some s := by
    cases hs₁
    exact ⟨_, rfl⟩
  have hbefore : ∀ a ∈ [Action.startLoop ∅, .syncToAsync 0 true none, .take 0], ∀ s,
      SameLoop s a := by
    simp [SameLoop]
  have hcall : SameLoop s₁ (.call 0 false) := by
    cases hs₁
    intro f rest x hstack hitem _
    cases hstack
    cases hitem
    rfl
  have hrun : (machine plainEnv).Run SameLoop (init []) oneCall s :=
    (Machine.exec_run_of hbefore hs₁).snoc hcall hs
  have hscheduled := (scheduled_iff (hrun.mono fun _ _ _ => trivial)).mpr hrun
  cases hs₁
  cases hs
  exact ⟨_, rfl, hrun, hscheduled⟩

/-- The function makes a call with `force_new_loop`, whose awaitable awaits a function served on the
same thread, and then a call without. -/
def forcedCallFirst : List Action :=
  [.startLoop ∅, .syncToAsync 0 true none, .take 0,
    .call 0 true, .startTask 1, .syncToAsync 1 true none, .take 0, .ret 0 (.ok .none), .settle 1,
    .complete 1, .finish 1 (.ok .none) false, .closeLoop 1 0, .leave 0,
    .call 0 false]

/-- The second call runs on a new loop, while the loop that the function was called from is
running. -/
theorem forcedCallFirst_not_scheduled :
    ∃ s, (machine plainEnv).exec (init []) forcedCallFirst = some s ∧ ¬ Scheduled s ∧
      (s.call 1).item = some 0 ∧ (s.call 1).newLoop = true ∧
      s.loopRunning (s.item 0).loop = true := by
  refine ⟨_, rfl, fun h => ?_, rfl, rfl, rfl⟩
  exact absurd (h 1 (by decide) 0 rfl rfl rfl).2 (by decide)

end Runtime

end Asgiref
