import Asgiref.Calls.Frames

/-! # Items are started in the order of their submission

An executor that is broken passes an item on to the one before it, so two items that a thread has
submitted through one executor can wait in two queues. The second then waits below the first: the
executor that took the first was broken when the second came by, its frame lies above that of the
other, and it is emptied before it returns.

* **`Leads.older`**, **`Leads.compare`** — the executors on a chain.
* **`InTurn`** — a thread submits one item, and then another, through the same executor.
* **`handled_before`** — when the second is about to be started, the work thread is done with the
  first.
* **`submission_order`** — the first is started before the second. -/

namespace Asgiref

namespace CurrentThreadExecutor

variable {chain : Chain}

/-- The executors on a chain get older, if each was made later than its old executor. -/
theorem Leads.older {next start e : Nat} {passed : List Nat}
    (hold : ∀ c < next, ∀ o, chain.oldExecutor c = some o → o < c) (hstart : start < next)
    (h : Leads chain start passed e) : e ≤ start ∧ ∀ e' ∈ passed, e < e' := by
  induction passed generalizing start with
  | nil =>
      obtain rfl : start = e := h
      exact ⟨Nat.le_refl _, fun e' he' => by cases he'⟩
  | cons first rest ih =>
      obtain ⟨rfl, o, hlink, hrest⟩ := h
      have ho := hold start hstart o hlink
      obtain ⟨hle, hlt⟩ := ih (Nat.lt_trans ho hstart) hrest
      refine ⟨Nat.le_of_lt (Nat.lt_of_le_of_lt hle ho), fun e' he' => ?_⟩
      rcases List.mem_cons.mp he' with rfl | he'
      · exact Nat.lt_of_le_of_lt hle ho
      · exact hlt e' he'

/-- Of two executors on one chain, one comes before the other. -/
theorem Leads.compare {start e e' : Nat} {passed passed' : List Nat}
    (h : Leads chain start passed e) (h' : Leads chain start passed' e') :
    e = e' ∨ e ∈ passed' ∨ e' ∈ passed := by
  induction passed generalizing start passed' with
  | nil =>
      obtain rfl : start = e := h
      cases passed' with
      | nil => exact .inl h'
      | cons first rest =>
          obtain ⟨rfl, -⟩ := h'
          exact .inr (.inl List.mem_cons_self)
  | cons first rest ih =>
      obtain ⟨rfl, o, hlink, hrest⟩ := h
      cases passed' with
      | nil =>
          obtain rfl : start = e' := h'
          exact .inr (.inr List.mem_cons_self)
      | cons first' rest' =>
          obtain ⟨rfl, o', hlink', hrest'⟩ := h'
          rw [hlink] at hlink'
          cases hlink'
          exact (ih hrest hrest').imp id
            (Or.imp (List.mem_cons_of_mem _) (List.mem_cons_of_mem _))

end CurrentThreadExecutor

namespace Calls

open CurrentThreadExecutor

variable {env : Env} {chain : Chain} {context : ThreadId → Context} {s s' : State}

/-- Among these actions a thread submits `x` and then `y` through executor `e`; the first call of
`submit` has returned when the second begins. -/
def InTurn (env : Env) (chain : Chain) (context : ThreadId → Context) (caller e x y : Nat)
    (as : List Action) : Prop :=
  ∃ as₁ as₂ as₃ s₁, as = as₁ ++ .executor (.submit x caller e) :: as₂ ++
      .executor (.submit y caller e) :: as₃ ∧
    (machine env chain).Run Machine.Any (init context)
      (as₁ ++ .executor (.submit x caller e) :: as₂) s₁ ∧
    ∃ e₁, (s₁.executors.item x).submit = .accepted e₁

/-- The function of `x` was called on this thread, and then that of `y`. -/
def StartedBefore (t : ThreadId) (x y : Nat) (calls : List (Nat × Nat)) : Prop :=
  ∃ before between after, calls = before ++ (x, t) :: (between ++ (y, t) :: after)

theorem StartedBefore.append {t : ThreadId} {x y : Nat} {calls : List (Nat × Nat)}
    (h : StartedBefore t x y calls) (more : List (Nat × Nat)) :
    StartedBefore t x y (calls ++ more) := by
  obtain ⟨before, between, after, rfl⟩ := h
  exact ⟨before, between, after ++ more, by simp⟩

/-- The future has not been cancelled. -/
def Uncancelled (f : FutureState) : Prop := f ≠ .cancelled ∧ f ≠ .cancelledAndNotified

/-! ## When the second item is about to be started -/

/-- `x` has been accepted when the submission of `y` begins, through the same executor `e`. -/
structure Earlier (s₁ : CurrentThreadExecutor.State) (e x y e₁ : Nat) : Prop where
  accepted : (s₁.item x).submit = .accepted e₁
  start : (s₁.item x).start = e
  notCalled : (s₁.item y).submit = .notCalled

/-- What is known of a later state. -/
structure Later (chain : Chain) (s₁ : CurrentThreadExecutor.State) (e y : Nat) (s : State) :
    Prop where
  inv : Inv chain s
  run : ∃ bs, (CurrentThreadExecutor.machine chain).Run Machine.Any s₁ bs s.executors
  start : (s.executors.item y).start = e

/-- The work thread of an executor that is broken and has no frame is done with its items. -/
theorem Inv.handled_of_broken (h : Inv chain s) {c x : Nat}
    (hbroken : (s.executors.executor c).broken = true) (hc : c ∉ s.stack (chain.workThread c))
    (hx : (s.executors.item x).submit = .accepted c) : (s.executors.item x).future.Handled := by
  have hex := h.executors.executor c
  have hcalled : s.loop c ≠ .notCalled := fun hcall => by
    have hnone := hex.added.mp hcall
    rw [hex.broken.mp hbroken] at hnone
    cases hnone
  have hreturned : s.loop c = .returned := by
    by_contra hnot
    exact hc (h.active c ⟨hcalled, hnot⟩)
  have hmem := (hex.mem x).mpr hx
  rw [hex.fifo, (hex.returned hreturned).1, List.append_nil] at hmem
  have hloop : (s.executors.executor c).loop = .returned := hreturned
  simpa [hloop] using hex.handled x hmem

/-- **The first item comes first.** When the innermost frame of a thread is about to start `y`, the
thread is done with `x`. -/
theorem handled_before {s₁ : CurrentThreadExecutor.State} {e x y e₁ : Nat} {t : ThreadId}
    (hinv₁ : CurrentThreadExecutor.Inv chain s₁) (hfirst : Earlier s₁ e x y e₁)
    (h : Later chain s₁ e y s)
    (hchain : ∀ passed e', Leads chain e passed e' → chain.workThread e' = t) {c : CallId}
    {rest : List CallId} (hstack : s.stack t = c :: rest)
    (htook : (s.executors.executor c).loop = .took y) : (s.executors.item x).future.Handled := by
  obtain ⟨bs, hrun⟩ := h.run
  have hinv := h.inv.executors
  have hex := hinv.executor c
  have hy : (s.executors.item y).submit = .accepted c := hex.accepted (hex.took y htook).1
  obtain ⟨hx, hpassed⟩ := accepted_run hfirst.accepted hrun
  have hsubmitted : (s₁.item x).submit ≠ .notCalled := by simp [hfirst.accepted]
  have hstart := (start_run hsubmitted hrun).2.trans hfirst.start
  have hleadsx := (hinv.item x).accepted e₁ hx
  have hleadsy := (hinv.item y).accepted c hy
  rw [hstart] at hleadsx
  rw [h.start] at hleadsy
  have hxy : x ≠ y := by
    rintro rfl
    exact hsubmitted hfirst.notCalled
  have hy₁ : ∀ e', y ∉ (s₁.executor e').appended := fun e' hmem => by
    have haccepted := ((hinv₁.executor e').mem y).mp hmem
    rw [hfirst.notCalled] at haccepted
    cases haccepted
  rcases hleadsx.compare hleadsy with rfl | hbefore | hafter
  · -- in one queue `x` stands in front of `y`, which has been dequeued
    have hgrown := appended_run hrun e₁
    have hdequeued : (s.executors.executor e₁).dequeued <+: (s.executors.executor e₁).appended := by
      rw [hex.fifo]
      exact List.prefix_append _ _
    have hmem : x ∈ (s.executors.executor e₁).dequeued := by
      rcases List.prefix_or_prefix_of_prefix hgrown hdequeued with hle | hle
      · exact hle.subset (((hinv₁.executor e₁).mem x).mpr hfirst.accepted)
      · exact absurd (hle.subset (hex.took y htook).1) (hy₁ e₁)
    rcases hex.handled x hmem with hl | hl | hhandled
    · rw [htook] at hl
      cases hl
      exact absurd rfl hxy
    · rw [htook] at hl
      cases hl
    · exact hhandled
  · -- the executor of `x` is broken, and its frame would lie above the innermost one
    have hbroken := (hinv.item y).passed e₁ hbefore
    refine h.inv.handled_of_broken hbroken (fun hmem => ?_) hx
    rw [hchain _ _ hleadsx, hstack] at hmem
    have hlt : c < e₁ := by
      refine (hleadsy.older h.inv.older ?_).2 e₁ hbefore
      rw [← h.start]
      exact h.inv.start y (by simp [hy])
    rcases List.mem_cons.mp hmem with heq | hmem
    · exact absurd heq.symm (Nat.ne_of_lt hlt)
    · have hsorted := h.inv.sorted t
      rw [hstack] at hsorted
      exact Nat.lt_asymm hlt ((List.pairwise_cons.mp hsorted).1 e₁ hmem)
  · -- the executor of `y` was broken before `y` was submitted
    rw [hpassed] at hafter
    have hclosed := run_of_broken ((hinv₁.item x).passed c hafter) hrun
    have hmem := (hex.mem y).mpr hy
    rw [hclosed] at hmem
    exact absurd hmem (hy₁ c)

/-! ## Whole runs -/

/-- The call of `submit` begins. -/
theorem submit_step {x caller e : Nat}
    (hs : (machine env chain).step s (.executor (.submit x caller e)) = some s') :
    (s.executors.item x).submit = .notCalled ∧ (s'.executors.item x).submit ≠ .notCalled ∧
      (∀ e', (s'.executors.item x).submit ≠ .accepted e') ∧ (s'.executors.item x).start = e := by
  cases step_inv hs with
  | executor hallows hstep =>
      cases CurrentThreadExecutor.step_inv hstep with
      | submit caller e hcall =>
          refine ⟨hcall, ?_⟩
          rw [State.setItem_item, if_pos rfl]
          dsimp only
          split <;> simp

/-- A step after which the function of `y` has been called, and before which it had not. -/
theorem calls_step {a : Action} {t : ThreadId} {x y e e₁ : Nat} {s₁ : CurrentThreadExecutor.State}
    (hinv₁ : CurrentThreadExecutor.Inv chain s₁) (hfirst : Earlier s₁ e x y e₁)
    (h : Later chain s₁ e y s)
    (hchain : ∀ passed e', Leads chain e passed e' → chain.workThread e' = t)
    (hs : (machine env chain).step s a = some s')
    (hbefore : y ∈ s.executors.calls.map Prod.fst → StartedBefore t x y s.executors.calls ∨
      (s.executors.item x).future = .cancelledAndNotified)
    (hcalled : y ∈ s'.executors.calls.map Prod.fst) :
    StartedBefore t x y s'.executors.calls ∨
      (s'.executors.item x).future = .cancelledAndNotified := by
  rcases executors_step hs with hsame | ⟨b, hstep, hb⟩
  · rw [hsame] at hcalled ⊢
    exact hbefore hcalled
  have hinv := h.inv.executors
  have hnotified : (s.executors.item x).future = .cancelledAndNotified →
      (s'.executors.item x).future = .cancelledAndNotified := fun hx =>
    notified_run hinv hx (.single trivial hstep)
  rcases step_calls hstep with hsame | ⟨c, z, rfl, htook, hcalls⟩
  · rw [hsame] at hcalled ⊢
    exact (hbefore hcalled).imp id hnotified
  by_cases hold : y ∈ s.executors.calls.map Prod.fst
  · rw [hcalls]
    exact (hbefore hold).imp (fun hstarted => hstarted.append _) hnotified
  -- this step calls the function of `y`
  rw [hcalls, List.map_append, List.mem_append] at hcalled
  obtain rfl : y = z := by simpa using hcalled.resolve_left hold
  obtain ⟨t', c', rest, hstack, heq⟩ :
      ∃ t' c' rest, s.stack t' = c' :: rest ∧ (c : Nat) = c' := by
    rcases hb with ⟨hallows, -⟩ | ⟨t', c', rest, hstack, heq⟩
    · simp [allows] at hallows
    · refine ⟨t', c', rest, hstack, ?_⟩
      rcases heq with heq | heq <;> cases heq
      rfl
  subst heq
  have hex := hinv.executor c
  have hy := hex.accepted (hex.took y htook).1
  have hworky : chain.workThread c = t := by
    have hleads := (hinv.item y).accepted c hy
    rw [h.start] at hleads
    exact hchain _ _ hleads
  obtain rfl : t' = t := by
    rw [← hworky]
    exact (h.inv.below t' c (by rw [hstack]; exact .head _)).2.symm
  have hrunner : (s.executors.executor c).runner = t' := by
    rw [← hworky]
    exact hex.runner (by simp [htook])
  rcases handled_before hinv₁ hfirst h hchain hstack htook with hfinished | hcancelled
  · left
    obtain ⟨⟨x', t₁⟩, hp, rfl⟩ := List.mem_map.mp ((hinv.calls_iff x).mpr (.inr hfinished))
    obtain ⟨e', hsubmit, rfl⟩ := hinv.calls_thread _ hp
    obtain ⟨bs, hrun⟩ := h.run
    have hworkx : chain.workThread e' = t' := by
      have hleads := (hinv.item x').accepted e' hsubmit
      have hsubmitted : (s₁.item x').submit ≠ .notCalled := by simp [hfirst.accepted]
      rw [(start_run hsubmitted hrun).2, hfirst.start] at hleads
      exact hchain _ _ hleads
    obtain ⟨before, between, hcallsx⟩ := List.append_of_mem hp
    refine ⟨before, between, [], ?_⟩
    rw [hcalls, hcallsx, hrunner]
    simp [hworkx]
  · exact .inr (hnotified hcancelled)

/-- **Submission order survives the fallback.** In every run, where a thread submits `x` and then
`y` through an executor all of whose chain belongs to thread `t`, and neither is cancelled, `t`
starts `x` before it starts `y`. Once the executor that took `y` has returned, it has started
both. -/
theorem submission_order {as : List Action} {t caller e x y e₂ : Nat}
    (h : (machine env chain).Run Machine.Any (init context) as s)
    (hturn : InTurn env chain context caller e x y as)
    (hchain : ∀ passed e', Leads chain e passed e' → chain.workThread e' = t)
    (hy : (s.executors.item y).submit = .accepted e₂)
    (huncancelledx : Uncancelled (s.executors.item x).future)
    (huncancelledy : Uncancelled (s.executors.item y).future)
    (hstarted : (s.executors.item y).future.Called ∨ s.loop e₂ = .returned) :
    StartedBefore t x y s.executors.calls := by
  obtain ⟨as₁, as₂, as₃, s₁, rfl, hrun₁, e₁, hx₁⟩ := hturn
  obtain ⟨s₁', hrun₁', hrest⟩ := h.append_inv
  obtain rfl := hrun₁.unique hrun₁'
  have hinv₁ := Inv.run hrun₁
  have hstartx : (s₁.executors.item x).start = e := by
    obtain ⟨s₀, -, hfirst⟩ := hrun₁.append_inv
    obtain ⟨s₀', hsubmit, hfirst⟩ := hfirst.cons_inv
    obtain ⟨-, hsubmitted, -, hstart⟩ := submit_step hsubmit
    obtain ⟨bs, hexecutors⟩ := run_executors hfirst
    exact (start_run hsubmitted hexecutors).2.trans hstart
  obtain ⟨s₂, hsubmit, hlast⟩ := hrest.cons_inv
  obtain ⟨hnew, hsubmitted, huntaken, hstarty⟩ := submit_step hsubmit
  have hearlier : Earlier s₁.executors e x y e₁ := ⟨hx₁, hstartx, hnew⟩
  have hlater : ∀ bs s, (machine env chain).Run Machine.Any s₂ bs s →
      Later chain s₁.executors e y s := by
    intro bs s hrun
    have hrun' := Machine.Run.append (.single (M := machine env chain) trivial hsubmit) hrun
    obtain ⟨cs, hexecutors⟩ := run_executors hrun
    exact ⟨hrun'.invariant hinv₁ fun _ _ _ hI _ hs => hI.step hs, run_executors hrun',
      (start_run hsubmitted hexecutors).2.trans hstarty⟩
  have hlast₂ := hlater as₃ s hlast
  have hcalled : y ∈ s.executors.calls.map Prod.fst := by
    refine (hlast₂.inv.executors.calls_iff y).mpr (hstarted.elim id fun hreturned => ?_)
    -- what was accepted has been handled, and was not cancelled
    have hex := hlast₂.inv.executors.executor e₂
    have hmem := (hex.mem y).mpr hy
    rw [hex.fifo, (hex.returned hreturned).1, List.append_nil] at hmem
    have hloop : (s.executors.executor e₂).loop = .returned := hreturned
    rcases hex.handled y hmem with hl | hl | hfinished | hcancelled
    · rw [hloop] at hl
      cases hl
    · rw [hloop] at hl
      cases hl
    · exact .inr hfinished
    · exact absurd hcancelled huncancelledy.2
  have hnotYet : y ∉ s₂.executors.calls.map Prod.fst := fun hmem => by
    have hinv₂ := (hlater [] s₂ .nil).inv.executors
    have hcalled₂ := (hinv₂.calls_iff y).mp hmem
    rw [(hinv₂.item y).untaken huntaken] at hcalled₂
    rcases hcalled₂ with hf | hf <;> cases hf
  have horder := hlast.invariant_of (I := fun s => y ∈ s.executors.calls.map Prod.fst →
      StartedBefore t x y s.executors.calls ∨
        (s.executors.item x).future = .cancelledAndNotified)
    hlater (fun hmem => absurd hmem hnotYet)
    fun s a s' hJ hI _ hs => calls_step hinv₁.executors hearlier hJ hchain hs hI
  exact (horder hcalled).resolve_right huncancelledx.2

/-- Thread 7 calls `AsyncToSync`, and so does the function of item 0 that it runs in the frame of
this call. -/
def nesting : List Action :=
  [.call 7, .schedule 7 .newLoop, .executor (.enter 0 7), .executor (.submit 0 9 0),
    .executor (.walk 0), .executor (.check 0), .enterItem 7 inItem, .call 7,
    .schedule 7 .parentLoop, .executor (.enter 1 7)]

/-- Executor 1 takes item 1, and is broken. -/
def breaking : List Action :=
  [.executor (.walk 1), .startCoroutine 1, .capture 1 inItem, .executor (.resolve 1),
    .executor (.done 1)]

/-- Executor 0 takes item 2. Both frames run their items. -/
def draining : List Action :=
  [.executor (.walk 2), .executor (.walk 2), .executor (.check 1), .enterItem 7 inItem,
    .leaveItem 7, .executor (.check 1), .leave 7, .leaveItem 7, .executor (.check 0),
    .enterItem 7 inItem]

/-- Thread 9 submits items 1 and 2 through executor 1. -/
def fallback : List Action :=
  nesting ++ .executor (.submit 1 9 1) :: breaking ++ .executor (.submit 2 9 1) :: draining

theorem submission_order_fallback :
    ∃ s, (machine plainEnv nestedFrames).exec (init fun _ => ∅) fallback = some s ∧
      StartedBefore 7 1 2 s.executors.calls := by
  refine ⟨_, rfl, ?_⟩
  have hturn : InTurn plainEnv nestedFrames (fun _ => ∅) 9 1 1 2 fallback :=
    ⟨nesting, breaking, draining, _, rfl, Machine.exec_run rfl, 1, rfl⟩
  exact submission_order (Machine.exec_run rfl) hturn (fun _ _ _ => rfl) rfl ⟨by decide, by decide⟩
    ⟨by decide, by decide⟩ (.inl (.inl rfl))

end Calls

end Asgiref
