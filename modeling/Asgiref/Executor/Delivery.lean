import Asgiref.Executor.Invariant

/-! # What the executors guarantee

* **`ItemStep`**, **`ExecutorStep`** — what a step can do to one item and to one executor, with
  **`step_item`** and **`step_executor`**.
* **`accepted_history`** — an item is taken by the first executor on the chain that is not broken
  when the walk reaches it.
* **`run_of_broken`** — nothing is ever added to a broken executor.
* **`called_run`**, **`notified_run`** — a function that was called stays called, and a cancellation
  that the work thread has noticed is final.
* **`Delivery`** and **`delivery`** — all guarantees together, in every state of every run. -/

namespace Asgiref

namespace CurrentThreadExecutor

variable {chain : Chain} {s s' : State} {a : Action}

namespace State

@[simp] theorem setExecutor_executor (s : State) (e e' : Nat) (ex : Executor) :
    (s.setExecutor e ex).executor e' = if e' = e then ex else s.executor e' := by
  simp [setExecutor, Function.update_apply]

@[simp] theorem setExecutor_item (s : State) (e : Nat) (ex : Executor) :
    (s.setExecutor e ex).item = s.item := rfl

@[simp] theorem setItem_item (s : State) (x y : Nat) (i : WorkItem) :
    (s.setItem x i).item y = if y = x then i else s.item y := by
  simp [setItem, Function.update_apply]

end State

/-! ## What a step can do -/

/-- What a step does to item `x`. -/
inductive ItemStep (chain : Chain) (s : State) (x : Nat) (i : WorkItem) :
    Action → WorkItem → Prop
  | same (a : Action) : ItemStep chain s x i a i
  | submit (caller e : Nat) (h : i.submit = .notCalled) :
      ItemStep chain s x i (.submit x caller e)
        { i with submit := if caller = chain.workThread e then .raised else .walking e, start := e }
  | next (e e' : Nat) (h : i.submit = .walking e) (hbroken : (s.executor e).broken = true)
      (hlink : chain.oldExecutor e = some e') :
      ItemStep chain s x i (.walk x) { i with submit := .walking e', passed := i.passed ++ [e] }
  | raise (e : Nat) (h : i.submit = .walking e) (hbroken : (s.executor e).broken = true) :
      ItemStep chain s x i (.walk x) { i with submit := .raised, passed := i.passed ++ [e] }
  | accept (e : Nat) (h : i.submit = .walking e) (hbroken : (s.executor e).broken = false) :
      ItemStep chain s x i (.walk x) { i with submit := .accepted e }
  | cancel (h : i.future = .pending) :
      ItemStep chain s x i (.cancel x) { i with future := .cancelled }
  | start (e : Nat) (hloop : (s.executor e).loop = .took x) (h : i.future = .pending) :
      ItemStep chain s x i (.start e) { i with future := .running }
  | notify (e : Nat) (hloop : (s.executor e).loop = .took x) (h : i.future = .cancelled) :
      ItemStep chain s x i (.start e) { i with future := .cancelledAndNotified }
  | finish (e : Nat) (hloop : (s.executor e).loop = .running x) :
      ItemStep chain s x i (.finish e) { i with future := .finished }

/-- An update of one item, seen from item `x`. -/
theorem ItemStep.of_update {x y : Nat} {i : WorkItem} (h : ItemStep chain s y (s.item y) a i) :
    ItemStep chain s x (s.item x) a (if x = y then i else s.item x) := by
  by_cases hy : x = y
  · subst hy
    rwa [if_pos rfl]
  · rw [if_neg hy]
    exact .same a

theorem step_item (hs : (machine chain).step s a = some s') (x : Nat) :
    ItemStep chain s x (s.item x) a (s'.item x) := by
  cases step_inv hs with
  | submit caller e hcall =>
      rw [State.setItem_item]
      exact .of_update (.submit caller e hcall)
  | @next y e e' hwalk hbroken hlink =>
      rw [State.setItem_item]
      exact .of_update (.next e e' hwalk hbroken hlink)
  | @raise y e hwalk hbroken =>
      rw [State.setItem_item]
      exact .of_update (.raise e hwalk hbroken)
  | @accept y e hwalk hbroken =>
      rw [State.setExecutor_item, State.setItem_item]
      exact .of_update (.accept e hwalk hbroken)
  | cancel _ hpending =>
      rw [State.setItem_item]
      exact .of_update (.cancel hpending)
  | @start y e hloop hpending =>
      rw [State.setExecutor_item, State.setItem_item]
      exact .of_update (.start e hloop hpending)
  | @notifyCancel y e hloop hcancelled =>
      rw [State.setExecutor_item, State.setItem_item]
      exact .of_update (.notify e hloop hcancelled)
  | @finish y e hloop =>
      rw [State.setExecutor_item, State.setItem_item]
      exact .of_update (.finish e hloop)
  | cancelLate | resolve | done | enterRaising | enterDone | enter | check => exact .same _

/-- What a step does to an executor. -/
inductive ExecutorStep (ex : Executor) : Executor → Prop
  | same : ExecutorStep ex ex
  | append (x : Nat) (h : ex.broken = false) :
      ExecutorStep ex
        { ex with workItems := ex.workItems ++ [x], appended := ex.appended ++ [x] }.notify
  | resolve : ExecutorStep ex { ex with futureDone := true }
  | done : ExecutorStep ex { ex with broken := true, callback := .called }.notify
  | enter (t : Nat) : ExecutorStep ex { ex with loop := .top, runner := t, callback := .added }
  | enterDone (t : Nat) :
      ExecutorStep ex { ex with loop := .top, runner := t, broken := true, callback := .called }
  | check : ExecutorStep ex ex.check
  | loop (l : Loop) : ExecutorStep ex { ex with loop := l }

/-- What a step does to executor `e`, and which action does it. -/
inductive ExecutorChange (e : Nat) (ex : Executor) : Action → Executor → Prop
  | same (a : Action) : ExecutorChange e ex a ex
  | append (x : Nat) (h : ex.broken = false) :
      ExecutorChange e ex (.walk x)
        { ex with workItems := ex.workItems ++ [x], appended := ex.appended ++ [x] }.notify
  | resolve : ExecutorChange e ex (.resolve e) { ex with futureDone := true }
  | done : ExecutorChange e ex (.done e) { ex with broken := true, callback := .called }.notify
  | enter (t : Nat) (h : ex.loop = .notCalled) :
      ExecutorChange e ex (.enter e t) { ex with loop := .top, runner := t, callback := .added }
  | enterDone (t : Nat) (h : ex.loop = .notCalled) :
      ExecutorChange e ex (.enter e t)
        { ex with loop := .top, runner := t, broken := true, callback := .called }
  | check (h : ex.loop = .top ∨ ex.loop = .waiting true) :
      ExecutorChange e ex (.check e) ex.check
  | start (x : Nat) (h : ex.loop = .took x) :
      ExecutorChange e ex (.start e) { ex with loop := .running x }
  | notifyCancel (x : Nat) (h : ex.loop = .took x) :
      ExecutorChange e ex (.start e) { ex with loop := .top }
  | finish (x : Nat) (h : ex.loop = .running x) :
      ExecutorChange e ex (.finish e) { ex with loop := .top }

/-- An update of one executor, seen from executor `e`. -/
theorem ExecutorChange.of_update {e e' : Nat} {ex : Executor}
    (h : ExecutorChange e' (s.executor e') a ex) :
    ExecutorChange e (s.executor e) a (if e = e' then ex else s.executor e) := by
  by_cases he : e = e'
  · subst he
    rwa [if_pos rfl]
  · rw [if_neg he]
    exact .same a

theorem step_change (hs : (machine chain).step s a = some s') (e : Nat) :
    ExecutorChange e (s.executor e) a (s'.executor e) := by
  cases step_inv hs with
  | @accept y e' hwalk hbroken =>
      rw [State.setExecutor_executor]
      exact .of_update (.append y hbroken)
  | resolve =>
      rw [State.setExecutor_executor]
      exact .of_update .resolve
  | done =>
      rw [State.setExecutor_executor]
      exact .of_update .done
  | @enterDone e' t hcall =>
      rw [State.setExecutor_executor]
      exact .of_update (.enterDone t hcall)
  | @enter e' t hcall =>
      rw [State.setExecutor_executor]
      exact .of_update (.enter t hcall)
  | check hloop =>
      rw [State.setExecutor_executor]
      exact .of_update (.check hloop)
  | @start x e' hloop =>
      rw [State.setExecutor_executor]
      exact .of_update (.start x hloop)
  | @notifyCancel x e' hloop =>
      rw [State.setExecutor_executor]
      exact .of_update (.notifyCancel x hloop)
  | @finish x e' hloop =>
      rw [State.setExecutor_executor]
      exact .of_update (.finish x hloop)
  | submit | next | raise | cancel | cancelLate | enterRaising => exact .same _

theorem step_executor (hs : (machine chain).step s a = some s') (e : Nat) :
    ExecutorStep (s.executor e) (s'.executor e) := by
  have hchange := step_change hs e
  generalize s'.executor e = ex' at hchange
  cases hchange with
  | same => exact .same
  | append x hbroken => exact .append x hbroken
  | resolve => exact .resolve
  | done => exact .done
  | enter t => exact .enter t
  | enterDone t => exact .enterDone t
  | check => exact .check
  | start | notifyCancel | finish => exact .loop _

/-- Items are only ever added. -/
theorem ExecutorStep.appended {ex ex' : Executor} (h : ExecutorStep ex ex') :
    ex.appended <+: ex'.appended := by
  cases h with
  | append x => unfold Executor.notify; split <;> exact List.prefix_append _ _
  | done => unfold Executor.notify; split <;> exact List.prefix_refl _
  | check => unfold Executor.check; split <;> exact List.prefix_refl _
  | _ => exact List.prefix_refl _

/-- `run_until_future` has been called and has not returned. -/
def Loop.Active (l : Loop) : Prop := l ≠ .notCalled ∧ l ≠ .returned

theorem Loop.Active.of_notify {ex : Executor} (h : ex.notify.loop.Active) : ex.loop.Active := by
  obtain ⟨-, hloop⟩ := Executor.notify_loop ex
  exact ⟨fun hcall => h.1 ((hloop _ (by simp)).mpr hcall),
    fun hreturned => h.2 ((hloop _ (by simp)).mpr hreturned)⟩

/-- Only a call of `run_until_future` begins one. -/
theorem ExecutorChange.active {e : Nat} {ex ex' : Executor} (h : ExecutorChange e ex a ex')
    (hactive : ex'.loop.Active) : ex.loop.Active ∨ ∃ t, a = .enter e t := by
  cases h with
  | same | resolve => exact .inl hactive
  | append x => exact .inl hactive.of_notify
  | done => exact .inl hactive.of_notify
  | enter t => exact .inr ⟨t, rfl⟩
  | enterDone t => exact .inr ⟨t, rfl⟩
  | check hloop =>
      left
      rcases hloop with hl | hl <;> rw [hl] <;> exact ⟨by simp, by simp⟩
  | start x hloop | notifyCancel x hloop | finish x hloop =>
      left
      rw [hloop]
      exact ⟨by simp, by simp⟩

/-- The function of an item is being called. -/
def Loop.isRunning : Loop → Bool
  | .running _ => true
  | _ => false

theorem Loop.isRunning_notify (ex : Executor) : ex.notify.loop.isRunning = ex.loop.isRunning := by
  unfold Executor.notify
  split
  · rename_i hwait
    rw [hwait]
    rfl
  · rfl

/-- Only `_WorkItem.run` begins and ends such a call. -/
theorem ExecutorChange.isRunning {e : Nat} {ex ex' : Executor} (h : ExecutorChange e ex a ex') :
    ex'.loop.isRunning = ex.loop.isRunning ∨
      a = .start e ∧ ex.loop.isRunning = false ∨
      a = .finish e ∧ ex.loop.isRunning = true ∧ ex'.loop.isRunning = false := by
  cases h with
  | same | resolve => exact .inl rfl
  | append x => exact .inl (Loop.isRunning_notify _)
  | done => exact .inl (Loop.isRunning_notify _)
  | enter t hcall => exact .inl (by rw [hcall]; rfl)
  | enterDone t hcall => exact .inl (by rw [hcall]; rfl)
  | check hloop =>
      have hafter : ex.check.loop.isRunning = false := by
        unfold Executor.check
        split
        · dsimp only
          split <;> rfl
        · rfl
      left
      rw [hafter]
      rcases hloop with hl | hl <;> rw [hl] <;> rfl
  | start x hloop => exact .inr (.inl ⟨rfl, by rw [hloop]; rfl⟩)
  | notifyCancel x hloop => exact .inl (by rw [hloop]; rfl)
  | finish x hloop => exact .inr (.inr ⟨rfl, by rw [hloop]; rfl, rfl⟩)

/-- Only the resolving of the future makes it done. -/
theorem ExecutorChange.futureDone {e : Nat} {ex ex' : Executor} (h : ExecutorChange e ex a ex') :
    ex'.futureDone = ex.futureDone ∨ a = .resolve e ∧ ex'.futureDone = true := by
  cases h with
  | append x => unfold Executor.notify; split <;> exact .inl rfl
  | done => unfold Executor.notify; split <;> exact .inl rfl
  | check => unfold Executor.check; split <;> exact .inl rfl
  | resolve => exact .inr ⟨rfl, rfl⟩
  | _ => exact .inl rfl

/-- `_WorkItem.run` begins with an item that has been dequeued. -/
theorem took_of_start {e : Nat} (hs : (machine chain).step s (.start e) = some s') :
    ∃ x, (s.executor e).loop = .took x := by
  cases step_inv hs with
  | start hloop => exact ⟨_, hloop⟩
  | notifyCancel hloop => exact ⟨_, hloop⟩

/-- It ends when the function has returned. -/
theorem running_of_finish {e : Nat} (hs : (machine chain).step s (.finish e) = some s') :
    (∃ x, (s.executor e).loop = .running x) ∧ (s'.executor e).loop = .top := by
  cases step_inv hs with
  | finish hloop =>
      refine ⟨⟨_, hloop⟩, ?_⟩
      rw [State.setExecutor_executor, if_pos rfl]

/-- An item keeps the executor that its `submit` was called on. -/
theorem step_start (hs : (machine chain).step s a = some s') {x : Nat}
    (hcalled : (s'.item x).submit ≠ .notCalled) :
    (∃ caller, a = .submit x caller (s'.item x).start) ∨
      (s.item x).submit ≠ .notCalled ∧ (s'.item x).start = (s.item x).start := by
  have hstep := step_item hs x
  generalize s'.item x = i' at hstep hcalled ⊢
  cases hstep with
  | submit caller e => exact .inl ⟨caller, rfl⟩
  | next e e' hwalk => exact .inr ⟨by simp [hwalk], rfl⟩
  | raise e hwalk => exact .inr ⟨by simp [hwalk], rfl⟩
  | accept e hwalk => exact .inr ⟨by simp [hwalk], rfl⟩
  | _ => exact .inr ⟨hcalled, rfl⟩

/-! ## Consequences for runs -/

/-- What a step adds to the calls of functions. -/
theorem step_calls (hs : (machine chain).step s a = some s') :
    s'.calls = s.calls ∨ ∃ e x, a = .start e ∧ (s.executor e).loop = .took x ∧
      s'.calls = s.calls ++ [(x, (s.executor e).runner)] := by
  cases step_inv hs with
  | @start x e hloop => exact .inr ⟨e, x, rfl, hloop, rfl⟩
  | _ => exact .inl rfl

/-- **A broken executor is closed**: it stays broken, and nothing is added to it. -/
theorem ExecutorStep.of_broken {ex ex' : Executor} (h : ExecutorStep ex ex')
    (hb : ex.broken = true) : ex'.broken = true ∧ ex'.appended = ex.appended := by
  cases h with
  | append x hunbroken => rw [hb] at hunbroken; cases hunbroken
  | done => unfold Executor.notify; split <;> exact ⟨rfl, rfl⟩
  | check => unfold Executor.check; split <;> exact ⟨hb, rfl⟩
  | enterDone t => exact ⟨rfl, rfl⟩
  | _ => exact ⟨hb, rfl⟩

theorem run_of_broken {bs : List Action} {e : Nat} (hb : (s.executor e).broken = true)
    (h : (machine chain).Run Machine.Any s bs s') :
    (s'.executor e).appended = (s.executor e).appended := by
  have hboth := h.invariant (I := fun t => (t.executor e).broken = true ∧
    (t.executor e).appended = (s.executor e).appended) ⟨hb, rfl⟩ fun t a t' hI _ hs => by
      obtain ⟨hbroken, happended⟩ := (step_executor hs e).of_broken hI.1
      exact ⟨hbroken, happended.trans hI.2⟩
  exact hboth.2

/-- Items are only ever added. -/
theorem appended_run {bs : List Action} (h : (machine chain).Run Machine.Any s bs s') (e : Nat) :
    (s.executor e).appended <+: (s'.executor e).appended :=
  h.invariant (I := fun t => (s.executor e).appended <+: (t.executor e).appended)
    (List.prefix_refl _) fun _ _ _ hI _ hs => hI.trans (step_executor hs e).appended

/-- An item whose `submit` was called keeps the executor that this was called on. -/
theorem start_run {bs : List Action} {x : Nat} (hx : (s.item x).submit ≠ .notCalled)
    (h : (machine chain).Run Machine.Any s bs s') :
    (s'.item x).submit ≠ .notCalled ∧ (s'.item x).start = (s.item x).start := by
  refine h.invariant (I := fun t => (t.item x).submit ≠ .notCalled ∧
    (t.item x).start = (s.item x).start) ⟨hx, rfl⟩ fun t a t' hI _ hs => ?_
  have hstep := step_item hs x
  generalize t'.item x = i' at hstep
  cases hstep with
  | submit caller e hcall => exact absurd hcall hI.1
  | next => exact ⟨by simp, hI.2⟩
  | raise => exact ⟨by simp, hI.2⟩
  | accept => exact ⟨by simp, hI.2⟩
  | _ => exact hI

/-- A function that was called stays called. -/
theorem called_run {bs : List Action} {x : Nat} (hx : (s.item x).future.Called)
    (h : (machine chain).Run Machine.Any s bs s') : (s'.item x).future.Called := by
  refine h.invariant (I := fun t => (t.item x).future.Called) hx fun t a t' hI _ hs => ?_
  have hstep := step_item hs x
  generalize t'.item x = i' at hstep
  cases hstep with
  | cancel h => rw [h] at hI; rcases hI with hf | hf <;> cases hf
  | notify e _ h => rw [h] at hI; rcases hI with hf | hf <;> cases hf
  | start => exact .inl rfl
  | finish => exact .inr rfl
  | _ => exact hI

/-- A cancellation that the work thread has noticed is final. -/
theorem notified_run (hinv : Inv chain s) {bs : List Action} {x : Nat}
    (hx : (s.item x).future = .cancelledAndNotified)
    (h : (machine chain).Run Machine.Any s bs s') :
    (s'.item x).future = .cancelledAndNotified := by
  refine (h.invariant (I := fun t => Inv chain t ∧ (t.item x).future = .cancelledAndNotified)
    ⟨hinv, hx⟩ fun t a t' hI _ hs => ⟨hI.1.step hs, ?_⟩).2
  have hstep := step_item hs x
  generalize t'.item x = i' at hstep
  cases hstep with
  | cancel h => rw [hI.2] at h; cases h
  | start e _ h => rw [hI.2] at h; cases h
  | notify => rfl
  | finish e hloop =>
      -- only the function of a running item finishes
      have hrunning := ((hI.1.executor e).running x hloop).2
      rw [hI.2] at hrunning
      cases hrunning
  | _ => exact hI.2

/-- Among these actions a turn of the walk for `x`, which began at `start`, came to executor `e`: it
was not broken then, and all those passed before it on the chain were. -/
def AcceptedIn (chain : Chain) (as : List Action) (x e start : Nat) (passed : List Nat) : Prop :=
  Leads chain start passed e ∧
    ∃ as₁ s₁ as₂, as = as₁ ++ .walk x :: as₂ ∧ (machine chain).Run Machine.Any init as₁ s₁ ∧
      (s₁.executor e).broken = false ∧ ∀ e' ∈ passed, (s₁.executor e').broken = true

theorem AcceptedIn.snoc {as : List Action} {x e start : Nat} {passed : List Nat}
    (h : AcceptedIn chain as x e start passed) (a : Action) :
    AcceptedIn chain (as ++ [a]) x e start passed := by
  obtain ⟨hleads, as₁, s₁, as₂, rfl, hrest⟩ := h
  exact ⟨hleads, as₁, s₁, as₂ ++ [a], by simp, hrest⟩

/-- **Acceptance.** Every item that is accepted was accepted by a turn of its walk. -/
theorem accepted_history {as : List Action} (h : (machine chain).Run Machine.Any init as s)
    (x e : Nat) (hx : (s.item x).submit = .accepted e) :
    AcceptedIn chain as x e (s.item x).start (s.item x).passed := by
  revert hx
  refine h.history (P := fun as s => (s.item x).submit = .accepted e →
    AcceptedIn chain as x e (s.item x).start (s.item x).passed) (fun hx => by cases hx)
    fun as t a t' hrun ih _ hs hx => ?_
  have hstep := step_item hs x
  generalize t'.item x = i' at hstep hx ⊢
  -- unless this is the step that accepts the item, it was accepted before
  cases hstep with
  | same => exact (ih hx).snoc a
  | submit caller e' hcall =>
      dsimp only at hx
      split at hx <;> cases hx
  | next => cases hx
  | raise => cases hx
  | accept e' hwalk hbroken =>
      cases hx
      have hitem := (Inv.run hrun).item x
      exact ⟨hitem.walking e hwalk, as, t, [], rfl, hrun, hbroken, hitem.passed⟩
  | cancel => exact (ih hx).snoc _
  | start => exact (ih hx).snoc _
  | notify => exact (ih hx).snoc _
  | finish => exact (ih hx).snoc _

/-! ## The guarantees -/

/-- What holds in state `s` after the actions `as`. -/
structure Delivery (chain : Chain) (as : List Action) (s : State) : Prop where
  /-- An item whose `submit` returned was appended to one queue, once. -/
  appended : ∀ x e, (s.item x).submit = .accepted e →
    ∀ e', (s.executor e').appended.count x = if e' = e then 1 else 0
  /-- It was that of the first executor on the chain that was not broken. -/
  accepted : ∀ x e, (s.item x).submit = .accepted e →
    AcceptedIn chain as x e (s.item x).start (s.item x).passed
  /-- A `submit` that raised appended nothing. -/
  raised : ∀ x, (s.item x).submit = .raised → ∀ e, x ∉ (s.executor e).appended
  /-- Items are dequeued in the order of their acceptance, each at most once. -/
  order : ∀ e, (s.executor e).appended = (s.executor e).dequeued ++ (s.executor e).workItems ∧
    (s.executor e).dequeued.Nodup
  /-- Before the work thread marks an item, its function is not called. -/
  unmarked : ∀ x, (s.item x).future.Unstarted → x ∉ s.calls.map Prod.fst
  /-- The work thread always can mark an item that it has dequeued. From then on the function has
  been called once, on that thread, unless the future was cancelled before; then it is never. -/
  marked : ∀ x e, (s.executor e).loop = .took x →
    (∃ s₁, (machine chain).step s (.start e) = some s₁) ∧
    ∀ s₁ bs s₂, (machine chain).step s (.start e) = some s₁ →
      (machine chain).Run Machine.Any s₁ bs s₂ →
      s₂.calls.filter (fun p => p.1 = x)
        = if (s.item x).future = .cancelled then [] else [(x, chain.workThread e)]
  /-- Once `run_until_future` has returned, the future is done, the queue is empty, every item was
  handled, and none will ever be added. -/
  returned : ∀ e, (s.executor e).loop = .returned →
    (s.executor e).futureDone = true ∧ (s.executor e).workItems = [] ∧
    (∀ x, (s.item x).submit = .accepted e → (s.item x).future.Handled) ∧
    ∀ bs s', (machine chain).Run Machine.Any s bs s' →
      (s'.executor e).appended = (s.executor e).appended
  /-- A thread parked in `wait()` without a notification has nothing to do: its queue is empty, the
  executor is not broken, and if the future is done, its callback is still to come. -/
  parked : ∀ e, (s.executor e).loop = .waiting false →
    (s.executor e).workItems = [] ∧ (s.executor e).broken = false ∧
    (s.executor e).callback = .added

/-- Among pairs with different first components, only the pair itself has its first component. -/
theorem filter_fst_eq {l : List (Nat × Nat)} (h : (l.map Prod.fst).Nodup) {p : Nat × Nat}
    (hp : p ∈ l) : l.filter (fun q => q.1 = p.1) = [p] := by
  induction l with
  | nil => cases hp
  | cons q l ih =>
      rw [List.map_cons, List.nodup_cons] at h
      rcases List.mem_cons.mp hp with rfl | hp
      · have hrest : l.filter (fun q => q.1 = p.1) = [] := by
          rw [List.filter_eq_nil_iff]
          intro q hq heq
          exact h.1 (List.mem_map.mpr ⟨q, hq, by simpa using heq⟩)
        rw [List.filter_cons_of_pos (by simp), hrest]
      · have hne : q.1 ≠ p.1 := fun heq => h.1 (List.mem_map.mpr ⟨p, hp, heq.symm⟩)
        rw [List.filter_cons_of_neg (by simpa using hne), ih h.2 hp]

/-- The calls of the function of an item that `e` has taken. -/
theorem Inv.calls_of_called (h : Inv chain s) {x e : Nat} (hx : (s.item x).submit = .accepted e)
    (hcalled : (s.item x).future.Called) :
    s.calls.filter (fun p => p.1 = x) = [(x, chain.workThread e)] := by
  obtain ⟨⟨y, t⟩, hp, rfl⟩ := List.mem_map.mp ((h.calls_iff x).mpr hcalled)
  obtain ⟨e', hsubmit, rfl⟩ := h.calls_thread _ hp
  have he : e = e' := by
    rw [hx] at hsubmit
    cases hsubmit
    rfl
  rw [filter_fst_eq h.calls_nodup hp, he]

/-- There is none while it has not been called. -/
theorem Inv.calls_of_not_called (h : Inv chain s) {x : Nat} (hnot : ¬ (s.item x).future.Called) :
    s.calls.filter (fun p => p.1 = x) = [] := by
  rw [List.filter_eq_nil_iff]
  intro p hp hpx
  exact hnot ((h.calls_iff x).mp (List.mem_map.mpr ⟨p, hp, by simpa using hpx⟩))

theorem FutureState.Unstarted.not_called {f : FutureState} (h : f.Unstarted) : ¬ f.Called := by
  rcases h with rfl | rfl <;> simp [FutureState.Called]

/-- An item that was accepted stays so, and its walk is over. -/
theorem accepted_run {bs : List Action} {x e : Nat} (hx : (s.item x).submit = .accepted e)
    (h : (machine chain).Run Machine.Any s bs s') :
    (s'.item x).submit = .accepted e ∧ (s'.item x).passed = (s.item x).passed := by
  refine h.invariant (I := fun t => (t.item x).submit = .accepted e ∧
    (t.item x).passed = (s.item x).passed) ⟨hx, rfl⟩ fun t a t' hI _ hs => ?_
  have hstep := step_item hs x
  generalize t'.item x = i' at hstep
  cases hstep with
  | submit caller e' h => rw [hI.1] at h; cases h
  | next e' e'' h => rw [hI.1] at h; cases h
  | raise e' h => rw [hI.1] at h; cases h
  | accept e' h => rw [hI.1] at h; cases h
  | _ => exact hI

/-- What follows from the step in which the work thread marks an item. -/
theorem marked_run (hinv : Inv chain s) {x e : Nat} (hloop : (s.executor e).loop = .took x)
    {bs : List Action} {s₁ s₂ : State} (hs : (machine chain).step s (.start e) = some s₁)
    (hrun : (machine chain).Run Machine.Any s₁ bs s₂) :
    s₂.calls.filter (fun p => p.1 = x)
      = if (s.item x).future = .cancelled then [] else [(x, chain.workThread e)] := by
  obtain ⟨hmem, hunstarted⟩ := (hinv.executor e).took x hloop
  have hx := (hinv.executor e).accepted hmem
  have hinv₁ := hinv.step hs
  have hinv₂ : Inv chain s₂ := hrun.invariant hinv₁ fun _ _ _ hI _ h => hI.step h
  have hx₂ := (accepted_run hx (Machine.Run.append (.single trivial hs) hrun)).1
  -- the step itself decides; what comes after it changes neither outcome
  have hitem : (s₁.item x).future
      = if (s.item x).future = .cancelled then .cancelledAndNotified else .running := by
    simp only [machine, start, hloop] at hs
    rcases hunstarted with hf | hf <;> rw [hf] at hs <;> cases hs <;> simp [hf]
  by_cases hcancelled : (s.item x).future = .cancelled
  · rw [if_pos hcancelled] at hitem ⊢
    apply hinv₂.calls_of_not_called
    rw [notified_run hinv₁ hitem hrun]
    simp [FutureState.Called]
  · rw [if_neg hcancelled] at hitem ⊢
    exact hinv₂.calls_of_called hx₂ (called_run (.inl hitem) hrun)

/-- **Nothing is lost and nothing is duplicated.** In every state that the executors, their
submitters, the holders of futures and the work threads reach. -/
theorem delivery {as : List Action} (h : (machine chain).Run Machine.Any init as s) :
    Delivery chain as s := by
  have hinv := Inv.run h
  refine ⟨fun x e hx e' => ?_, accepted_history h, fun x hx e hmem => ?_, fun e => ?_,
    fun x hx hmem => ?_, fun x e hloop => ⟨?_, fun s₁ bs s₂ => marked_run hinv hloop⟩,
    fun e hloop => ?_, fun e hloop => ?_⟩
  · by_cases he : e' = e
    · subst he
      rw [if_pos rfl]
      exact List.count_eq_one_of_mem (hinv.executor e').nodup (((hinv.executor e').mem x).mpr hx)
    · rw [if_neg he, List.count_eq_zero]
      intro hmem
      have hx' := ((hinv.executor e').mem x).mp hmem
      rw [hx] at hx'
      cases hx'
      exact he rfl
  · have hx' := ((hinv.executor e).mem x).mp hmem
    rw [hx] at hx'
    cases hx'
  · have hex := hinv.executor e
    have hnodup := hex.nodup
    rw [hex.fifo] at hnodup
    exact ⟨hex.fifo, hnodup.of_append_left⟩
  · exact hx.not_called ((hinv.calls_iff x).mp hmem)
  · -- `set_running_or_notify_cancel` finds the future pending or cancelled
    obtain ⟨-, hunstarted⟩ := (hinv.executor e).took x hloop
    simp only [machine, start, hloop]
    rcases hunstarted with hf | hf <;> rw [hf] <;> exact ⟨_, rfl⟩
  · have hex := hinv.executor e
    obtain ⟨hempty, hbroken⟩ := hex.returned hloop
    refine ⟨hex.called (hex.broken.mp hbroken), hempty, fun x hx => ?_, fun bs s' hrun =>
      run_of_broken hbroken hrun⟩
    -- with an empty queue, everything that was appended has been dequeued
    have hmem := (hex.mem x).mpr hx
    rw [hex.fifo, hempty, List.append_nil] at hmem
    simpa [hloop] using hex.handled x hmem
  · have hex := hinv.executor e
    obtain ⟨hempty, hbroken⟩ := hex.parked hloop
    refine ⟨hempty, hbroken, ?_⟩
    have hnotCalled : (s.executor e).callback ≠ .called := fun hcb => by
      rw [hex.broken.mpr hcb] at hbroken
      cases hbroken
    have hadded : (s.executor e).callback ≠ .notAdded := fun hcb => by
      have hcall := hex.added.mpr hcb
      rw [hloop] at hcall
      cases hcall
    cases hcb : (s.executor e).callback with
    | notAdded => exact absurd hcb hadded
    | added => rfl
    | called => exact absurd hcb hnotCalled

/-- One executor, whose work thread is thread 0. -/
def single : Chain := ⟨fun _ => 0, fun _ => none⟩

/-- Two executors of thread 0, of which executor 3 is the one before executor 4. -/
def nested : Chain := ⟨fun _ => 0, fun e => if e = 4 then some 3 else none⟩

/-- Executor 4 runs item 5 and is broken, with item 6 cancelled in its queue; item 7, which is
submitted to it after that, falls back to executor 3. -/
def fallback : List Action :=
  [.submit 5 1 4, .walk 5, .submit 6 1 4, .walk 6, .enter 4 0, .check 4, .start 4, .cancel 6,
    .resolve 4, .done 4, .finish 4, .submit 7 2 4, .walk 7, .check 4, .start 4, .check 4, .walk 7,
    .enter 3 0, .check 3, .start 3]

theorem delivery_fallback :
    ∃ s, (machine nested).exec init fallback = some s ∧ (s.executor 4).loop = .returned ∧
      (s.item 7).submit = .accepted 3 ∧ (s.item 7).passed = [4] ∧ s.calls = [(5, 0), (7, 0)] ∧
      Delivery nested fallback s :=
  ⟨_, rfl, rfl, rfl, rfl, rfl, delivery (Machine.exec_run rfl)⟩

/-- An item is dequeued before its future is cancelled, and cancelled before the work thread marks
it: its function is never called. -/
theorem cancelled_after_dequeued :
    ∃ s₁ s₂, (machine single).exec init [.submit 5 1 3, .walk 5, .enter 3 0, .check 3] = some s₁ ∧
      5 ∈ (s₁.executor 3).dequeued ∧ (s₁.item 5).future = .pending ∧
      (machine single).exec s₁ [.cancel 5, .start 3] = some s₂ ∧
      (s₂.item 5).future.Handled ∧ 5 ∉ s₂.calls.map Prod.fst :=
  ⟨_, _, rfl, by decide, rfl, rfl, .inr rfl, by decide⟩

end CurrentThreadExecutor

end Asgiref
