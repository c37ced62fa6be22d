import Mathlib.Data.List.Nodup
import Asgiref.Executor.Machine

/-! # The invariant of the executors

* **`ExecInv`** — what always holds of one executor and the items it has taken.
* **`Inv`** — what always holds of the whole state, with **`Inv.step`** and **`Inv.run`**. -/

namespace Asgiref

namespace CurrentThreadExecutor

/-- The function of the item has not been called, and may still be. -/
def FutureState.Unstarted (f : FutureState) : Prop := f = .pending ∨ f = .cancelled

/-- The work thread is done with the item. -/
def FutureState.Handled (f : FutureState) : Prop := f = .finished ∨ f = .cancelledAndNotified

/-- The function of the item has been called. -/
def FutureState.Called (f : FutureState) : Prop := f = .running ∨ f = .finished

/-- What holds of executor `e` and its items. -/
structure ExecInv (chain : Chain) (item : Nat → WorkItem) (e : Nat) (ex : Executor) : Prop where
  mem : ∀ x, x ∈ ex.appended ↔ (item x).submit = .accepted e
  fifo : ex.appended = ex.dequeued ++ ex.workItems
  nodup : ex.appended.Nodup
  queued : ∀ x ∈ ex.workItems, (item x).future.Unstarted
  took : ∀ x, ex.loop = .took x → x ∈ ex.dequeued ∧ (item x).future.Unstarted
  running : ∀ x, ex.loop = .running x → x ∈ ex.dequeued ∧ (item x).future = .running
  handled : ∀ x ∈ ex.dequeued, ex.loop = .took x ∨ ex.loop = .running x ∨ (item x).future.Handled
  parked : ex.loop = .waiting false → ex.workItems = [] ∧ ex.broken = false
  broken : ex.broken = true ↔ ex.callback = .called
  called : ex.callback = .called → ex.futureDone = true
  added : ex.loop = .notCalled ↔ ex.callback = .notAdded
  returned : ex.loop = .returned → ex.workItems = [] ∧ ex.broken = true
  runner : ex.loop ≠ .notCalled → ex.runner = chain.workThread e

/-- `passed` are the executors on the chain from `start` up to but not including `e`. -/
def Leads (chain : Chain) (start : Nat) : List Nat → Nat → Prop
  | [], e => start = e
  | e' :: rest, e => start = e' ∧ ∃ next, chain.oldExecutor e' = some next ∧ Leads chain next rest e

/-- The walk goes one executor further. -/
theorem Leads.snoc {chain : Chain} {start e next : Nat} {passed : List Nat}
    (h : Leads chain start passed e) (hnext : chain.oldExecutor e = some next) :
    Leads chain start (passed ++ [e]) next := by
  induction passed generalizing start with
  | nil => exact ⟨h, next, hnext, rfl⟩
  | cons e' rest ih =>
      obtain ⟨hstart, next', hlink, hrest⟩ := h
      exact ⟨hstart, next', hlink, ih hrest⟩

/-- What holds of item `x` and the walk of its `submit` call. -/
structure ItemInv (chain : Chain) (executor : Nat → Executor) (item : WorkItem) : Prop where
  untaken : (∀ e, item.submit ≠ .accepted e) → item.future = .pending
  fresh : item.submit = .notCalled → item.passed = []
  walking : ∀ e, item.submit = .walking e → Leads chain item.start item.passed e
  accepted : ∀ e, item.submit = .accepted e → Leads chain item.start item.passed e
  passed : ∀ e ∈ item.passed, (executor e).broken = true

/-- What holds of the state. -/
structure Inv (chain : Chain) (s : State) : Prop where
  executor : ∀ e, ExecInv chain s.item e (s.executor e)
  item : ∀ x, ItemInv chain s.executor (s.item x)
  calls_nodup : (s.calls.map Prod.fst).Nodup
  calls_iff : ∀ x, x ∈ s.calls.map Prod.fst ↔ (s.item x).future.Called
  calls_thread : ∀ p ∈ s.calls, ∃ e, (s.item p.1).submit = .accepted e ∧ p.2 = chain.workThread e

variable {chain : Chain} {s s' : State}

theorem inv_init (chain : Chain) : Inv chain init where
  executor e := by
    constructor <;> simp [init]
  item x := by
    constructor <;> simp [init]
  calls_nodup := .nil
  calls_iff x := by simp [init, FutureState.Called]
  calls_thread p hp := by cases hp

/-! ## Changes that an executor does not see -/

/-- An executor depends on the items it has taken only. -/
theorem ExecInv.frame {item item' : Nat → WorkItem} {e : Nat} {ex : Executor}
    (h : ExecInv chain item e ex)
    (hsubmit : ∀ x, (item' x).submit = .accepted e ↔ (item x).submit = .accepted e)
    (hfuture : ∀ x, (item x).submit = .accepted e → (item' x).future = (item x).future) :
    ExecInv chain item' e ex := by
  have htaken : ∀ x ∈ ex.appended, (item' x).future = (item x).future :=
    fun x hx => hfuture x ((h.mem x).mp hx)
  have hqueued : ∀ x ∈ ex.workItems, x ∈ ex.appended := fun x hx => by
    rw [h.fifo]
    exact List.mem_append_right _ hx
  have hdequeued : ∀ x ∈ ex.dequeued, x ∈ ex.appended := fun x hx => by
    rw [h.fifo]
    exact List.mem_append_left _ hx
  exact { h with
    mem := fun x => (h.mem x).trans (hsubmit x).symm
    queued := fun x hx => by
      rw [htaken x (hqueued x hx)]
      exact h.queued x hx
    took := fun x hx => by
      obtain ⟨hmem, hunstarted⟩ := h.took x hx
      rw [htaken x (hdequeued x hmem)]
      exact ⟨hmem, hunstarted⟩
    running := fun x hx => by
      obtain ⟨hmem, hrunning⟩ := h.running x hx
      rw [htaken x (hdequeued x hmem)]
      exact ⟨hmem, hrunning⟩
    handled := fun x hx => by
      rw [htaken x (hdequeued x hx)]
      exact h.handled x hx }

/-- An item that this executor has not taken changes. -/
theorem ExecInv.setItem {item : Nat → WorkItem} {e x : Nat} {ex : Executor} {i : WorkItem}
    (h : ExecInv chain item e ex) (hold : (item x).submit ≠ .accepted e)
    (hnew : i.submit ≠ .accepted e) : ExecInv chain (Function.update item x i) e ex := by
  apply h.frame
  · intro y
    by_cases hy : y = x
    · subst hy
      simp [hold, hnew]
    · rw [Function.update_of_ne hy]
  · intro y hy
    have hne : y ≠ x := fun heq => hold (heq ▸ hy)
    rw [Function.update_of_ne hne]

/-- An item sees no more of an executor than that it is broken. -/
theorem ItemInv.setExecutor {executor : Nat → Executor} {i : WorkItem} {e : Nat} {ex : Executor}
    (h : ItemInv chain executor i) (hbroken : (executor e).broken = true → ex.broken = true) :
    ItemInv chain (Function.update executor e ex) i := by
  refine { h with passed := fun e' he' => ?_ }
  by_cases heq : e' = e
  · subst heq
    rw [Function.update_self]
    exact hbroken (h.passed _ he')
  · rw [Function.update_of_ne heq]
    exact h.passed _ he'

/-- A step that changes one executor and no item. -/
theorem Inv.setExecutor (h : Inv chain s) {e : Nat} {ex : Executor}
    (hex : ExecInv chain s.item e ex) (hbroken : (s.executor e).broken = true → ex.broken = true) :
    Inv chain (s.setExecutor e ex) := by
  refine ⟨fun e' => ?_, fun x => (h.item x).setExecutor hbroken, h.calls_nodup, h.calls_iff,
    h.calls_thread⟩
  by_cases heq : e' = e
  · subst heq
    simpa [State.setExecutor] using hex
  · simpa [State.setExecutor, Function.update_of_ne heq] using h.executor e'

/-- A step that changes an item which no executor has taken, before or after. -/
theorem Inv.setUntaken (h : Inv chain s) {x : Nat} {i : WorkItem}
    (hold : ∀ e, (s.item x).submit ≠ .accepted e) (hnew : ∀ e, i.submit ≠ .accepted e)
    (hi : ItemInv chain s.executor i) : Inv chain (s.setItem x i) := by
  refine ⟨fun e => (h.executor e).setItem (hold e) (hnew e), fun y => ?_, h.calls_nodup,
    fun y => ?_, fun p hp => ?_⟩
  · by_cases hy : y = x
    · subst hy
      simpa [State.setItem] using hi
    · simpa [State.setItem, Function.update_of_ne hy] using h.item y
  · refine (h.calls_iff y).trans ?_
    by_cases hy : y = x
    · subst hy
      simp [State.setItem, (h.item _).untaken hold, hi.untaken hnew]
    · simp [State.setItem, Function.update_of_ne hy]
  · obtain ⟨e, hsubmit, hthread⟩ := h.calls_thread p hp
    have hne : p.1 ≠ x := fun heq => hold e (heq ▸ hsubmit)
    exact ⟨e, by simpa [State.setItem, Function.update_of_ne hne] using hsubmit, hthread⟩

/-- A step in the life of the future of an item that `e` has taken: `e` may change with it. -/
theorem Inv.setFuture (h : Inv chain s) {x e : Nat} {f : FutureState} {ex : Executor}
    (c : List (Nat × Nat)) (hx : (s.item x).submit = .accepted e)
    (hex : ExecInv chain (Function.update s.item x { s.item x with future := f }) e ex)
    (hbroken : (s.executor e).broken = true → ex.broken = true)
    (hnodup : (c.map Prod.fst).Nodup)
    (hcalls : ∀ y, y ∈ c.map Prod.fst ↔
      if y = x then f.Called else (s.item y).future.Called)
    (hthread : ∀ p ∈ c, p ∈ s.calls ∨ p = (x, chain.workThread e)) :
    Inv chain { executor := Function.update s.executor e ex
                item := Function.update s.item x { s.item x with future := f }
                calls := c } := by
  have hsame : ∀ y, (Function.update s.item x { s.item x with future := f } y).submit
      = (s.item y).submit := fun y => by
    by_cases hy : y = x
    · subst hy
      rw [Function.update_self]
    · rw [Function.update_of_ne hy]
  refine ⟨fun e' => ?_, fun y => ?_, hnodup, fun y => ?_, fun p hp => ?_⟩
  · by_cases heq : e' = e
    · subst heq
      simpa using hex
    · have hother : (s.item x).submit ≠ .accepted e' := by
        rw [hx]
        simpa using fun h => heq h.symm
      show ExecInv chain _ e' (Function.update s.executor e ex e')
      rw [Function.update_of_ne heq]
      exact (h.executor e').setItem hother hother
  · refine ItemInv.setExecutor ?_ hbroken
    by_cases hy : y = x
    · subst hy
      have hi := h.item y
      simp only [Function.update_self]
      exact ⟨fun hnone => absurd hx (hnone e), hi.fresh, hi.walking, hi.accepted, hi.passed⟩
    · simpa [Function.update_of_ne hy] using h.item y
  · rw [hcalls y]
    by_cases hy : y = x
    · subst hy
      simp
    · simp [hy]
  · rcases hthread p hp with hold | rfl
    · obtain ⟨e', hsubmit, heq⟩ := h.calls_thread p hold
      exact ⟨e', (hsame _).trans hsubmit, heq⟩
    · exact ⟨e, (hsame _).trans hx, rfl⟩

/-! ## The steps -/

theorem ExecInv.notify {item : Nat → WorkItem} {e : Nat} {ex : Executor}
    (h : ExecInv chain item e { ex with loop := ex.notify.loop }) :
    ExecInv chain item e ex.notify := by
  have heq : ex.notify = { ex with loop := ex.notify.loop } := by
    unfold Executor.notify
    split <;> rfl
  rw [heq]
  exact h

/-- After a notification the loop is not parked without one, and is otherwise where it was. -/
theorem Executor.notify_loop (ex : Executor) :
    ex.notify.loop ≠ .waiting false ∧
      (∀ l, (∀ b, l ≠ .waiting b) → (ex.notify.loop = l ↔ ex.loop = l)) := by
  unfold Executor.notify
  split
  · rename_i b hloop
    refine ⟨by simp, fun l hl => ?_⟩
    simp [hloop, (hl _).symm]
  · rename_i hloop
    exact ⟨fun heq => hloop false heq, fun l _ => Iff.rfl⟩

/-- An executor that is not broken takes an item. -/
theorem ExecInv.append {item : Nat → WorkItem} {e x : Nat} {ex : Executor}
    (h : ExecInv chain item e ex) (hbroken : ex.broken = false)
    (hold : ∀ e, (item x).submit ≠ .accepted e) (hpending : (item x).future = .pending) :
    ExecInv chain (Function.update item x { item x with submit := .accepted e }) e
      { ex with workItems := ex.workItems ++ [x], appended := ex.appended ++ [x] }.notify := by
  have hfresh : x ∉ ex.appended := fun hmem => hold e ((h.mem x).mp hmem)
  have hfuture : ∀ y, (Function.update item x { item x with submit := .accepted e } y).future
      = (item y).future := fun y => by
    by_cases hy : y = x
    · subst hy
      rw [Function.update_self]
    · rw [Function.update_of_ne hy]
  apply ExecInv.notify
  obtain ⟨hparked, hloop⟩ := Executor.notify_loop
    { ex with workItems := ex.workItems ++ [x], appended := ex.appended ++ [x] }
  refine ⟨fun y => ?_, ?_, ?_, fun y hy => ?_, fun y hy => ?_, fun y hy => ?_, fun y hy => ?_,
    fun hwait => absurd hwait hparked, h.broken, h.called, ?_, fun hret => ?_, fun hcall => ?_⟩
  · by_cases hy : y = x
    · subst hy
      simp
    · simp [hy, h.mem y]
  · simp [h.fifo, List.append_assoc]
  · refine List.nodup_append.mpr ⟨h.nodup, by simp, fun y hy z hz => ?_⟩
    rw [List.mem_singleton.mp hz]
    exact ne_of_mem_of_not_mem hy hfresh
  · rw [hfuture]
    rcases List.mem_append.mp hy with hy | hy
    · exact h.queued y hy
    · -- nobody has the future yet, so nobody can have cancelled it
      rw [List.mem_singleton.mp hy]
      exact .inl hpending
  · rw [hfuture]
    exact h.took y ((hloop _ (by simp)).mp hy)
  · rw [hfuture]
    exact h.running y ((hloop _ (by simp)).mp hy)
  · rw [hfuture]
    exact (h.handled y hy).imp (hloop _ (by simp)).mpr (Or.imp (hloop _ (by simp)).mpr id)
  · exact (hloop _ (by simp)).trans h.added
  · have hreturned := h.returned ((hloop _ (by simp)).mp hret)
    rw [hbroken] at hreturned
    cases hreturned.2
  · exact h.runner fun hnone => hcall ((hloop _ (by simp)).mpr hnone)

/-- The call of `submit`. -/
theorem Inv.submit (h : Inv chain s) {x : Nat} (caller e : Nat)
    (hcall : (s.item x).submit = .notCalled) :
    Inv chain (s.setItem x { s.item x with
      submit := if caller = chain.workThread e then .raised else .walking e
      start := e }) := by
  have hold : ∀ e, (s.item x).submit ≠ .accepted e := fun e => by simp [hcall]
  have hpending := (h.item x).untaken hold
  have hpassed := (h.item x).fresh hcall
  apply h.setUntaken hold
  · intro e'
    dsimp only
    split <;> simp
  · refine ⟨fun _ => hpending, fun _ => hpassed, fun e' he' => ?_, fun e' he' => ?_, ?_⟩
    · dsimp only at he' ⊢
      split at he'
      · cases he'
      · cases he'
        rw [hpassed]
        rfl
    · dsimp only at he'
      split at he' <;> cases he'
    · simp [hpassed]

/-- All executors that a walk has passed are broken, also the one that it passes now. -/
theorem Inv.passed (h : Inv chain s) {x e : Nat} (hbroken : (s.executor e).broken = true) :
    ∀ e' ∈ (s.item x).passed ++ [e], (s.executor e').broken = true := by
  intro e' he'
  rcases List.mem_append.mp he' with he' | he'
  · exact (h.item x).passed e' he'
  · rw [List.mem_singleton.mp he']
    exact hbroken

/-- The walk goes on to the old executor. -/
theorem Inv.next (h : Inv chain s) {x e e' : Nat} (hwalk : (s.item x).submit = .walking e)
    (hbroken : (s.executor e).broken = true) (hlink : chain.oldExecutor e = some e') :
    Inv chain (s.setItem x { s.item x with
      submit := .walking e'
      passed := (s.item x).passed ++ [e] }) := by
  have hold : ∀ e, (s.item x).submit ≠ .accepted e := fun e => by simp [hwalk]
  have hpending := (h.item x).untaken hold
  refine h.setUntaken hold (by simp) ⟨fun _ => hpending, by simp, fun e'' he'' => ?_, by simp,
    h.passed hbroken⟩
  cases he''
  exact ((h.item x).walking e hwalk).snoc hlink

/-- The walk raises at the end of the chain. -/
theorem Inv.raise (h : Inv chain s) {x e : Nat} (hwalk : (s.item x).submit = .walking e)
    (hbroken : (s.executor e).broken = true) :
    Inv chain (s.setItem x { s.item x with
      submit := .raised
      passed := (s.item x).passed ++ [e] }) := by
  have hold : ∀ e, (s.item x).submit ≠ .accepted e := fun e => by simp [hwalk]
  have hpending := (h.item x).untaken hold
  exact h.setUntaken hold (by simp)
    ⟨fun _ => hpending, by simp, by simp, by simp, h.passed hbroken⟩

/-- An executor takes the item. -/
theorem Inv.accept (h : Inv chain s) {x e : Nat} (hwalk : (s.item x).submit = .walking e)
    (hunbroken : (s.executor e).broken = false) :
    Inv chain ((s.setItem x { s.item x with submit := .accepted e }).setExecutor e
      { s.executor e with
        workItems := (s.executor e).workItems ++ [x]
        appended := (s.executor e).appended ++ [x] }.notify) := by
  have hold : ∀ e, (s.item x).submit ≠ .accepted e := fun e => by simp [hwalk]
  have hpending := (h.item x).untaken hold
  have hleads := (h.item x).walking e hwalk
  have hstill : ∀ ex : Executor, (s.executor e).broken = true → ex.broken = true :=
    fun _ hb => absurd hb (by simp [hunbroken])
  refine ⟨fun e' => ?_, fun y => ItemInv.setExecutor ?_ (hstill _), h.calls_nodup, fun y => ?_,
    fun p hp => ?_⟩
  · show ExecInv chain _ e' (Function.update s.executor e _ e')
    by_cases heq : e' = e
    · subst heq
      rw [Function.update_self]
      exact (h.executor e').append hunbroken hold hpending
    · rw [Function.update_of_ne heq]
      exact (h.executor e').setItem (hold e') (by simpa using fun h => heq h.symm)
  · show ItemInv chain s.executor (Function.update s.item x _ y)
    by_cases hy : y = x
    · subst hy
      rw [Function.update_self]
      exact ⟨fun _ => hpending, by simp, by simp, fun e' he' => by cases he'; exact hleads,
        (h.item y).passed⟩
    · rw [Function.update_of_ne hy]
      exact h.item y
  · refine (h.calls_iff y).trans ?_
    show _ ↔ (Function.update s.item x _ y).future.Called
    by_cases hy : y = x
    · subst hy
      rw [Function.update_self]
    · rw [Function.update_of_ne hy]
  · obtain ⟨e', hsubmit, hthread⟩ := h.calls_thread p hp
    have hne : p.1 ≠ x := fun heq => hold e' (heq ▸ hsubmit)
    exact ⟨e', (congrArg WorkItem.submit (Function.update_of_ne hne _ _)).trans hsubmit,
      hthread⟩

/-- The done callback breaks the executor and wakes its thread. -/
theorem Inv.done (h : Inv chain s) {e : Nat} (hadded : (s.executor e).callback = .added)
    (hdone : (s.executor e).futureDone = true) :
    Inv chain
      (s.setExecutor e { s.executor e with broken := true, callback := .called }.notify) := by
  have hex := h.executor e
  obtain ⟨hparked, hloop⟩ := Executor.notify_loop
    { s.executor e with broken := true, callback := .called }
  have hbroken :
      { s.executor e with broken := true, callback := .called }.notify.broken = true := by
    unfold Executor.notify
    split <;> rfl
  refine h.setExecutor (ExecInv.notify ?_) fun _ => hbroken
  refine { hex with
    took := fun y hy => hex.took y ((hloop _ (by simp)).mp hy)
    running := fun y hy => hex.running y ((hloop _ (by simp)).mp hy)
    handled := fun y hy =>
      (hex.handled y hy).imp (hloop _ (by simp)).mpr (Or.imp (hloop _ (by simp)).mpr id)
    parked := fun hwait => absurd hwait hparked
    broken := by simp
    called := fun _ => hdone
    added := ?_
    returned := fun hret => ⟨(hex.returned ((hloop _ (by simp)).mp hret)).1, rfl⟩
    runner := fun hcall => hex.runner fun hnone => hcall ((hloop _ (by simp)).mpr hnone) }
  rw [hloop _ (by simp)]
  show (s.executor e).loop = .notCalled ↔ Callback.called = .notAdded
  rw [hex.added, hadded]
  simp

/-- `run_until_future` is called, and the future is done: `add_done_callback` calls back at once. -/
theorem Inv.enterDone (h : Inv chain s) {e t : Nat} (hcall : (s.executor e).loop = .notCalled)
    (ht : t = chain.workThread e) (hdone : (s.executor e).futureDone = true) :
    Inv chain (s.setExecutor e
      { s.executor e with loop := .top, runner := t, broken := true, callback := .called }) := by
  have hex := h.executor e
  refine h.setExecutor ?_ fun _ => rfl
  exact { hex with
    took := by simp
    running := by simp
    handled := fun y hy => by simpa [hcall] using hex.handled y hy
    parked := by simp
    broken := by simp
    called := fun _ => hdone
    added := by simp
    returned := by simp
    runner := fun _ => ht }

/-- `run_until_future` is called. -/
theorem Inv.enter (h : Inv chain s) {e t : Nat} (hcall : (s.executor e).loop = .notCalled)
    (ht : t = chain.workThread e) :
    Inv chain
      (s.setExecutor e { s.executor e with loop := .top, runner := t, callback := .added }) := by
  have hex := h.executor e
  refine h.setExecutor ?_ id
  have hbroken : (s.executor e).broken ≠ true := fun hb => by
    have hnone := hex.added.mp hcall
    rw [hex.broken.mp hb] at hnone
    cases hnone
  exact { hex with
    took := by simp
    running := by simp
    handled := fun y hy => by simpa [hcall] using hex.handled y hy
    parked := by simp
    broken := by simp [hbroken]
    called := by simp
    added := by simp
    returned := by simp
    runner := fun _ => ht }

/-- The critical section of the loop. -/
theorem ExecInv.check {item : Nat → WorkItem} {e : Nat} {ex : Executor}
    (h : ExecInv chain item e ex) (hloop : ex.loop = .top ∨ ex.loop = .waiting true) :
    ExecInv chain item e ex.check := by
  have hnone : ex.callback ≠ .notAdded := fun hcb => by
    have hcall := h.added.mpr hcb
    rcases hloop with hl | hl <;> rw [hl] at hcall <;> cases hcall
  have hrunner : ex.runner = chain.workThread e := h.runner fun hcall => by
    rcases hloop with hl | hl <;> rw [hl] at hcall <;> cases hcall
  have hhandled : ∀ y ∈ ex.dequeued, (item y).future.Handled := fun y hy => by
    rcases hloop with hl | hl <;> simpa [hl] using h.handled y hy
  unfold Executor.check
  split
  · rename_i hempty
    split
    -- nothing is left and nothing can come: the loop returns
    · rename_i hbroken
      exact { h with
        took := by simp
        running := by simp
        handled := fun y hy => .inr (.inr (hhandled y hy))
        parked := by simp
        added := by simp [hnone]
        returned := fun _ => ⟨hempty, hbroken⟩
        runner := fun _ => hrunner }
    · rename_i hbroken
      exact { h with
        took := by simp
        running := by simp
        handled := fun y hy => .inr (.inr (hhandled y hy))
        parked := fun _ => ⟨hempty, by simpa using hbroken⟩
        added := by simp [hnone]
        returned := by simp
        runner := fun _ => hrunner }
  -- an item is dequeued, broken or not
  · rename_i x rest hqueue
    exact { h with
      fifo := by simp [h.fifo, hqueue]
      queued := fun y hy => h.queued y (by rw [hqueue]; exact List.mem_cons_of_mem _ hy)
      took := fun y hy => by
        cases hy
        exact ⟨by simp, h.queued x (by simp [hqueue])⟩
      running := by simp
      handled := fun y hy => by
        rcases List.mem_append.mp hy with hy | hy
        · exact .inr (.inr (hhandled y hy))
        · rw [List.mem_singleton.mp hy]
          exact .inl rfl
      parked := by simp
      added := by simp [hnone]
      returned := by simp
      runner := fun _ => hrunner }

theorem Executor.check_broken (ex : Executor) : ex.check.broken = ex.broken := by
  unfold Executor.check
  split <;> rfl

/-- The loop lets go of the item that it has taken, or starts it; the future of the item changes
with it. -/
theorem ExecInv.setFuture {item : Nat → WorkItem} {e x : Nat} {ex : Executor} {f : FutureState}
    {loop : Loop} (h : ExecInv chain item e ex) (hinHand : ex.loop = .took x ∨ ex.loop = .running x)
    (hloop : loop = .running x ∧ f = .running ∨ loop = .top ∧ f.Handled) :
    ExecInv chain (Function.update item x { item x with future := f }) e
      { ex with loop := loop } := by
  have hmem : x ∈ ex.dequeued :=
    hinHand.elim (fun hl => (h.took x hl).1) fun hl => (h.running x hl).1
  -- an item is in `appended` once, so what is dequeued is not queued any more
  have hnotQueued : x ∉ ex.workItems := fun hq => by
    have hnodup := h.nodup
    rw [h.fifo, List.nodup_append] at hnodup
    exact hnodup.2.2 x hmem x hq rfl
  have hstarted : ex.loop ≠ .notCalled := fun hcall => by
    rcases hinHand with hl | hl <;> rw [hl] at hcall <;> cases hcall
  have hnone : ex.callback ≠ .notAdded := fun hcb => hstarted (h.added.mpr hcb)
  have hself : (Function.update item x { item x with future := f } x).future = f := by
    rw [Function.update_self]
  have hother : ∀ y, y ≠ x →
      (Function.update item x { item x with future := f } y).future = (item y).future :=
    fun y hy => by rw [Function.update_of_ne hy]
  refine ⟨fun y => ?_, h.fifo, h.nodup, fun y hy => ?_, fun y hy => ?_, fun y hy => ?_,
    fun y hy => ?_, fun hwait => ?_, h.broken, h.called, ?_, fun hret => ?_,
    fun _ => h.runner hstarted⟩
  · rw [h.mem y]
    by_cases hy : y = x
    · subst hy
      rw [Function.update_self]
    · rw [Function.update_of_ne hy]
  · rw [hother y (ne_of_mem_of_not_mem hy hnotQueued)]
    exact h.queued y hy
  · rcases hloop with ⟨rfl, -⟩ | ⟨rfl, -⟩ <;> cases hy
  · rcases hloop with ⟨rfl, hf⟩ | ⟨rfl, -⟩
    · cases hy
      exact ⟨hmem, hself.trans hf⟩
    · cases hy
  · by_cases hyx : y = x
    · subst hyx
      rw [hself]
      exact hloop.elim (fun hl => .inr (.inl hl.1)) fun hl => .inr (.inr hl.2)
    · rw [hother y hyx]
      rcases h.handled y hy with htook | hrun | hhandled
      · rcases hinHand with hl | hl <;> rw [hl] at htook <;> cases htook
        exact absurd rfl hyx
      · rcases hinHand with hl | hl <;> rw [hl] at hrun <;> cases hrun
        exact absurd rfl hyx
      · exact .inr (.inr hhandled)
  · rcases hloop with ⟨rfl, -⟩ | ⟨rfl, -⟩ <;> cases hwait
  · rcases hloop with ⟨rfl, -⟩ | ⟨rfl, -⟩ <;> simp [hnone]
  · rcases hloop with ⟨rfl, -⟩ | ⟨rfl, -⟩ <;> cases hret

/-- An item in the hand of a loop was accepted there. -/
theorem ExecInv.accepted {item : Nat → WorkItem} {e x : Nat} {ex : Executor}
    (h : ExecInv chain item e ex) (hmem : x ∈ ex.dequeued) : (item x).submit = .accepted e :=
  (h.mem x).mp (by rw [h.fifo]; exact List.mem_append_left _ hmem)

/-- The function of an item is called. -/
theorem Inv.start (h : Inv chain s) {x e : Nat} (hloop : (s.executor e).loop = .took x)
    (hpending : (s.item x).future = .pending) :
    Inv chain (({ s with calls := s.calls ++ [(x, (s.executor e).runner)] }.setItem x
      { s.item x with future := .running }).setExecutor e
        { s.executor e with loop := .running x }) := by
  have hex := h.executor e
  have hx := hex.accepted (hex.took x hloop).1
  -- a pending future says that the function has not been called
  have hnotCalled : x ∉ s.calls.map Prod.fst := fun hmem => by
    have hcalled := (h.calls_iff x).mp hmem
    rw [hpending] at hcalled
    rcases hcalled with hf | hf <;> cases hf
  have hrunner : (s.executor e).runner = chain.workThread e := hex.runner (by simp [hloop])
  refine h.setFuture (s.calls ++ [(x, (s.executor e).runner)]) hx
    (hex.setFuture (.inl hloop) (.inl ⟨rfl, rfl⟩)) id ?_ (fun y => ?_) ?_
  · rw [List.map_append]
    refine List.nodup_append.mpr ⟨h.calls_nodup, by simp, fun y hy z hz => ?_⟩
    rw [show z = x by simpa using hz]
    exact ne_of_mem_of_not_mem hy hnotCalled
  · rw [List.map_append, List.mem_append, h.calls_iff]
    by_cases hy : y = x
    · simp [hy, FutureState.Called]
    · simp [hy]
  · intro p hp
    refine (List.mem_append.mp hp).imp id fun hp => ?_
    rw [List.mem_singleton.mp hp, hrunner]

/-- An item was cancelled before its function was called. -/
theorem Inv.notifyCancel (h : Inv chain s) {x e : Nat} (hloop : (s.executor e).loop = .took x)
    (hcancelled : (s.item x).future = .cancelled) :
    Inv chain ((s.setItem x { s.item x with future := .cancelledAndNotified }).setExecutor e
      { s.executor e with loop := .top }) := by
  have hex := h.executor e
  have hx := hex.accepted (hex.took x hloop).1
  refine h.setFuture s.calls hx (hex.setFuture (.inl hloop) (.inr ⟨rfl, .inr rfl⟩)) id
    h.calls_nodup (fun y => ?_) fun p hp => .inl hp
  by_cases hy : y = x
  · rw [if_pos hy, hy, h.calls_iff]
    simp [hcancelled, FutureState.Called]
  · rw [if_neg hy, h.calls_iff]

/-- The function of an item has returned or raised. -/
theorem Inv.finish (h : Inv chain s) {x e : Nat} (hloop : (s.executor e).loop = .running x) :
    Inv chain ((s.setItem x { s.item x with future := .finished }).setExecutor e
      { s.executor e with loop := .top }) := by
  have hex := h.executor e
  obtain ⟨hmem, hrunning⟩ := hex.running x hloop
  refine h.setFuture s.calls (hex.accepted hmem)
    (hex.setFuture (.inr hloop) (.inr ⟨rfl, .inl rfl⟩)) id h.calls_nodup (fun y => ?_)
    fun p hp => .inl hp
  by_cases hy : y = x
  · rw [if_pos hy, hy, h.calls_iff]
    simp [hrunning, FutureState.Called]
  · rw [if_neg hy, h.calls_iff]

/-- The holder cancels while the item is queued or has just been dequeued. -/
theorem Inv.cancel (h : Inv chain s) {x e : Nat} (hx : (s.item x).submit = .accepted e)
    (hpending : (s.item x).future = .pending) :
    Inv chain (s.setItem x { s.item x with future := .cancelled }) := by
  have hex := h.executor e
  have hunstarted : ∀ y, (s.item y).future.Unstarted →
      (Function.update s.item x { s.item x with future := .cancelled } y).future.Unstarted := by
    intro y hy
    by_cases hyx : y = x
    · subst hyx
      rw [Function.update_self]
      exact .inr rfl
    · rwa [Function.update_of_ne hyx]
  -- items that were called or handled are others than the cancelled one
  have hother : ∀ y, (s.item y).future ≠ .pending →
      Function.update s.item x { s.item x with future := .cancelled } y = s.item y := by
    intro y hy
    have hne : y ≠ x := by
      rintro rfl
      exact hy hpending
    exact Function.update_of_ne hne _ _
  have hkept : ExecInv chain
      (Function.update s.item x { s.item x with future := .cancelled }) e (s.executor e) := by
    refine { hex with
      mem := fun y => ?_
      queued := fun y hy => hunstarted y (hex.queued y hy)
      took := fun y hy => ⟨(hex.took y hy).1, hunstarted y (hex.took y hy).2⟩
      running := fun y hy => ?_
      handled := fun y hy => ?_ }
    · rw [hex.mem y]
      by_cases hy : y = x
      · subst hy
        rw [Function.update_self]
      · rw [Function.update_of_ne hy]
    · obtain ⟨hmem, hrunning⟩ := hex.running y hy
      rw [hother y (by simp [hrunning])]
      exact ⟨hmem, hrunning⟩
    · refine (hex.handled y hy).imp id (Or.imp id fun hhandled => ?_)
      rwa [hother y (by rcases hhandled with hf | hf <;> simp [hf])]
  have hsame := h.setFuture s.calls hx hkept id h.calls_nodup (fun y => by
    by_cases hy : y = x
    · rw [if_pos hy, hy, h.calls_iff]
      simp [hpending, FutureState.Called]
    · rw [if_neg hy, h.calls_iff]) fun p hp => .inl hp
  rwa [Function.update_eq_self] at hsame

/-- **Every step keeps the invariant.** -/
theorem Inv.step (h : Inv chain s) {a : Action} (hs : (machine chain).step s a = some s') :
    Inv chain s' := by
  cases step_inv hs with
  | submit caller e hcall => exact h.submit caller e hcall
  | next hwalk hbroken hlink => exact h.next hwalk hbroken hlink
  | raise hwalk hbroken => exact h.raise hwalk hbroken
  | accept hwalk hbroken => exact h.accept hwalk hbroken
  | cancel hx hpending => exact h.cancel hx hpending
  | cancelLate => exact h
  | @resolve e => exact h.setExecutor { h.executor e with called := fun _ => rfl } id
  | done hadded hdone => exact h.done hadded hdone
  | enterRaising => exact h
  | enterDone hcall ht hdone => exact h.enterDone hcall ht hdone
  | enter hcall ht => exact h.enter hcall ht
  | @check e hloop =>
      exact h.setExecutor ((h.executor e).check hloop) (Executor.check_broken _).trans
  | start hloop hpending => exact h.start hloop hpending
  | notifyCancel hloop hcancelled => exact h.notifyCancel hloop hcancelled
  | finish hloop => exact h.finish hloop

/-- **The invariant holds throughout every run.** -/
theorem Inv.run {as : List Action} (h : (machine chain).Run Machine.Any init as s) : Inv chain s :=
  h.invariant (inv_init chain) fun _ _ _ hI _ hs => hI.step hs

end CurrentThreadExecutor

end Asgiref
