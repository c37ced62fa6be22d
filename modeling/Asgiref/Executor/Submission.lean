import Mathlib.Data.List.Basic
import Asgiref.Executor.Delivery

/-! # Which thread a call of `submit` hands its item to

One call of `submit` from its start to its end, on a chain of executors of any length, with any
work threads and any of the executors broken.

* **`Links`** — the executors from the head of a chain to its end.
* **`SubmitCall`** — the call, as a run of the machine; **`exists_submitCall`** says that it ends,
  and where: at the first executor that is not broken.
* **`OwnThreadRule`** — the item does not go to an executor of the submitting thread, and nothing
  is queued where the call raises.
* **`ownThreadRule_iff`** — when a call keeps that rule. -/

namespace Asgiref

namespace CurrentThreadExecutor

/-- The `_old_executor` links from `e` to the end of its chain. -/
inductive Links (chain : Chain) : Nat → List Nat → Prop
  | last {e : Nat} (h : chain.oldExecutor e = none) : Links chain e [e]
  | next {e e' : Nat} {links : List Nat} (h : chain.oldExecutor e = some e')
      (hlinks : Links chain e' links) : Links chain e (e :: links)

/-- The first executor of these that is not broken. -/
def firstRunning (s : State) (links : List Nat) : Option Nat :=
  links.find? fun e => !(s.executor e).broken

/-- The call of `submit` has returned or raised. -/
def Submit.Ended : Submit → Prop
  | .accepted _ | .raised => True
  | .notCalled | .walking _ => False

/-- The call of `submit` for item `x` on `head`, made by thread `caller` in state `s`, has ended in
state `s'`. -/
def SubmitCall (chain : Chain) (x caller head : Nat) (s s' : State) : Prop :=
  ∃ n, (machine chain).exec s (.submit x caller head :: List.replicate n (.walk x)) = some s' ∧
    (s'.item x).submit.Ended

/-- The executor that took the item runs it in another thread than the submitting one, and where
there is none the call has raised. The queues are as they were but for the item. -/
structure OwnThreadRule (chain : Chain) (x caller : Nat) (s s' : State) : Prop where
  accepted : ∀ e, (s'.item x).submit = .accepted e →
    chain.workThread e ≠ caller ∧
      ∀ e', (s'.executor e').workItems =
        if e' = e then (s.executor e').workItems ++ [x] else (s.executor e').workItems
  raised : (∀ e, (s'.item x).submit ≠ .accepted e) →
    (s'.item x).submit = .raised ∧
      ∀ e', (s'.executor e').workItems = (s.executor e').workItems

variable {chain : Chain} {x caller head : Nat} {s s' : State}

/-! ## Where the walk ends -/

/-- Where a call ends whose walk finds `target`: the item has been appended there, or the call has
raised. -/
def EndsAt (x : Nat) (s s' : State) : Option Nat → Prop
  | some e => (s'.item x).submit = .accepted e ∧
      ∀ e', (s'.executor e').workItems =
        if e' = e then (s.executor e').workItems ++ [x] else (s.executor e').workItems
  | none => (s'.item x).submit = .raised ∧
      ∀ e', (s'.executor e').workItems = (s.executor e').workItems

/-- A call that has ended somewhere has ended. -/
theorem EndsAt.ended {target : Option Nat} (h : EndsAt x s s' target) :
    (s'.item x).submit.Ended := by
  cases target with
  | none =>
      rw [h.1]
      trivial
  | some e =>
      rw [h.1]
      trivial

@[simp] theorem Executor.notify_workItems (ex : Executor) :
    ex.notify.workItems = ex.workItems := by
  unfold Executor.notify
  split <;> rfl

/-- A turn of the walk at an executor that is not broken. -/
theorem walk_running (chain : Chain) {e : Nat} (hwalk : (s.item x).submit = .walking e)
    (hbroken : (s.executor e).broken = false) :
    ∃ s', walk chain x s = some s' ∧ EndsAt x s s' (some e) := by
  simp only [walk, hwalk, hbroken, Bool.false_eq_true, if_false]
  refine ⟨_, rfl, by simp, ?_⟩
  intro e'
  by_cases he : e' = e
  · subst he
    simp
  · simp [he, State.setItem]

/-- A turn of the walk at a broken executor: it changes no executor. -/
theorem walk_broken (chain : Chain) {e : Nat} (hwalk : (s.item x).submit = .walking e)
    (hbroken : (s.executor e).broken = true) :
    ∃ s', walk chain x s = some s' ∧ s'.executor = s.executor ∧
      (s'.item x).submit = (chain.oldExecutor e).elim .raised .walking := by
  simp only [walk, hwalk, hbroken, if_true]
  refine ⟨_, rfl, rfl, ?_⟩
  cases chain.oldExecutor e <;> simp

/-- **The walk ends at the first executor that is not broken.** -/
theorem exec_walk {links : List Nat} (hlinks : Links chain head links)
    (hwalk : (s.item x).submit = .walking head) :
    ∃ n s', (machine chain).exec s (List.replicate n (.walk x)) = some s' ∧
      EndsAt x s s' (firstRunning s links) := by
  induction hlinks generalizing s with
  | @last e hend =>
      cases hbroken : (s.executor e).broken with
      | false =>
          obtain ⟨s', hstep, hends⟩ := walk_running chain hwalk hbroken
          exact ⟨1, s', by simp [Machine.exec, machine, hstep], by
            simpa [firstRunning, hbroken] using hends⟩
      | true =>
          obtain ⟨s', hstep, hexecutor, hsubmit⟩ := walk_broken chain hwalk hbroken
          rw [hend] at hsubmit
          refine ⟨1, s', by simp [Machine.exec, machine, hstep], ?_⟩
          simp only [firstRunning, List.find?_cons, hbroken, Bool.not_true, List.find?_nil]
          exact ⟨hsubmit, fun e' => by rw [hexecutor]⟩
  | @next e next links hnext _ ih =>
      cases hbroken : (s.executor e).broken with
      | false =>
          obtain ⟨s', hstep, hends⟩ := walk_running chain hwalk hbroken
          exact ⟨1, s', by simp [Machine.exec, machine, hstep], by
            simpa [firstRunning, hbroken] using hends⟩
      | true =>
          obtain ⟨s₁, hstep, hexecutor, hsubmit⟩ := walk_broken chain hwalk hbroken
          rw [hnext] at hsubmit
          obtain ⟨n, s', hexec, hends⟩ := ih hsubmit
          refine ⟨n + 1, s', ?_, ?_⟩
          · simp [List.replicate_succ, Machine.exec, machine, hstep]
            exact hexec
          · -- the rest of the walk sees the executors as they were
            have hrunning : firstRunning s (e :: links) = firstRunning s₁ links := by
              simp [firstRunning, hbroken, hexecutor]
            rw [hrunning]
            unfold EndsAt at hends ⊢
            rwa [hexecutor] at hends

/-- A call that has ended takes no further turn. -/
theorem exec_walk_of_ended (hended : (s.item x).submit.Ended) {n : Nat}
    (h : (machine chain).exec s (List.replicate n (.walk x)) = some s') : s' = s := by
  cases n with
  | zero => simpa [Machine.exec] using h.symm
  | succ n =>
      have hstep : (machine chain).step s (.walk x) = none := by
        cases hsubmit : (s.item x).submit with
        | notCalled => rw [hsubmit] at hended; exact hended.elim
        | walking e => rw [hsubmit] at hended; exact hended.elim
        | accepted e => simp [machine, walk, hsubmit]
        | raised => simp [machine, walk, hsubmit]
      simp [List.replicate_succ, Machine.exec, hstep] at h

/-- The turns of a walk that ends lead to one state. -/
theorem exec_walk_unique {s₁ s₂ : State} {n m : Nat}
    (h₁ : (machine chain).exec s (List.replicate n (.walk x)) = some s₁)
    (hended₁ : (s₁.item x).submit.Ended)
    (h₂ : (machine chain).exec s (List.replicate m (.walk x)) = some s₂)
    (hended₂ : (s₂.item x).submit.Ended) : s₁ = s₂ := by
  induction n generalizing s m with
  | zero =>
      obtain rfl : s = s₁ := by simpa [Machine.exec] using h₁
      exact (exec_walk_of_ended hended₁ h₂).symm
  | succ n ih =>
      cases m with
      | zero =>
          obtain rfl : s = s₂ := by simpa [Machine.exec] using h₂
          exact exec_walk_of_ended hended₂ h₁
      | succ m =>
          simp only [List.replicate_succ, Machine.exec, Option.bind_eq_some_iff] at h₁ h₂
          obtain ⟨s₃, hstep, hrest₁⟩ := h₁
          obtain ⟨s₄, hstep', hrest₂⟩ := h₂
          obtain rfl : s₃ = s₄ := by
            rw [hstep] at hstep'
            exact Option.some.inj hstep'
          exact ih hrest₁ hrest₂

/-! ## The whole call -/

/-- The executor that a call reaches: none where the head belongs to the submitting thread. -/
def reached (chain : Chain) (caller head : Nat) (links : List Nat) (s : State) : Option Nat :=
  if caller = chain.workThread head then none else firstRunning s links

/-- **A call ends.** It does so at the executor it reaches, or by raising where there is none. -/
theorem exists_submitCall {links : List Nat} (hlinks : Links chain head links)
    (hnew : (s.item x).submit = .notCalled) (caller : Nat) :
    ∃ s', SubmitCall chain x caller head s s' ∧
      EndsAt x s s' (reached chain caller head links s) := by
  by_cases hown : caller = chain.workThread head
  · -- the check in front of the walk
    refine ⟨s.setItem x { s.item x with submit := .raised, start := head }, ⟨0, ?_, ?_⟩, ?_⟩
    · simp [Machine.exec, machine, submit, hnew, hown]
    · simp [Submit.Ended]
    · rw [reached, if_pos hown]
      exact ⟨by simp, fun e' => rfl⟩
  · have hstep : (machine chain).step s (.submit x caller head) =
        some (s.setItem x { s.item x with submit := .walking head, start := head }) := by
      simp [machine, submit, hnew, hown]
    obtain ⟨n, s', hexec, hends⟩ := exec_walk (x := x)
      (s := s.setItem x { s.item x with submit := .walking head, start := head }) hlinks (by simp)
    refine ⟨s', ⟨n, ?_, hends.ended⟩, ?_⟩
    · rw [Machine.exec, hstep]
      exact hexec
    · rw [reached, if_neg hown]
      exact hends

/-- A call ends in one state. -/
theorem SubmitCall.unique {s₁ s₂ : State} (h₁ : SubmitCall chain x caller head s s₁)
    (h₂ : SubmitCall chain x caller head s s₂) : s₁ = s₂ := by
  obtain ⟨n, hexec₁, hended₁⟩ := h₁
  obtain ⟨m, hexec₂, hended₂⟩ := h₂
  simp only [Machine.exec, Option.bind_eq_some_iff] at hexec₁ hexec₂
  obtain ⟨s₃, hstep, hrest₁⟩ := hexec₁
  obtain ⟨s₄, hstep', hrest₂⟩ := hexec₂
  obtain rfl : s₃ = s₄ := by
    rw [hstep] at hstep'
    exact Option.some.inj hstep'
  exact exec_walk_unique hrest₁ hended₁ hrest₂ hended₂

/-- The rule at the end of a call is a condition on the executor where it ended. -/
theorem ownThreadRule_of_endsAt {target : Option Nat} (h : EndsAt x s s' target) :
    OwnThreadRule chain x caller s s' ↔ ∀ e, target = some e → chain.workThread e ≠ caller := by
  cases target with
  | none =>
      have hraised : (s'.item x).submit = .raised := h.1
      constructor
      · intro _ e he
        cases he
      · intro _
        refine ⟨fun e he => ?_, fun _ => h⟩
        rw [hraised] at he
        cases he
  | some e =>
      have haccepted : (s'.item x).submit = .accepted e := h.1
      constructor
      · rintro hrule e' he'
        cases he'
        exact (hrule.accepted e haccepted).1
      · intro hthread
        refine ⟨fun e' he' => ?_, fun hnot => absurd haccepted (hnot e)⟩
        rw [haccepted] at he'
        cases he'
        exact ⟨hthread e rfl, h.2⟩

/-- **When `submit` keeps to the rule.** A call on a chain of any length ends, and it keeps to the
rule exactly if the head belongs to the submitting thread (the call raises), or the first executor
on the chain that is not broken, if there is one, does not: the check is made of the head alone. -/
theorem ownThreadRule_iff {links : List Nat} (hlinks : Links chain head links)
    (hnew : (s.item x).submit = .notCalled) (caller : Nat) :
    (∃ s', SubmitCall chain x caller head s s') ∧
      ∀ s', SubmitCall chain x caller head s s' → (OwnThreadRule chain x caller s s' ↔
        caller = chain.workThread head ∨
          ∀ e, firstRunning s links = some e → chain.workThread e ≠ caller) := by
  obtain ⟨s₁, hcall, hends⟩ := exists_submitCall hlinks hnew caller
  refine ⟨⟨s₁, hcall⟩, fun s' hcall' => ?_⟩
  obtain rfl := hcall.unique hcall'
  rw [ownThreadRule_of_endsAt hends, reached]
  by_cases hown : caller = chain.workThread head
  · simp [hown]
  · simp [hown]

/-- Executor 1 was made by thread 8 while executor 0, made by thread 7, was current. -/
def twoThreads : Chain where
  workThread e := if e = 0 then 7 else 8
  oldExecutor e := if e = 0 then none else some 0

/-- The call that used executor 1 is over, so it is broken. -/
def innerOver : State :=
  ((machine twoThreads).exec init [.enter 1 8, .resolve 1, .done 1, .check 1]).getD init

theorem links_twoThreads : Links twoThreads 1 [1, 0] := by
  have hold : twoThreads.oldExecutor 1 = some 0 := rfl
  exact .next hold (.last rfl)

theorem ownThreadRule_twoThreads :
    (∃ s', SubmitCall twoThreads 0 9 1 innerOver s') ∧
      ∀ s', SubmitCall twoThreads 0 9 1 innerOver s' → (OwnThreadRule twoThreads 0 9 innerOver s' ↔
        9 = twoThreads.workThread 1 ∨
          ∀ e, firstRunning innerOver [1, 0] = some e → twoThreads.workThread e ≠ 9) :=
  ownThreadRule_iff links_twoThreads rfl 9

/-- Thread 7 submits to executor 1: the item goes to executor 0, its own. -/
theorem ancestor_not_ownThreadRule :
    ∃ s', SubmitCall twoThreads 0 7 1 innerOver s' ∧
      ¬ OwnThreadRule twoThreads 0 7 innerOver s' := by
  obtain ⟨s', hcall, hends⟩ := exists_submitCall links_twoThreads (s := innerOver) (x := 0) rfl 7
  refine ⟨s', hcall, fun hrule => ?_⟩
  exact (ownThreadRule_of_endsAt hends).mp hrule 0 (by decide) (by decide)

end CurrentThreadExecutor

end Asgiref
