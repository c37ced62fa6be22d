import Mathlib.Logic.Function.Basic
import Asgiref.Context
import Asgiref.Lib.Machine

/-! # `AsyncSingleThreadContext` and `ThreadSensitiveContext`

Two context managers with the same design: the outermost one sets a context variable to itself and
keeps the token, calls inside it share an executor that is made for it on demand, and its exit
takes the executor down and resets the variable. Any number of objects are entered and exited in
one context, well nested, and an object may be entered again at any time.

* **`enter`** — `__enter__` and `__aenter__`, which are alike.
* **`AsyncSingleThreadContext.exit`**, **`ThreadSensitiveContext.aexit`** — the two exits, which
  differ in the order of their steps.
* **`threadExecutor`** — what a call inside does: it looks its executor up, or makes one.
* **`Settled`**, **`Shutdowns`** — what re-entrancy asks of every state and of every step.
* **`reentrant_iff`** — the runs that have it. -/

namespace Asgiref

namespace ContextManager

/-- What `ContextVar.set` returns: `reset` goes back to the old value, and may do so once. -/
structure Token where
  oldValue : Option Nat
  used : Bool
  deriving DecidableEq, Repr

/-- The variable, the objects and the executors; objects and executors are numbered. -/
structure State where
  /-- The context variable in the one context. -/
  var : Option Nat
  /-- `self.token` of each object. -/
  token : Nat → Option Token
  contextToThreadExecutor : Nat → Option Nat
  /-- The number of executors made so far. -/
  made : Nat
  shutdown : List Nat
  /-- The objects of the `with` statements under way, innermost first. -/
  active : List Nat
  /-- The exceptions that exits have raised. -/
  raised : List PyError

/-- Nothing has been entered yet. -/
def init : State := ⟨none, fun _ => none, fun _ => none, 0, [], [], []⟩

/-- `__enter__` and `__aenter__`: only where the variable is unset is it set. -/
def enter (o : Nat) (s : State) : State :=
  match s.var with
  | some _ => { s with active := o :: s.active }
  | none =>
      { s with
        var := some o
        token := Function.update s.token o (some ⟨s.var, false⟩)
        active := o :: s.active }

/-- `ContextVar.reset(self.token)`. -/
def reset (o : Nat) (token : Token) (s : State) : Except PyError State :=
  -- "<Token> has already been used once"
  if token.used then .error (.runtimeError "has already been used once")
  else .ok { s with
    var := token.oldValue
    token := Function.update s.token o (some { token with used := true }) }

/-- `context_to_thread_executor.pop(self, None)`. -/
def pop (o : Nat) (s : State) : Option Nat × State :=
  (s.contextToThreadExecutor o,
    { s with contextToThreadExecutor := Function.update s.contextToThreadExecutor o none })

/-- `executor.shutdown()`, where there is one. -/
def shutdownExecutor (executor : Option Nat) (s : State) : State :=
  { s with shutdown := s.shutdown ++ executor.toList }

/-- `AsyncSingleThreadContext.__exit__`. -/
def AsyncSingleThreadContext.exit (o : Nat) (s : State) : State × Option PyError :=
  match s.token o with
  | none => (s, none)
  | some token =>
      let (executor, s) := pop o s
      let s := shutdownExecutor executor s
      match reset o token s with
      | .ok s => (s, none)
      | .error e => (s, some e)

/-- `ThreadSensitiveContext.__aexit__`: it resets the variable first, and joins the worker of the
executor in a thread of its own. -/
def ThreadSensitiveContext.aexit (o : Nat) (s : State) : State × Option PyError :=
  match s.token o with
  | none => (s, none)
  | some token =>
      let (executor, s) := pop o s
      match reset o token s with
      | .ok s => (shutdownExecutor executor s, none)
      | .error e => (s, some e)

/-- The two classes. -/
inductive Manager
  | asyncSingleThreadContext
  | threadSensitiveContext
  deriving DecidableEq, Repr

/-- The exit of an object of this class. -/
def Manager.exit : Manager → Nat → State → State × Option PyError
  | .asyncSingleThreadContext => AsyncSingleThreadContext.exit
  | .threadSensitiveContext => ThreadSensitiveContext.aexit

/-- The end of the innermost `with` statement. -/
def leave (manager : Manager) (s : State) : Option State :=
  match s.active with
  | [] => none
  | o :: rest =>
      let (s, raised) := manager.exit o s
      some { s with active := rest, raised := s.raised ++ raised.toList }

/-- A call inside the contexts looks up the executor of the variable's object, and makes it where
there is none. -/
def threadExecutor (s : State) : State :=
  match s.var with
  | none => s
  | some o =>
      match s.contextToThreadExecutor o with
      | some _ => s
      | none =>
          { s with
            contextToThreadExecutor :=
              Function.update s.contextToThreadExecutor o (some s.made)
            made := s.made + 1 }

/-- What happens in the context. -/
inductive Action
  | enter (o : Nat)
  | exit
  | call
  deriving DecidableEq, Repr

/-- The machine of one context and the objects of one of the classes. -/
def machine (manager : Manager) : Machine State Action where
  step s
    | .enter o => some (enter o s)
    | .exit => leave manager s
    | .call => some (threadExecutor s)

/-! ## What always holds -/

/-- A token that has not been used is that of the variable's object, and so is the executor. -/
structure Inv (s : State) : Prop where
  oldValue : ∀ o token, s.token o = some token → token.oldValue = none
  unused : ∀ o token, s.token o = some token → (token.used = false ↔ s.var = some o)
  holder : ∀ o, s.var = some o → s.token o = some ⟨none, false⟩
  executor : ∀ o executor, s.contextToThreadExecutor o = some executor → s.var = some o

theorem inv_init : Inv init where
  oldValue o token h := by cases h
  unused o token h := by cases h
  holder o h := by cases h
  executor o executor h := by cases h

variable {s s' : State} {o : Nat}

/-- The state after the exit of the object that holds the variable. -/
def closed (o : Nat) (s : State) : State :=
  { s with
    var := none
    token := Function.update s.token o (some ⟨none, true⟩)
    contextToThreadExecutor := Function.update s.contextToThreadExecutor o none
    shutdown := s.shutdown ++ (s.contextToThreadExecutor o).toList }

/-- An object that does not hold the variable has no executor to pop. -/
theorem Inv.pop_eq (h : Inv s) (hvar : s.var ≠ some o) : pop o s = (none, s) := by
  have hnone : s.contextToThreadExecutor o = none := by
    cases hexecutor : s.contextToThreadExecutor o with
    | none => rfl
    | some executor => exact absurd (h.executor o executor hexecutor) hvar
  have hsame : Function.update s.contextToThreadExecutor o none = s.contextToThreadExecutor := by
    rw [← hnone, Function.update_eq_self]
  unfold pop
  rw [hnone, hsame]

/-- What an exit does. -/
inductive Exit (o : Nat) (s : State) : State × Option PyError → Prop
  /-- The object has never been the outermost one. -/
  | inner (h : s.token o = none) : Exit o s (s, none)
  /-- The object holds the variable. -/
  | outermost (h : s.var = some o) : Exit o s (closed o s, none)
  /-- The object has been reset before: its token is used. -/
  | raise (h : s.token o ≠ none) (hvar : s.var ≠ some o) :
      Exit o s (s, some (.runtimeError "has already been used once"))

/-- **The two exits do the same** where the invariant holds, whatever the order of their steps. -/
theorem Inv.exit (h : Inv s) (manager : Manager) (o : Nat) : Exit o s (manager.exit o s) := by
  cases htoken : s.token o with
  | none =>
      have hexit : manager.exit o s = (s, none) := by
        cases manager with
        | asyncSingleThreadContext =>
            simp [Manager.exit, AsyncSingleThreadContext.exit, htoken]
        | threadSensitiveContext =>
            simp [Manager.exit, ThreadSensitiveContext.aexit, htoken]
      rw [hexit]
      exact .inner htoken
  | some token =>
      by_cases hvar : s.var = some o
      · have hfresh : token = ⟨none, false⟩ := by
          have hholder := h.holder o hvar
          rw [htoken] at hholder
          exact Option.some.inj hholder
        subst hfresh
        have hexit : manager.exit o s = (closed o s, none) := by
          cases manager with
          | asyncSingleThreadContext =>
              simp [Manager.exit, AsyncSingleThreadContext.exit, htoken, pop, shutdownExecutor,
                reset, closed]
          | threadSensitiveContext =>
              simp [Manager.exit, ThreadSensitiveContext.aexit, htoken, pop, shutdownExecutor,
                reset, closed]
        rw [hexit]
        exact .outermost hvar
      · have hused : token.used = true := by
          rw [← Bool.not_eq_false, h.unused o token htoken]
          exact hvar
        have hexit : manager.exit o s =
            (s, some (.runtimeError "has already been used once")) := by
          cases manager with
          | asyncSingleThreadContext =>
              simp [Manager.exit, AsyncSingleThreadContext.exit, htoken, h.pop_eq hvar,
                shutdownExecutor, reset, hused]
          | threadSensitiveContext =>
              simp [Manager.exit, ThreadSensitiveContext.aexit, htoken, h.pop_eq hvar, reset, hused]
        rw [hexit]
        exact .raise (by simp [htoken]) hvar

/-- The invariant speaks of the variable, the tokens and the executors only. -/
theorem Inv.congr (h : Inv s) (hvar : s'.var = s.var) (htoken : s'.token = s.token)
    (hexecutor : s'.contextToThreadExecutor = s.contextToThreadExecutor) : Inv s' where
  oldValue := by rw [htoken]; exact h.oldValue
  unused := by rw [htoken, hvar]; exact h.unused
  holder := by rw [htoken, hvar]; exact h.holder
  executor := by rw [hexecutor, hvar]; exact h.executor

/-- The variable is set to an object that is entered where it is unset. -/
theorem Inv.opened (h : Inv s) (hvar : s.var = none) (o : Nat) :
    Inv { s with
      var := some o
      token := Function.update s.token o (some ⟨none, false⟩)
      active := o :: s.active } := by
  have hnotHolder : ∀ o', s.var ≠ some o' := by simp [hvar]
  constructor
  · intro o' token htoken
    by_cases ho : o' = o
    · subst ho
      cases (Function.update_self o' _ s.token).symm.trans htoken
      rfl
    · exact h.oldValue o' token ((Function.update_of_ne ho _ s.token).symm.trans htoken)
  · intro o' token htoken
    by_cases ho : o' = o
    · subst ho
      cases (Function.update_self o' _ s.token).symm.trans htoken
      simp
    · have hkept := (Function.update_of_ne ho _ s.token).symm.trans htoken
      rw [h.unused o' token hkept]
      simp [hvar, Ne.symm ho]
  · intro o' ho'
    obtain rfl := Option.some.inj ho'
    exact Function.update_self ..
  · intro o' executor hexecutor
    exact absurd (h.executor o' executor hexecutor) (hnotHolder o')

theorem Inv.enter (h : Inv s) (o : Nat) : Inv (enter o s) := by
  unfold ContextManager.enter
  split
  · exact h.congr rfl rfl rfl
  · rename_i hvar
    rw [hvar]
    exact h.opened hvar o

/-- The variable is unset by the exit of the object that holds it. -/
theorem Inv.closed (h : Inv s) (hvar : s.var = some o) : Inv (closed o s) := by
  have hother : ∀ o', o' ≠ o → s.var ≠ some o' := fun o' ho heq =>
    ho (Option.some.inj (heq.symm.trans hvar))
  constructor
  · intro o' token htoken
    by_cases ho : o' = o
    · subst ho
      cases (Function.update_self o' _ s.token).symm.trans htoken
      rfl
    · exact h.oldValue o' token ((Function.update_of_ne ho _ s.token).symm.trans htoken)
  · intro o' token htoken
    by_cases ho : o' = o
    · subst ho
      cases (Function.update_self o' _ s.token).symm.trans htoken
      simp [ContextManager.closed]
    · have hkept := (Function.update_of_ne ho _ s.token).symm.trans htoken
      rw [h.unused o' token hkept]
      simp [hother o' ho, ContextManager.closed]
  · intro o' ho'
    cases ho'
  · intro o' executor hexecutor
    simp only [ContextManager.closed, Function.update_apply] at hexecutor
    split at hexecutor
    · cases hexecutor
    · rename_i ho
      exact absurd (h.executor o' executor hexecutor) (hother o' ho)

theorem Inv.leave (h : Inv s) {manager : Manager} (hstep : leave manager s = some s') :
    Inv s' := by
  unfold ContextManager.leave at hstep
  split at hstep
  · cases hstep
  · rename_i o rest hactive
    have hexit := h.exit manager o
    generalize manager.exit o s = result at hexit hstep
    cases hstep
    cases hexit with
    | inner htoken => exact h.congr rfl rfl rfl
    | outermost hvar => exact (h.closed hvar).congr rfl rfl rfl
    | raise htoken hvar => exact h.congr rfl rfl rfl

/-- A call changes nothing but that the variable's object has an executor afterwards. -/
theorem threadExecutor_eq (s : State) : threadExecutor s = s ∨
    ∃ o, s.var = some o ∧ s.contextToThreadExecutor o = none ∧ threadExecutor s =
      { s with
        contextToThreadExecutor := Function.update s.contextToThreadExecutor o (some s.made)
        made := s.made + 1 } := by
  unfold threadExecutor
  split
  · exact .inl rfl
  · rename_i o hvar
    split
    · exact .inl rfl
    · rename_i hexecutor
      exact .inr ⟨o, hvar, hexecutor, rfl⟩

theorem Inv.threadExecutor (h : Inv s) : Inv (threadExecutor s) := by
  rcases threadExecutor_eq s with heq | ⟨o, hvar, -, heq⟩
  · rw [heq]
    exact h
  · rw [heq]
    refine ⟨h.oldValue, h.unused, h.holder, fun o' executor ho' => ?_⟩
    by_cases ho : o' = o
    · rw [ho]
      exact hvar
    · exact h.executor o' executor
        ((Function.update_of_ne ho _ s.contextToThreadExecutor).symm.trans ho')

/-- **The invariant** holds in every state of every run. -/
theorem Inv.run {manager : Manager} {as : List Action}
    (h : (machine manager).Run Machine.Any init as s) : Inv s := by
  refine h.invariant inv_init fun s a s' hinv _ hstep => ?_
  cases a with
  | enter o =>
      cases hstep
      exact hinv.enter o
  | exit => exact hinv.leave hstep
  | call =>
      cases hstep
      exact hinv.threadExecutor

/-! ## Re-entrancy -/

/-- No exit has raised, and the variable holds the outermost active object, or is unset. -/
structure Settled (s : State) : Prop where
  raised : s.raised = []
  var : s.var = s.active.getLast?

/-- Executors are taken down at the outermost exit, and only there. -/
structure Shutdowns (s : State) (a : Action) (s' : State) : Prop where
  outermost : ∀ o, a = .exit → s.active = [o] → s'.contextToThreadExecutor o = none ∧
    s'.shutdown = s.shutdown ++ (s.contextToThreadExecutor o).toList
  before : ¬ (a = .exit ∧ s.active.length = 1) → s'.shutdown = s.shutdown ∧
    ∀ o executor, s.contextToThreadExecutor o = some executor →
      s'.contextToThreadExecutor o = some executor

/-- An object that leaves others active around it has no token: it has never been the outermost
one. -/
def Fresh (s : State) : Action → Prop
  | .exit => ∀ o o' rest, s.active = o :: o' :: rest → s.token o = none
  | .enter _ | .call => True

/-- An enter keeps to re-entrancy. -/
theorem Settled.enter (h : Settled s) (o : Nat) :
    Settled (enter o s) ∧ Shutdowns s (.enter o) (enter o s) := by
  have hvar := h.var
  unfold ContextManager.enter
  split
  · rename_i c hset
    refine ⟨⟨h.raised, ?_⟩, ⟨fun _ ha => (by cases ha), fun _ => ⟨rfl, fun _ _ => id⟩⟩⟩
    -- the object goes inside those that are active
    rw [hset] at hvar
    rw [List.getLast?_cons, ← hvar]
    exact hset
  · rename_i hunset
    refine ⟨⟨h.raised, ?_⟩, ⟨fun _ ha => (by cases ha), fun _ => ⟨rfl, fun _ _ => id⟩⟩⟩
    rw [hunset] at hvar
    rw [List.getLast?_cons, ← hvar]
    rfl

/-- A call keeps to re-entrancy. -/
theorem Settled.threadExecutor (h : Settled s) :
    Settled (threadExecutor s) ∧ Shutdowns s .call (threadExecutor s) := by
  rcases threadExecutor_eq s with heq | ⟨o, -, hexecutor, heq⟩
  · rw [heq]
    exact ⟨h, ⟨fun _ ha => (by cases ha), fun _ => ⟨rfl, fun _ _ => id⟩⟩⟩
  · rw [heq]
    refine ⟨⟨h.raised, h.var⟩,
      ⟨fun _ ha => (by cases ha), fun _ => ⟨rfl, fun o' executor ho' => ?_⟩⟩⟩
    have hne : o' ≠ o := fun heq => by
      rw [heq, hexecutor] at ho'
      cases ho'
    exact (Function.update_of_ne hne _ s.contextToThreadExecutor).trans ho'

/-- An exit keeps to re-entrancy exactly if the object has no token or is the outermost one. -/
theorem Settled.leave_iff (h : Settled s) (hinv : Inv s) {manager : Manager}
    (hstep : leave manager s = some s') :
    Settled s' ∧ Shutdowns s .exit s' ↔ Fresh s .exit := by
  unfold leave at hstep
  split at hstep
  · cases hstep
  · rename_i o rest hactive
    have hvar := h.var
    have hexit := hinv.exit manager o
    generalize manager.exit o s = result at hexit hstep
    cases hstep
    cases rest with
    | nil =>
        -- the outermost exit
        have hholder : s.var = some o := by rw [hvar, hactive]; rfl
        refine iff_of_true ?_ (by simp [Fresh, hactive])
        cases hexit with
        | inner htoken =>
            rw [hinv.holder o hholder] at htoken
            cases htoken
        | outermost _ =>
            refine ⟨⟨by simp [closed, h.raised], rfl⟩, ⟨fun o' _ ho' => ?_, fun hnot => ?_⟩⟩
            · obtain rfl : o = o' := by
                rw [hactive] at ho'
                exact (List.cons.inj ho').1
              exact ⟨Function.update_self .., rfl⟩
            · exact absurd ⟨rfl, by rw [hactive]; rfl⟩ hnot
        | raise _ hnot => exact absurd hholder hnot
    | cons o' rest =>
        -- others stay active
        have hinner : s.active.length ≠ 1 := by simp [hactive]
        have hfresh : Fresh s .exit ↔ s.token o = none := by
          simp [Fresh, hactive]
        have hrest : s.var = (o' :: rest).getLast? := by
          rw [hvar, hactive]
          rfl
        rw [hfresh]
        cases hexit with
        | inner htoken =>
            refine iff_of_true ?_ htoken
            refine ⟨⟨by simp [h.raised], hrest⟩, ⟨fun o'' _ ho'' => ?_, fun _ => ?_⟩⟩
            · rw [ho''] at hinner
              exact absurd rfl hinner
            · exact ⟨rfl, fun _ _ => id⟩
        | outermost hholder =>
            -- the variable is unset while another object is active
            refine iff_of_false (fun hgood => ?_) ?_
            · have hunset : none = (o' :: rest).getLast? := hgood.1.var
              rw [← hrest, hholder] at hunset
              cases hunset
            · rw [hinv.holder o hholder]
              exact Option.some_ne_none _
        | raise htoken _ =>
            refine iff_of_false (fun hgood => ?_) htoken
            have hraised := hgood.1.raised
            simp [h.raised] at hraised

/-- **When the context managers are re-entrant.** No exit raises, the variable holds the outermost
active object, and the executor is taken down at the outermost exit and only there, all along
exactly the runs in which every object that leaves others active around it has never been the
outermost one. -/
theorem reentrant_iff {manager : Manager} {as : List Action}
    (h : (machine manager).Run Machine.Any init as s) :
    (machine manager).Always Settled init as ∧ (machine manager).Along Shutdowns init as ↔
      (machine manager).Run Fresh init as s := by
  refine h.along_iff (J := Inv) (fun _ _ => Inv.run) ⟨rfl, rfl⟩ ?_
  intro s a s' hinv hsettled hstep
  cases a with
  | enter o =>
      cases hstep
      exact iff_of_true (hsettled.enter o) trivial
  | exit => exact hsettled.leave_iff hinv hstep
  | call =>
      cases hstep
      exact iff_of_true hsettled.threadExecutor trivial

/-- A call inside two objects that are entered once each. -/
def nested : List Action := [.enter 0, .call, .enter 1, .call, .exit, .exit]

/-- The object is entered again while it is active. -/
def twice : List Action := [.enter 0, .enter 0, .call, .exit, .exit]

/-- The inner exit leaves the executor, and the outer one takes it down. -/
theorem reentrant_iff_nested :
    ∃ s, (machine .threadSensitiveContext).exec init nested = some s ∧ s.shutdown = [0] ∧
      (machine .threadSensitiveContext).Run Fresh init nested s ∧
      (machine .threadSensitiveContext).Always Settled init nested ∧
        (machine .threadSensitiveContext).Along Shutdowns init nested := by
  obtain ⟨s₁, hs₁⟩ : ∃ s₁, (machine .threadSensitiveContext).exec init (nested.take 4) =
      some s₁ := ⟨_, rfl⟩
  obtain ⟨s₂, hs₂⟩ : ∃ s₂, (machine .threadSensitiveContext).step s₁ .exit = some s₂ := by
    cases hs₁
    exact ⟨_, rfl⟩
  obtain ⟨s, hs⟩ : ∃ s, (machine .threadSensitiveContext).step s₂ .exit = some s := by
    cases hs₁
    cases hs₂
    exact ⟨_, rfl⟩
  have hbefore : ∀ a ∈ nested.take 4, ∀ s, Fresh s a := by simp [nested, Fresh]
  have hinner : Fresh s₁ .exit := by
    cases hs₁
    intro o o' rest hactive
    cases hactive
    rfl
  have houter : Fresh s₂ .exit := by
    cases hs₁
    cases hs₂
    intro o o' rest hactive
    cases hactive
  have hrun : (machine .threadSensitiveContext).Run Fresh init nested s :=
    ((Machine.exec_run_of hbefore hs₁).append (.single hinner hs₂)).append (.single houter hs)
  have hsettled := (reentrant_iff (hrun.mono fun _ _ _ => trivial)).mpr hrun
  cases hs₁
  cases hs₂
  cases hs
  exact ⟨_, rfl, rfl, hrun, hsettled⟩

/-- The first exit of the object unsets the variable too early, and the second one raises. -/
theorem twice_not_reentrant :
    ¬ ((machine .asyncSingleThreadContext).Always Settled init twice ∧
        (machine .asyncSingleThreadContext).Along Shutdowns init twice) ∧
      ¬ ((machine .threadSensitiveContext).Always Settled init twice ∧
        (machine .threadSensitiveContext).Along Shutdowns init twice) := by
  constructor
  · rintro ⟨halways, -⟩
    exact absurd (halways twice _ (List.prefix_refl _) (Machine.exec_run rfl)).raised (by decide)
  · rintro ⟨halways, -⟩
    exact absurd (halways twice _ (List.prefix_refl _) (Machine.exec_run rfl)).raised (by decide)

end ContextManager

end Asgiref
