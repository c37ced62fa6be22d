import Mathlib.Order.Basic
import Asgiref.Bridge.Agreement

/-! # No bridge call of nested frames gets stuck

While frames only nest, every thread-sensitive call finds a thread that waits for it. This file has
the invariant behind that, for the world of a run that uses nothing but the two bridges:

* **`World.Wf`** — a thread that was never started is at rest.
* **`World.Keeps`** — a completed call leaves the threads, loops and executors there were before as
  it found them.
* **`Ready`** — a sync frame has its thread to itself; an async frame runs on a loop and either the
  executor it sees waits on another thread, or it is the outermost frame and all workers are idle.
* **`Ready.exists_submit`** — from a ready async frame an executor is selected, it accepts, and its
  thread is free to run the item (**`Takes`**). -/

namespace Asgiref

open Local

/-- The thread runs no loop, waits in no executor and works on no item. -/
def Idle (t : ThreadId) (w : World) : Prop :=
  w.runningLoop t = none ∧ w.waitingIn t = none ∧ w.busy t = false

theorem Idle.runningLoop {t : ThreadId} {w : World} (h : Idle t w) : w.runningLoop t = none := h.1

theorem Idle.waitingIn {t : ThreadId} {w : World} (h : Idle t w) : w.waitingIn t = none := h.2.1

theorem Idle.busy {t : ThreadId} {w : World} (h : Idle t w) : w.busy t = false := h.2.2

namespace World

/-- Threads not started yet are idle, and the loops that run and the worker of every executor were
started. -/
structure Wf (w : World) : Prop where
  fresh : ∀ t, w.nextThread ≤ t → Idle t w
  running : ∀ t loop, w.runningLoop t = some loop → loop < w.nextLoop
  single : SyncToAsync.singleThread < w.nextThread
  sensitive : ∀ v t, w.contextToThreadExecutor v = some t → t < w.nextThread

theorem start_wf : start.Wf where
  fresh _ _ := ⟨rfl, rfl, rfl⟩
  running _ _ h := by cases h
  single := by decide
  sensitive _ _ h := by cases h

/-- The record of the run is no part of this. -/
theorem Wf.recorded {w : World} (h : w.Wf) (replies : List Reply) (points : List Frame)
    (guards : List Guard) (crossings : List Crossing) :
    Wf { w with
      replies := replies
      points := points
      guards := guards
      crossings := crossings } :=
  ⟨h.fresh, h.running, h.single, h.sensitive⟩

/-- What was there before a call is as it was; a new per-context worker is idle. -/
structure Keeps (w w' : World) : Prop where
  nextThread : w.nextThread ≤ w'.nextThread
  nextLoop : w.nextLoop ≤ w'.nextLoop
  nextExecutor : w.nextExecutor ≤ w'.nextExecutor
  runningLoop : ∀ t < w.nextThread, w'.runningLoop t = w.runningLoop t
  waitingIn : ∀ t < w.nextThread, w'.waitingIn t = w.waitingIn t
  busy : ∀ t < w.nextThread, w'.busy t = w.busy t
  executor : ∀ e < w.nextExecutor, w'.executor e = w.executor e
  loopThreadExecutors : ∀ loop < w.nextLoop,
    w'.loopThreadExecutors loop = w.loopThreadExecutors loop
  sensitive : ∀ v t, w'.contextToThreadExecutor v = some t →
    w.contextToThreadExecutor v = some t ∨ w.nextThread ≤ t ∧ Idle t w'

theorem Keeps.refl (w : World) : Keeps w w where
  nextThread := le_rfl
  nextLoop := le_rfl
  nextExecutor := le_rfl
  runningLoop _ _ := rfl
  waitingIn _ _ := rfl
  busy _ _ := rfl
  executor _ _ := rfl
  loopThreadExecutors _ _ := rfl
  sensitive _ _ h := .inl h

/-- A thread that was there stays idle. -/
theorem Keeps.idle {w w' : World} (h : Keeps w w') {t : ThreadId} (ht : t < w.nextThread)
    (hidle : Idle t w) : Idle t w' :=
  ⟨by rw [h.runningLoop t ht, hidle.runningLoop], by rw [h.waitingIn t ht, hidle.waitingIn],
    by rw [h.busy t ht, hidle.busy]⟩

theorem Keeps.trans {w₁ w₂ w₃ : World} (h : Keeps w₁ w₂) (hwf : Wf w₂) (h' : Keeps w₂ w₃) :
    Keeps w₁ w₃ where
  nextThread := h.nextThread.trans h'.nextThread
  nextLoop := h.nextLoop.trans h'.nextLoop
  nextExecutor := h.nextExecutor.trans h'.nextExecutor
  runningLoop t ht := by rw [h'.runningLoop t (ht.trans_le h.nextThread), h.runningLoop t ht]
  waitingIn t ht := by rw [h'.waitingIn t (ht.trans_le h.nextThread), h.waitingIn t ht]
  busy t ht := by rw [h'.busy t (ht.trans_le h.nextThread), h.busy t ht]
  executor e he := by rw [h'.executor e (he.trans_le h.nextExecutor), h.executor e he]
  loopThreadExecutors loop hl := by
    rw [h'.loopThreadExecutors loop (hl.trans_le h.nextLoop), h.loopThreadExecutors loop hl]
  sensitive v t ht := by
    rcases h'.sensitive v t ht with h₂ | ⟨hnew, hidle⟩
    · rcases h.sensitive v t h₂ with h₁ | ⟨hnew, hidle⟩
      · exact .inl h₁
      -- made by the first call, and left alone by the second
      · exact .inr ⟨hnew, h'.idle (hwf.sensitive v t h₂) hidle⟩
    · exact .inr ⟨h.nextThread.trans hnew, hidle⟩

end World

/-- An executor waits for items on another thread than `t`. -/
structure Waits (e : ExecId) (t : ThreadId) (w : World) : Prop where
  known : e < w.nextExecutor
  broken : (w.executor e).broken = false
  other : (w.executor e).workThread ≠ t
  started : (w.executor e).workThread < w.nextThread
  waitingIn : w.waitingIn (w.executor e).workThread = some e
  runningLoop : w.runningLoop (w.executor e).workThread = none

/-- An async frame with no executor in sight, on loop `loop`: nothing else is going on. -/
structure Outermost (c : Context) (loop : LoopId) (w : World) : Prop where
  deadlock : deadlockFlag c = false
  unregistered : w.loopThreadExecutors loop = none
  single : Idle SyncToAsync.singleThread w
  sensitive : ∀ v t, w.contextToThreadExecutor v = some t → Idle t w

/-- A thread-sensitive call from the frame is served: by the executor that it sees, or, in the
outermost frame, by an idle worker. -/
def Served (env : Env) (fr : Frame) (loop : LoopId) (w : World) : Prop :=
  match currentExecutor (env.getIdent fr.thread) fr.context with
  | .executor e => Waits e fr.thread w
  | _ => Outermost fr.context loop w

/-- A frame is ready to go on. -/
def Ready (env : Env) : Side → Frame → World → Prop
  | .sync, fr, w =>
      fr.thread < w.nextThread ∧ w.runningLoop fr.thread = none ∧ w.waitingIn fr.thread = none
  | .async, fr, w =>
      fr.thread < w.nextThread ∧ ∃ loop < w.nextLoop,
        w.runningLoop fr.thread = some loop ∧ Served env fr loop w

/-- The main thread of a new process is ready to run a sync frame. -/
theorem ready_start (env : Env) : Ready env .sync (.root mainThread ∅) .start :=
  ⟨by decide, rfl, rfl⟩

/-- The thread of an item that was submitted: it waits in the executor, is an idle worker, or is a
new thread. -/
def Takes (ref : ExecutorRef) (t : ThreadId) (w : World) : Prop :=
  match ref with
  | .currentThread e => t < w.nextThread ∧ w.runningLoop t = none ∧ w.waitingIn t = some e
  | .worker _ => t < w.nextThread ∧ Idle t w
  | .pool => t = w.nextThread

theorem Takes.serves {ref : ExecutorRef} {t : ThreadId} {w : World} (h : Takes ref t w) :
    SyncToAsync.serves ref t w = true := by
  cases ref with
  | currentThread e => simp [SyncToAsync.serves, h.2.2]
  | worker t' => simp [SyncToAsync.serves, h.2.busy]
  | pool => rfl

/-- An executor that waits goes on waiting. -/
theorem Waits.keeps {e : ExecId} {t : ThreadId} {w w' : World} (h : Waits e t w)
    (hk : w.Keeps w') : Waits e t w' := by
  have hexec := hk.executor e h.known
  exact {
    known := h.known.trans_le hk.nextExecutor
    broken := by rw [hexec]; exact h.broken
    other := by rw [hexec]; exact h.other
    started := by rw [hexec]; exact h.started.trans_le hk.nextThread
    waitingIn := by rw [hexec, hk.waitingIn _ h.started]; exact h.waitingIn
    runningLoop := by rw [hexec, hk.runningLoop _ h.started]; exact h.runningLoop }

/-- The outermost frame stays it, if its flag is down again. -/
theorem Outermost.keeps {c c' : Context} {loop : LoopId} {w w' : World} (h : Outermost c loop w)
    (hwf : w.Wf) (hk : w.Keeps w') (hloop : loop < w.nextLoop) (hflag : deadlockFlag c' = false) :
    Outermost c' loop w' where
  deadlock := hflag
  unregistered := by rw [hk.loopThreadExecutors loop hloop, h.unregistered]
  single := hk.idle hwf.single h.single
  sensitive v t ht := by
    rcases hk.sensitive v t ht with hold | ⟨-, hidle⟩
    · exact hk.idle (hwf.sensitive v t hold) (h.sensitive v t hold)
    · exact hidle

/-- **Readiness survives a call.** After a completed call a frame is as ready as before, provided it
sees the same executor and its `deadlock_context` is not left set. -/
theorem Ready.keeps {env : Env} {side : Side} {fr fr' : Frame} {w w' : World}
    (h : Ready env side fr w) (hwf : w.Wf) (hk : w.Keeps w') (hthread : fr'.thread = fr.thread)
    (hcurrent : currentExecutor (env.getIdent fr.thread) fr'.context
      = currentExecutor (env.getIdent fr.thread) fr.context)
    (hflag : deadlockFlag fr'.context = false ∨
      deadlockFlag fr'.context = deadlockFlag fr.context) :
    Ready env side fr' w' := by
  cases side with
  | sync =>
      obtain ⟨ht, hloop, hwait⟩ := h
      refine ⟨?_, ?_, ?_⟩
      · rw [hthread]; exact ht.trans_le hk.nextThread
      · rw [hthread, hk.runningLoop _ ht, hloop]
      · rw [hthread, hk.waitingIn _ ht, hwait]
  | async =>
      obtain ⟨ht, loop, hlt, hloop, hserved⟩ := h
      refine ⟨?_, loop, hlt.trans_le hk.nextLoop, ?_, ?_⟩
      · rw [hthread]; exact ht.trans_le hk.nextThread
      · rw [hthread, hk.runningLoop _ ht, hloop]
      · have houter : Outermost fr.context loop w → Outermost fr'.context loop w' := fun ho =>
          ho.keeps hwf hk hlt (hflag.elim id fun heq => heq.trans ho.deadlock)
        unfold Served at hserved ⊢
        rw [hthread, hcurrent]
        split at hserved
        · exact hserved.keeps hk
        · exact houter hserved

/-! ## Submitting -/

/-- Making the executor of a `ThreadSensitiveContext` starts an idle worker. -/
theorem sensitiveWorker_spec {v : Value} {w : World} (hwf : w.Wf)
    (hidle : ∀ v t, w.contextToThreadExecutor v = some t → Idle t w) :
    w.Keeps (SyncToAsync.sensitiveWorker v w).2 ∧ (SyncToAsync.sensitiveWorker v w).2.Wf ∧
      (SyncToAsync.sensitiveWorker v w).2.replies = w.replies ∧
      Takes (.worker (SyncToAsync.sensitiveWorker v w).1) (SyncToAsync.sensitiveWorker v w).1
        (SyncToAsync.sensitiveWorker v w).2 := by
  unfold SyncToAsync.sensitiveWorker
  cases hv : w.contextToThreadExecutor v with
  | some t => exact ⟨.refl w, hwf, rfl, hwf.sensitive v t hv, hidle v t hv⟩
  | none =>
      have hnew := hwf.fresh w.nextThread le_rfl
      have hsplit : ∀ v' t', Function.update w.contextToThreadExecutor v (some w.nextThread) v'
          = some t' → w.contextToThreadExecutor v' = some t' ∨ t' = w.nextThread := by
        intro v' t' ht'
        by_cases hv' : v' = v
        · subst hv'
          rw [Function.update_self] at ht'
          exact .inr (Option.some.inj ht').symm
        · rw [Function.update_of_ne hv'] at ht'
          exact .inl ht'
      refine ⟨?_, ?_, rfl, Nat.lt_succ_self _, hnew⟩
      · refine { World.Keeps.refl w with nextThread := Nat.le_succ _, sensitive := ?_ }
        intro v' t' ht'
        rcases hsplit v' t' ht' with hold | rfl
        · exact .inl hold
        · exact .inr ⟨le_rfl, hnew⟩
      · refine ⟨fun t ht => hwf.fresh t ((Nat.le_succ _).trans ht), hwf.running,
          hwf.single.trans (Nat.lt_succ_self _), fun v' t' ht' => ?_⟩
        · rcases hsplit v' t' ht' with hold | rfl
          · exact (hwf.sensitive v' t' hold).trans (Nat.lt_succ_self _)
          · exact Nat.lt_succ_self _

/-- What a successful selection and submission leave: the same frame, up to `deadlock_context`, and
a thread that takes the item. -/
structure Submitted (env : Env) (threadSensitive : Bool) (loop : LoopId) (fr : Frame) (w : World)
    (selected ref : ExecutorRef) (t : ThreadId) (fr' : Frame) (w' : World) : Prop where
  select : SyncToAsync.selectExecutor env threadSensitive loop fr w = (.ok selected, fr', w')
  submit : SyncToAsync.submit fr.thread w' selected = .ok (ref, t)
  frame : fr' = fr ∨ fr' = { fr with context := setDeadlock fr.context true }
  keeps : w.Keeps w'
  wf : w'.Wf
  replies : w'.replies = w.replies
  takes : Takes ref t w'

/-- **Every call is served.** A call from a ready async frame selects an executor that accepts the
item and whose thread is free to run it. -/
theorem Ready.exists_submit {env : Env} {fr : Frame} {w : World} {loop : LoopId} (hwf : w.Wf)
    (hserved : Served env fr loop w) (threadSensitive : Bool) :
    ∃ selected ref t fr' w',
      Submitted env threadSensitive loop fr w selected ref t fr' w' := by
  cases threadSensitive with
  | false => exact ⟨.pool, .pool, w.nextThread, fr, w, rfl, rfl, .inl rfl, .refl w, hwf, rfl, rfl⟩
  | true =>
      unfold Served at hserved
      -- which executor is selected follows the order of the tests in the source
      split at hserved
      · rename_i e he
        have hfind : (e :: (w.executor e).oldExecutors).find?
            (fun e' => !(w.executor e').broken) = some e := by
          rw [List.find?_cons_of_pos (by simp [hserved.broken])]
        refine ⟨.currentThread e, .currentThread e, (w.executor e).workThread, fr, w, ?_, ?_,
          .inl rfl, .refl w, hwf, rfl, hserved.started, hserved.runningLoop, hserved.waitingIn⟩
        · simp only [SyncToAsync.selectExecutor, SyncToAsync.selectThreadSensitive, he, if_true]
        · simp only [SyncToAsync.submit, if_neg hserved.other.symm, hfind]
      · rename_i hnot
        have hselect : SyncToAsync.selectExecutor env true loop fr w
            = SyncToAsync.selectOutermost loop fr w := by
          simp only [SyncToAsync.selectExecutor, SyncToAsync.selectThreadSensitive, if_true]
        rw [SyncToAsync.selectOutermost] at hselect
        cases hv : (fr.context.lookup threadSensitiveContext).filter Value.truthy with
        | some v =>
            obtain ⟨hk, hwf', hreplies, htakes⟩ :=
              sensitiveWorker_spec (v := v) hwf hserved.sensitive
            exact ⟨_, _, _, _, _, by rw [hselect, hv], rfl, .inl rfl, hk, hwf', hreplies, htakes⟩
        | none =>
            simp only [hv, hserved.unregistered, hserved.deadlock] at hselect
            exact ⟨_, _, _, _, _, hselect, rfl, .inr rfl, { World.Keeps.refl w with },
              hwf.recorded _ _ _ _, rfl, hwf.single, hserved.single⟩

/-! ## Running an item -/

variable {env : Env} {loop : LoopId} {ref : ExecutorRef} {t : ThreadId} {w w' : World}

/-- The world in which the function starts: its thread has nothing else to do. -/
theorem Takes.start (env : Env) (loop : LoopId) (h : Takes ref t w) (hwf : w.Wf) :
    (SyncToAsync.startItem env loop ref t w).Wf ∧
      (SyncToAsync.startItem env loop ref t w).replies = w.replies ∧
      t < (SyncToAsync.startItem env loop ref t w).nextThread ∧
      (SyncToAsync.startItem env loop ref t w).runningLoop t = none ∧
      (SyncToAsync.startItem env loop ref t w).waitingIn t = none := by
  cases ref with
  | currentThread e =>
      refine ⟨⟨fun t' ht' => ?_, hwf.running, hwf.single, hwf.sensitive⟩, rfl, h.1, h.2.1,
        Function.update_self ..⟩
      have hrest := hwf.fresh t' ht'
      refine ⟨hrest.runningLoop, ?_, hrest.busy⟩
      have hne : t' ≠ t := fun heq => absurd (heq ▸ ht') (not_le.mpr h.1)
      exact (Function.update_of_ne hne _ _).trans hrest.waitingIn
  | worker t₀ =>
      refine ⟨⟨fun t' ht' => ?_, hwf.running, hwf.single, hwf.sensitive⟩, rfl, h.1, h.2.runningLoop,
        h.2.waitingIn⟩
      have hrest := hwf.fresh t' ht'
      refine ⟨hrest.runningLoop, hrest.waitingIn, ?_⟩
      have hne : t' ≠ t := fun heq => absurd (heq ▸ ht') (not_le.mpr h.1)
      exact (Function.update_of_ne hne _ _).trans hrest.busy
  | pool =>
      obtain rfl : t = w.nextThread := h
      have hrest := hwf.fresh w.nextThread le_rfl
      exact ⟨⟨fun t' ht' => hwf.fresh t' ((Nat.le_succ _).trans ht'), hwf.running,
        hwf.single.trans (Nat.lt_succ_self _), fun v t' ht' =>
        (hwf.sensitive v t' ht').trans (Nat.lt_succ_self _)⟩, rfl, Nat.lt_succ_self _,
        hrest.runningLoop, hrest.waitingIn⟩

/-- The world after the item: everything there was before it was submitted is as it was. -/
theorem Takes.finish (h : Takes ref t w) (hwf' : w'.Wf)
    (hk : (SyncToAsync.startItem env loop ref t w).Keeps w') :
    w.Keeps (SyncToAsync.endItem ref t w') ∧ (SyncToAsync.endItem ref t w').Wf := by
  cases ref with
  | currentThread e =>
      have ht : t < w'.nextThread := h.1.trans_le hk.nextThread
      refine ⟨{ hk with waitingIn := ?_, sensitive := ?_ },
        ⟨fun t' ht' => ?_, hwf'.running, hwf'.single, hwf'.sensitive⟩⟩
      · intro t' ht'
        -- the thread waits again in the executor that it had left for the item
        by_cases heq : t' = t
        · subst heq
          exact (Function.update_self ..).trans h.2.2.symm
        · refine (Function.update_of_ne heq _ _).trans ((hk.waitingIn t' ht').trans ?_)
          exact Function.update_of_ne heq _ _
      · intro v t' ht'
        rcases hk.sensitive v t' ht' with hold | ⟨hnew, hidle⟩
        · exact .inl hold
        · have hne : t' ≠ t := fun heq => absurd (heq ▸ hnew) (not_le.mpr h.1)
          exact .inr ⟨hnew, hidle.runningLoop,
            (Function.update_of_ne hne _ _).trans hidle.waitingIn, hidle.busy⟩
      · have hrest := hwf'.fresh t' ht'
        have hne : t' ≠ t := fun heq => absurd (heq ▸ ht') (not_le.mpr ht)
        exact ⟨hrest.runningLoop, (Function.update_of_ne hne _ _).trans hrest.waitingIn, hrest.busy⟩
  | worker t₀ =>
      have ht : t < w'.nextThread := h.1.trans_le hk.nextThread
      refine ⟨{ hk with busy := ?_, sensitive := ?_ },
        ⟨fun t' ht' => ?_, hwf'.running, hwf'.single, hwf'.sensitive⟩⟩
      · intro t' ht'
        -- the worker is idle again
        by_cases heq : t' = t
        · subst heq
          exact (Function.update_self ..).trans h.2.busy.symm
        · refine (Function.update_of_ne heq _ _).trans ((hk.busy t' ht').trans ?_)
          exact Function.update_of_ne heq _ _
      · intro v t' ht'
        rcases hk.sensitive v t' ht' with hold | ⟨hnew, hidle⟩
        · exact .inl hold
        · have hne : t' ≠ t := fun heq => absurd (heq ▸ hnew) (not_le.mpr h.1)
          exact .inr ⟨hnew, hidle.runningLoop, hidle.waitingIn,
            (Function.update_of_ne hne _ _).trans hidle.busy⟩
      · have hrest := hwf'.fresh t' ht'
        have hne : t' ≠ t := fun heq => absurd (heq ▸ ht') (not_le.mpr ht)
        exact ⟨hrest.runningLoop, hrest.waitingIn, (Function.update_of_ne hne _ _).trans hrest.busy⟩
  | pool =>
      -- the new thread was not there before the item
      have hle : w.nextThread ≤ w.nextThread + 1 := Nat.le_succ _
      refine ⟨{ hk with
        nextThread := hle.trans hk.nextThread
        runningLoop := fun t' ht' => hk.runningLoop t' (ht'.trans_le hle)
        waitingIn := fun t' ht' => hk.waitingIn t' (ht'.trans_le hle)
        busy := fun t' ht' => hk.busy t' (ht'.trans_le hle)
        sensitive := fun v t' ht' => ?_ }, hwf'⟩
      exact (hk.sensitive v t' ht').imp id fun hnew => ⟨hle.trans hnew.1, hnew.2⟩

/-! ## Waiting in a call -/

theorem enter_wf (oldExecutor : Obj) (hwf : w.Wf) (ht : t < w.nextThread) :
    (AsyncToSync.enter t oldExecutor w).Wf := by
  refine ⟨fun t' ht' => ?_, hwf.running, hwf.single, hwf.sensitive⟩
  have hne : t' ≠ t := fun heq => absurd (heq ▸ ht') (not_le.mpr ht)
  obtain ⟨hrunning, hwaiting, hbusy⟩ := hwf.fresh t' ht'
  exact ⟨hrunning, (Function.update_of_ne hne _ _).trans hwaiting, hbusy⟩

/-- The executor of a call waits in the caller's thread. -/
theorem enter_waits (oldExecutor : Obj) (ht : t < w.nextThread) (hloop : w.runningLoop t = none)
    {t' : ThreadId} (hne : t ≠ t') :
    Waits w.nextExecutor t' (AsyncToSync.enter t oldExecutor w) := by
  have hexec : (AsyncToSync.enter t oldExecutor w).executor w.nextExecutor
      = ⟨t, false, w.chain oldExecutor⟩ := Function.update_self ..
  refine ⟨Nat.lt_succ_self _, ?_, ?_, ?_, ?_, ?_⟩ <;> rw [hexec]
  · exact hne
  · exact ht
  · exact Function.update_self ..
  · exact hloop

/-- After the call the thread is out of its wait, and nothing from before it has changed. -/
theorem quit_keeps {oldExecutor : Obj} (ht : t < w.nextThread) (hwait : w.waitingIn t = none)
    (hk : (AsyncToSync.enter t oldExecutor w).Keeps w') (hwf' : w'.Wf) :
    w.Keeps (AsyncToSync.quit w.nextExecutor t w') ∧
      (AsyncToSync.quit w.nextExecutor t w').Wf := by
  constructor
  · refine { hk with
      nextExecutor := (Nat.le_succ _).trans hk.nextExecutor
      waitingIn := fun t' ht' => ?_
      executor := fun e he => ?_
      sensitive := fun v t' ht' => ?_ }
    · by_cases heq : t' = t
      · subst heq
        exact (Function.update_self ..).trans hwait.symm
      · refine (Function.update_of_ne heq _ _).trans ((hk.waitingIn t' ht').trans ?_)
        exact Function.update_of_ne heq _ _
    · have hne : e ≠ w.nextExecutor := he.ne
      refine (Function.update_of_ne hne _ _).trans
        ((hk.executor e (he.trans (Nat.lt_succ_self _))).trans ?_)
      exact Function.update_of_ne hne _ _
    · rcases hk.sensitive v t' ht' with hold | ⟨hnew, hrunning, hwaiting, hbusy⟩
      · exact .inl hold
      · have hne : t' ≠ t := fun heq => absurd (heq ▸ hnew) (not_le.mpr ht)
        exact .inr ⟨hnew, hrunning, (Function.update_of_ne hne _ _).trans hwaiting, hbusy⟩
  · refine ⟨fun t' ht' => ?_, hwf'.running, hwf'.single, hwf'.sensitive⟩
    have hlt : t < w'.nextThread := ht.trans_le hk.nextThread
    have hne : t' ≠ t := fun heq => absurd (heq ▸ ht') (not_le.mpr hlt)
    obtain ⟨hrunning, hwaiting, hbusy⟩ := hwf'.fresh t' ht'
    exact ⟨hrunning, (Function.update_of_ne hne _ _).trans hwaiting, hbusy⟩

theorem startLoop_wf (e : ExecId) (hwf : w.Wf) : (AsyncToSync.startLoop e w).Wf := by
  refine ⟨fun t' ht' => ?_, fun t' l' hl' => ?_, hwf.single.trans (Nat.lt_succ_self _),
    fun v t' ht' => (hwf.sensitive v t' ht').trans (Nat.lt_succ_self _)⟩
  · have hne : t' ≠ w.nextThread := Nat.ne_of_gt ht'
    obtain ⟨hrunning, hwaiting, hbusy⟩ := hwf.fresh t' (Nat.le_of_lt ht')
    exact ⟨(Function.update_of_ne hne _ _).trans hrunning, hwaiting, hbusy⟩
  -- only the new loop has the number that is taken now
  · by_cases heq : t' = w.nextThread
    · subst heq
      have hnew : (AsyncToSync.startLoop e w).runningLoop w.nextThread = some w.nextLoop :=
        Function.update_self ..
      rw [hnew] at hl'
      cases hl'
      exact Nat.lt_succ_self _
    · have hold : w.runningLoop t' = some l' := (Function.update_of_ne heq _ _).symm.trans hl'
      exact (hwf.running t' l' hold).trans (Nat.lt_succ_self _)

/-- A loop that started and stopped leaves everything from before it as it was. -/
theorem stopLoop_keeps {e : ExecId} (hk : (AsyncToSync.startLoop e w).Keeps w') (hwf' : w'.Wf) :
    w.Keeps (AsyncToSync.stopLoop w.nextThread w.nextLoop w') ∧
      (AsyncToSync.stopLoop w.nextThread w.nextLoop w').Wf := by
  have hstarted : w.nextThread < w'.nextThread := hk.nextThread
  constructor
  · refine { hk with
      nextThread := Nat.le_of_lt hstarted
      nextLoop := (Nat.le_succ _).trans hk.nextLoop
      runningLoop := fun t' ht' => ?_
      waitingIn := fun t' ht' => hk.waitingIn t' (ht'.trans (Nat.lt_succ_self _))
      busy := fun t' ht' => hk.busy t' (ht'.trans (Nat.lt_succ_self _))
      loopThreadExecutors := fun l' hl' => ?_
      sensitive := fun v t' ht' => ?_ }
    · refine (Function.update_of_ne ht'.ne _ _).trans
        ((hk.runningLoop t' (ht'.trans (Nat.lt_succ_self _))).trans ?_)
      exact Function.update_of_ne ht'.ne _ _
    · refine (Function.update_of_ne hl'.ne _ _).trans
        ((hk.loopThreadExecutors l' (hl'.trans (Nat.lt_succ_self _))).trans ?_)
      exact Function.update_of_ne hl'.ne _ _
    · rcases hk.sensitive v t' ht' with hold | ⟨hnew, hrunning, hwaiting, hbusy⟩
      · exact .inl hold
      · have hne : t' ≠ w.nextThread := Nat.ne_of_gt hnew
        exact .inr ⟨Nat.le_of_lt hnew, (Function.update_of_ne hne _ _).trans hrunning, hwaiting,
          hbusy⟩
  · refine ⟨fun t' ht' => ?_, fun t' l' hl' => ?_, hwf'.single, hwf'.sensitive⟩
    · have hne : t' ≠ w.nextThread := Nat.ne_of_gt (hstarted.trans_le ht')
      obtain ⟨hrunning, hwaiting, hbusy⟩ := hwf'.fresh t' ht'
      exact ⟨(Function.update_of_ne hne _ _).trans hrunning, hwaiting, hbusy⟩
    · by_cases heq : t' = w.nextThread
      · subst heq
        have hnone : (AsyncToSync.stopLoop w.nextThread w.nextLoop w').runningLoop w.nextThread
            = none := Function.update_self ..
        rw [hnone] at hl'
        cases hl'
      · exact hwf'.running t' l' ((Function.update_of_ne heq _ _).symm.trans hl')

end Asgiref
