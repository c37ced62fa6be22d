import Mathlib.Order.Basic
import Asgiref.Bridge.Agreement

/-! # A rule for invariants of frames

Frames get their contexts from one another: by copies, by merges, and by what the calls do to
asgiref's own variables. This file says once what the calls can do to a frame and to the world, and
turns it into an induction rule for properties of all frames of a run.

* **`Outcome.Holds`** — a postcondition, with **`Outcome.Holds.bind`** for sequencing.
* **`Selects`** — what the selection of an executor can do, with **`selects`**.
* **`FrameInvariant`** — what a property `I` of frames and a property `J` of the world have to
  survive, and **`FrameInvariant.run`**: then they hold throughout every run. -/

namespace Asgiref

/-- The outcome satisfies `Q` if the run is done, and `S` if it is stuck. -/
def Outcome.Holds (Q : Result → Frame → World → Prop) (S : Stuck → World → Prop) : Outcome → Prop
  | .done r fr w => Q r fr w
  | .stuck why w => S why w

/-- **Sequencing.** -/
theorem Outcome.Holds.bind {Q R : Result → Frame → World → Prop} {S : Stuck → World → Prop}
    {o : Outcome} {next : Result → Body} (h : o.Holds R S)
    (hnext : ∀ r fr w, R r fr w → (next r fr w).Holds Q S) : (o.bind next).Holds Q S := by
  cases o with
  | done r fr w => exact hnext r fr w h
  | stuck why w => exact h

theorem Outcome.Holds.mono {Q Q' : Result → Frame → World → Prop} {S : Stuck → World → Prop}
    {o : Outcome} (h : o.Holds Q S) (himp : ∀ r fr w, Q r fr w → Q' r fr w) : o.Holds Q' S := by
  cases o with
  | done r fr w => exact himp r fr w h
  | stuck why w => exact h

/-- The worlds differ in loops, waiting threads and `CurrentThreadExecutor`s only, and in contexts
that were restored. -/
structure World.SameWork (w w' : World) : Prop where
  nextThread : w.nextThread ≤ w'.nextThread
  contextToThreadExecutor : w'.contextToThreadExecutor = w.contextToThreadExecutor
  busy : w'.busy = w.busy
  points : w'.points = w.points
  guards : w'.guards = w.guards
  crossings : w.crossings <+: w'.crossings

/-- The frame is on its thread still, and what its context is made of has not become better. -/
structure Frame.Follows (fr fr' : Frame) : Prop where
  thread : fr'.thread = fr.thread
  inherited : fr'.inherited = fr.inherited
  clean : fr'.clean = true → fr.clean = true

theorem Frame.Follows.refl (fr : Frame) : fr.Follows fr := ⟨rfl, rfl, id⟩

theorem Frame.Follows.trans {fr fr' fr'' : Frame} (h : fr.Follows fr') (h' : fr'.Follows fr'') :
    fr.Follows fr'' :=
  ⟨h'.thread.trans h.thread, h'.inherited.trans h.inherited,
    fun hclean => h.clean (h'.clean hclean)⟩

namespace SyncToAsync

/-- What a selection does: the executor or exception, the frame and the world it leaves. -/
inductive Selects (fr : Frame) (w : World) : Except PyError ExecutorRef → Frame → World → Prop
  | pool : Selects fr w (.ok .pool) fr w
  | current (e : ExecId) : Selects fr w (.ok (.currentThread e)) fr w
  | sensitive (v : Value) :
      Selects fr w (.ok (.worker (sensitiveWorker v w).1)) fr (sensitiveWorker v w).2
  | guarded (error : PyError) (h : deadlockFlag fr.context = true) :
      Selects fr w (.error error) fr { w with guards := w.guards ++ [⟨fr.clean, true⟩] }
  | single (h : deadlockFlag fr.context = false) :
      Selects fr w (.ok (.worker singleThread)) { fr with context := setDeadlock fr.context true }
        { w with guards := w.guards ++ [⟨fr.clean, false⟩] }

theorem selects (env : Env) (threadSensitive : Bool) (loop : LoopId) (fr : Frame) (w : World) :
    Selects fr w (selectExecutor env threadSensitive loop fr w).1
      (selectExecutor env threadSensitive loop fr w).2.1
      (selectExecutor env threadSensitive loop fr w).2.2 := by
  unfold selectExecutor
  cases threadSensitive with
  | false => exact .pool
  | true =>
      rw [if_pos rfl]
      unfold selectThreadSensitive
      split
      · exact .current _
      · unfold selectOutermost
        split
        · exact .sensitive _
        · split
          · exact .current _
          · cases hflag : deadlockFlag fr.context with
            | true => exact .guarded _ hflag
            | false => exact .single hflag

theorem Selects.follows {fr fr' : Frame} {w w' : World} {r : Except PyError ExecutorRef}
    (h : Selects fr w r fr' w') : fr.Follows fr' := by
  cases h <;> exact ⟨rfl, rfl, id⟩

end SyncToAsync

open SyncToAsync in
/-- What a property `I` of frames and a property `J` of the world have to survive to hold throughout
a run; `S` is what is known where a run gets stuck. -/
structure FrameInvariant (env : Env) (allowed : Op → Prop) (I : Frame → Prop) (J : World → Prop)
    (S : Stuck → World → Prop) : Prop where
  same : ∀ w w', w.SameWork w' → J w → J w'
  visit : ∀ fr w, I fr → J w → J (w.visit fr)
  op : ∀ o fr, allowed o → I fr →
    I { fr with toScope := (o.apply (env.getIdent fr.thread) fr.toScope).2 }
  /-- A frame that starts in the context of its parent, on the same thread. -/
  fresh : ∀ fr, I fr → I { fr with tokens := [] }
  caller : ∀ e fr, I fr → I (AsyncToSync.callerFrame env e fr)
  awaitable : ∀ caller base t c, I caller → base = caller.context ∨ base = ∅ →
    restoreContext env.ne (env.getIdent t) base caller.context = (c, none) →
    I { caller with context := c, tokens := [], thread := t }
  unresolved : ∀ e w, J w → S (.restoreRaised e) w
  captured : ∀ caller captured c old, I caller → I captured →
    captured.inherited = caller.inherited → (captured.clean = true → caller.clean = true) →
    restoreContext env.ne (env.getIdent caller.thread) caller.context captured.context = (c, none) →
    I { caller with
      context := Local.setattr (env.getIdent caller.thread) c executors "current" old
      clean := captured.clean }
  capturedRaised : ∀ caller captured c e, I caller → I captured →
    captured.inherited = caller.inherited →
    restoreContext env.ne (env.getIdent caller.thread) caller.context captured.context =
      (c, some e) →
    I { caller with context := c, clean := caller.clean && captured.clean }
  selects : ∀ fr w r fr' w', Selects fr w r fr' w' → I fr → J w → I fr' ∧ J w'
  deadlock : ∀ fr w selected fr' w' ref t, Selects fr w (.ok selected) fr' w' → I fr → J w →
    submit fr'.thread w' selected = .ok (ref, t) → serves ref t w' = false → S (.deadlock ref) w'
  start : ∀ loop ref t w, serves ref t w = true → J w → J (startItem env loop ref t w)
  stop : ∀ ref t w w', serves ref t w = true → J w → J w' → J (endItem ref t w')
  function : ∀ fr w selected fr' w' ref t custom, Selects fr w (.ok selected) fr' w' → I fr → J w →
    submit fr'.thread w' selected = .ok (ref, t) → I (childFrame custom ref t fr')
  entered : ∀ fr, I fr →
    I { fr with
      context := (restoreContext env.ne (env.getIdent fr.thread) fr.context fr.context).1 }
  returned : ∀ fr child c, I fr → I child → child.inherited = fr.inherited →
    restoreContext env.ne (env.getIdent fr.thread) fr.context child.context = (c, none) →
    I { fr with context := setDeadlock c false, clean := false }
  returnedRaised : ∀ fr child c e, I fr → I child → child.inherited = fr.inherited →
    restoreContext env.ne (env.getIdent fr.thread) fr.context child.context = (c, some e) →
    I { fr with context := c, clean := fr.clean && child.clean }
  returnedCustom : ∀ fr, I fr →
    I { fr with context := setDeadlock fr.context false, clean := false }

namespace FrameInvariant

variable {env : Env} {allowed : Op → Prop} {I : Frame → Prop} {J : World → Prop}
  {S : Stuck → World → Prop} {side : Side}

/-- What the rule shows of a call or a program that starts in frame `fr`. -/
def Kept (I : Frame → Prop) (J : World → Prop) (S : Stuck → World → Prop) (fr : Frame)
    (o : Outcome) : Prop :=
  o.Holds (fun _ fr' w' => I fr' ∧ J w' ∧ fr.Follows fr') S

/-- Code that keeps the two properties from wherever they hold. -/
def Keeps (I : Frame → Prop) (J : World → Prop) (S : Stuck → World → Prop) (body : Body) : Prop :=
  ∀ fr w, I fr → J w → Kept I J S fr (body fr w)

theorem Keeps.bind {body : Body} {next : Result → Body} (h : Keeps I J S body)
    (hnext : ∀ r, Keeps I J S (next r)) : Keeps I J S fun fr w => (body fr w).bind next := by
  intro fr w hI hJ
  refine (h fr w hI hJ).bind fun r fr' w' ⟨hI', hJ', hfollows⟩ => ?_
  exact (hnext r fr' w' hI' hJ').mono fun _ fr'' w'' ⟨hI'', hJ'', hfollows'⟩ =>
    ⟨hI'', hJ'', hfollows.trans hfollows'⟩

theorem sameWork_enter (t : ThreadId) (old : Obj) (w : World) :
    w.SameWork (AsyncToSync.enter t old w) := ⟨le_rfl, rfl, rfl, rfl, rfl, List.prefix_rfl⟩

theorem sameWork_startLoop (e : ExecId) (w : World) :
    w.SameWork (AsyncToSync.startLoop e w) := ⟨Nat.le_succ _, rfl, rfl, rfl, rfl, List.prefix_rfl⟩

theorem sameWork_stopLoop (t : ThreadId) (loop : LoopId) (w : World) :
    w.SameWork (AsyncToSync.stopLoop t loop w) := ⟨le_rfl, rfl, rfl, rfl, rfl, List.prefix_rfl⟩

theorem sameWork_quit (e : ExecId) (t : ThreadId) (w : World) :
    w.SameWork (AsyncToSync.quit e t w) := ⟨le_rfl, rfl, rfl, rfl, rfl, List.prefix_rfl⟩

theorem sameWork_cross (moved current : Context) (w : World) :
    w.SameWork (w.cross moved current) := ⟨le_rfl, rfl, rfl, rfl, rfl, List.prefix_append ..⟩

/-- `main_wrap` on either loop, seen from the caller that waits for it. -/
theorem dispatch (inv : FrameInvariant env allowed I J S) {awaitable : Body}
    (h : Keeps I J S awaitable) (forceNewLoop : Bool) (e : ExecId) {caller : Frame} {w : World}
    (hI : I caller) (hJ : J w) :
    (AsyncToSync.dispatch env forceNewLoop awaitable e caller w).Holds
      (fun _ captured w' => I captured ∧ J w' ∧ captured.inherited = caller.inherited ∧
        (captured.clean = true → caller.clean = true)) S := by
  unfold AsyncToSync.dispatch
  split
  -- on the parent loop
  · have hJ₁ := inv.same _ _ (sameWork_cross caller.context caller.context w) hJ
    unfold AsyncToSync.mainWrap
    dsimp only
    split
    · rename_i loop _ c hrestore
      refine (h _ _ (inv.awaitable _ _ _ _ hI (.inl rfl) hrestore) hJ₁).mono ?_
      exact fun _ captured w' ⟨hI', hJ', hfollows⟩ =>
        ⟨hI', hJ', hfollows.inherited, hfollows.clean⟩
    · exact inv.unresolved _ _ hJ₁
  -- on a new loop
  · have hJ₁ := inv.same _ _ (sameWork_startLoop e w) hJ
    have hbase : (if env.threadInheritContext then caller.context else ∅) = caller.context ∨
        (if env.threadInheritContext then caller.context else ∅) = ∅ := by
      cases env.threadInheritContext with
      | true => exact .inl rfl
      | false => exact .inr rfl
    refine Outcome.Holds.bind (R := fun _ captured w' => I captured ∧ J w' ∧
      captured.inherited = caller.inherited ∧ (captured.clean = true → caller.clean = true)) ?_
      fun r captured w' ⟨hI', hJ', hrest⟩ =>
        ⟨hI', inv.same _ _ (sameWork_stopLoop _ _ w') hJ', hrest⟩
    generalize (if env.threadInheritContext then caller.context else ∅) = base at hbase ⊢
    have hJ₂ := inv.same _ _ (sameWork_cross caller.context base _) hJ₁
    unfold AsyncToSync.mainWrap
    dsimp only
    split
    · rename_i c hrestore
      refine (h _ _ (inv.awaitable _ _ _ _ hI hbase hrestore) hJ₂).mono ?_
      exact fun _ captured w' ⟨hI', hJ', hfollows⟩ =>
        ⟨hI', hJ', hfollows.inherited, hfollows.clean⟩
    · exact ⟨hI, hJ₂, rfl, id⟩

/-- `async_to_sync` keeps the properties. -/
theorem asyncToSync (inv : FrameInvariant env allowed I J S) {awaitable : Body}
    (h : Keeps I J S awaitable) (forceNewLoop : Bool) :
    Keeps I J S (AsyncToSync.call env forceNewLoop awaitable) := by
  intro fr w hI hJ
  unfold AsyncToSync.call
  split
  · exact ⟨hI, hJ, .refl fr⟩
  · have hcaller := inv.caller w.nextExecutor fr hI
    have hJ₁ := inv.same _ _
      (sameWork_enter fr.thread (currentExecutor (env.getIdent fr.thread) fr.context) w) hJ
    refine (inv.dispatch h forceNewLoop w.nextExecutor hcaller hJ₁).bind
      fun r captured w' ⟨hI', hJ', hinherited, hclean⟩ => ?_
    have hJ₂ := inv.same _ _ (sameWork_cross captured.context
      (AsyncToSync.callerFrame env w.nextExecutor fr).context w') hJ'
    have hJ₃ := inv.same _ _ (sameWork_quit w.nextExecutor fr.thread _) hJ₂
    -- the `finally`, whether restoring raises or not
    unfold AsyncToSync.leave
    dsimp only
    split
    · rename_i c hrestore
      exact ⟨inv.captured _ _ _ _ hcaller hI' hinherited hclean hrestore, hJ₃, rfl, rfl, hclean⟩
    · rename_i c error hrestore
      refine ⟨inv.capturedRaised _ _ _ _ hcaller hI' hinherited hrestore, hJ₃, rfl, rfl, ?_⟩
      exact fun hand => (Bool.and_eq_true_iff.mp hand).1

/-- A function that a thread has taken, seen from the call that waits for it. -/
theorem item (inv : FrameInvariant env allowed I J S) {func : Body} (h : Keeps I J S func)
    (custom : Option Context) {fr : Frame} {w w₁ : World} {ref : ExecutorRef} {t : ThreadId}
    (hI : I fr) (hJ : J w) (hserves : SyncToAsync.serves ref t w = true)
    (hchild : I (SyncToAsync.childFrame custom ref t fr)) (hJ₁ : J w₁) :
    ((SyncToAsync.threadHandler env func (SyncToAsync.childFrame custom ref t fr) w₁).bind
        fun r child w' => SyncToAsync.leave env custom r child fr
          (SyncToAsync.endItem ref t w')).Holds
      (fun _ fr' w' => I fr' ∧ J w' ∧ fr.Follows fr') S := by
  refine Outcome.Holds.bind (R := fun _ child w' => I child ∧ J w' ∧
    child.inherited = (fr.inherited && custom.isNone)) ?_
    fun r child w' ⟨hI', hJ', hinherited⟩ => ?_
  · have hentered := inv.entered _ hchild
    have hJ₂ := inv.same _ _ (sameWork_cross (SyncToAsync.childFrame custom ref t fr).context
      (SyncToAsync.childFrame custom ref t fr).context w₁) hJ₁
    unfold SyncToAsync.threadHandler
    dsimp only
    split
    · rename_i c hrestore
      rw [hrestore] at hentered
      exact (h _ _ hentered hJ₂).mono fun _ child w' ⟨hI', hJ', hfollows⟩ =>
        ⟨hI', hJ', hfollows.inherited⟩
    · rename_i c e hrestore
      rw [hrestore] at hentered
      exact ⟨hentered, hJ₂, rfl⟩
  · have hJ₂ := inv.stop ref t w w' hserves hJ hJ'
    cases custom with
    | some custom => exact ⟨inv.returnedCustom fr hI, hJ₂, rfl, rfl, by simp⟩
    | none =>
        have hinherited' : child.inherited = fr.inherited := by simpa using hinherited
        have hJ₃ := inv.same _ _ (sameWork_cross child.context fr.context _) hJ₂
        -- the `finally`, whether restoring raises or not
        unfold SyncToAsync.leave
        dsimp only
        split
        · rename_i c hrestore
          exact ⟨inv.returned _ _ _ hI hI' hinherited' hrestore, hJ₃, rfl, rfl, by simp⟩
        · rename_i c e hrestore
          refine ⟨inv.returnedRaised _ _ _ _ hI hI' hinherited' hrestore, hJ₃, rfl, rfl, ?_⟩
          exact fun hand => (Bool.and_eq_true_iff.mp hand).1

/-- `sync_to_async` keeps the properties. -/
theorem syncToAsync (inv : FrameInvariant env allowed I J S) {func : Body} (h : Keeps I J S func)
    (threadSensitive : Bool) (custom : Option Context) :
    Keeps I J S (SyncToAsync.call env threadSensitive custom func) := by
  intro fr w hI hJ
  unfold SyncToAsync.call
  split
  · exact ⟨hI, hJ, .refl fr⟩
  · rename_i loop _
    have hsel := SyncToAsync.selects env threadSensitive loop fr w
    split
    · rename_i error fr' w' hselect
      rw [hselect] at hsel
      have hkept := inv.selects _ _ _ _ _ hsel hI hJ
      exact ⟨hkept.1, hkept.2, hsel.follows⟩
    · rename_i selected fr' w' hselect
      rw [hselect] at hsel
      obtain ⟨hI', hJ'⟩ := inv.selects _ _ _ _ _ hsel hI hJ
      split
      · exact ⟨hI', hJ', hsel.follows⟩
      · rename_i ref t hsubmit
        split
        · rename_i hserves
          have hchild := inv.function _ _ _ _ _ _ _ custom hsel hI hJ hsubmit
          exact (inv.item h custom hI' hJ' hserves hchild
            (inv.start loop ref t w' hserves hJ')).mono fun _ fr'' w'' ⟨hI'', hJ'', hfollows⟩ =>
              ⟨hI'', hJ'', hsel.follows.trans hfollows⟩
        · rename_i hserves
          exact inv.deadlock _ _ _ _ _ _ _ hsel hI hJ hsubmit (by simpa using hserves)

/-- `asyncio.run` keeps the properties. -/
theorem asyncioRun (inv : FrameInvariant env allowed I J S) {main : Body} (h : Keeps I J S main) :
    Keeps I J S (Asgiref.asyncioRun main) := by
  intro fr w hI hJ
  unfold Asgiref.asyncioRun
  split
  · exact ⟨hI, hJ, .refl fr⟩
  · refine (h _ _ (inv.fresh fr hI) (inv.same w _ ?_ hJ)).bind fun r fr' w' ⟨_, hJ', _⟩ => ?_
    · exact ⟨le_rfl, rfl, rfl, rfl, rfl, List.prefix_rfl⟩
    · exact ⟨hI, inv.same w' _ ⟨le_rfl, rfl, rfl, rfl, rfl, List.prefix_rfl⟩ hJ', .refl fr⟩

/-- An awaited task keeps the properties. -/
theorem task (inv : FrameInvariant env allowed I J S) {coro : Body} (h : Keeps I J S coro) :
    Keeps I J S (Asgiref.task coro) := fun fr w hI hJ =>
  (h _ w (inv.fresh fr hI) hJ).bind fun _ _ _ ⟨_, hJ', _⟩ => ⟨hI, hJ', .refl fr⟩

/-- A point of the program. -/
theorem Keeps.visit (inv : FrameInvariant env allowed I J S) {body : Body} (h : Keeps I J S body) :
    Keeps I J S fun fr w => body fr (w.visit fr) :=
  fun fr w hI hJ => h fr _ hI (inv.visit fr w hI hJ)

/-- **The rule.** The properties hold throughout the run of every program whose operations are
allowed. -/
theorem run (inv : FrameInvariant env allowed I J S) (p : Prog side) (hp : p.AllOps allowed) :
    Keeps I J S (p.run env) := by
  induction p with
  | finish r => exact Keeps.visit inv fun fr w hI hJ => ⟨hI, hJ, .refl fr⟩
  | op o next ih =>
      intro fr w hI hJ
      have hJ' := inv.same (w.visit fr) (opStep env o fr (w.visit fr)).2.2
        ⟨le_rfl, rfl, rfl, rfl, rfl, List.prefix_rfl⟩ (inv.visit fr w hI hJ)
      exact (ih _ (hp.2 _) _ _ (inv.op o fr hp.1 hI) hJ').mono
        fun _ fr' w' ⟨hI', hJ'', hfollows⟩ =>
          ⟨hI', hJ'', hfollows.thread, hfollows.inherited, hfollows.clean⟩
  | asyncToSync forceNewLoop child next ihChild ihNext =>
      exact Keeps.visit inv ((inv.asyncToSync (ihChild hp.1) forceNewLoop).bind
        fun r => ihNext r (hp.2 r))
  | asyncioRun child next ihChild ihNext =>
      exact Keeps.visit inv ((inv.asyncioRun (ihChild hp.1)).bind fun r => ihNext r (hp.2 r))
  | syncToAsync threadSensitive custom child next ihChild ihNext =>
      exact Keeps.visit inv ((inv.syncToAsync (ihChild hp.1) threadSensitive custom).bind
        fun r => ihNext r (hp.2 r))
  | task child next ihChild ihNext =>
      exact Keeps.visit inv ((inv.task (ihChild hp.1)).bind fun r => ihNext r (hp.2 r))

end FrameInvariant

end Asgiref
