import Asgiref.Bridge.Readiness
import Asgiref.Bridge.Crossings

/-! # Bridging is transparent to context

A program of nested frames, run across the two bridges, does what it does inline in one context on
one thread. The proof is a simulation, by induction on the program:

* **`Sim`** — a bridged frame that stands where an inline frame does, ready to go on.
* **`Simulates`** — from every such frame a piece of bridged code runs to its end, and ends as the
  inline run does.
* **`Simulates.crossed`** — a child frame across a bridge simulates the inline child;
  **`simulates_asyncToSync`**, **`simulates_syncToAsync`** and **`simulates_task`** are the calls.
* **`simulates_run`** — every program simulates its inline run, provided that no context which the
  bridged run restores holds a tuple in a foreign variable of the name `cvarName`, or sets a
  variable to its default.
* **`Transparent`** — what this means for the outermost frame: **`run_transparent`**. -/

namespace Asgiref

open Local

/-- A bridged frame that stands where an inline frame with this scope does. `D` are the variables
that were set when the frame began. -/
structure Sim (env : Env) (D : ContextVar → Prop) (i₀ : Nat) (side : Side) (fr : Frame) (w : World)
    (s : Scope) : Prop where
  scope : ScopeAgree D (env.getIdent fr.thread) fr.toScope i₀ s
  wf : w.Wf
  ready : Ready env side fr w

/-- The frame went on to the ending of the inline frame, and nothing outside it has changed. -/
structure Evolves (env : Env) (D : ContextVar → Prop) (i₀ : Nat) (fr : Frame) (w : World)
    (e : Ending) (fr' : Frame) (w' : World) : Prop where
  scope : ScopeAgree D (env.getIdent fr.thread) fr'.toScope i₀ e.scope
  thread : fr'.thread = fr.thread
  wf : w'.Wf
  keeps : w.Keeps w'
  current : currentExecutor (env.getIdent fr.thread) fr'.context
    = currentExecutor (env.getIdent fr.thread) fr.context
  deadlock : deadlockFlag fr'.context = false ∨
    deadlockFlag fr'.context = deadlockFlag fr.context
  replies : w'.replies = w.replies ++ e.replies

/-- From every frame that stands where the inline frame does, the code runs to its end, and ends as
the inline frame does, if nothing out of the ordinary is restored. -/
def Simulates (env : Env) (i₀ : Nat) (side : Side) (body : Body) (s : Scope) (e : Ending) : Prop :=
  ∀ D fr w, Sim env D i₀ side fr w s → w.PlainSince (body fr w).world →
    ∃ fr' w', body fr w = .done e.result fr' w' ∧ Evolves env D i₀ fr w e fr' w'

variable {env : Env} {D : ContextVar → Prop} {i₀ : Nat} {side : Side}

/-- The frame can go on from where it is. -/
theorem Evolves.sim {fr fr' : Frame} {w w' : World} {s : Scope} {e : Ending}
    (h : Evolves env D i₀ fr w e fr' w') (hsim : Sim env D i₀ side fr w s) :
    Sim env D i₀ side fr' w' e.scope where
  scope := by rw [h.thread]; exact h.scope
  wf := h.wf
  ready := hsim.ready.keeps hsim.wf h.keeps h.thread h.current h.deadlock

theorem Evolves.trans {fr fr' fr'' : Frame} {w w' w'' : World} {e e' : Ending}
    (h : Evolves env D i₀ fr w e fr' w') (h' : Evolves env D i₀ fr' w' e' fr'' w'') :
    Evolves env D i₀ fr w (e'.after e.replies) fr'' w'' where
  scope := by
    have hscope := h'.scope
    rwa [h.thread] at hscope
  thread := h'.thread.trans h.thread
  wf := h'.wf
  keeps := h.keeps.trans h.wf h'.keeps
  current := by
    have hcurrent := h'.current
    rw [h.thread] at hcurrent
    exact hcurrent.trans h.current
  deadlock := by
    rcases h'.deadlock with hdown | heq
    · exact .inl hdown
    · rw [heq]
      exact h.deadlock
  replies := by rw [h'.replies, h.replies, List.append_assoc]; rfl

/-- **Sequencing.** Code that simulates an inline run, followed by code that simulates the rest. -/
theorem Simulates.bind {body : Body} {next : Result → Body} {s : Scope} {e e' : Ending}
    (h : Simulates env i₀ side body s e) (hbody : Grows body) (hnext : ∀ r, Grows (next r))
    (h' : Simulates env i₀ side (next e.result) e.scope e') :
    Simulates env i₀ side (fun fr w => (body fr w).bind next) s (e'.after e.replies) := by
  intro D fr w hsim hsince
  obtain ⟨hfirst, hlast⟩ := hsince.split (hbody.world fr w)
    ((body fr w).bind_crossings fun r => (hnext r).world)
  obtain ⟨fr₁, w₁, hdone, hev⟩ := h D fr w hsim hfirst
  simp only [hdone, Outcome.bind_done] at hlast ⊢
  obtain ⟨fr₂, w₂, hnext, hev'⟩ := h' D fr₁ w₁ (hev.sim hsim) hlast
  exact ⟨fr₂, w₂, hnext, hev.trans hev'⟩

/-! ## Crossings -/

/-- A child frame came to its end across a bridge. `context` is what was taken there, from a thread
with ident `j`. -/
structure Returned (env : Env) (i₀ j : Nat) (context : Context) (e : Ending) (w : World)
    (child : Frame) (w' : World) : Prop where
  scope : ScopeAgree (fun x => (context.lookup x).isSome) (env.getIdent child.thread) child.toScope
    i₀ e.scope
  current : currentExecutor (env.getIdent child.thread) child.context = currentExecutor j context
  deadlock : deadlockFlag child.context = false ∨
    deadlockFlag child.context = deadlockFlag context
  wf : w'.Wf
  keeps : w.Keeps w'
  replies : w'.replies = w.replies ++ e.replies

/-- **There.** A context is restored, and a child frame that starts in it runs to its end as the
inline child does. -/
theorem Simulates.crossed (hne : env.ne.Lawful) {child : Body} {d base context : Context}
    {e : Ending} {j : Nat} (start : Frame) {w : World}
    (h : Simulates env i₀ side child ⟨d, []⟩ e) (hagree : Agree j context i₀ d)
    (hplain : Crossing.Plain ⟨context, base⟩) (hcovers : Covers context base)
    (htokens : start.tokens = []) (hwf : w.Wf)
    (hready : ∀ c, Moved (env.getIdent start.thread) context c →
      Ready env side { start with context := c } (w.cross context base))
    (hsince : ∀ c, restoreContext env.ne (env.getIdent start.thread) base context = (c, none) →
      (w.cross context base).PlainSince
        (child { start with context := c } (w.cross context base)).world) :
    ∃ c, restoreContext env.ne (env.getIdent start.thread) base context = (c, none) ∧
      ∃ fr w', child { start with context := c } (w.cross context base) = .done e.result fr w' ∧
        Returned env i₀ j context e w fr w' := by
  obtain ⟨c, hrestore, hmoved⟩ :=
    exists_restoreContext hne (env.getIdent start.thread) hcovers hplain
  have hscope : ScopeAgree (fun x => (context.lookup x).isSome) (env.getIdent start.thread)
      ⟨c, start.tokens⟩ i₀ ⟨d, []⟩ :=
    ⟨hagree.moved hmoved, htokens, by simp [htokens], hmoved.covers⟩
  have hwf' : (w.cross context base).Wf := hwf.recorded _ _ _ _
  obtain ⟨fr, w', hchild, hev⟩ :=
    h _ { start with context := c } _ ⟨hscope, hwf', hready c hmoved⟩ (hsince c hrestore)
  have hthread : fr.thread = start.thread := hev.thread
  refine ⟨c, hrestore, fr, w', hchild, ?_, ?_, ?_, hev.wf, { hev.keeps with }, hev.replies⟩
  · rw [hthread]
    exact hev.scope
  · rw [hthread]
    exact hev.current.trans (hmoved.currentExecutor hagree.owned)
  · rw [← hmoved.deadlockFlag]
    exact hev.deadlock

/-- **Back.** The context at the end of the child is restored over the one it was given. -/
theorem Returned.exists_back (hne : env.ne.Lawful) {i j : Nat} {context : Context} {e : Ending}
    {child : Frame} {w w' : World} (h : Returned env i₀ j context e w child w')
    (hplain : Crossing.Plain ⟨child.context, context⟩) :
    ∃ c, restoreContext env.ne i context child.context = (c, none) ∧
      Moved i child.context c ∧ Agree i c i₀ e.scope.context ∧ Covers c context := by
  have hcovers : Covers child.context context := h.scope.domain
  obtain ⟨c, hrestore, hmoved⟩ := exists_restoreContext hne i hcovers hplain
  exact ⟨c, hrestore, hmoved, h.scope.agree.moved hmoved, hcovers.trans hmoved.covers⟩

/-- `deadlock_context` after a child whose context was restored. -/
theorem Returned.deadlock_back {i j : Nat} {context c : Context} {e : Ending} {child : Frame}
    {w w' : World} (h : Returned env i₀ j context e w child w')
    (hmoved : Moved i child.context c) :
    deadlockFlag c = false ∨ deadlockFlag c = deadlockFlag context := by
  rw [hmoved.deadlockFlag]
  exact h.deadlock

/-! ## The calls -/

/-- `main_wrap` restores the caller's context and runs the awaitable to its end. -/
theorem Simulates.mainWrap (hne : env.ne.Lawful) {child : Body} {d base : Context} {e : Ending}
    {j : Nat} {caller : Frame} {t : ThreadId} {raised : PyError → World → Outcome} {w : World}
    (h : Simulates env i₀ .async child ⟨d, []⟩ e) (hgrows : Grows child)
    (hraised : ∀ error w', w'.crossings <+: (raised error w').world.crossings)
    (hagree : Agree j caller.context i₀ d) (hcovers : Covers caller.context base) (hwf : w.Wf)
    (hready : ∀ c, Moved (env.getIdent t) caller.context c →
      Ready env .async { caller with context := c, tokens := [], thread := t }
        (w.cross caller.context base))
    (hsince : w.PlainSince (AsyncToSync.mainWrap env child base caller t raised w).world) :
    ∃ captured w', AsyncToSync.mainWrap env child base caller t raised w
      = .done e.result captured w' ∧ Returned env i₀ j caller.context e w captured w' := by
  obtain ⟨hplain, hrest⟩ :=
    hsince.of_cross (AsyncToSync.mainWrap_crossings hgrows base caller t hraised w)
  unfold AsyncToSync.mainWrap at hrest ⊢
  obtain ⟨c, hrestore, captured, w', hchild, hreturned⟩ := h.crossed hne
    { caller with tokens := [], thread := t } hagree hplain hcovers rfl hwf hready
    fun c hrestore => by simpa only [hrestore] using hrest
  refine ⟨captured, w', ?_, hreturned⟩
  simp only [hrestore]
  exact hchild

/-- The awaitable is run to its end, on the parent loop or on a new one. -/
theorem Simulates.dispatch (hne : env.ne.Lawful) {child : Body} {d : Context} {e : Ending}
    {j : Nat} (caller : Frame) {exec : ExecId} (forceNewLoop : Bool) {w : World}
    (h : Simulates env i₀ .async child ⟨d, []⟩ e) (hgrows : Grows child)
    (hagree : Agree j caller.context i₀ d) (hwf : w.Wf)
    (hloop : w.runningLoop caller.thread = none) (hstarted : caller.thread < w.nextThread)
    (hwaits : ∀ t', caller.thread ≠ t' → Waits exec t' w)
    (hcurrent : currentExecutor j caller.context = .executor exec)
    (hsince : w.PlainSince (AsyncToSync.dispatch env forceNewLoop child exec caller w).world) :
    ∃ captured w', AsyncToSync.dispatch env forceNewLoop child exec caller w
      = .done e.result captured w' ∧ Returned env i₀ j caller.context e w captured w' := by
  unfold AsyncToSync.dispatch at hsince ⊢
  cases hparent : AsyncToSync.parentLoop env forceNewLoop caller.thread w with
  | some loop =>
      -- `is_running()` was true, so the parent loop runs on its thread
      have hrunning : w.runningLoop (w.loopThread loop) = some loop := by
        unfold AsyncToSync.parentLoop at hparent
        split at hparent
        · split at hparent
          · cases hparent
            assumption
          · cases hparent
        · cases hparent
      have hother : caller.thread ≠ w.loopThread loop := by
        intro heq
        rw [← heq, hloop] at hrunning
        cases hrunning
      have hloopThread : w.loopThread loop < w.nextThread := by
        by_contra hge
        rw [(hwf.fresh _ (not_lt.mp hge)).runningLoop] at hrunning
        cases hrunning
      simp only [hparent] at hsince
      refine h.mainWrap hne hgrows (fun _ _ => List.prefix_rfl) hagree (.refl caller.context) hwf
        (fun c hmoved => ?_) hsince
      refine ⟨hloopThread, loop, hwf.running _ _ hrunning, hrunning, ?_⟩
      unfold Served
      rw [hmoved.currentExecutor hagree.owned, hcurrent]
      exact { hwaits _ hother with }
  | none =>
      have hbase : Covers caller.context
          (if env.threadInheritContext then caller.context else ∅) := by
        cases env.threadInheritContext with
        | true => exact .refl caller.context
        | false => exact .empty caller.context
      have hother : caller.thread ≠ w.nextThread := hstarted.ne
      have hwaiting := hwaits _ hother
      have hrunning : (AsyncToSync.startLoop exec w).runningLoop w.nextThread = some w.nextLoop :=
        Function.update_self ..
      simp only [hparent] at hsince
      -- the end of the loop restores nothing
      have hinner := hsince.congr rfl (Outcome.bind_crossings_eq _ fun _ _ _ => rfl).symm
      obtain ⟨captured, w', hwrap, hreturned⟩ := h.mainWrap (w := AsyncToSync.startLoop exec w) hne
        hgrows (fun _ _ => List.prefix_rfl) hagree hbase (startLoop_wf exec hwf)
        (fun c hmoved => by
          refine ⟨Nat.lt_succ_self _, w.nextLoop, Nat.lt_succ_self _, hrunning, ?_⟩
          unfold Served
          rw [hmoved.currentExecutor hagree.owned, hcurrent]
          exact {
            known := hwaiting.known
            broken := hwaiting.broken
            other := hwaiting.other
            started := hwaiting.started.trans (Nat.lt_succ_self _)
            waitingIn := hwaiting.waitingIn
            runningLoop := (Function.update_of_ne hwaiting.other _ _).trans hwaiting.runningLoop })
        hinner
      obtain ⟨hkeeps, hwf'⟩ := stopLoop_keeps hreturned.keeps hreturned.wf
      refine ⟨captured, AsyncToSync.stopLoop w.nextThread w.nextLoop w', ?_,
        { hreturned with wf := hwf', keeps := hkeeps }⟩
      simp only [hwrap, Outcome.bind_done]

/-- **`async_to_sync` is transparent.** -/
theorem simulates_asyncToSync (hne : env.ne.Lawful) {child : Body} {s : Scope} {e : Ending}
    (forceNewLoop : Bool) (hchild : Simulates env i₀ .async child ⟨s.context, []⟩ e)
    (hgrows : Grows child) :
    Simulates env i₀ .sync (AsyncToSync.call env forceNewLoop child) s
      { e with scope := ⟨e.scope.context, s.tokens⟩ } := by
  intro D fr w ⟨hscope, hwf, ht, hloop, hwait⟩ hsince
  let i := env.getIdent fr.thread
  let oldExecutor := currentExecutor i fr.context
  let caller := AsyncToSync.callerFrame env w.nextExecutor fr
  have hagree : Agree i caller.context i₀ s.context := hscope.agree.setattr_executors _
  have hset : Covers caller.context fr.context := .insert _ (.cvar executors) _
  simp only [AsyncToSync.call, hloop] at hsince ⊢
  -- there: the awaitable runs in a context that shows the same as the caller's
  let w₀ := AsyncToSync.enter fr.thread oldExecutor w
  have hgoes : w₀.crossings <+:
      (AsyncToSync.dispatch env forceNewLoop child w.nextExecutor caller w₀).world.crossings :=
    AsyncToSync.dispatch_crossings hgrows forceNewLoop w.nextExecutor caller w₀
  obtain ⟨hthere, hback⟩ := hsince.split hgoes (Outcome.bind_crossings _ fun r captured w' =>
    (List.prefix_append ..).trans (AsyncToSync.leave_crossings ..))
  obtain ⟨captured, w₁, hdispatch, hreturned⟩ :=
    Simulates.dispatch hne caller forceNewLoop hchild hgrows hagree
      (enter_wf oldExecutor hwf ht) hloop ht (fun t' => enter_waits oldExecutor ht hloop)
      (currentExecutor_setattr i fr.context _) hthere
  -- and back: the caller restores what `main_wrap` captured
  rw [hdispatch, Outcome.bind_done] at hback ⊢
  obtain ⟨hplain, -⟩ := hback.of_cross (AsyncToSync.leave_crossings ..)
  obtain ⟨c, hrestore, hmoved, hagree', hcovers⟩ := hreturned.exists_back (i := i) hne hplain
  obtain ⟨hkeeps, hwf'⟩ := quit_keeps ht hwait hreturned.keeps hreturned.wf
  refine ⟨{ fr with
      context := setattr i c executors "current" oldExecutor
      clean := captured.clean },
    AsyncToSync.quit w.nextExecutor fr.thread (w₁.cross captured.context caller.context), ?_, ?_⟩
  · simp only [AsyncToSync.leave]
    rw [show restoreContext env.ne (env.getIdent (AsyncToSync.callerFrame env w.nextExecutor
      fr).thread) caller.context captured.context = (c, none) from hrestore]
    rfl
  · refine ⟨⟨hagree'.setattr_executors _, hscope.tokens, hscope.safe, fun x hD => ?_⟩, rfl,
      hwf'.recorded _ _ _ _, { hkeeps with }, currentExecutor_setattr i c oldExecutor, ?_,
      hreturned.replies⟩
    · have hcontext := hset x (hscope.domain x hD)
      exact Covers.insert _ (.cvar executors) _ x (hcovers x hcontext)
    · have hflag : deadlockFlag caller.context = deadlockFlag fr.context :=
        deadlockFlag_setattr ..
      rw [deadlockFlag_setattr, ← hflag]
      exact hreturned.deadlock_back hmoved

/-- `thread_handler` re-homes the context that it is started in and runs the function to its end. -/
theorem Simulates.threadHandler (hne : env.ne.Lawful) {child : Body} {d : Context} {e : Ending}
    {j : Nat} {start : Frame} {w : World} (h : Simulates env i₀ .sync child ⟨d, []⟩ e)
    (hgrows : Grows child) (hagree : Agree j start.context i₀ d) (htokens : start.tokens = [])
    (hwf : w.Wf) (hready : Ready env .sync start w)
    (hsince : w.PlainSince (SyncToAsync.threadHandler env child start w).world) :
    ∃ fr w', SyncToAsync.threadHandler env child start w = .done e.result fr w' ∧
      Returned env i₀ j start.context e w fr w' := by
  obtain ⟨hplain, hrest⟩ := hsince.of_cross (SyncToAsync.threadHandler_crossings hgrows start w)
  unfold SyncToAsync.threadHandler at hrest ⊢
  obtain ⟨c, hrestore, fr, w', hchild, hreturned⟩ := h.crossed hne start hagree hplain
    (.refl start.context) htokens hwf (fun _ _ => hready)
    fun c hrestore => by simpa only [hrestore] using hrest
  refine ⟨fr, w', ?_, hreturned⟩
  simp only [hrestore]
  exact hchild

/-- **`sync_to_async` is transparent.** -/
theorem simulates_syncToAsync (hne : env.ne.Lawful) {child : Body} {s : Scope} {e : Ending}
    (threadSensitive : Bool) (hchild : Simulates env i₀ .sync child ⟨s.context, []⟩ e)
    (hgrows : Grows child) :
    Simulates env i₀ .async (SyncToAsync.call env threadSensitive none child) s
      { e with scope := ⟨e.scope.context, s.tokens⟩ } := by
  intro D fr w ⟨hscope, hwf, _, loop, _, hloop, hserved⟩ hsince
  obtain ⟨selected, ref, t, fr₁, w₁, hsub⟩ := Ready.exists_submit hwf hserved threadSensitive
  -- the selection touches no more of the frame than `deadlock_context`
  obtain ⟨hthread, htokens, hagree, hcurrent, hset⟩ : fr₁.thread = fr.thread ∧
      fr₁.tokens = fr.tokens ∧ Agree (env.getIdent fr.thread) fr₁.context i₀ s.context ∧
      currentExecutor (env.getIdent fr.thread) fr₁.context
        = currentExecutor (env.getIdent fr.thread) fr.context ∧ Covers fr₁.context fr.context := by
    rcases hsub.frame with rfl | rfl
    · exact ⟨rfl, rfl, hscope.agree, rfl, .refl _⟩
    · exact ⟨rfl, rfl, hscope.agree.setDeadlock true, currentExecutor_setDeadlock ..,
        .insert _ deadlockContext _⟩
  obtain ⟨hwf₂, hreplies₂, ht, hnoLoop, hnoWait⟩ :=
    hsub.takes.start env loop hsub.wf
  let start := SyncToAsync.childFrame none ref t fr₁
  let w₂ := SyncToAsync.startItem env loop ref t w₁
  simp only [SyncToAsync.call, hloop, hsub.select, hsub.submit, hthread, hsub.takes.serves,
    if_true] at hsince ⊢
  have hselects := SyncToAsync.selects env threadSensitive loop fr w
  rw [hsub.select] at hselects
  -- there: the function runs in a copy of the caller's context
  have hstart : w₂.crossings = w.crossings := by
    rw [← hselects.crossings]
    cases ref <;> rfl
  have hend : ∀ w', (SyncToAsync.endItem ref t w').crossings = w'.crossings :=
    fun w' => by cases ref <;> rfl
  have hgoes : w₂.crossings <+: (SyncToAsync.threadHandler env child start w₂).world.crossings :=
    (List.prefix_append ..).trans (SyncToAsync.threadHandler_crossings hgrows start w₂)
  obtain ⟨hthere, hback⟩ := (hsince.congr hstart rfl).split hgoes
    (Outcome.bind_crossings _ fun r child w' => by
      refine List.IsPrefix.trans ?_ (SyncToAsync.leave_crossings ..)
      rw [← hend w']
      exact List.prefix_append ..)
  have hcopied : Agree (env.getIdent fr.thread) start.context i₀ s.context := hagree
  obtain ⟨childFrame, w₃, hhandler, hreturned⟩ := hchild.threadHandler hne hgrows hcopied
    rfl hwf₂ ⟨ht, hnoLoop, hnoWait⟩ hthere
  -- and back: the caller restores what the function left
  rw [hhandler, Outcome.bind_done] at hback ⊢
  obtain ⟨hplain, -⟩ := (hback.congr (hend w₃) rfl).of_cross (SyncToAsync.leave_crossings ..)
  obtain ⟨c, hrestore, hmoved, hagree', hcovers⟩ :=
    hreturned.exists_back (i := env.getIdent fr.thread) hne hplain
  obtain ⟨hkeeps, hwf'⟩ := hsub.takes.finish hreturned.wf hreturned.keeps
  have hrestored := hsub.keeps.trans hsub.wf hkeeps
  refine ⟨{ fr₁ with context := setDeadlock c false, clean := false },
    (SyncToAsync.endItem ref t w₃).cross childFrame.context fr₁.context, ?_, ?_⟩
  · simp only [SyncToAsync.leave, hthread]
    rw [show restoreContext env.ne (env.getIdent fr.thread) fr₁.context childFrame.context
      = (c, none) from hrestore]
  · refine ⟨⟨hagree'.setDeadlock false, htokens.trans hscope.tokens, ?_, fun x hD => ?_⟩, hthread,
      hwf'.recorded _ _ _ _, { hrestored with }, ?_, .inl (deadlockFlag_setDeadlock ..), ?_⟩
    · rw [show ({ fr₁ with context := setDeadlock c false, clean := false } : Frame).tokens
        = fr.tokens from htokens]
      exact hscope.safe
    · exact Covers.insert _ deadlockContext _ x (hcovers x (hset x (hscope.domain x hD)))
    · rw [currentExecutor_setDeadlock, hmoved.currentExecutor hreturned.scope.agree.owned,
        hreturned.current]
      exact hcurrent
    · have hreplies : ((SyncToAsync.endItem ref t w₃).cross childFrame.context
          fr₁.context).replies = w₃.replies := by cases ref <;> rfl
      rw [hreplies, hreturned.replies, hreplies₂, hsub.replies]

/-- **An awaited task** works in a copy of the context, bridged or inline. -/
theorem simulates_task {child : Body} {s : Scope} {e : Ending}
    (hchild : Simulates env i₀ .async child ⟨s.context, []⟩ e) :
    Simulates env i₀ .async (Asgiref.task child) s { e with scope := s } := by
  intro D fr w hsim hsince
  have hchildSim : Sim env D i₀ .async { fr with tokens := [] } w ⟨s.context, []⟩ := by
    refine ⟨⟨hsim.scope.agree, rfl, by simp, hsim.scope.domain⟩, hsim.wf, ?_⟩
    exact hsim.ready
  -- the end of the task restores nothing
  obtain ⟨fr', w', hrun, hev⟩ := hchild D _ w hchildSim
    (hsince.congr rfl (Outcome.bind_crossings_eq _ fun _ _ _ => rfl).symm)
  refine ⟨fr, w', by simp only [Asgiref.task, hrun, Outcome.bind_done], ?_⟩
  exact ⟨hsim.scope, rfl, hev.wf, hev.keeps, rfl, .inr rfl, hev.replies⟩

/-- An operation on the context. -/
theorem simulates_op {o : Op} (hown : o.OwnFree) (next : Reply → Body) {s : Scope} {e : Ending}
    (hnext : Simulates env i₀ side (next (o.apply i₀ s).1) (o.apply i₀ s).2 e) :
    Simulates env i₀ side
      (fun fr w =>
        let (reply, fr', w') := opStep env o fr w
        next reply fr' w')
      s (e.after [(o.apply i₀ s).1]) := by
  intro D fr w hsim hsince
  obtain ⟨hreply, hscope, hown⟩ := Op.apply_agree hsim.scope hown
  have hev : Evolves env D i₀ fr w ⟨.ok .none, (o.apply i₀ s).2, [(o.apply i₀ s).1]⟩
      (opStep env o fr w).2.1 (opStep env o fr w).2.2 := by
    refine ⟨hscope, rfl, hsim.wf.recorded _ _ _ _, { World.Keeps.refl w with }, hown.current,
      .inr hown.deadlock, ?_⟩
    rw [← hreply]
    rfl
  rw [← hreply] at hnext
  obtain ⟨fr', w', hrun, hev'⟩ := hnext D _ _ (hev.sim hsim) hsince
  exact ⟨fr', w', hrun, hev.trans hev'⟩

/-- A point of the program is recorded outside of what the frames can see. -/
theorem Simulates.visit {body : Body} {s : Scope} {e : Ending}
    (h : Simulates env i₀ side body s e) :
    Simulates env i₀ side (fun fr w => body fr (w.visit fr)) s e := by
  intro D fr w hsim hsince
  have hpoint : Evolves env D i₀ fr w ⟨.ok .none, s, []⟩ fr (w.visit fr) := by
    exact ⟨hsim.scope, rfl, hsim.wf.recorded _ _ _ _, { World.Keeps.refl w with }, rfl, .inr rfl,
      (List.append_nil w.replies).symm⟩
  obtain ⟨fr', w', hrun, hev⟩ := h D fr (w.visit fr) (hpoint.sim hsim) hsince
  exact ⟨fr', w', hrun, hpoint.trans hev⟩

/-! ## Programs -/

/-- **The simulation.** A program whose frames call each other across the bridges only, and leave
asgiref's own variables alone, simulates its inline run. -/
theorem simulates_run (hne : env.ne.Lawful) (p : Prog side) (s : Scope) (hbridged : p.Bridged)
    (hown : p.AllOps Op.OwnFree) : Simulates env i₀ side (p.run env) s (p.inline i₀ s) := by
  induction p generalizing s with
  | finish r =>
      apply Simulates.visit
      intro D fr w hsim _
      refine ⟨fr, w, rfl, hsim.scope, rfl, hsim.wf, .refl w, rfl, .inr rfl, ?_⟩
      exact (List.append_nil w.replies).symm
  | op o next ih =>
      have hnext := ih (o.apply i₀ s).1 (o.apply i₀ s).2 (hbridged _) (hown.2 _)
      exact (simulates_op hown.1 (fun reply => (next reply).run env) hnext).visit
  | asyncToSync forceNewLoop child next ihChild ihNext =>
      have hgrows : Grows (child.run env) := child.run_grows hown.1
      have hcall := simulates_asyncToSync hne forceNewLoop (ihChild ⟨s.context, []⟩ hbridged.1
        hown.1) hgrows
      exact (hcall.bind (hgrows.asyncToSync forceNewLoop) (fun r => (next r).run_grows (hown.2 r))
        (ihNext _ _ (hbridged.2 _) (hown.2 _))).visit
  | asyncioRun child next ihChild ihNext => exact hbridged.elim
  | syncToAsync threadSensitive context child next ihChild ihNext =>
      obtain ⟨rfl, hchildBridged, hnextBridged⟩ := hbridged
      have hgrows : Grows (child.run env) := child.run_grows hown.1
      have hcall := simulates_syncToAsync hne threadSensitive (ihChild ⟨s.context, []⟩
        hchildBridged hown.1) hgrows
      exact (hcall.bind (hgrows.syncToAsync threadSensitive none)
        (fun r => (next r).run_grows (hown.2 r)) (ihNext _ _ (hnextBridged _) (hown.2 _))).visit
  | task child next ihChild ihNext =>
      have hgrows : Grows (child.run env) := child.run_grows hown.1
      have hcall := simulates_task (ihChild ⟨s.context, []⟩ hbridged.1 hown.1)
      exact (hcall.bind hgrows.task (fun r => (next r).run_grows (hown.2 r))
        (ihNext _ _ (hbridged.2 _) (hown.2 _))).visit

/-! ## The outermost frame -/

/-- A run of nested frames: the program calls across the two bridges only and leaves asgiref's own
variables alone, its outermost frame is ready, and all `Local` storage belongs to its thread. -/
structure Nested (env : Env) (p : Prog side) (fr : Frame) (w : World) : Prop where
  lawful : env.ne.Lawful
  wf : w.Wf
  ready : Ready env side fr w
  tokens : fr.tokens = []
  owned : OwnedBy (env.getIdent fr.thread) fr.context
  bridged : p.Bridged
  ownFree : p.AllOps Op.OwnFree

/-- The bridged run comes to its end like the inline run: with the same result, the same answer to
every operation of every frame, and the same variables and `Local` contents in the outermost frame,
asgiref's own apart. -/
def Transparent (env : Env) (p : Prog side) (fr : Frame) (w : World) : Prop :=
  let e := p.inline (env.getIdent fr.thread) fr.toScope
  ∃ fr' w', p.run env fr w = .done e.result fr' w' ∧
    w'.replies = w.replies ++ e.replies ∧
    (∀ name id, ContextVar.user name id ≠ deadlockContext →
      fr'.context.lookup (ContextVar.user name id)
        = e.scope.context.lookup (ContextVar.user name id)) ∧
    ∀ l, l ≠ executors → storage fr'.context l = storage e.scope.context l

/-- The storage of a `Local` is determined by its data, once its owner is known. -/
theorem OwnedBy.storage_eq {i : Nat} {c d : Context} {l : Nat} (hc : OwnedBy i c)
    (hd : OwnedBy i d) (h : (storage c l).map Storage.data = (storage d l).map Storage.data) :
    storage c l = storage d l := by
  cases hsc : storage c l with
  | none =>
      rw [hsc, Option.map_none, eq_comm, Option.map_eq_none_iff] at h
      exact h.symm
  | some sc =>
      rw [hsc, Option.map_some, eq_comm, Option.map_eq_some_iff] at h
      obtain ⟨sd, hsd, hdata⟩ := h
      have howner : sc.owner = sd.owner := (hc l sc hsc).trans (hd l sd hsd).symm
      rw [hsd]
      cases sc
      cases sd
      cases howner
      cases hdata
      rfl

/-- **Bridging is transparent**, where no context that the run restores holds a tuple in a foreign
variable of the name `cvarName`, or has a variable at its default that is not set where the context
is restored. -/
theorem run_transparent {p : Prog side} {fr : Frame} {w : World} (h : Nested env p fr w)
    (hplain : w.PlainSince (p.run env fr w).world) : Transparent env p fr w := by
  have hagree : Agree (env.getIdent fr.thread) fr.context (env.getIdent fr.thread) fr.context :=
    ⟨h.owned, h.owned, fun _ _ _ => rfl, fun _ _ => rfl⟩
  have hscope : ScopeAgree (fun _ => False) (env.getIdent fr.thread) fr.toScope
      (env.getIdent fr.thread) fr.toScope :=
    ⟨hagree, rfl, by simp [h.tokens], fun _ hD => hD.elim⟩
  obtain ⟨fr', w', hrun, hev⟩ := simulates_run h.lawful p fr.toScope h.bridged h.ownFree
    _ fr w ⟨hscope, h.wf, h.ready⟩ hplain
  refine ⟨fr', w', hrun, hev.replies, hev.scope.agree.user, fun l hl => ?_⟩
  exact hev.scope.agree.owned.storage_eq hev.scope.agree.owned₀ (hev.scope.agree.data l hl)

/-- Three frames: the innermost one, back on the main thread, changes what the outermost one set,
and a variable with a default. -/
def nestedWrites : Prog .sync :=
  .op (.setattr 1 "user" (.other 5)) fun _ =>
    .asyncToSync false
      (.syncToAsync true none
        (.op (.getattr 1 "user") fun _ => .op (.setattr 1 "user" (.other 6)) fun _ =>
          .op (.setVar "x" ⟨7, some (.obj (.int 0))⟩ (.obj (.int 1))) fun _ =>
            .finish (.error (.other 9)))
        fun r => .finish r)
      fun r => .op (.getattr 1 "user") fun _ => .finish r

theorem run_transparent_nestedWrites :
    Transparent plainEnv nestedWrites (.root mainThread ∅) .start := by
  refine run_transparent ⟨Comparison.plain_lawful, World.start_wf, ready_start _, rfl,
    OwnedBy.empty _, ?_, ?_⟩ (.of_nil rfl (by decide +kernel))
  · exact fun _ => ⟨⟨rfl, fun _ _ _ => trivial, fun _ => trivial⟩, fun _ _ => trivial⟩
  · exact ⟨by decide, fun _ => ⟨⟨⟨by decide, fun _ => ⟨by decide, fun _ => ⟨by decide,
      fun _ => trivial⟩⟩⟩, fun _ => trivial⟩, fun _ => ⟨by decide, fun _ => trivial⟩⟩⟩

/-- A sync frame sets a variable of its own that bears the name `cvarName` to a tuple, and an
awaitable reads it. -/
def foreignTuple : Prog .sync :=
  .op (.setVar cvarName ⟨7, none⟩ (.tuple [.int 8, .int 9])) fun _ =>
    .asyncToSync false (.op (.getVar cvarName ⟨7, none⟩ none) fun _ => .finish (.ok .none))
      fun r => .finish r

/-- An awaitable sets a variable to its default, and the caller reads it with another fallback. -/
def setDefault : Prog .sync :=
  .asyncToSync false
    (.op (.setVar "x" ⟨7, some (.obj (.int 0))⟩ (.obj (.int 0))) fun _ => .finish (.ok .none))
    fun r => .op (.getVar "x" ⟨7, some (.obj (.int 0))⟩ (some (.obj (.int 1)))) fun _ => .finish r

/-- A transparent run has the answers of the inline one. -/
theorem Transparent.replies {p : Prog side} {fr : Frame} {w : World} (h : Transparent env p fr w) :
    (p.run env fr w).world.replies =
      w.replies ++ (p.inline (env.getIdent fr.thread) fr.toScope).replies := by
  obtain ⟨fr', w', hrun, hreplies, -⟩ := h
  rw [hrun]
  exact hreplies

/-- The awaitable reads the tuple with the ident of its own thread in the first place; and the
caller finds the variable not set. -/
theorem foreignTuple_not_transparent :
    (Nested plainEnv foreignTuple (.root mainThread ∅) .start ∧
      ¬ Transparent plainEnv foreignTuple (.root mainThread ∅) .start) ∧
    Nested plainEnv setDefault (.root mainThread ∅) .start ∧
      ¬ Transparent plainEnv setDefault (.root mainThread ∅) .start := by
  refine ⟨⟨?_, fun h => absurd h.replies (by decide)⟩, ?_, fun h => absurd h.replies (by decide)⟩
  · refine ⟨Comparison.plain_lawful, World.start_wf, ready_start _, rfl, OwnedBy.empty _,
      fun _ => ⟨fun _ => trivial, fun _ => trivial⟩, ?_⟩
    exact ⟨by decide, fun _ => ⟨⟨by decide, fun _ => trivial⟩, fun _ => trivial⟩⟩
  · refine ⟨Comparison.plain_lawful, World.start_wf, ready_start _, rfl, OwnedBy.empty _,
      ⟨fun _ => trivial, fun _ _ => trivial⟩, ?_⟩
    exact ⟨⟨by decide, fun _ => trivial⟩, fun _ => ⟨by decide, fun _ => trivial⟩⟩

end Asgiref
