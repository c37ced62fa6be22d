import Asgiref.Bridge.Rules

/-! # The deadlock guard

A function that runs on the single-thread executor must not wait for another item of that executor.
`deadlock_context` is to prevent it: the call that takes the executor sets it, the contexts below
the function get it from there, and a call that finds it set raises. But every `sync_to_async` call
resets it at its end, whoever set it.

* **`Occupies`** — the frame in which a function starts on the single-thread executor, with
  **`occupies_start`**: the call that takes the executor makes it.
* **`Clean`** — the invariant: in a clean context the flag is set.
* **`GuardSound`** — every call below the function that asks the flag raises, and no run gets stuck
  on an item of the single-thread executor; **`guard_sound`**, if every context that is asked is
  clean. -/

namespace Asgiref

open Local SyncToAsync

/-- The operation does not set `deadlock_context`. -/
def Op.GuardFree : Op → Prop
  | .setVar name id _ => ContextVar.user name id ≠ deadlockContext
  | _ => True

variable {env : Env} {i : Nat} {c current moved : Context}

theorem deadlockFlag_congr {d : Context} (h : c.lookup deadlockContext = d.lookup deadlockContext) :
    deadlockFlag c = deadlockFlag d := by
  unfold deadlockFlag
  rw [h]

theorem lookup_of_deadlockFlag (h : deadlockFlag c = true) :
    (c.lookup deadlockContext).isSome := by
  unfold deadlockFlag at h
  split at h
  · rename_i v hv
    rw [hv]
    rfl
  · cases h

/-- **Crossings.** A restored flag is as it was in one of the two contexts. -/
theorem deadlockFlag_restoreContext (ne : Comparison) (i : Nat) (hc : deadlockFlag current = true)
    (hm : deadlockFlag moved = true) :
    deadlockFlag (restoreContext ne i current moved).1 = true := by
  rcases lookup_restoreContext_or ne i current moved deadlockContext with
    hkeep | ⟨v, cvalue, hv, hmoved, hlookup⟩
  · rw [deadlockFlag_congr hkeep, hc]
  · rw [movedValue_user fun hname => absurd hname (by decide)] at hmoved
    cases hmoved
    rw [deadlockFlag_congr (hlookup.trans hv.symm), hm]

/-- Restoring into an empty context brings the flag along, unless it raises. -/
theorem deadlockFlag_restoreContext_empty {ne : Comparison} (hm : deadlockFlag moved = true)
    (h : restoreContext ne i ∅ moved = (c, none)) : deadlockFlag c = true := by
  have hleft : (restoreContext ne i ∅ moved).1 = c := by rw [h]
  -- the variable has no default, so it is set
  have hset := isSome_restoreContext h (lookup_of_deadlockFlag hm)
  rw [Context.get_of_default c rfl] at hset
  rcases lookup_restoreContext_or ne i ∅ moved deadlockContext with
    hkeep | ⟨v, cvalue, hv, hmoved, hlookup⟩
  · rw [hleft, AList.lookup_empty] at hkeep
    rw [hkeep] at hset
    cases hset
  · rw [movedValue_user fun hname => absurd hname (by decide)] at hmoved
    cases hmoved
    rw [hleft] at hlookup
    rw [deadlockFlag_congr (hlookup.trans hv.symm), hm]

/-- In a clean context the flag is set, and no token of the frame can change it. -/
structure Clean (fr : Frame) : Prop where
  flag : fr.clean = true → deadlockFlag fr.context = true
  tokens : ∀ token, some token ∈ fr.tokens →
    ContextVar.user token.name token.id ≠ deadlockContext

/-- An operation that does not set the flag keeps it. -/
theorem Clean.apply {fr : Frame} (h : Clean fr) {o : Op} (ho : o.GuardFree) :
    Clean { fr with toScope := (o.apply i fr.toScope).2 } := by
  cases o with
  | getVar name id fallback => exact h
  | setVar name id v =>
      refine ⟨fun hclean => ?_, fun token hmem => ?_⟩
      · rw [← h.flag hclean]
        exact deadlockFlag_congr (AList.lookup_insert_ne (fun heq => ho heq.symm))
      · rcases List.mem_append.mp hmem with hmem | hmem
        · exact h.tokens token hmem
        · cases List.mem_singleton.mp hmem
          exact ho
  | resetVar n =>
      unfold Op.apply
      dsimp only
      split
      · rename_i token htoken
        refine ⟨fun hclean => ?_, fun token' hmem => ?_⟩
        · have hne := h.tokens token (List.mem_of_getElem? htoken)
          rw [← h.flag hclean]
          exact deadlockFlag_congr (Context.lookup_reset_ne _ _ fun heq => hne heq.symm)
        · rcases List.mem_or_eq_of_mem_set hmem with hmem | hmem
          · exact h.tokens token' hmem
          · cases hmem
      · exact h
  | getattr l key => exact h
  | setattr l key v =>
      refine ⟨fun hclean => ?_, h.tokens⟩
      rw [← h.flag hclean]
      exact deadlockFlag_congr (lookup_setStorage_user ..)
  | delattr l key =>
      unfold Op.apply
      dsimp only
      rw [delattr_eq]
      split
      · rename_i c' hdel
        split at hdel
        · cases hdel
          refine ⟨fun hclean => ?_, h.tokens⟩
          rw [← h.flag hclean]
          exact deadlockFlag_congr (lookup_setStorage_user ..)
        · cases hdel
      · exact h

/-! ## The world -/

/-- The worker of the single-thread executor runs an item, and serves no other executor. -/
structure Occupied (w : World) : Prop where
  busy : w.busy singleThread = true
  started : singleThread < w.nextThread
  sensitive : ∀ v, w.contextToThreadExecutor v ≠ some singleThread

/-- A call that found itself in a clean context raised. -/
def CleanRaised (w : World) : Prop := ∀ g ∈ w.guards, g.clean = true → g.raised = true

theorem Occupied.sensitiveWorker {w : World} (h : Occupied w) (v : Value) :
    Occupied (sensitiveWorker v w).2 ∧ (SyncToAsync.sensitiveWorker v w).1 ≠ singleThread := by
  unfold SyncToAsync.sensitiveWorker
  cases hv : w.contextToThreadExecutor v with
  | some t => exact ⟨h, fun heq => h.sensitive v (heq ▸ hv)⟩
  | none =>
      -- the worker that is made for the context is a new thread
      have hnew : w.nextThread ≠ singleThread := Nat.ne_of_gt h.started
      refine ⟨⟨h.busy, h.started.trans (Nat.lt_succ_self _), fun v' => ?_⟩, hnew⟩
      by_cases hv' : v' = v
      · subst hv'
        simpa using hnew
      · simpa [Function.update_of_ne hv'] using h.sensitive v'

/-- While its worker is occupied, no item of the single-thread executor is taken. -/
theorem Occupied.serves_ne {w : World} (h : Occupied w) {t t' : ThreadId}
    (hserves : serves (.worker t') t w = true) : t ≠ singleThread := by
  rintro rfl
  simp [serves, h.busy] at hserves

theorem Occupied.startItem {w : World} (h : Occupied w) (loop : LoopId) (ref : ExecutorRef)
    (t : ThreadId) : Occupied (startItem env loop ref t w) := by
  cases ref with
  | currentThread e => exact ⟨h.busy, h.started, h.sensitive⟩
  | worker t' =>
      refine ⟨?_, h.started, h.sensitive⟩
      by_cases ht : singleThread = t
      · subst ht
        simp [SyncToAsync.startItem]
      · exact (Function.update_of_ne ht _ _).trans h.busy
  | pool => exact ⟨h.busy, h.started.trans (Nat.lt_succ_self _), h.sensitive⟩

theorem Occupied.endItem {w w' : World} (h : Occupied w) (h' : Occupied w') {ref : ExecutorRef}
    {t : ThreadId} (hserves : serves ref t w = true) : Occupied (endItem ref t w') := by
  cases ref with
  | currentThread e => exact ⟨h'.busy, h'.started, h'.sensitive⟩
  | worker t' =>
      have hne := h.serves_ne hserves
      exact ⟨(Function.update_of_ne hne.symm _ _).trans h'.busy, h'.started, h'.sensitive⟩
  | pool => exact h'

theorem CleanRaised.snoc {w : World} (h : CleanRaised w) {g : Guard}
    (hg : g.clean = true → g.raised = true) :
    CleanRaised { w with guards := w.guards ++ [g] } := by
  intro g' hmem
  rcases List.mem_append.mp hmem with hmem | hmem
  · exact h g' hmem
  · cases List.mem_singleton.mp hmem
    exact hg

/-- What is known where a run gets stuck: if it waits for the single-thread executor, it came to
that by a call in a context that was not clean. -/
def StuckUnclean (why : Stuck) (w : World) : Prop :=
  CleanRaised w ∧
    (why = .deadlock (.worker singleThread) → ∃ g ∈ w.guards, g.clean = false)

/-- An item comes to the worker of a `ThreadPoolExecutor` from a call that selected it. -/
theorem submit_worker {caller t t' : ThreadId} {w : World} {selected : ExecutorRef}
    (h : submit caller w selected = .ok (.worker t', t)) : selected = .worker t' := by
  cases selected with
  | currentThread e =>
      unfold submit at h
      dsimp only at h
      split at h
      · cases h
      · split at h <;> cases h
  | worker t'' =>
      cases h
      rfl
  | pool => cases h

/-- A call that selects the single-thread executor found the flag down and sets it. -/
theorem SyncToAsync.Selects.single_inv {fr fr' : Frame} {w w' : World}
    (h : Selects fr w (.ok (.worker singleThread)) fr' w') (hoccupied : Occupied w) :
    deadlockFlag fr.context = false ∧ fr' = { fr with context := setDeadlock fr.context true } ∧
      w' = { w with guards := w.guards ++ [⟨fr.clean, false⟩] } := by
  generalize hr : (Except.ok (.worker singleThread) : Except PyError ExecutorRef) = r at h
  cases h with
  | pool => cases hr
  | current e => cases hr
  | sensitive v =>
      injection hr with hr
      injection hr with hr
      exact absurd hr.symm (hoccupied.sensitiveWorker v).2
  | guarded error h => cases hr
  | single h => exact ⟨h, rfl, rfl⟩

/-- What a selection leaves, while the single-thread executor is occupied. -/
theorem SyncToAsync.Selects.clean {fr fr' : Frame} {w w' : World} {r : Except PyError ExecutorRef}
    (h : Selects fr w r fr' w') (hI : Clean fr) (hJ : Occupied w ∧ CleanRaised w) :
    Clean fr' ∧ Occupied w' ∧ CleanRaised w' := by
  obtain ⟨hoccupied, hraised⟩ := hJ
  cases h with
  | pool => exact ⟨hI, hoccupied, hraised⟩
  | current e => exact ⟨hI, hoccupied, hraised⟩
  | sensitive v =>
      refine ⟨hI, (hoccupied.sensitiveWorker v).1, ?_⟩
      unfold SyncToAsync.sensitiveWorker
      split <;> exact hraised
  | guarded error h =>
      exact ⟨hI, ⟨hoccupied.busy, hoccupied.started, hoccupied.sensitive⟩,
        hraised.snoc fun _ => rfl⟩
  | single h =>
      refine ⟨⟨fun _ => deadlockFlag_setDeadlock .., hI.tokens⟩,
        ⟨hoccupied.busy, hoccupied.started, hoccupied.sensitive⟩, hraised.snoc fun hclean => ?_⟩
      -- a clean context would have raised
      have hflag := hI.flag hclean
      rw [h] at hflag
      cases hflag

/-- Below a function that occupies the single-thread executor, clean contexts carry the flag. -/
theorem clean_invariant (env : Env) :
    FrameInvariant env Op.GuardFree Clean (fun w => Occupied w ∧ CleanRaised w) StuckUnclean where
  same w w' hsame hJ := by
    obtain ⟨hoccupied, hraised⟩ := hJ
    refine ⟨⟨?_, ?_, ?_⟩, ?_⟩
    · rw [hsame.busy]
      exact hoccupied.busy
    · exact hoccupied.started.trans_le hsame.nextThread
    · rw [hsame.contextToThreadExecutor]
      exact hoccupied.sensitive
    · unfold CleanRaised
      rw [hsame.guards]
      exact hraised
  visit fr w _ hJ := ⟨⟨hJ.1.busy, hJ.1.started, hJ.1.sensitive⟩, hJ.2⟩
  op o fr ho hI := hI.apply ho
  fresh fr hI := ⟨hI.flag, by simp⟩
  caller e fr hI := ⟨fun hclean => by
    rw [← hI.flag hclean]
    exact deadlockFlag_setattr .., hI.tokens⟩
  awaitable caller base t c hI hbase hrestore := by
    refine ⟨fun hclean => ?_, by simp⟩
    have hcaller := hI.flag hclean
    rcases hbase with rfl | rfl
    · have hc := deadlockFlag_restoreContext env.ne (env.getIdent t) hcaller hcaller
      rwa [hrestore] at hc
    -- an empty context gets the flag by the merge
    · exact deadlockFlag_restoreContext_empty hcaller hrestore
  unresolved e w hJ := ⟨hJ.2, by simp⟩
  captured caller captured c old hI hI' _ hclean hrestore := by
    refine ⟨fun hcaptured => ?_, hI.tokens⟩
    have hc := deadlockFlag_restoreContext env.ne (env.getIdent caller.thread)
      (hI.flag (hclean hcaptured)) (hI'.flag hcaptured)
    rw [hrestore] at hc
    rw [← hc]
    exact deadlockFlag_setattr ..
  capturedRaised caller captured c e hI hI' _ hrestore := by
    refine ⟨fun hboth => ?_, hI.tokens⟩
    obtain ⟨hcaller, hcaptured⟩ := Bool.and_eq_true_iff.mp hboth
    have hc := deadlockFlag_restoreContext env.ne (env.getIdent caller.thread)
      (hI.flag hcaller) (hI'.flag hcaptured)
    rwa [hrestore] at hc
  selects fr w r fr' w' hsel hI hJ := hsel.clean hI hJ
  deadlock fr w selected fr' w' ref t hsel hI hJ hsubmit _ := by
    refine ⟨(hsel.clean hI hJ).2.2, ?_⟩
    intro hwhy
    injection hwhy with href
    subst href
    obtain rfl := submit_worker hsubmit
    obtain ⟨hdown, -, rfl⟩ := hsel.single_inv hJ.1
    refine ⟨⟨fr.clean, false⟩, by simp, ?_⟩
    -- in a clean context the flag would have been up
    by_contra hclean
    have hflag := hI.flag (by simpa using hclean)
    rw [hdown] at hflag
    cases hflag
  start loop ref t w _ hJ := ⟨hJ.1.startItem loop ref t, by cases ref <;> exact hJ.2⟩
  stop ref t w w' hserves hJ hJ' :=
    ⟨hJ.1.endItem hJ'.1 hserves, by cases ref <;> exact hJ'.2⟩
  function fr w selected fr' w' ref t custom hsel hI hJ hsubmit := by
    have hfr' := (hsel.clean hI hJ).1
    refine ⟨fun hclean => ?_, by simp [childFrame]⟩
    cases custom with
    | some custom => exact hclean
    | none =>
        rcases (Bool.or_eq_true_iff.mp hclean) with hclean | href
        · exact hfr'.flag hclean
        · -- the function has just taken the single-thread executor
          obtain rfl : ref = .worker singleThread := of_decide_eq_true href
          obtain rfl := submit_worker hsubmit
          obtain ⟨-, rfl, -⟩ := hsel.single_inv hJ.1
          exact deadlockFlag_setDeadlock ..
  entered fr hI := by
    refine ⟨fun hclean => ?_, hI.tokens⟩
    exact deadlockFlag_restoreContext _ _ (hI.flag hclean) (hI.flag hclean)
  -- `deadlock_context.set(False)`: the context is not clean from here on
  returned fr child c hI _ _ _ := ⟨by simp, hI.tokens⟩
  returnedRaised fr child c e hI hI' _ hrestore := by
    refine ⟨fun hboth => ?_, hI.tokens⟩
    obtain ⟨hfr, hchild⟩ := Bool.and_eq_true_iff.mp hboth
    have hc := deadlockFlag_restoreContext env.ne (env.getIdent fr.thread)
      (hI.flag hfr) (hI'.flag hchild)
    rwa [hrestore] at hc
  returnedCustom fr hI := ⟨by simp, hI.tokens⟩

/-! ## The function -/

/-- The frame in which a function starts on the single-thread executor, and the world around it. The
record of the calls that ask the flag starts there. -/
structure Occupies (fr : Frame) (w : World) : Prop where
  thread : fr.thread = singleThread
  clean : fr.clean = true
  flag : deadlockFlag fr.context = true
  tokens : fr.tokens = []
  occupied : Occupied w
  guards : w.guards = []

/-- A call that selects the single-thread executor starts its function so. -/
theorem occupies_start {fr : Frame} {w : World} (loop : LoopId) (crossings : List Crossing)
    (hstarted : singleThread < w.nextThread)
    (hsensitive : ∀ v, w.contextToThreadExecutor v ≠ some singleThread)
    (h : restoreContext env.ne (env.getIdent singleThread) (setDeadlock fr.context true)
      (setDeadlock fr.context true) = (c, none)) :
    Occupies
      { childFrame none (.worker singleThread) singleThread
          { fr with context := setDeadlock fr.context true } with context := c }
      { startItem env loop (.worker singleThread) singleThread w with
        guards := []
        crossings } where
  thread := rfl
  clean := by simp [childFrame, childClean]
  flag := by
    have hc := deadlockFlag_restoreContext env.ne (env.getIdent singleThread)
      (deadlockFlag_setDeadlock fr.context true) (deadlockFlag_setDeadlock fr.context true)
    rwa [h] at hc
  tokens := rfl
  occupied := ⟨by simp [startItem], hstarted, hsensitive⟩
  guards := rfl

/-- The guard did its work: every call that asked the flag raised, and the run is not stuck on an
item of the single-thread executor. -/
def GuardSound (o : Outcome) : Prop :=
  (∀ g ∈ o.world.guards, g.raised = true) ∧
    ∀ w, o ≠ .stuck (.deadlock (.worker singleThread)) w

/-- **The guard is sound**, if every context in which the flag is asked is clean. -/
theorem guard_sound {p : Prog .sync} {fr : Frame} {w : World} (h : Occupies fr w)
    (hp : p.AllOps Op.GuardFree)
    (hclean : ∀ g ∈ (p.run env fr w).world.guards, g.clean = true) :
    GuardSound (p.run env fr w) := by
  have hraised : CleanRaised w := fun g hg => by
    rw [h.guards] at hg
    cases hg
  have hkept := (clean_invariant env).run p hp fr w ⟨fun _ => h.flag, by simp [h.tokens]⟩
    ⟨h.occupied, hraised⟩
  cases hrun : p.run env fr w with
  | done r fr' w' =>
      rw [hrun] at hkept hclean
      exact ⟨fun g hg => hkept.2.1.2 g hg (hclean g hg), fun w'' hstuck => by cases hstuck⟩
  | stuck why w' =>
      rw [hrun] at hkept hclean
      refine ⟨fun g hg => hkept.1 g hg (hclean g hg), fun w'' hstuck => ?_⟩
      cases hstuck
      obtain ⟨g, hg, hunclean⟩ := hkept.2 rfl
      rw [hclean g hg] at hunclean
      cases hunclean

/-- The main loop awaits a function that is about to start on the single-thread executor. -/
def singleThreadWorld : World :=
  { World.start with
    nextLoop := 1
    runningLoop := Function.update (fun _ => none) mainThread (some 0)
    loopThread _ := mainThread
    mainEventLoop := Function.update (fun _ => none) singleThread (some (0, plainEnv.getpid))
    busy := Function.update (fun _ => false) singleThread true }

/-- The frame of that function. -/
def singleThreadFrame : Frame := ⟨⟨setDeadlock ∅ true, []⟩, singleThread, true, true⟩

theorem occupies_singleThreadFrame : Occupies singleThreadFrame singleThreadWorld :=
  ⟨rfl, rfl, rfl, rfl, ⟨rfl, by decide, fun _ h => by cases h⟩, rfl⟩

/-- A coroutine that awaits a thread-sensitive function. -/
def awaitSensitive : Prog .async :=
  .syncToAsync true none (.finish (.ok .none)) fun r => .finish r

/-- The function starts a loop of its own, which awaits a thread-sensitive function. -/
def nestedLoop : Prog .sync := .asyncioRun awaitSensitive fun r => .finish r

theorem guard_sound_nestedLoop :
    GuardSound (nestedLoop.run plainEnv singleThreadFrame singleThreadWorld) :=
  guard_sound occupies_singleThreadFrame
    ⟨⟨trivial, fun _ => trivial⟩, fun _ => trivial⟩ (by decide)

/-- The same after an `async_to_sync` call whose awaitable also awaits such a function. -/
def nestedLoopLater : Prog .sync := .asyncToSync false awaitSensitive fun _ => nestedLoop

/-- The flag is gone by then, and the item is queued for the thread that waits for it. -/
theorem nestedLoopLater_not_sound :
    Occupies singleThreadFrame singleThreadWorld ∧ nestedLoopLater.AllOps Op.GuardFree ∧
      ¬ GuardSound (nestedLoopLater.run plainEnv singleThreadFrame singleThreadWorld) := by
  refine ⟨occupies_singleThreadFrame, ⟨⟨trivial, fun _ => trivial⟩, fun _ => ?_⟩, ?_⟩
  · exact ⟨⟨trivial, fun _ => trivial⟩, fun _ => trivial⟩
  · rintro ⟨hraised, -⟩
    revert hraised
    decide

end Asgiref
