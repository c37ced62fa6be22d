import Asgiref.Bridge.Rules

/-! # Inherited `Local` data

A thread that starts with a copy of another thread's context finds the `Local` storage of that
thread in it, and does not see it: the other thread owns it. `_restore_context` makes the current
thread the owner of all storage it moves, inherited or not.

* **`Lacks`** — the storage of a `Local` does not hold a key, whoever owns it. This survives every
  crossing.
* **`InheritedRun`** — a thread that starts in a copy of a context where a key is set, and a program
  of it that neither sets the key nor runs code that does.
* **`Unexposed`** — what is stored for the `Local`, if another thread owns it, does not hold the
  key.
* **`InheritedRun.hidden`** — if this is so at each `async_to_sync` call that the thread makes, the
  key stays hidden throughout the run. -/

namespace Asgiref

open Local

/-- The operation does not set this key of this `Local`. -/
def Op.NotSet (l : Nat) (key : String) : Op → Prop
  | .setattr l' key' _ => ¬ (l' = l ∧ key' = key)
  | _ => True

/-- What is stored for the `Local` does not hold the key. -/
def Lacks (l : Nat) (key : String) (c : Context) : Prop := ∀ s, storage c l = some s → key ∉ s.data

variable {env : Env} {l : Nat} {key : String} {c d : Context} {i : Nat}

theorem Lacks.empty (l : Nat) (key : String) : Lacks l key ∅ := fun s hs => by simp [storage] at hs

theorem Lacks.of_storage (h : Lacks l key c) (heq : storage d l = storage c l) : Lacks l key d :=
  fun s hs => h s (heq ▸ hs)

/-- A thread sees no key that the storage lacks. -/
theorem Lacks.notMem_view (h : Lacks l key c) (i : Nat) : key ∉ view i c l := by
  unfold view
  cases hs : storage c l with
  | none => simp
  | some s =>
      by_cases howner : s.owner = i
      · simpa [howner] using h s hs
      · simp [howner]

/-- Storing data without the key. -/
theorem Lacks.setStorage (h : Lacks l key c) {l' : Nat} {data : Dict}
    (hdata : l' = l → key ∉ data) : Lacks l key (setStorage c l' ⟨i, data⟩) := by
  intro s hs
  by_cases hl : l = l'
  · subst hl
    rw [storage_setStorage_self] at hs
    cases hs
    exact hdata rfl
  · rw [storage_setStorage_ne _ _ hl] at hs
    exact h s hs

theorem notMem_insert {data : Dict} {key' : String} {o : Obj} (hdata : key ∉ data)
    (hkey : key' ≠ key) : key ∉ AList.insert key' o data := by
  rw [AList.mem_insert]
  rintro (heq | hmem)
  · exact hkey heq.symm
  · exact hdata hmem

theorem Lacks.setattr (h : Lacks l key c) {l' : Nat} {key' : String} (o : Obj)
    (hset : ¬ (l' = l ∧ key' = key)) : Lacks l key (Local.setattr i c l' key' o) := by
  rw [setattr_eq]
  refine h.setStorage fun hl => notMem_insert ?_ fun hkey => hset ⟨hl, hkey⟩
  rw [hl]
  exact h.notMem_view i

/-- **Crossings.** If neither context has the key in storage, the restored one does not either. -/
theorem Lacks.restoreContext (ne : Comparison) (i : Nat) {current moved : Context}
    (hc : Lacks l key current) (hm : Lacks l key moved) :
    Lacks l key (restoreContext ne i current moved).1 := by
  intro s hs
  rcases storage_restoreContext_or ne i current moved l with hkeep | ⟨s', hs', hmoved⟩
  · rw [hkeep] at hs
    exact hc s hs
  · rw [hmoved] at hs
    cases hs
    exact hm s' hs'

/-- No operation but setting the key brings it into storage. -/
theorem Lacks.apply {sc : Scope} (h : Lacks l key sc.context) {o : Op} (ho : o.NotSet l key) :
    Lacks l key (o.apply i sc).2.context := by
  cases o with
  | getVar name id fallback => exact h
  | setVar name id v => exact h.of_storage (storage_insert_user ..)
  | resetVar n =>
      unfold Op.apply
      dsimp only
      split
      · exact h.of_storage (storage_reset_user ..)
      · exact h
  | getattr l' key' => exact h
  | setattr l' key' o => exact h.setattr o ho
  | delattr l' key' =>
      unfold Op.apply
      dsimp only
      rw [delattr_eq]
      split
      · rename_i c' hdel
        split at hdel
        · cases hdel
          refine h.setStorage fun hl hmem => ?_
          rw [AList.mem_erase] at hmem
          exact h.notMem_view i (hl ▸ hmem.2)
        · cases hdel
      · exact h

/-! ## Awaitables -/

/-- The frame does not see the key. -/
def HiddenAt (env : Env) (l : Nat) (key : String) (fr : Frame) : Prop :=
  key ∉ view (env.getIdent fr.thread) fr.context l

/-- No frame that got its context from the outermost one has seen the key so far. -/
def NeverSeen (env : Env) (l : Nat) (key : String) (w : World) : Prop :=
  ∀ fr ∈ w.points, fr.inherited = true → HiddenAt env l key fr

theorem NeverSeen.visit {w : World} (h : NeverSeen env l key w) {fr : Frame}
    (hfr : fr.inherited = true → HiddenAt env l key fr) : NeverSeen env l key (w.visit fr) := by
  intro fr' hmem
  rcases List.mem_append.mp hmem with hmem | hmem
  · exact h fr' hmem
  · cases List.mem_singleton.mp hmem
    exact hfr

/-- Once a context lacks the key, so do all that come from it. -/
theorem lacks_invariant (env : Env) {l : Nat} {key : String}
    (hl : ¬ (executors = l ∧ "current" = key)) :
    FrameInvariant env (Op.NotSet l key) (fun fr => fr.inherited = true → Lacks l key fr.context)
      (NeverSeen env l key) (fun _ w => NeverSeen env l key w) where
  same w w' hsame h fr hmem := h fr (by rwa [hsame.points] at hmem)
  visit fr w hI hJ := hJ.visit fun hinherited => (hI hinherited).notMem_view _
  op o fr ho hI hinherited := (hI hinherited).apply ho
  fresh fr hI := hI
  caller e fr hI hinherited := (hI hinherited).setattr _ hl
  -- the task starts in a copy of the caller's context or in an empty one, and merges the caller's
  awaitable caller base t c hI hbase hrestore hinherited := by
    have hcaller := hI hinherited
    have hbase' : Lacks l key base := by
      rcases hbase with rfl | rfl
      · exact hcaller
      · exact .empty l key
    have hc := hbase'.restoreContext env.ne (env.getIdent t) hcaller
    rwa [hrestore] at hc
  unresolved e w hJ := hJ
  captured caller captured c old hI hI' hinherited _ hrestore hcaller := by
    have hc := (hI hcaller).restoreContext env.ne (env.getIdent caller.thread)
      (hI' (hinherited.trans hcaller))
    rw [hrestore] at hc
    exact hc.setattr old hl
  capturedRaised caller captured c e hI hI' hinherited hrestore hcaller := by
    have hc := (hI hcaller).restoreContext env.ne (env.getIdent caller.thread)
      (hI' (hinherited.trans hcaller))
    rwa [hrestore] at hc
  selects fr w r fr' w' hsel hI hJ := by
    cases hsel with
    | pool => exact ⟨hI, hJ⟩
    | current e => exact ⟨hI, hJ⟩
    | sensitive v =>
        refine ⟨hI, ?_⟩
        unfold SyncToAsync.sensitiveWorker
        split <;> exact hJ
    | guarded error h => exact ⟨hI, hJ⟩
    | single h => exact ⟨fun hin => (hI hin).of_storage (storage_insert_user ..), hJ⟩
  deadlock fr w selected fr' w' ref t hsel hI hJ _ _ := by
    cases hsel with
    | sensitive v =>
        unfold SyncToAsync.sensitiveWorker
        split <;> exact hJ
    | _ => exact hJ
  start loop ref t w _ hJ := by cases ref <;> exact hJ
  stop ref t w w' _ _ hJ' := by cases ref <;> exact hJ'
  function fr w selected fr' w' ref t custom hsel hI _ _ hin := by
    -- a function in a custom context does not inherit
    obtain ⟨hin', hnone⟩ := Bool.and_eq_true_iff.mp hin
    obtain rfl := Option.isNone_iff_eq_none.mp hnone
    cases hsel with
    | single h => exact (hI hin').of_storage (storage_insert_user ..)
    | _ => exact hI hin'
  entered fr hI hin := (hI hin).restoreContext _ _ (hI hin)
  returned fr child c hI hI' hinherited hrestore hin := by
    have hc := (hI hin).restoreContext env.ne (env.getIdent fr.thread)
      (hI' (hinherited.trans hin))
    rw [hrestore] at hc
    exact hc.of_storage (storage_insert_user ..)
  returnedRaised fr child c e hI hI' hinherited hrestore hin := by
    have hc := (hI hin).restoreContext env.ne (env.getIdent fr.thread)
      (hI' (hinherited.trans hin))
    rwa [hrestore] at hc
  returnedCustom fr hI hin := (hI hin).of_storage (storage_insert_user ..)

/-! ## The thread itself -/

/-- The frame does nothing but operations on its context and `async_to_sync` calls. -/
def Prog.OwnCalls : {side : Side} → Prog side → Prop
  | _, .finish _ => True
  | _, .op _ next => ∀ reply, (next reply).OwnCalls
  | _, .asyncToSync _ _ next => ∀ r, (next r).OwnCalls
  | _, .asyncioRun _ _ => False
  | _, .syncToAsync _ _ _ _ => False
  | _, .task _ _ => False

/-- At each `async_to_sync` call that the frame itself makes, `C` holds of it. -/
def Prog.AtCalls (env : Env) (C : Frame → Prop) : {side : Side} → Prog side → Frame → World → Prop
  | _, .finish _, _, _ => True
  | _, .op o next, fr, w =>
      let (reply, fr', w') := opStep env o fr (w.visit fr)
      (next reply).AtCalls env C fr' w'
  | _, .asyncToSync forceNewLoop awaitable next, fr, w =>
      C fr ∧ (AsyncToSync.call env forceNewLoop (awaitable.run env) fr (w.visit fr)).Holds
        (fun r fr' w' => (next r).AtCalls env C fr' w') fun _ _ => True
  | _, .asyncioRun main next, fr, w =>
      (Asgiref.asyncioRun (main.run env) fr (w.visit fr)).Holds
        (fun r fr' w' => (next r).AtCalls env C fr' w') fun _ _ => True
  | _, .syncToAsync threadSensitive context func next, fr, w =>
      (SyncToAsync.call env threadSensitive context (func.run env) fr (w.visit fr)).Holds
        (fun r fr' w' => (next r).AtCalls env C fr' w') fun _ _ => True
  | _, .task coro next, fr, w =>
      (Asgiref.task (coro.run env) fr (w.visit fr)).Holds
        (fun r fr' w' => (next r).AtCalls env C fr' w') fun _ _ => True

/-- What is stored for the `Local`, if another thread owns it, does not hold the key. -/
def Unexposed (env : Env) (l : Nat) (key : String) (fr : Frame) : Prop :=
  ∀ s, storage fr.context l = some s → s.owner ≠ env.getIdent fr.thread → key ∉ s.data

/-- An unexposed key that the thread does not see is in no storage. -/
theorem Unexposed.lacks {fr : Frame} (h : Unexposed env l key fr)
    (hhidden : HiddenAt env l key fr) :
    Lacks l key fr.context := by
  intro s hs
  by_cases howner : s.owner = env.getIdent fr.thread
  · cases s
    cases howner
    unfold HiddenAt at hhidden
    rwa [view_of_owner hs] at hhidden
  · exact h s hs howner

/-- No operation but setting the key shows it. -/
theorem HiddenAt.apply {sc : Scope} (h : key ∉ view i sc.context l) {o : Op} (ho : o.NotSet l key) :
    key ∉ view i (o.apply i sc).2.context l := by
  by_cases howned : ∃ data, storage sc.context l = some ⟨i, data⟩
  · obtain ⟨data, hstored⟩ := howned
    have hlacks : Lacks l key sc.context := by
      intro s hs
      rw [hstored] at hs
      cases hs
      rwa [view_of_owner hstored] at h
    exact (hlacks.apply ho).notMem_view i
  · -- the thread owns nothing here, so what it stores is new and what it does not stays unseen
    have hempty : view i sc.context l = ∅ := by
      cases hs : storage sc.context l with
      | none => exact view_of_none hs
      | some s => exact view_of_ne_owner hs fun howner => howned ⟨s.data, howner ▸ hs⟩
    have hsame : ∀ d, storage d l = storage sc.context l → key ∉ view i d l := fun d hd => by
      rwa [view_congr hd]
    cases o with
    | getVar name id fallback => exact h
    | setVar name id v => exact hsame _ (storage_insert_user ..)
    | resetVar n =>
        unfold Op.apply
        dsimp only
        split
        · exact hsame _ (storage_reset_user ..)
        · exact h
    | getattr l' key' => exact h
    | setattr l' key' v =>
        by_cases hl : l = l'
        · subst hl
          rw [show (Op.apply i sc (.setattr l key' v)).2.context
            = Local.setattr i sc.context l key' v from rfl, setattr_eq,
            view_of_owner (storage_setStorage_self ..), hempty]
          exact notMem_insert (by simp) fun hkey => ho ⟨rfl, hkey⟩
        · exact hsame _ (storage_setStorage_ne _ _ hl)
    | delattr l' key' =>
        unfold Op.apply
        dsimp only
        rw [delattr_eq]
        split
        · rename_i c' hdel
          split at hdel
          · rename_i hmem
            cases hdel
            by_cases hl : l = l'
            · subst hl
              rw [hempty] at hmem
              simp at hmem
            · exact hsame _ (storage_setStorage_ne _ _ hl)
          · cases hdel
        · exact h

/-- Along a run of the thread, if the key is unexposed at each of its own calls. -/
theorem Prog.hidden_run (hl : ¬ (executors = l ∧ "current" = key)) {side : Side} (p : Prog side)
    {fr : Frame} {w : World} (hcalls : p.OwnCalls) (hnever : p.AllOps (Op.NotSet l key))
    (hin : fr.inherited = true) (hhidden : HiddenAt env l key fr) (hseen : NeverSeen env l key w)
    (hat : p.AtCalls env (Unexposed env l key) fr w) :
    NeverSeen env l key (p.run env fr w).world := by
  induction p generalizing fr w with
  | finish r => exact hseen.visit fun _ => hhidden
  | op o next ih =>
      exact ih _ (hcalls _) (hnever.2 _) hin (HiddenAt.apply hhidden hnever.1)
        (hseen.visit fun _ => hhidden) hat
  | asyncToSync forceNewLoop child next _ ih =>
      obtain ⟨hunexposed, hnext⟩ := hat
      -- the call takes a context to another thread, but one that lacks the key
      have hinv := lacks_invariant env hl
      have hkept := hinv.asyncToSync (hinv.run child hnever.1) forceNewLoop fr (w.visit fr)
        (fun _ => hunexposed.lacks hhidden) (hseen.visit fun _ => hhidden)
      unfold Prog.run
      cases hcall : AsyncToSync.call env forceNewLoop (child.run env) fr (w.visit fr) with
      | stuck why w' =>
          rw [hcall] at hkept
          exact hkept
      | done r fr' w' =>
          rw [hcall] at hkept hnext
          obtain ⟨hlacks, hseen', hfollows⟩ := hkept
          have hin' : fr'.inherited = true := hfollows.inherited.trans hin
          exact ih r (hcalls r) (hnever.2 r) hin' ((hlacks hin').notMem_view _) hseen' hnext
  | asyncioRun child next _ _ => exact hcalls.elim
  | syncToAsync threadSensitive context child next _ _ => exact hcalls.elim
  | task child next _ _ => exact hcalls.elim

/-- Thread `b` starts in a copy of a context in which thread `a` has set the key, and makes
operations and `async_to_sync` calls of which none sets it. -/
structure InheritedRun (env : Env) (l : Nat) (key : String) (a b : ThreadId) (c : Context)
    (p : Prog .sync) : Prop where
  ident : Function.Injective env.getIdent
  other : a ≠ b
  isSet : key ∈ view (env.getIdent a) c l
  calls : p.OwnCalls
  never : p.AllOps (Op.NotSet l key)
  /-- asgiref sets the `current` executor itself. -/
  own : ¬ (executors = l ∧ "current" = key)

/-- Reading the key raises `AttributeError` in every frame that got its context from thread `b`, at
every point of the run. -/
def HiddenThroughout (env : Env) (l : Nat) (key : String) (b : ThreadId) (c : Context)
    (p : Prog .sync) (w : World) : Prop :=
  ∀ fr ∈ (p.run env (.root b c) w).world.points, fr.inherited = true →
    getattr (env.getIdent fr.thread) fr.context l key = .error (.attributeError key)

/-- **Inherited data stays hidden**, if at each `async_to_sync` call of the thread the storage that
another thread owns does not hold the key. -/
theorem InheritedRun.hidden {a b : ThreadId} {p : Prog .sync} {w : World}
    (h : InheritedRun env l key a b c p) (hw : w.points = [])
    (hat : p.AtCalls env (Unexposed env l key) (.root b c) w) :
    HiddenThroughout env l key b c p w := by
  -- what thread `a` sees it owns, so thread `b` starts without it
  have hhidden : HiddenAt env l key (.root b c) := by
    obtain ⟨s, hstored⟩ : ∃ s, storage c l = some s := by
      by_contra hnone
      have hisSet := h.isSet
      rw [view_of_none (Option.eq_none_iff_forall_ne_some.mpr fun s hs => hnone ⟨s, hs⟩)] at hisSet
      simp at hisSet
    have howner : s.owner = env.getIdent a := by
      by_contra hne
      have hisSet := h.isSet
      rw [view_of_ne_owner hstored hne] at hisSet
      simp at hisSet
    have hne : s.owner ≠ env.getIdent b := fun heq =>
      h.other (h.ident (howner.symm.trans heq))
    unfold HiddenAt
    rw [show view (env.getIdent (Frame.root b c).thread) (Frame.root b c).context l = ∅ from
      view_of_ne_owner hstored hne]
    simp
  have hseen : NeverSeen env l key w := fun fr hmem => by
    rw [hw] at hmem
    cases hmem
  intro fr hmem hin
  have hunseen := p.hidden_run h.own h.calls h.never rfl hhidden hseen hat fr hmem hin
  rw [getattr_eq, AList.lookup_eq_none.mpr hunseen]

/-- The main thread has set `user` on a `Local`. -/
def userContext : Context := setattr 1 ∅ 1 "user" (.other 5)

/-- The main thread has started thread 2. -/
def World.spawned : World := { World.start with nextThread := 3 }

/-- The new thread sets something else on the same `Local`, and then runs an awaitable that asks for
the user. -/
def ownDataFirst : Prog .sync :=
  .op (.setattr 1 "request" (.other 6)) fun _ =>
    .asyncToSync false (.op (.getattr 1 "user") fun _ => .finish (.ok .none)) fun r => .finish r

theorem hidden_ownDataFirst :
    HiddenThroughout plainEnv 1 "user" 2 userContext ownDataFirst .spawned := by
  refine InheritedRun.hidden (a := mainThread) ⟨fun _ _ h => h, by decide, by decide,
    fun _ _ => trivial,
    ⟨by simp [Op.NotSet], fun _ => ⟨⟨trivial, fun _ => trivial⟩, fun _ => trivial⟩⟩,
    by decide⟩ rfl ⟨fun s hs howner => ?_, ?_⟩
  · have hown : storage (setattr 2 userContext 1 "request" (.other 6)) 1 = some s := hs
    rw [setattr_eq, storage_setStorage_self] at hown
    cases hown
    exact absurd rfl howner
  · cases AsyncToSync.call plainEnv false _ _ _ <;> trivial

/-- The new thread runs an awaitable that does nothing, and then asks for the user. -/
def callFirst : Prog .sync :=
  .asyncToSync false (.finish (.ok .none)) fun _ =>
    .op (.getattr 1 "user") fun _ => .finish (.ok .none)

/-- After its first `async_to_sync` call the thread sees what it merely inherited. -/
theorem callFirst_not_hidden :
    InheritedRun plainEnv 1 "user" mainThread 2 userContext callFirst ∧
      ¬ HiddenThroughout plainEnv 1 "user" 2 userContext callFirst .spawned := by
  constructor
  · exact ⟨fun _ _ h => h, by decide, by decide, fun _ _ => trivial,
      ⟨trivial, fun _ => ⟨trivial, fun _ => trivial⟩⟩, by decide⟩
  · unfold HiddenThroughout
    decide

end Asgiref
