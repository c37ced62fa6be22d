import Asgiref.Bridge.World

/-! # A context of the caller's own

`sync_to_async(func, context=ctx)` runs the function in `ctx`. `_restore_context` re-homes all
storage in `ctx` to the worker thread before the function starts; afterwards nothing is restored, so
the caller's context keeps its variables, and the storage in `ctx` stays with the worker.

* **`customAfter`** — what `ctx` holds after the call.
* **`Ran`** — the call came to run its function, which ended.
* **`Reflects`** — read from the loop thread, `ctx` is as the function left it, and as it was where
  the function did not touch it.
* **`Rehomed`** — a variable of other code that the re-homing changes: a tuple under the name
  `cvarName`.
* **`LeavesNothing`** — the function left no attribute in the `Local`s that the loop thread had, and
  touched every variable that was re-homed.
* **`customContext_iff`** — the caller's own variables are kept; and `ctx` reflects what the
  function left exactly if it left nothing. -/

namespace Asgiref

open Local

/-- What a custom context holds after the call: it is as the function left it. -/
def SyncToAsync.customAfter (env : Env) (threadSensitive : Bool) (ctx : Context) (func : Body)
    (fr : Frame) (w : World) : Context :=
  match w.runningLoop fr.thread with
  | none => ctx
  | some loop =>
      match selectExecutor env threadSensitive loop fr w with
      | (.error _, _, _) => ctx
      | (.ok selected, fr, w) =>
          match submit fr.thread w selected with
          | .error _ => ctx
          | .ok (ref, t) =>
              match threadHandler env func (childFrame (some ctx) ref t fr)
                  (startItem env loop ref t w) with
              | .done _ child _ => child.context
              | .stuck _ _ => ctx

/-- The call comes to run its function, on thread `t`. The function starts in the context `entered`,
ends with `r` and leaves the frame `child`. -/
inductive Ran (env : Env) (threadSensitive : Bool) (ctx : Context) (func : Body) (fr : Frame)
    (w : World) (t : ThreadId) (entered : Context) (r : Result) (child : Frame) : Prop
  | intro {loop : LoopId} {selected ref : ExecutorRef} {fr₁ : Frame} {w₁ w₂ : World}
      (hloop : w.runningLoop fr.thread = some loop)
      (hselect : SyncToAsync.selectExecutor env threadSensitive loop fr w =
        (.ok selected, fr₁, w₁))
      (hsubmit : SyncToAsync.submit fr₁.thread w₁ selected = .ok (ref, t))
      (hserves : SyncToAsync.serves ref t w₁ = true)
      (hrestore : restoreContext env.ne (env.getIdent t) ctx ctx = (entered, none))
      (hfunc : func { SyncToAsync.childFrame (some ctx) ref t fr₁ with context := entered }
        ((SyncToAsync.startItem env loop ref t w₁).cross ctx ctx) = .done r child w₂)

/-- The function touched no variables but these, `Local`s apart: it left every other one as it found
it. -/
def TouchesOnly (touched : Set ContextVar) (entered left : Context) : Prop :=
  ∀ x, (∀ l, x ≠ .cvar l) → x ∉ touched → left.lookup x = entered.lookup x

/-- Read on the loop thread, the context `after` is as the function left it on the worker: every
context variable that it touched, and every attribute of the `Local`s whose storage belonged to the
loop thread. Every other variable is as it was before the call. -/
structure Reflects (touched : Set ContextVar) (loopIdent workerIdent : Nat)
    (ctx left after : Context) : Prop where
  asLeft : ∀ x, (∀ l, x ≠ .cvar l) → x ∈ touched → after.lookup x = left.lookup x
  asBefore : ∀ x, (∀ l, x ≠ .cvar l) → x ∉ touched → after.lookup x = ctx.lookup x
  attributes : ∀ l storage, Local.storage ctx l = some storage → storage.owner = loopIdent →
    ∀ key, getattr loopIdent after l key = getattr workerIdent left l key

/-- The worker's `_restore_context` changes the value of a variable. -/
def Rehomed (ne : Comparison) (workerIdent : Nat) (x : ContextVar) (v : x.Val) : Prop :=
  ∃ cvalue, movedValue workerIdent x v = .ok cvalue ∧ cvalue ≠ v ∧ ne x v cvalue ≠ .ok false

/-- The function leaves no attribute in the `Local`s whose storage belonged to the loop thread,
neither on its own thread nor on that one, and touches every other variable that the worker's
`_restore_context` has changed. -/
structure LeavesNothing (ne : Comparison) (touched : Set ContextVar) (loopIdent workerIdent : Nat)
    (ctx left : Context) : Prop where
  attributes : ∀ l storage, Local.storage ctx l = some storage → storage.owner = loopIdent →
    view workerIdent left l = ∅ ∧ view loopIdent left l = ∅
  foreign : ∀ x, (∀ l, x ≠ .cvar l) → ∀ v, ctx.lookup x = some v → Rehomed ne workerIdent x v →
    x ∈ touched

variable {env : Env} {b : Bool} {ctx entered : Context} {func : Body} {fr fr' child : Frame}
  {w w' : World} {t : ThreadId} {r : Result}

/-- Choosing an executor touches no variable but `deadlock_context`. -/
theorem selectExecutor_lookup {loop : LoopId} {selected : Except PyError ExecutorRef}
    (h : SyncToAsync.selectExecutor env b loop fr w = (selected, fr', w')) {x : ContextVar}
    (hx : x ≠ deadlockContext) : fr'.context.lookup x = fr.context.lookup x := by
  unfold SyncToAsync.selectExecutor SyncToAsync.selectThreadSensitive
    SyncToAsync.selectOutermost at h
  repeat' split at h
  all_goals
    cases h
    first
      | rfl
      | exact AList.lookup_insert_ne hx

/-- **The caller's own context** keeps every variable but `deadlock_context`, however the call
ends. -/
theorem custom_lookup (h : SyncToAsync.call env b (some ctx) func fr w = .done r fr' w')
    {x : ContextVar} (hx : x ≠ deadlockContext) : fr'.context.lookup x = fr.context.lookup x := by
  unfold SyncToAsync.call at h
  split at h
  · cases h
    rfl
  · rename_i loop _
    split at h
    · rename_i e fr₁ w₁ hselect
      cases h
      exact selectExecutor_lookup hselect hx
    · rename_i selected fr₁ w₁ hselect
      split at h
      · cases h
        exact selectExecutor_lookup hselect hx
      · rename_i ref t _
        split at h
        · cases hhandler : SyncToAsync.threadHandler env func
              (SyncToAsync.childFrame (some ctx) ref t fr₁)
              (SyncToAsync.startItem env loop ref t w₁) with
          | stuck why w₂ =>
              rw [hhandler] at h
              cases h
          | done r' child w₂ =>
              rw [hhandler] at h
              cases h
              -- the `finally` resets `deadlock_context`, and restores nothing
              show (setDeadlock fr₁.context false).lookup x = fr.context.lookup x
              rw [setDeadlock, AList.lookup_insert_ne hx]
              exact selectExecutor_lookup hselect hx
        · cases h

/-- Nothing is done to the custom context once the function has ended. -/
theorem Ran.customAfter (h : Ran env b ctx func fr w t entered r child) :
    SyncToAsync.customAfter env b ctx func fr w = child.context := by
  obtain ⟨hloop, hselect, hsubmit, hserves, hrestore, hfunc⟩ := h
  unfold SyncToAsync.customAfter
  rw [hloop]
  simp only [hselect, hsubmit]
  unfold SyncToAsync.threadHandler
  dsimp only
  rw [show restoreContext env.ne (env.getIdent (SyncToAsync.childFrame (some ctx) _ t _).thread)
    (SyncToAsync.childFrame (some ctx) _ t _).context
    (SyncToAsync.childFrame (some ctx) _ t _).context = _ from hrestore]
  dsimp only
  rw [show (SyncToAsync.childFrame (some ctx) _ t _).context = ctx from rfl]
  simp only [hfunc]

/-- What the function finds in `ctx` was restored there. -/
theorem Ran.rehomed (h : Ran env b ctx func fr w t entered r child) :
    restoreContext env.ne (env.getIdent t) ctx ctx = (entered, none) := by
  obtain ⟨-, -, -, -, hrestore, -⟩ := h
  exact hrestore

/-! ## What is re-homed -/

/-- Only a tuple under the name of the `Local` variables is changed. -/
theorem Rehomed.exists_tuple {ne : Comparison} {i : Nat} {x : ContextVar} {v : x.Val}
    (h : Rehomed ne i x v) (hx : ∀ l, x ≠ .cvar l) :
    ∃ id items, x = .user cvarName id ∧ HEq v (Value.tuple items) := by
  obtain ⟨cvalue, hmoved, hchanged, -⟩ := h
  cases x with
  | cvar l => exact absurd rfl (hx l)
  | critical l t =>
      cases hmoved
      exact absurd rfl hchanged
  | user name id =>
      cases v with
      | obj o =>
          cases hmoved
          exact absurd rfl hchanged
      | tuple items =>
          by_cases hname : name = cvarName
          · subst hname
            exact ⟨id, items, rfl, .rfl⟩
          · rw [movedValue_user fun h => absurd h hname] at hmoved
            cases hmoved
            exact absurd rfl hchanged

/-- **What re-homing a context in itself changes.** -/
theorem lookup_restoreContext_self {ne : Comparison} {i : Nat}
    (h : restoreContext ne i ctx ctx = (entered, none)) {x : ContextVar} {v : x.Val}
    (hx : ctx.lookup x = some v) : entered.lookup x = ctx.lookup x ↔ ¬ Rehomed ne i x v := by
  obtain rfl : (restoreContext ne i ctx ctx).1 = entered := congrArg Prod.fst h
  have hnone : (restoreContext ne i ctx ctx).2 = none := congrArg Prod.snd h
  rcases lookup_restoreContext_turn ne i ctx hx with ⟨hkeep, hleft⟩ | ⟨w, hset, hw⟩
  · refine iff_of_true hkeep ?_
    rintro ⟨cvalue, hmoved, -, hne⟩
    obtain ⟨w, hw, hfalse⟩ := (restoreTurn_eq_none_iff hmoved).mp (hleft hnone)
    rw [hx, Option.some_or] at hw
    cases hw
    exact hne hfalse
  · obtain ⟨cvalue, hmoved⟩ := exists_of_restoreTurn hset
    obtain rfl := restoreTurn_eq_some hmoved hset
    rw [hw, hx, Option.some.injEq]
    constructor
    · rintro rfl ⟨cvalue, hmoved', hchanged, -⟩
      rw [hmoved] at hmoved'
      cases hmoved'
      exact hchanged rfl
    · intro hnot
      by_contra hchanged
      refine hnot ⟨w, hmoved, hchanged, fun hfalse => ?_⟩
      have hleft : contextTurn ne i x (ctx.lookup x) v = .ok none :=
        (restoreTurn_eq_none_iff hmoved).mpr ⟨v, by rw [hx, Option.some_or], hfalse⟩
      rw [hleft] at hset
      cases hset

/-! ## Reading on another thread -/

/-- Data in which no attribute can be found is empty. -/
theorem eq_empty_of_lookup {data : Dict} (h : ∀ key, data.lookup key = none) : data = ∅ := by
  apply AList.ext
  show data.entries = []
  rw [List.eq_nil_iff_forall_not_mem]
  intro entry hmem
  have hlookup := AList.mem_lookup_iff.mpr hmem
  rw [Option.mem_def, h entry.1] at hlookup
  cases hlookup

/-- Reading attributes that are not there. -/
theorem getattr_of_view_empty {i : Nat} {c : Context} {l : Nat} (h : view i c l = ∅)
    (key : String) : getattr i c l key = .error (.attributeError key) := by
  rw [getattr_eq, h]
  rfl

/-- If nothing can be read, there is nothing. -/
theorem view_empty_of_getattr {i : Nat} {c : Context} {l : Nat}
    (h : ∀ key, getattr i c l key = .error (.attributeError key)) : view i c l = ∅ := by
  refine eq_empty_of_lookup fun key => ?_
  have hkey := h key
  rw [getattr_eq] at hkey
  cases hlookup : (view i c l).lookup key with
  | none => rfl
  | some o =>
      rw [hlookup] at hkey
      cases hkey

/-- At most one of two threads sees the data of a `Local`. -/
theorem view_empty_or {i j : Nat} (hij : i ≠ j) (c : Context) (l : Nat) :
    view i c l = ∅ ∨ view j c l = ∅ := by
  cases hstorage : storage c l with
  | none => exact .inl (view_of_none hstorage)
  | some s =>
      obtain ⟨owner, data⟩ := s
      by_cases howner : owner = i
      · subst howner
        exact .inr (view_of_ne_owner hstorage hij)
      · exact .inl (view_of_ne_owner hstorage howner)

/-- **Two threads read the same of a `Local`** exactly if neither of them sees anything. -/
theorem getattr_eq_iff {i j : Nat} (hij : i ≠ j) (c : Context) (l : Nat) :
    (∀ key, getattr i c l key = getattr j c l key) ↔ view j c l = ∅ ∧ view i c l = ∅ := by
  constructor
  · intro hsame
    -- one of them is not the owner and sees nothing, so the other must see nothing either
    rcases view_empty_or hij c l with hi | hj
    · refine ⟨view_empty_of_getattr fun key => ?_, hi⟩
      rw [← hsame key, getattr_of_view_empty hi]
    · refine ⟨hj, view_empty_of_getattr fun key => ?_⟩
      rw [hsame key, getattr_of_view_empty hj]
  · rintro ⟨hj, hi⟩ key
    rw [getattr_of_view_empty hi, getattr_of_view_empty hj]

/-- **A custom context.** However the call ends, every variable of the caller's own context but
`deadlock_context` keeps its value. And if its function ran, on a thread with another ident than the
loop's, then the custom context, read on the loop thread, is as the function left it if and only if
the function left no attribute in the `Local`s whose storage belonged to the loop thread, and
touched what was re-homed of other code's variables. -/
theorem customContext_iff (env : Env) (b : Bool) (ctx : Context) (func : Body) (fr : Frame)
    (w : World) :
    (∀ r fr' w', SyncToAsync.call env b (some ctx) func fr w = .done r fr' w' →
      ∀ x, x ≠ deadlockContext → fr'.context.lookup x = fr.context.lookup x) ∧
    ∀ t entered r child, Ran env b ctx func fr w t entered r child →
      env.getIdent fr.thread ≠ env.getIdent t →
      ∀ touched, TouchesOnly touched entered child.context →
        (Reflects touched (env.getIdent fr.thread) (env.getIdent t) ctx child.context
            (SyncToAsync.customAfter env b ctx func fr w) ↔
          LeavesNothing env.ne touched (env.getIdent fr.thread) (env.getIdent t) ctx
            child.context) := by
  refine ⟨fun r fr' w' hcall x hx => custom_lookup hcall hx,
    fun t entered r child hran hident touched htouched => ?_⟩
  rw [hran.customAfter]
  constructor
  · intro h
    refine ⟨fun l s hs howner => ?_, fun x hx v hv hrehomed => ?_⟩
    · exact (getattr_eq_iff hident child.context l).mp (h.attributes l s hs howner)
    · -- the function found the variable changed, and it would be as before
      by_contra hnot
      have hbefore := (htouched x hx hnot).symm.trans (h.asBefore x hx hnot)
      exact (lookup_restoreContext_self hran.rehomed hv).mp hbefore hrehomed
  · intro hnothing
    refine ⟨fun _ _ _ => rfl, fun x hx hnot => ?_, fun l s hs howner => ?_⟩
    · rw [htouched x hx hnot]
      cases hv : ctx.lookup x with
      | none =>
          obtain rfl : (restoreContext env.ne (env.getIdent t) ctx ctx).1 = entered :=
            congrArg Prod.fst hran.rehomed
          rw [lookup_restoreContext_none _ _ hv, hv]
      | some v =>
          rw [← hv]
          exact (lookup_restoreContext_self hran.rehomed hv).mpr
            fun hrehomed => hnot (hnothing.foreign x hx v hv hrehomed)
    · exact (getattr_eq_iff hident child.context l).mpr (hnothing.attributes l s hs howner)

/-- A world with a loop on the main thread. -/
def loopWorld : World :=
  { World.start with
    nextLoop := 1
    runningLoop := Function.update (fun _ => none) mainThread (some 0)
    loopThread := fun _ => mainThread }

/-- The main thread's coroutine. -/
def loopFrame : Frame := .root mainThread ∅

/-- A context in which the loop thread has set an attribute. -/
def ownedContext : Context := setattr 1 ∅ 1 "user" (.int 1)

/-- A function that deletes the attribute. -/
def deleteUser : Prog .sync := .op (.delattr 1 "user") fun r => match r with
  | .result r => .finish r
  | .var _ => .finish (.ok .none)

/-- The attribute is gone on the loop thread too. -/
theorem customContext_iff_deleteUser :
    ∃ entered child, Ran plainEnv true ownedContext (deleteUser.run plainEnv) loopFrame loopWorld 0
        entered (.ok .none) child ∧
      getattr 0 entered 1 "user" = .ok (.int 1) ∧
      Reflects ∅ 1 0 ownedContext child.context
        (SyncToAsync.customAfter plainEnv true ownedContext (deleteUser.run plainEnv) loopFrame
          loopWorld) := by
  have hran : Ran plainEnv true ownedContext (deleteUser.run plainEnv) loopFrame loopWorld 0 _
    (.ok .none) _ := .intro rfl rfl rfl rfl rfl rfl
  have hother : ∀ x, (∀ l, x ≠ .cvar l) → ownedContext.lookup x = none :=
    fun x hx => AList.lookup_insert_ne (hx 1)
  refine ⟨_, _, hran, by decide, ?_⟩
  refine ((customContext_iff plainEnv true ownedContext (deleteUser.run plainEnv) loopFrame
    loopWorld).2 0 _ _ _ hran (by decide) ∅ ?_).mpr ⟨fun l s hs _ => ?_, fun x hx v hv => ?_⟩
  · exact fun x hx _ => AList.lookup_insert_ne (hx 1)
  · by_cases hl : l = 1
    · subst hl
      exact ⟨by decide, by decide⟩
    · rw [ownedContext, setattr_eq, storage_setStorage_ne _ _ hl] at hs
      cases hs
  · rw [hother x hx] at hv
    cases hv

/-- A function that does nothing. -/
def idle : Body := fun fr w => .done (.ok .none) fr w

/-- A context with a tuple in a variable of other code. -/
def tupleContext : Context :=
  (∅ : Context).insert (.user cvarName ⟨7, none⟩) (.tuple [.int 8, .int 9])

/-- The function does nothing, and the attribute can no longer be read on the loop thread. Nor does
a tuple under the name of the `Local` variables read as before. -/
theorem ownedContext_not_reflected :
    (∃ entered child,
      Ran plainEnv true ownedContext idle loopFrame loopWorld 0 entered (.ok .none) child ∧
      TouchesOnly ∅ entered child.context ∧
      ¬ Reflects ∅ 1 0 ownedContext child.context
        (SyncToAsync.customAfter plainEnv true ownedContext idle loopFrame loopWorld)) ∧
    getattr 1 ownedContext 1 "user" = .ok (.int 1) ∧
    getattr 1 (SyncToAsync.customAfter plainEnv true ownedContext idle loopFrame loopWorld) 1
      "user" =
      .error (.attributeError "user") ∧
    (SyncToAsync.customAfter plainEnv true tupleContext idle loopFrame loopWorld).lookup
      (.user cvarName ⟨7, none⟩) = some (.tuple [.int 0, .int 9]) := by
  have hran : Ran plainEnv true ownedContext idle loopFrame loopWorld 0 _ (.ok .none) _ :=
    .intro rfl rfl rfl rfl rfl rfl
  refine ⟨⟨_, _, hran, fun _ _ _ => rfl, fun h => ?_⟩, by decide, by decide, by decide⟩
  have hread := h.attributes 1 ⟨1, (∅ : Dict).insert "user" (.int 1)⟩ rfl rfl "user"
  exact absurd hread (by decide)

end Asgiref
