import Asgiref.Crossing
import Asgiref.ThreadCritical
import Asgiref.Handshake.Release

/-! # What the caller restores

The list `context` and the future `call_result` are shared without a lock. What the caller restores
is nevertheless the context that the awaitable left: it is captured before the future is resolved,
and the caller looks at it after.

* **`Inv.slot`** — once the caller is no longer parked, `context[0]` is what the awaitable left.
* **`Updated`** — the caller's context after the call, which the awaitable's last context and the
  caller's own decide.
* **`captured`** — that is so in every run. -/

namespace Asgiref

namespace Handshake

open Local

/-- The caller's context after a call whose awaitable left the context `c`. -/
structure Updated (config : Config) (c : Context) (final : Context) : Prop where
  /-- Every variable that the awaitable left set is read with the value it left. -/
  user : ∀ name id v, c.lookup (ContextVar.user name id) = some v →
    final.get (ContextVar.user name id) = some v
  /-- It is set to it, unless the caller had not set it and the value is its default. -/
  userSet : ∀ name id v, c.lookup (ContextVar.user name id) = some v →
    (config.callerContext.lookup (ContextVar.user name id)).isSome ∨ id.default ≠ some v →
      final.lookup (ContextVar.user name id) = some v
  /-- And if so, it stays a variable that is not set. -/
  userUnset : ∀ name id v, c.lookup (ContextVar.user name id) = some v →
    config.callerContext.lookup (ContextVar.user name id) = none → id.default = some v →
      final.lookup (ContextVar.user name id) = none
  /-- Every `Local` it left set shows the caller the data it left. -/
  view : ∀ l, l ≠ config.executors → ∀ storage, Local.storage c l = some storage →
    Local.view config.callerIdent final l = storage.data
  /-- Everything else is the caller's own. -/
  rest : ∀ x, x ≠ .cvar config.executors → c.lookup x = none →
    final.lookup x = config.callerContext.lookup x

/-- What there is to say of a run: once the caller is no longer parked, it has the context that the
awaitable left, and after the call its own context is made of these two alone. -/
structure Captured (config : Config) (s : State) (c : Context) : Prop where
  slot : s.caller ≠ .parked → s.slot = c
  updated : NoForeignTuple c → ∀ raised, s.caller = .exited raised →
    raised = none ∧ Updated config c s.callerContext

variable {config : Config} {s s' : State} {a : Action} {as : List Action}

/-- **Captured before resolved.** A caller that is no longer parked finds in `context[0]` the
context that the awaitable had after its last step. -/
theorem Inv.slot (h : Inv config s) {c : Context} (hlast : s.last = some c)
    (hcaller : s.caller ≠ .parked) : s.slot = c := by
  have hrecorded := h.recorded
  have hawaited := h.awaited hcaller
  -- the future the caller has waited for is done, so no step of the task is under way
  have hmid : s.task.midStep = false := by
    by_contra hmid
    have hmid : s.task.midStep = true := by simpa using hmid
    have hloop := h.midStep hmid
    unfold Awaited at hawaited
    cases hpath : config.path with
    | parentLoop =>
        rw [hpath] at hawaited
        refine hawaited (h.unresolved ?_)
        cases htask : s.task with
        | finished raised => rw [htask] at hmid; cases hmid
        | _ => rfl
    | newLoop =>
        rw [hpath] at hawaited
        rw [show s.loop = .closed from hawaited] at hloop
        cases hloop
  have hunstarted : s.last = none → s.slot = c := fun hnone => by
    rw [hlast] at hnone
    cases hnone
  cases htask : s.task with
  | queued => exact hunstarted (by simpa only [Recorded, htask] using hrecorded)
  | created b => exact hunstarted (by simpa only [Recorded, htask] using hrecorded)
  | awaiting => exact hunstarted (by simpa only [Recorded, htask] using hrecorded)
  | ended r => rw [htask] at hmid; cases hmid
  | captured r => rw [htask] at hmid; cases hmid
  | finished raised =>
      have hslot : ∀ d, s.last = some d → s.slot = d := by
        simpa only [Recorded, htask] using hrecorded
      exact hslot c hlast

/-- What the `finally` block does with a context that can be restored. -/
theorem updated_exit (hne : config.ne.Lawful) {c d : Context} {raised : Option PyError}
    (hplain : NoForeignTuple c)
    (hrestore : restoreContext config.ne config.callerIdent config.callerContext c = (d, raised)) :
    raised = none ∧ Updated config c
      (setattr config.callerIdent d config.executors "current" config.oldExecutor) := by
  have hrestorable : Restorable config.ne config.callerIdent config.callerContext c :=
    fun x v hx =>
      have ⟨_, hmoved, _⟩ := exists_movedValue hplain config.callerIdent x v hx
      .of_lawful hne _ hmoved
  have hnone := restoreContext_none_iff.mpr hrestorable
  rw [hrestore] at hnone
  obtain rfl : raised = none := hnone
  -- the old executor goes into a variable of its own
  have hother : ∀ x, x ≠ .cvar config.executors →
      (setattr config.callerIdent d config.executors "current" config.oldExecutor).lookup x
        = d.lookup x := fun x hx => AList.lookup_insert_ne hx
  have hleft : (restoreContext config.ne config.callerIdent config.callerContext c).1 = d := by
    rw [hrestore]
  have hsame : ∀ name id v, c.lookup (ContextVar.user name id) = some v →
      movedValue config.callerIdent (ContextVar.user name id) v = .ok v := fun name id v hv =>
    movedValue_user fun hname => hplain id v (by subst hname; exact hv)
  have huser : ∀ name id v, c.lookup (ContextVar.user name id) = some v →
      d.get (ContextVar.user name id) = some v ∧
        (d.lookup (ContextVar.user name id) = some v ∨
          config.callerContext.lookup (ContextVar.user name id) = none ∧
            id.default = some v) := by
    intro name id v hv
    obtain ⟨cvalue, hmoved, hget, hset⟩ := get_restoreContext hne hrestore hv
    rw [hsame name id v hv] at hmoved
    cases hmoved
    exact ⟨hget, hset.imp_right And.right⟩
  refine ⟨rfl, ?_, ?_, ?_, ?_, ?_⟩
  · intro name id v hv
    rw [Context.get, hother _ (by simp)]
    exact (huser name id v hv).1
  · intro name id v hv hkept
    rw [hother _ (by simp)]
    rcases (huser name id v hv).2 with hset | ⟨hunset, hdefault⟩
    · exact hset
    · rw [hunset] at hkept
      exact absurd hdefault (hkept.resolve_left (by simp))
  · intro name id v hv hunset hdefault
    rw [hother _ (by simp), ← hleft]
    exact lookup_restoreContext_default (hne _) hv (hsame name id v hv) hunset hdefault
  · intro l hl storage hstorage
    have hstored : Local.storage
        (setattr config.callerIdent d config.executors "current" config.oldExecutor) l
          = some ⟨config.callerIdent, storage.data⟩ :=
      (hother _ (by simpa using hl)).trans (storage_restoreContext hne hrestore hstorage)
    exact view_of_owner hstored
  · intro x hx hunset
    rw [hother x hx, ← hleft]
    exact lookup_restoreContext_none config.ne config.callerIdent hunset

/-- The context of a caller that has exited. -/
structure ExitInv (config : Config) (s : State) : Prop where
  exited : ∀ raised, s.caller = .exited raised → ∀ c, s.last = some c → NoForeignTuple c →
    raised = none ∧ Updated config c s.callerContext

/-- **The `finally` block restores what the awaitable left.** -/
theorem ExitInv.step (hne : config.ne.Lawful) (hinv : Inv config s) (h : ExitInv config s)
    (hs : (machine config).step s a = some s') : ExitInv config s' := by
  have hcase := step_inv hs
  cases hcase with
  | finish r hloop htask =>
      -- the awaitable was under way, so the caller cannot have exited on the parent loop, and on a
      -- new one that loop would be closed
      refine ⟨fun raised hcaller => ?_⟩
      have hawaited := hinv.awaited (by rw [show s.caller = .exited raised from hcaller]; simp)
      unfold Awaited at hawaited
      cases hpath : config.path with
      | parentLoop =>
          rw [hpath] at hawaited
          exact absurd (hinv.unresolved (by rw [htask]; rfl)) hawaited
      | newLoop =>
          rw [hpath] at hawaited
          rw [show s.loop = .closed from hawaited] at hloop
          cases hloop
  | wake hcaller hdone => exact ⟨fun raised hexited => by cases hexited⟩
  | exit c hcaller hrestore =>
      refine ⟨fun raised hexited d hlast hplain => ?_⟩
      cases hexited
      rw [hinv.callerContext (fun raised heq => by rw [hcaller] at heq; cases heq),
        hinv.slot hlast (by rw [hcaller]; simp)] at hrestore
      exact updated_exit hne hplain hrestore
  | exitRaising c e hcaller hrestore =>
      refine ⟨fun raised hexited d hlast hplain => ?_⟩
      cases hexited
      rw [hinv.callerContext (fun raised heq => by rw [hcaller] at heq; cases heq),
        hinv.slot hlast (by rw [hcaller]; simp)] at hrestore
      cases (updated_exit hne hplain hrestore).1
  | _ => exact ⟨h.exited⟩

/-- **No update is lost.** In every state of every run, whichever way the awaitable ended and
whatever ran besides it: if it has ended with the context `c`, the caller restores `c`, and leaves
the call with the values in `c` and, where `c` has none, with its own. -/
theorem captured (hne : config.ne.Lawful)
    (h : (machine config).Run Machine.Any (init config) as s) {c : Context}
    (hlast : s.last = some c) : Captured config s c := by
  have hexit : ExitInv config s :=
    h.invariant_of (J := Inv config) (fun _ _ => Inv.run) ⟨fun raised hexited => by cases hexited⟩
      fun _ _ _ hinv hI _ hs => hI.step hne hinv hs
  exact ⟨(Inv.run h).slot hlast, fun hplain raised hcaller =>
    hexit.exited raised hcaller c hlast hplain⟩

/-- A call whose awaitable leaves this context, while a child task works in a context of its own. -/
def callLeaving (c : Context) : List Action :=
  [.create, .start, .work c, .finish (.ok .none), .capture, .otherWork 0 oneVariable,
    .resolve false, .otherWork 0 ∅, .wake, .exit]

/-- The caller has exited, with the variable that the awaitable has set. -/
theorem captured_callLeaving :
    ∃ s, (machine (onParentLoop .plain ∅)).exec (init (onParentLoop .plain ∅))
        (callLeaving oneVariable) = some s ∧ s.caller = .exited none ∧
      NoForeignTuple oneVariable ∧ Captured (onParentLoop .plain ∅) s oneVariable ∧
      s.callerContext.lookup (ContextVar.user "x" ⟨0, none⟩) = some (.obj (.int 1)) := by
  have hrun := Machine.exec_run (show (machine (onParentLoop .plain ∅)).exec
    (init (onParentLoop .plain ∅)) (callLeaving oneVariable) = some _ from rfl)
  exact ⟨_, rfl, rfl, by decide, captured Comparison.plain_lawful hrun rfl, by decide⟩

/-- A context with a tuple in a variable of the name `cvarName`. -/
def foreignTuple : Context :=
  (∅ : Context).insert (ContextVar.user cvarName ⟨0, none⟩) (.tuple [.int 8, .int 9])

/-- A context with a variable that is set to its default. -/
def atDefault : Context :=
  (∅ : Context).insert (ContextVar.user "x" ⟨0, some (.obj (.int 0))⟩) (.obj (.int 0))

/-- What the awaitable wrote is not all visible to the caller. A tuple in a foreign variable of the
name `cvarName` arrives changed; a variable that was set to its default arrives as one that is not
set; and what a thread-critical `Local` holds on the loop's thread is not what sync code reads of
it, on a thread that has set nothing there. -/
theorem not_all_captured :
    (∃ s, (machine (onParentLoop .plain ∅)).exec (init (onParentLoop .plain ∅))
        (callLeaving foreignTuple) = some s ∧ s.last = some foreignTuple ∧
      s.caller = .exited none ∧
      s.callerContext.lookup (ContextVar.user cvarName ⟨0, none⟩) =
        some (.tuple [.int 1, .int 9])) ∧
    (∃ s, (machine (onParentLoop .plain ∅)).exec (init (onParentLoop .plain ∅))
        (callLeaving atDefault) = some s ∧ s.last = some atDefault ∧ s.caller = .exited none ∧
      s.callerContext.lookup (ContextVar.user "x" ⟨0, some (.obj (.int 0))⟩) = none) ∧
    (∃ s, (machine (onParentLoop .plain ∅)).exec (init (onParentLoop .plain ∅))
        (callLeaving (ThreadCritical.setattrAsync ∅ 5 2 "k" (.int 7))) = some s ∧
      s.caller = .exited none ∧
      ThreadCritical.getattrAsync (ThreadCritical.setattrAsync ∅ 5 2 "k" (.int 7)) 5 2 "k"
        = .ok (.int 7) ∧
      ThreadCritical.getattrSync ∅ "k" = .error (.attributeError "k")) :=
  ⟨⟨_, rfl, rfl, rfl, by decide⟩, ⟨_, rfl, rfl, rfl, by decide⟩,
    ⟨_, rfl, rfl, by decide, by decide⟩⟩

end Handshake

end Asgiref
