import Asgiref.Bridge.Rules

/-! # The contexts that a run restores

Every call restores two contexts: one on the way there and one on the way back. A run keeps a record
of them, which only grows.

* **`World.PlainSince`** — nothing that was restored since was out of the ordinary: see
  `Crossing.Plain`. A span of a run can be cut in two, with **`PlainSince.split`**.
* **`Grows`** — code that adds to the record and takes nothing from it; **`Prog.run_grows`**, that
  every program does.
* **`AsyncToSync.mainWrap_crossings`** and the lemmas after it — what the ends of a call restore. -/

namespace Asgiref

/-- Every context that was restored between the two worlds was plain. -/
def World.PlainSince (w w' : World) : Prop :=
  ∃ new, w'.crossings = w.crossings ++ new ∧ ∀ crossing ∈ new, crossing.Plain

namespace World.PlainSince

variable {w w' w'' : World} {moved current : Context}

/-- **A span is plain where both its parts are.** -/
theorem split (h : w.PlainSince w'') (hfirst : w.crossings <+: w'.crossings)
    (hlast : w'.crossings <+: w''.crossings) : w.PlainSince w' ∧ w'.PlainSince w'' := by
  obtain ⟨new, hnew, hplain⟩ := h
  obtain ⟨first, hfirst⟩ := hfirst
  obtain ⟨last, hlast⟩ := hlast
  have hboth : first ++ last = new := by
    rw [← hlast, ← hfirst, List.append_assoc] at hnew
    exact List.append_cancel_left hnew
  subst hboth
  exact ⟨⟨first, hfirst.symm, fun c hc => hplain c (List.mem_append_left _ hc)⟩,
    ⟨last, hlast.symm, fun c hc => hplain c (List.mem_append_right _ hc)⟩⟩

/-- Of a world without a record, all that is restored later is new. -/
theorem of_nil (hnone : w.crossings = []) (h : ∀ crossing ∈ w'.crossings, crossing.Plain) :
    w.PlainSince w' :=
  ⟨w'.crossings, by rw [hnone, List.nil_append], h⟩

/-- Only the record counts. -/
theorem congr {v v' : World} (h : w.PlainSince w') (hfrom : v.crossings = w.crossings)
    (hto : v'.crossings = w'.crossings) : v.PlainSince v' := by
  unfold World.PlainSince
  rw [hfrom, hto]
  exact h

/-- A span that begins with a context that is restored. -/
theorem of_cross (h : w.PlainSince w')
    (hgrows : (w.cross moved current).crossings <+: w'.crossings) :
    Crossing.Plain ⟨moved, current⟩ ∧ (w.cross moved current).PlainSince w' := by
  obtain ⟨⟨new, hnew, hplain⟩, hrest⟩ := h.split (List.prefix_append ..) hgrows
  obtain rfl : [⟨moved, current⟩] = new := List.append_cancel_left hnew
  exact ⟨hplain _ (List.mem_singleton_self _), hrest⟩

end World.PlainSince

/-! ## Programs -/

/-- Choosing an executor restores nothing. -/
theorem SyncToAsync.Selects.crossings {fr fr' : Frame} {w w' : World}
    {r : Except PyError ExecutorRef} (h : Selects fr w r fr' w') : w'.crossings = w.crossings := by
  cases h with
  | sensitive v =>
      unfold sensitiveWorker
      split <;> rfl
  | _ => rfl

/-- What is in the record stays there. -/
theorem crossings_invariant (env : Env) (allowed : Op → Prop) (crossings : List Crossing) :
    FrameInvariant env allowed (fun _ => True) (fun w => crossings <+: w.crossings)
      (fun _ w => crossings <+: w.crossings) where
  same w w' hsame hJ := hJ.trans hsame.crossings
  visit fr w _ hJ := hJ
  op o fr _ _ := trivial
  fresh fr _ := trivial
  caller e fr _ := trivial
  awaitable caller base t c _ _ _ := trivial
  unresolved e w hJ := hJ
  captured caller captured c old _ _ _ _ _ := trivial
  capturedRaised caller captured c e _ _ _ _ := trivial
  selects fr w r fr' w' hselects _ hJ := ⟨trivial, hselects.crossings ▸ hJ⟩
  deadlock fr w selected fr' w' ref t hselects _ hJ _ _ := hselects.crossings ▸ hJ
  start loop ref t w _ hJ := by cases ref <;> exact hJ
  stop ref t w w' _ _ hJ := by cases ref <;> exact hJ
  function fr w selected fr' w' ref t custom _ _ _ _ := trivial
  entered fr _ := trivial
  returned fr child c _ _ _ _ := trivial
  returnedRaised fr child c e _ _ _ _ := trivial
  returnedCustom fr _ := trivial

/-- The code adds to the record and takes nothing from it. -/
def Grows (body : Body) : Prop :=
  ∀ crossings, FrameInvariant.Keeps (fun _ => True) (fun w => crossings <+: w.crossings)
    (fun _ w => crossings <+: w.crossings) body

/-- An outcome that satisfies this has the record. -/
theorem Outcome.Holds.crossings {crossings : List Crossing} {o : Outcome}
    (h : o.Holds (fun _ _ w => crossings <+: w.crossings) fun _ w => crossings <+: w.crossings) :
    crossings <+: o.world.crossings := by
  cases o with
  | done r fr w => exact h
  | stuck why w => exact h

variable {env : Env} {body : Body}

theorem Grows.world (h : Grows body) (fr : Frame) (w : World) :
    w.crossings <+: (body fr w).world.crossings :=
  ((h w.crossings fr w trivial List.prefix_rfl).mono fun _ _ _ hkept => hkept.2.1).crossings

/-- **Every program adds to the record.** -/
theorem Prog.run_grows {side : Side} {allowed : Op → Prop} (p : Prog side) (hp : p.AllOps allowed) :
    Grows (p.run env) :=
  fun crossings => (crossings_invariant env allowed crossings).run p hp

theorem Grows.asyncToSync (h : Grows body) (forceNewLoop : Bool) :
    Grows (AsyncToSync.call env forceNewLoop body) :=
  fun crossings => (crossings_invariant env (fun _ => True) crossings).asyncToSync (h crossings)
    forceNewLoop

theorem Grows.syncToAsync (h : Grows body) (threadSensitive : Bool) (custom : Option Context) :
    Grows (SyncToAsync.call env threadSensitive custom body) :=
  fun crossings => (crossings_invariant env (fun _ => True) crossings).syncToAsync (h crossings)
    threadSensitive custom

theorem Grows.task (h : Grows body) : Grows (Asgiref.task body) :=
  fun crossings => (crossings_invariant plainEnv (fun _ => True) crossings).task (h crossings)

/-! ## The two ends of a call -/

/-- What comes after adds to the record. -/
theorem Outcome.bind_crossings (o : Outcome) {next : Result → Body}
    (hnext : ∀ r fr w, w.crossings <+: (next r fr w).world.crossings) :
    o.world.crossings <+: (o.bind next).world.crossings := by
  cases o with
  | done r fr w => exact hnext r fr w
  | stuck why w => exact List.prefix_rfl

/-- What comes after restores nothing. -/
theorem Outcome.bind_crossings_eq (o : Outcome) {next : Result → Body}
    (hnext : ∀ r fr w, (next r fr w).world.crossings = w.crossings) :
    (o.bind next).world.crossings = o.world.crossings := by
  cases o with
  | done r fr w => exact hnext r fr w
  | stuck why w => rfl

/-- `main_wrap` restores the caller's context and runs the awaitable. -/
theorem AsyncToSync.mainWrap_crossings (h : Grows body) (base : Context) (caller : Frame)
    (t : ThreadId) {raised : PyError → World → Outcome}
    (hraised : ∀ e w', w'.crossings <+: (raised e w').world.crossings) (w : World) :
    (w.cross caller.context base).crossings <+:
      (mainWrap env body base caller t raised w).world.crossings := by
  unfold mainWrap
  dsimp only
  split
  · exact h.world _ _
  · exact hraised _ _

theorem AsyncToSync.dispatch_crossings (h : Grows body) (forceNewLoop : Bool) (e : ExecId)
    (caller : Frame) (w : World) :
    w.crossings <+: (dispatch env forceNewLoop body e caller w).world.crossings :=
  (((crossings_invariant env (fun _ => True) w.crossings).dispatch (h w.crossings) forceNewLoop e
    trivial List.prefix_rfl).mono fun _ _ _ hkept => hkept.2.1).crossings

/-- The end of a call restores what `main_wrap` captured. -/
theorem AsyncToSync.leave_crossings (e : ExecId) (old : Obj) (r : Result) (captured caller : Frame)
    (w : World) : (w.cross captured.context caller.context).crossings <+:
      (leave env e old r captured caller w).world.crossings := by
  unfold leave
  dsimp only
  split <;> exact List.prefix_rfl

/-- `thread_handler` restores the context that it was started in, and runs the function. -/
theorem SyncToAsync.threadHandler_crossings (h : Grows body) (start : Frame) (w : World) :
    (w.cross start.context start.context).crossings <+:
      (threadHandler env body start w).world.crossings := by
  unfold threadHandler
  dsimp only
  split
  · exact h.world _ _
  · exact List.prefix_rfl

/-- The end of a call restores the context of its function. -/
theorem SyncToAsync.leave_crossings (r : Result) (child fr : Frame) (w : World) :
    (w.cross child.context fr.context).crossings <+:
      (leave env none r child fr w).world.crossings := by
  unfold leave
  dsimp only
  split <;> exact List.prefix_rfl

end Asgiref
