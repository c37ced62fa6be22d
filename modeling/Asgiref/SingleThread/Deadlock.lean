import Mathlib.Data.List.Nodup
import Mathlib.Data.Nat.Basic
import Mathlib.Order.Basic
import Asgiref.SingleThread.Machine

/-! # Jobs that wait for themselves

The worker of a context's executor runs one job at a time. A job that is queued there by code which
the running job awaits never starts.

* **`Awaits`** — a frame awaits another one, through any number of frames.
* **`NoSelfWait`** — no job is queued that the running job of the same executor awaits.
* **`FindsParent`** — code that the running job awaits, and that has the context, calls
  `async_to_sync` only where that finds a parent loop.
* **`noSelfWait_iff`** — the first holds all along exactly the runs whose calls meet the second. -/

namespace Asgiref.SingleThread

variable {getpid : Nat} {s s' : State} {a : Action} {as : List Action}

/-- Frame `f` awaits frame `g`, which has been called by a frame that is not done and that `f`
awaits. -/
inductive Awaits (s : State) (f : FrameId) : FrameId → Prop
  | refl : Awaits s f f
  | child {g p : FrameId} : (s.frame g).parent = some p → s.status p ≠ .done → Awaits s f p →
      Awaits s f g

/-- **No job waits for itself**: none is queued on an executor whose running job awaits it. -/
def NoSelfWait (s : State) : Prop :=
  ∀ v f g, s.running v = some f → g ∈ s.queue v → ¬ Awaits s f g

/-- A function that the running job of an executor awaits, and that has the context of this
executor, calls `async_to_sync` only with a parent loop to run on. -/
def FindsParent (getpid : Nat) (s : State) : Action → Prop
  | .asyncToSync f forceNewLoop => ∀ t v g, (s.frame f).place = .thread t → s.single f = some v →
      s.running v = some g → Awaits s g f → (parentLoop getpid forceNewLoop t s).isSome = true
  | _ => True

/-! ## Ends -/

/-- The end of a frame changes at most the caller that is parked for it. -/
theorem unpark_or (f : FrameId) (s : State) : unpark f s = s.status ∨
    ∃ p, (s.frame f).parent = some p ∧ s.status p = .parked f ∧
      unpark f s = Function.update s.status p .running := by
  unfold unpark
  split
  · rename_i p hparent
    by_cases hparked : s.status p = .parked f
    · rw [if_pos hparked]
      exact .inr ⟨p, hparent, hparked, rfl⟩
    · rw [if_neg hparked]
      exact .inl rfl
  · exact .inl rfl

/-- The jobs that still run afterwards have run before. -/
theorem running_of_endRunning {f g : FrameId} {v : ContextId} (h : endRunning f s v = some g) :
    s.running v = some g := by
  unfold endRunning at h
  cases hjob : (s.frame f).job with
  | single w =>
      rw [hjob] at h
      by_cases heq : v = w
      · subst heq
        simp at h
      · simpa [Function.update_of_ne heq] using h
  | none => simpa [hjob] using h
  | own => simpa [hjob] using h

/-! ## What always holds -/

/-- Frames, their callers, and the jobs. -/
structure Inv (s : State) : Prop where
  parent : ∀ f p, (s.frame f).parent = some p → p < f ∧ f < s.nextFrame
  queue : ∀ v, ∀ f ∈ s.queue v, f < s.nextFrame ∧ s.status f = .queued ∧ (s.frame f).job = .single v
  nodup : ∀ v, (s.queue v).Nodup
  running : ∀ v f, s.running v = some f → f < s.nextFrame ∧ s.status f ≠ .queued
  /-- A job that is queued has called nothing. -/
  childless : ∀ f p, (s.frame f).parent = some p → s.status p ≠ .queued
  fresh : ∀ f, s.nextFrame ≤ f → s.status f = .done

theorem inv_init : Inv init where
  parent f p hp := by cases hp
  queue v f hf := by cases hf
  nodup v := List.nodup_nil
  running v f hf := by cases hf
  childless f p hp := by cases hp
  fresh f _ := rfl

namespace Inv

/-- A frame that runs has been called. -/
theorem lt_nextFrame (h : Inv s) {f : FrameId} {p : Status} (hf : s.status f = p)
    (hp : p ≠ .done) : f < s.nextFrame := by
  by_contra hlt
  exact hp (hf.symm.trans (h.fresh f (not_lt.mp hlt)))

/-- A frame is called, by a frame that is not queued. -/
theorem addFrame (h : Inv s) (frame : Frame) (status : Status) (single : Option ContextId)
    (hparent : ∀ p, frame.parent = some p → p < s.nextFrame ∧ s.status p ≠ .queued) :
    Inv (addFrame frame status single s) := by
  refine ⟨fun f p hp => ?_, fun v f hf => ?_, h.nodup, fun v f hf => ?_, fun f p hp => ?_,
    fun f hf => ?_⟩
  · simp only [SingleThread.addFrame] at hp ⊢
    by_cases heq : f = s.nextFrame
    · subst heq
      rw [Function.update_self] at hp
      exact ⟨(hparent p hp).1, Nat.lt_succ_self _⟩
    · rw [Function.update_of_ne heq] at hp
      obtain ⟨hlt, hf⟩ := h.parent f p hp
      exact ⟨hlt, hf.trans (Nat.lt_succ_self _)⟩
  · obtain ⟨hlt, hqueued, hjob⟩ := h.queue v f hf
    simp only [SingleThread.addFrame]
    rw [Function.update_of_ne hlt.ne, Function.update_of_ne hlt.ne]
    exact ⟨hlt.trans (Nat.lt_succ_self _), hqueued, hjob⟩
  · obtain ⟨hlt, hnot⟩ := h.running v f hf
    simp only [SingleThread.addFrame]
    rw [Function.update_of_ne hlt.ne]
    exact ⟨hlt.trans (Nat.lt_succ_self _), hnot⟩
  · have hp' : p < s.nextFrame ∧ s.status p ≠ .queued := by
      simp only [SingleThread.addFrame] at hp
      by_cases heq : f = s.nextFrame
      · subst heq
        rw [Function.update_self] at hp
        exact hparent p hp
      · rw [Function.update_of_ne heq] at hp
        obtain ⟨hlt, hf⟩ := h.parent f p hp
        exact ⟨hlt.trans hf, h.childless f p hp⟩
    simp only [SingleThread.addFrame]
    rw [Function.update_of_ne hp'.1.ne]
    exact hp'.2
  · have hlt : s.nextFrame < f := hf
    simp only [SingleThread.addFrame]
    rw [Function.update_of_ne hlt.ne']
    exact h.fresh f hlt.le

/-- A frame that is not queued comes to another point. -/
theorem setStatus (h : Inv s) {f : FrameId} {p : Status} (hlt : f < s.nextFrame)
    (hf : s.status f ≠ .queued) (hp : p ≠ .queued) :
    Inv { s with status := Function.update s.status f p } := by
  have hkeep : ∀ g, s.status g ≠ .queued → Function.update s.status f p g ≠ .queued :=
    fun g hg => by
      by_cases heq : g = f
      · subst heq
        rwa [Function.update_self]
      · rwa [Function.update_of_ne heq]
  refine ⟨h.parent, fun v g hg => ?_, h.nodup, fun v g hg => ?_, fun g q hq => ?_, fun g hg => ?_⟩
  · obtain ⟨hg', hqueued, hjob⟩ := h.queue v g hg
    refine ⟨hg', ?_, hjob⟩
    have hne : g ≠ f := by
      rintro rfl
      exact hf hqueued
    exact (Function.update_of_ne hne p s.status).trans hqueued
  · exact ⟨(h.running v g hg).1, hkeep g (h.running v g hg).2⟩
  · exact hkeep q (h.childless g q hq)
  · exact (Function.update_of_ne (hlt.trans_le hg).ne' p s.status).trans (h.fresh g hg)

/-- A function is parked in a call. -/
theorem park (h : Inv s) {f : FrameId} (hf : s.status f = .running) (frame : Frame)
    (hparent : frame.parent = some f) (status : Status) : Inv (park f frame status s) := by
  have hlt := h.lt_nextFrame hf (by simp)
  have hadd := h.addFrame frame status (s.single f) fun p hp => by
    rw [hparent] at hp
    cases hp
    exact ⟨hlt, by simp [hf]⟩
  have hrunning : (SingleThread.addFrame frame status (s.single f) s).status f ≠ .queued := by
    simp only [SingleThread.addFrame]
    rw [Function.update_of_ne hlt.ne, hf]
    simp
  exact hadd.setStatus (p := .parked s.nextFrame) (hlt.trans (Nat.lt_succ_self _)) hrunning
    (by simp)

/-- A job goes to the end of a queue. -/
theorem callSingle (h : Inv s) {f : FrameId} (hf : s.status f = .running) (v : ContextId) :
    Inv (callSingle f v s) := by
  have hpark := h.park hf ⟨.loop s.nextLoop, some f, .single v⟩ rfl .queued
  have hlt := h.lt_nextFrame hf (by simp)
  refine ⟨hpark.parent, fun w g hg => ?_, fun w => ?_, hpark.running, hpark.childless, hpark.fresh⟩
  · simp only [SingleThread.callSingle] at hg
    by_cases heq : w = v
    · subst heq
      rw [Function.update_self] at hg
      rcases List.mem_append.mp hg with hold | hlast
      · exact hpark.queue w g hold
      · rw [List.mem_singleton.mp hlast]
        simp only [SingleThread.callSingle, SingleThread.park, SingleThread.addFrame]
        rw [Function.update_of_ne hlt.ne', Function.update_self, Function.update_self]
        exact ⟨Nat.lt_succ_self _, rfl, rfl⟩
    · rw [Function.update_of_ne heq] at hg
      exact hpark.queue w g hg
  · simp only [SingleThread.callSingle]
    by_cases heq : w = v
    · subst heq
      rw [Function.update_self]
      refine (h.nodup w).append (List.nodup_singleton _)
        (List.disjoint_singleton.mpr fun hmem => ?_)
      exact absurd (h.queue w _ hmem).1 (lt_irrefl _)
    · rw [Function.update_of_ne heq]
      exact h.nodup w

/-- The worker takes a job. -/
theorem takeJob (h : Inv s) {v : ContextId} {f : FrameId} {rest : List FrameId}
    (hqueue : s.queue v = f :: rest) (l : LoopId) : Inv { s with
      running := Function.update s.running v (some f)
      queue := Function.update s.queue v rest
      status := Function.update s.status f .running
      loopRunning := Function.update s.loopRunning l true } := by
  have hnodup := h.nodup v
  rw [hqueue, List.nodup_cons] at hnodup
  obtain ⟨hlt, hqueued, hjob⟩ := h.queue v f (hqueue ▸ List.mem_cons_self)
  have hkeep : ∀ g, s.status g ≠ .queued → Function.update s.status f .running g ≠ .queued :=
    fun g hg => by
      by_cases heq : g = f
      · subst heq
        rw [Function.update_self]
        simp
      · rwa [Function.update_of_ne heq]
  -- the job was queued here only
  have hother : ∀ w, ∀ g ∈ Function.update s.queue v rest w, g ∈ s.queue w ∧ g ≠ f := by
    rw [Function.forall_update_iff s.queue fun w fs => ∀ g ∈ fs, g ∈ s.queue w ∧ g ≠ f]
    refine ⟨fun g hg => ⟨hqueue ▸ List.mem_cons_of_mem _ hg, ?_⟩, fun w hw g hg => ⟨hg, ?_⟩⟩
    · rintro rfl
      exact hnodup.1 hg
    · rintro rfl
      have hjob' := (h.queue w g hg).2.2
      rw [hjob] at hjob'
      cases hjob'
      exact hw rfl
  refine ⟨h.parent, fun w g hg => ?_, ?_, fun w g hg => ?_, fun g p hp => ?_, fun g hg => ?_⟩
  · obtain ⟨hmem, hne⟩ := hother w g hg
    obtain ⟨hg', hqueued', hjob'⟩ := h.queue w g hmem
    exact ⟨hg', (Function.update_of_ne hne _ s.status).trans hqueued', hjob'⟩
  · show ∀ w, (Function.update s.queue v rest w).Nodup
    rw [Function.forall_update_iff s.queue fun _ fs => fs.Nodup]
    exact ⟨hnodup.2, fun w _ => h.nodup w⟩
  · have hg' : Function.update s.running v (some f) w = some g := hg
    by_cases heq : w = v
    · subst heq
      rw [Function.update_self] at hg'
      cases hg'
      refine ⟨hlt, ?_⟩
      show Function.update s.status f .running f ≠ .queued
      rw [Function.update_self]
      simp
    · rw [Function.update_of_ne heq] at hg'
      exact ⟨(h.running w g hg').1, hkeep g (h.running w g hg').2⟩
  · exact hkeep p (h.childless g p hp)
  · exact (Function.update_of_ne (hlt.trans_le hg).ne' _ s.status).trans (h.fresh g hg)

/-- A running frame ends. -/
theorem finish (h : Inv s) {f : FrameId} (hf : s.status f = .running) : Inv { s with
    status := Function.update (unpark f s) f .done
    running := endRunning f s
    loopRunning := endLoop f s } := by
  have hlt := h.lt_nextFrame hf (by simp)
  have hset : Inv { s with status := Function.update (unpark f s) f .done } := by
    rcases unpark_or f s with heq | ⟨p, hparent, hparked, heq⟩
    · rw [heq]
      exact h.setStatus hlt (by simp [hf]) (by simp)
    · have hunpark : Inv { s with status := Function.update s.status p .running } :=
        h.setStatus (h.lt_nextFrame hparked (by simp)) (by simp [hparked]) (by simp)
      have hne : f ≠ p := (h.parent f p hparent).1.ne'
      have hrunning : Function.update s.status p .running f ≠ .queued := by
        rw [Function.update_of_ne hne, hf]
        simp
      rw [heq]
      exact hunpark.setStatus hlt hrunning (by simp)
  exact ⟨hset.parent, hset.queue, hset.nodup,
    fun v g hg => hset.running v g (running_of_endRunning hg), hset.childless, hset.fresh⟩

end Inv

/-- **Every step keeps the invariant.** -/
theorem Inv.step (h : Inv s) (hs : (machine getpid).step s a = some s') : Inv s' := by
  have hparent : ∀ {f : FrameId}, s.status f = .running → ∀ p, (some f) = some p →
      p < s.nextFrame ∧ s.status p ≠ .queued := fun {f} hf p hp => by
    cases hp
    exact ⟨h.lt_nextFrame hf (by simp), by simp [hf]⟩
  have hcase := step_inv hs
  cases hcase with
  | start t => exact h.addFrame _ .running none fun p hp => by cases hp
  | startLoop =>
      have hadd := h.addFrame ⟨.loop s.nextLoop, none, .none⟩ .running none
        fun p hp => by cases hp
      exact { hadd with }
  | callParent f force t l hf hplace hfound => exact h.park hf _ rfl .running
  | callNewLoop f force t hf hplace hfound hsingle =>
      have hpark := h.park hf ⟨.loop s.nextLoop, some f, .own⟩ rfl .running
      exact { hpark with }
  | callSingle f force t v hf hplace hfound hsingle => exact h.callSingle hf v
  | syncToAsync f t custom l hf hplace =>
      have hadd := h.addFrame ⟨.thread t, some f, .none⟩ .running
        (childSingle f custom s) (hparent hf)
      exact { hadd with }
  | toThread f t hf => exact h.addFrame _ .running _ (hparent hf)
  | takeJob v f rest l hrunning hqueue hplace => exact h.takeJob hqueue l
  | finish f hf => exact h.finish hf
  | _ => exact { h with }

/-- **Every run keeps the invariant.** -/
theorem Inv.run (h : (machine getpid).Run Machine.Any init as s) : Inv s :=
  h.invariant inv_init fun _ _ _ hI _ hs => hI.step hs

/-! ## Awaiting -/

namespace Awaits

/-- What frames await is decided by the callers of frames and by which of these are done. -/
theorem of_eq {f g : FrameId} (hinv : Inv s)
    (hframe : ∀ f, f < s.nextFrame → s'.frame f = s.frame f)
    (hstatus : ∀ f, f < s.nextFrame → s'.status f ≠ .done → s.status f ≠ .done)
    (hg : g < s.nextFrame) (h : Awaits s' f g) : Awaits s f g := by
  induction h with
  | refl => exact .refl
  | @child g p hparent hdone _ ih =>
      rw [hframe g hg] at hparent
      have hp : p < s.nextFrame := (hinv.parent g p hparent).1.trans hg
      exact .child hparent (hstatus p hp hdone) (ih hp)

/-- The other direction. -/
theorem to_eq {f g : FrameId} (hinv : Inv s)
    (hframe : ∀ f, f < s.nextFrame → s'.frame f = s.frame f)
    (hstatus : ∀ f, f < s.nextFrame → s.status f ≠ .done → s'.status f ≠ .done)
    (hg : g < s.nextFrame) (h : Awaits s f g) : Awaits s' f g := by
  induction h with
  | refl => exact .refl
  | @child g p hparent hdone _ ih =>
      have hp : p < s.nextFrame := (hinv.parent g p hparent).1.trans hg
      exact .child ((hframe g hg).symm ▸ hparent) (hstatus p hp hdone) (ih hp)

end Awaits

/-- What is parked in a call is not done, and neither was it before. -/
theorem status_park_iff {f f' : FrameId} (hf : s.status f = .running) (hf' : f' < s.nextFrame)
    {status : Status} : Function.update (Function.update s.status s.nextFrame status) f
      (.parked s.nextFrame) f' ≠ .done ↔ s.status f' ≠ .done := by
  by_cases heq : f' = f
  · subst heq
    rw [Function.update_self, hf]
    simp
  · rw [Function.update_of_ne heq, Function.update_of_ne hf'.ne]

/-- **A job that is queued** is awaited by what awaits the function that has made the call. -/
theorem awaits_callSingle_iff (hinv : Inv s) {f g : FrameId} {v : ContextId}
    (hf : s.status f = .running) (hg : g < s.nextFrame) :
    Awaits (callSingle f v s) g s.nextFrame ↔ Awaits s g f := by
  have hlt := hinv.lt_nextFrame hf (by simp)
  have hframe : ∀ f', f' < s.nextFrame → (callSingle f v s).frame f' = s.frame f' :=
    fun f' hf' => Function.update_of_ne hf'.ne _ s.frame
  have hstatus : ∀ f', f' < s.nextFrame →
      ((callSingle f v s).status f' ≠ .done ↔ s.status f' ≠ .done) := fun f' hf' =>
    status_park_iff hf hf'
  have hnew : ((callSingle f v s).frame s.nextFrame).parent = some f := by
    simp [callSingle, park, addFrame]
  constructor
  · intro h
    cases h with
    | refl => exact absurd hg (lt_irrefl _)
    | child hparent hdone hawaits =>
        rw [hnew] at hparent
        cases hparent
        exact hawaits.of_eq hinv hframe (fun f' hf' => (hstatus f' hf').mp) hlt
  · intro h
    refine .child hnew ((hstatus f hlt).mpr (by simp [hf])) ?_
    exact h.to_eq hinv hframe (fun f' hf' => (hstatus f' hf').mpr) hlt

namespace NoSelfWait

/-- A step that queues no job and starts none. -/
theorem of_eq (h : NoSelfWait s) (hinv : Inv s)
    (hframe : ∀ f, f < s.nextFrame → s'.frame f = s.frame f)
    (hstatus : ∀ f, f < s.nextFrame → s'.status f ≠ .done → s.status f ≠ .done)
    (hqueue : s'.queue = s.queue) (hrunning : ∀ v f, s'.running v = some f → s.running v = some f) :
    NoSelfWait s' := by
  intro v f g hf hg hawaits
  rw [hqueue] at hg
  exact h v f g (hrunning v f hf) hg (hawaits.of_eq hinv hframe hstatus (hinv.queue v g hg).1)

/-- A frame is called. -/
theorem addFrame (h : NoSelfWait s) (hinv : Inv s) {frame : Frame} {status : Status}
    (hframe : s'.frame = Function.update s.frame s.nextFrame frame)
    (hstatus : s'.status = Function.update s.status s.nextFrame status)
    (hqueue : s'.queue = s.queue) (hrunning : s'.running = s.running) : NoSelfWait s' := by
  refine h.of_eq hinv (fun f hf => ?_) (fun f hf => ?_) hqueue fun v f hf => hrunning ▸ hf
  · rw [hframe, Function.update_of_ne hf.ne]
  · rw [hstatus, Function.update_of_ne hf.ne]
    exact id

/-- A function is parked in a call that queues no job. -/
theorem park (h : NoSelfWait s) (hinv : Inv s) {f : FrameId} {frame : Frame} {status : Status}
    (hf : s.status f = .running)
    (hframe : s'.frame = Function.update s.frame s.nextFrame frame)
    (hstatus : s'.status = Function.update (Function.update s.status s.nextFrame status) f
      (.parked s.nextFrame))
    (hqueue : s'.queue = s.queue) (hrunning : s'.running = s.running) : NoSelfWait s' := by
  refine h.of_eq hinv (fun g hg => ?_) (fun g hg => ?_) hqueue fun v g hg => hrunning ▸ hg
  · rw [hframe, Function.update_of_ne hg.ne]
  · rw [hstatus]
    exact (status_park_iff hf hg).mp

/-- **A function queues a job** that waits for itself exactly if the running job awaits the
function. -/
theorem callSingle_iff (h : NoSelfWait s) (hinv : Inv s) {f : FrameId} {v : ContextId}
    (hf : s.status f = .running) :
    NoSelfWait (callSingle f v s) ↔ ∀ g, s.running v = some g → ¬ Awaits s g f := by
  have hiff := fun g hg => awaits_callSingle_iff (v := v) (g := g) hinv hf hg
  constructor
  -- the running job awaits the function, so it awaits the new job behind it
  · intro hgood g hg hawaits
    refine hgood v g s.nextFrame hg ?_ ((hiff g (hinv.running v g hg).1).mpr hawaits)
    simp [callSingle]
  · intro hnone w g j hg hj hawaits
    have hold : j ∈ s.queue w → False := fun hmem =>
      -- what was queued before the call is awaited by what awaited it then
      h w g j hg hmem (hawaits.of_eq hinv (fun f' hf' => Function.update_of_ne hf'.ne _ s.frame)
        (fun f' hf' => (status_park_iff hf hf').mp) (hinv.queue w j hmem).1)
    simp only [callSingle] at hj
    by_cases heq : w = v
    · subst heq
      rw [Function.update_self] at hj
      rcases List.mem_append.mp hj with hmem | hlast
      · exact hold hmem
      · rw [List.mem_singleton.mp hlast] at hawaits
        exact hnone g hg ((hiff g (hinv.running w g hg).1).mp hawaits)
    · rw [Function.update_of_ne heq] at hj
      exact hold hj

/-- The worker takes a job. -/
theorem takeJob (h : NoSelfWait s) (hinv : Inv s) {v : ContextId} {f : FrameId}
    {rest : List FrameId} (hqueue : s.queue v = f :: rest) (l : LoopId) : NoSelfWait { s with
      running := Function.update s.running v (some f)
      queue := Function.update s.queue v rest
      status := Function.update s.status f .running
      loopRunning := Function.update s.loopRunning l true } := by
  intro w g j hg hj hawaits
  have hnodup := hinv.nodup v
  rw [hqueue, List.nodup_cons] at hnodup
  obtain ⟨-, hqueued, -⟩ := hinv.queue v f (hqueue ▸ List.mem_cons_self)
  have hstatus : ∀ i, i < s.nextFrame → Function.update s.status f .running i ≠ .done →
      s.status i ≠ .done := fun i _ hdone => by
    by_cases heq : i = f
    · subst heq
      simp [hqueued]
    · rwa [Function.update_of_ne heq] at hdone
  have hg' : Function.update s.running v (some f) w = some g := hg
  have hj' : j ∈ Function.update s.queue v rest w := hj
  by_cases heq : w = v
  · -- the job that starts has called nothing, so it awaits none of those behind it
    subst heq
    rw [Function.update_self] at hg' hj'
    cases hg'
    have hold : Awaits s f j := by
      refine hawaits.of_eq hinv ?_ hstatus
        (hinv.queue w j (hqueue ▸ List.mem_cons_of_mem _ hj')).1
      exact fun _ _ => rfl
    have hnone : ∀ {i}, Awaits s f i → i = f := fun {i} hi => by
      induction hi with
      | refl => rfl
      | child hparent _ _ ih =>
          subst ih
          exact absurd hqueued (hinv.childless _ _ hparent)
    exact hnodup.1 (hnone hold ▸ hj')
  · rw [Function.update_of_ne heq] at hg' hj'
    refine h w g j hg' hj' (hawaits.of_eq hinv ?_ hstatus (hinv.queue w j hj').1)
    exact fun _ _ => rfl

/-- A running frame ends: what is not done then was not done before. -/
theorem finish (h : NoSelfWait s) (hinv : Inv s) (f : FrameId) : NoSelfWait { s with
    status := Function.update (unpark f s) f .done
    running := endRunning f s
    loopRunning := endLoop f s } := by
  refine h.of_eq hinv (fun _ _ => rfl) (fun g _ hdone => ?_) rfl fun v g => running_of_endRunning
  have hdone' : Function.update (unpark f s) f .done g ≠ .done := hdone
  have hne : g ≠ f := by
    rintro rfl
    rw [Function.update_self] at hdone'
    exact hdone' rfl
  rw [Function.update_of_ne hne] at hdone'
  rcases unpark_or f s with heq | ⟨p, -, hparked, heq⟩
  · rwa [heq] at hdone'
  · by_cases hgp : g = p
    · subst hgp
      simp [hparked]
    · rwa [heq, Function.update_of_ne hgp] at hdone'

end NoSelfWait

/-- **When a step keeps jobs from waiting for themselves.** -/
theorem noSelfWait_step (hinv : Inv s) (h : NoSelfWait s)
    (hs : (machine getpid).step s a = some s') : NoSelfWait s' ↔ FindsParent getpid s a := by
  have hcase := step_inv hs
  cases hcase with
  | start t => exact ⟨fun _ => trivial, fun _ => h.addFrame hinv rfl rfl rfl rfl⟩
  | startLoop => exact ⟨fun _ => trivial, fun _ => h.addFrame hinv rfl rfl rfl rfl⟩
  | callParent f force t l hf hplace hfound =>
      refine ⟨fun _ t' v g hplace' _ _ _ => ?_, fun _ => h.park hinv hf rfl rfl rfl rfl⟩
      rw [hplace] at hplace'
      cases hplace'
      rw [hfound]
      rfl
  | callNewLoop f force t hf hplace hfound hsingle =>
      refine ⟨fun _ t' v g hplace' hsome => ?_, fun _ => h.park hinv hf rfl rfl rfl rfl⟩
      rw [hsingle] at hsome
      cases hsome
  | callSingle f force t v hf hplace hfound hsingle =>
      rw [h.callSingle_iff hinv hf]
      constructor
      · intro hnone t' v' g hplace' hsome hg hawaits
        rw [hsingle] at hsome
        cases hsome
        exact absurd hawaits (hnone g hg)
      · intro hfinds g hg hawaits
        have hsome := hfinds t v g hplace hsingle hg hawaits
        rw [hfound] at hsome
        cases hsome
  | syncToAsync f t custom l hf hplace =>
      exact ⟨fun _ => trivial, fun _ => h.addFrame hinv rfl rfl rfl rfl⟩
  | toThread f t hf => exact ⟨fun _ => trivial, fun _ => h.addFrame hinv rfl rfl rfl rfl⟩
  | takeJob v f rest l hrunning hqueue hplace =>
      exact ⟨fun _ => trivial, fun _ => h.takeJob hinv hqueue l⟩
  | finish f hf => exact ⟨fun _ => trivial, fun _ => h.finish hinv f⟩
  | _ => exact ⟨fun _ => trivial, fun _ =>
      h.of_eq hinv (fun _ _ => rfl) (fun _ _ => id) rfl fun _ _ => id⟩

/-- **Single-thread contexts and deadlock.** All along a run no job waits on an executor for the
running job of the same executor that awaits it, exactly if every call of `async_to_sync` made by a
function that the running job awaits and that has the context finds a parent loop. -/
theorem noSelfWait_iff (h : (machine getpid).Run Machine.Any init as s) :
    (machine getpid).Always NoSelfWait init as ↔
      (machine getpid).Run (FindsParent getpid) init as s :=
  h.always_iff (fun _ _ => Inv.run) (fun _ _ _ hf => by cases hf)
    fun _ _ _ hJ hP hs => noSelfWait_step hJ hP hs

/-- A coroutine in a job of the context's executor awaits a function that calls `async_to_sync`. -/
def nestedCall : List Action :=
  [.start 0, .enter 0, .asyncToSync 0 false, .takeJob 0, .syncToAsync 1 1 none,
    .asyncToSync 2 false]

/-- The second call finds the loop of the first as its parent loop. -/
theorem noSelfWait_nestedCall :
    ∃ s, (machine 1).exec init nestedCall = some s ∧
      (machine 1).Run (FindsParent 1) init nestedCall s ∧
      (machine 1).Always NoSelfWait init nestedCall := by
  obtain ⟨s₁, hs₁⟩ : ∃ s₁, (machine 1).exec init [.start 0, .enter 0] = some s₁ := ⟨_, rfl⟩
  obtain ⟨s₂, hs₂⟩ : ∃ s₂, (machine 1).step s₁ (.asyncToSync 0 false) = some s₂ := by
    cases hs₁
    exact ⟨_, rfl⟩
  obtain ⟨s₃, hs₃⟩ : ∃ s₃, (machine 1).exec s₂ [.takeJob 0, .syncToAsync 1 1 none] = some s₃ := by
    cases hs₁
    cases hs₂
    exact ⟨_, rfl⟩
  obtain ⟨s, hs⟩ : ∃ s, (machine 1).step s₃ (.asyncToSync 2 false) = some s := by
    cases hs₁
    cases hs₂
    cases hs₃
    exact ⟨_, rfl⟩
  have hfirst : ∀ a ∈ [Action.start 0, .enter 0], ∀ s, FindsParent 1 s a := by simp [FindsParent]
  have hbetween : ∀ a ∈ [Action.takeJob 0, .syncToAsync 1 1 none], ∀ s, FindsParent 1 s a := by
    simp [FindsParent]
  -- no job is running yet
  have houter : FindsParent 1 s₁ (.asyncToSync 0 false) := by
    cases hs₁
    intro t v g _ _ hrunning
    cases hrunning
  have hinner : FindsParent 1 s₃ (.asyncToSync 2 false) := by
    cases hs₁
    cases hs₂
    cases hs₃
    intro t v g hplace _ _ _
    cases hplace
    rfl
  have hrun : (machine 1).Run (FindsParent 1) init nestedCall s :=
    (((Machine.exec_run_of hfirst hs₁).append (.single houter hs₂)).append
      (Machine.exec_run_of hbetween hs₃)).append (.single hinner hs)
  have hno := (noSelfWait_iff (hrun.mono fun _ _ _ => trivial)).mpr hrun
  cases hs₁
  cases hs₂
  cases hs₃
  cases hs
  exact ⟨_, rfl, hrun, hno⟩

/-- The same with `force_new_loop`. -/
def nestedForcedCall : List Action :=
  [.start 0, .enter 0, .asyncToSync 0 false, .takeJob 0, .syncToAsync 1 1 none, .asyncToSync 2 true]

/-- The same with `asyncio.to_thread`. -/
def nestedThreadCall : List Action :=
  [.start 0, .enter 0, .asyncToSync 0 false, .takeJob 0, .toThread 1 1, .asyncToSync 2 false]

/-- Either way a job is queued that the running one awaits. -/
theorem nestedForcedCall_selfWait :
    (∃ s, (machine 1).exec init nestedForcedCall = some s ∧ s.running 0 = some 1 ∧
      s.queue 0 = [3] ∧ ¬ NoSelfWait s) ∧
    ∃ s, (machine 1).exec init nestedThreadCall = some s ∧ s.running 0 = some 1 ∧
      s.queue 0 = [3] ∧ ¬ NoSelfWait s := by
  constructor
  · refine ⟨_, rfl, rfl, rfl, fun h => h 0 1 3 rfl (by decide) ?_⟩
    exact .child (p := 2) rfl (by decide) (.child (p := 1) rfl (by decide) .refl)
  · refine ⟨_, rfl, rfl, rfl, fun h => h 0 1 3 rfl (by decide) ?_⟩
    exact .child (p := 2) rfl (by decide) (.child (p := 1) rfl (by decide) .refl)

end Asgiref.SingleThread
