import Mathlib.Data.List.Pairwise
import Mathlib.Order.Basic
import Asgiref.Runtime.Machine

/-! # Frames, calls and slots

What always holds of the stacks of the threads. Each statement is one about the parts of the state
that it speaks of, so that a step which does not touch them keeps it as it is.

* **`Frames`** — the functions that run are the ones on the stacks, each in one frame.
* **`Parked`** — the calls that the frames are parked in: further out, older ones.
* **`Slots`** — the slots of a thread are those of the last item started there, which is the
  innermost one if it still runs. -/

namespace Asgiref

namespace Runtime

/-- The functions that run are those of the frames. -/
structure Frames (stack : ThreadId → List SyncFrame) (phase : ItemId → Phase) (nextItem : ItemId) :
    Prop where
  fresh : ∀ x, nextItem ≤ x → phase x = .cancelled
  frame : ∀ t, ∀ f ∈ stack t, ∀ x, f.item = some x → phase x = .running t
  running : ∀ x t, phase x = .running t → ∃ f ∈ stack t, f.item = some x
  distinct : ∀ t, (stack t).Pairwise fun f g => f.item ≠ g.item

/-- The calls in which frames are parked. -/
structure Parked (stack : ThreadId → List SyncFrame) (call : CallId → Call) (nextCall : CallId) :
    Prop where
  call : ∀ t, ∀ f ∈ stack t, ∀ c, f.call = some c →
    c < nextCall ∧ (call c).thread = t ∧ (call c).item = f.item
  decreasing : ∀ t, (stack t).Pairwise fun f g => ∀ c d, f.call = some c → g.call = some d → d < c

variable {stack : ThreadId → List SyncFrame} {phase : ItemId → Phase} {nextItem : ItemId}
  {call : CallId → Call} {nextCall : CallId}

/-! ## Functions and their frames -/

namespace Frames

/-- A function that is not running is in no frame. -/
theorem not_mem (h : Frames stack phase nextItem) {x : ItemId}
    (hx : ∀ t, phase x ≠ .running t) {t : ThreadId} {f : SyncFrame} (hf : f ∈ stack t) :
    f.item ≠ some x :=
  fun hitem => hx t (h.frame t f hf x hitem)

/-- A function that runs has a number. -/
theorem lt_nextItem (h : Frames stack phase nextItem) {x : ItemId}
    (hx : phase x ≠ .cancelled) : x < nextItem := by
  by_contra hlt
  exact hx (h.fresh x (not_lt.mp hlt))

/-- Two frames of a function are one. -/
theorem eq_of_item (h : Frames stack phase nextItem) {t : ThreadId} {f g : SyncFrame}
    {x : ItemId} (hf : f ∈ stack t) (hg : g ∈ stack t) (hfx : f.item = some x)
    (hgx : g.item = some x) : f = g := by
  have hsymm : Std.Symm fun f g : SyncFrame => f.item ≠ g.item := ⟨fun _ _ hne => hne.symm⟩
  by_contra hne
  exact (h.distinct t).forall hf hg hne (hfx.trans hgx.symm)

/-- The innermost frame of a thread may change in everything but its function. -/
theorem replace (h : Frames stack phase nextItem) {t : ThreadId} {f g : SyncFrame}
    {rest : List SyncFrame} (hstack : stack t = f :: rest) (hitem : g.item = f.item) :
    Frames (Function.update stack t (g :: rest)) phase nextItem := by
  have hdistinct := h.distinct t
  rw [hstack, List.pairwise_cons] at hdistinct
  refine ⟨h.fresh, ?_, fun x t' hx => ?_, ?_⟩
  · rw [Function.forall_update_iff stack fun t' fs =>
      ∀ f ∈ fs, ∀ x, f.item = some x → phase x = .running t']
    refine ⟨fun f' hf' x hx => ?_, fun t' _ => h.frame t'⟩
    rcases List.mem_cons.mp hf' with rfl | hrest
    · exact h.frame t f (hstack ▸ List.mem_cons_self) x (hitem ▸ hx)
    · exact h.frame t f' (hstack ▸ List.mem_cons_of_mem _ hrest) x hx
  · obtain ⟨f', hf', hx'⟩ := h.running x t' hx
    by_cases ht : t' = t
    · subst ht
      rw [Function.update_self]
      rw [hstack] at hf'
      rcases List.mem_cons.mp hf' with rfl | hrest
      · exact ⟨g, List.mem_cons_self, hitem.trans hx'⟩
      · exact ⟨f', List.mem_cons_of_mem _ hrest, hx'⟩
    · rw [Function.update_of_ne ht]
      exact ⟨f', hf', hx'⟩
  · rw [Function.forall_update_iff stack fun _ fs => fs.Pairwise fun f g => f.item ≠ g.item]
    refine ⟨?_, fun t' _ => h.distinct t'⟩
    rw [List.pairwise_cons, hitem]
    exact hdistinct

/-- A function starts, in a frame of its own. -/
theorem push (h : Frames stack phase nextItem) {t : ThreadId} {x : ItemId}
    (hqueued : phase x = .queued) :
    Frames (Function.update stack t (⟨some x, none⟩ :: stack t))
      (Function.update phase x (.running t)) nextItem := by
  -- an item that has not started is in no frame, so its own is the only one
  have hnot : ∀ t', ∀ f ∈ stack t', f.item ≠ some x := fun t' f hf =>
    h.not_mem (fun t'' hrunning => by rw [hqueued] at hrunning; cases hrunning) hf
  have hold : ∀ t', ∀ f ∈ stack t', ∀ y, f.item = some y →
      Function.update phase x (.running t) y = .running t' := fun t' f hf y hy => by
    have hne : y ≠ x := by
      rintro rfl
      exact hnot t' f hf hy
    rw [Function.update_of_ne hne]
    exact h.frame t' f hf y hy
  refine ⟨fun y hy => ?_, ?_, fun y t' hy => ?_, ?_⟩
  · have hlt := h.lt_nextItem (x := x) (by rw [hqueued]; simp)
    rw [Function.update_of_ne (hlt.trans_le hy).ne']
    exact h.fresh y hy
  · rw [Function.forall_update_iff stack fun t' fs => ∀ f ∈ fs, ∀ y, f.item = some y →
      Function.update phase x (.running t) y = .running t']
    refine ⟨fun f hf y hy => ?_, fun t' _ => hold t'⟩
    rcases List.mem_cons.mp hf with rfl | hf
    · cases hy
      rw [Function.update_self]
    · exact hold t f hf y hy
  · by_cases hyx : y = x
    · subst hyx
      rw [Function.update_self] at hy
      cases hy
      rw [Function.update_self]
      exact ⟨_, List.mem_cons_self, rfl⟩
    · rw [Function.update_of_ne hyx] at hy
      obtain ⟨f, hf, hitem⟩ := h.running y t' hy
      refine ⟨f, ?_, hitem⟩
      by_cases htt : t' = t
      · subst htt
        rw [Function.update_self]
        exact List.mem_cons_of_mem _ hf
      · rwa [Function.update_of_ne htt]
  · rw [Function.forall_update_iff stack fun _ fs => fs.Pairwise fun f g => f.item ≠ g.item]
    refine ⟨?_, fun t' _ => h.distinct t'⟩
    rw [List.pairwise_cons]
    exact ⟨fun g hg heq => hnot t g hg heq.symm, h.distinct t⟩

/-- The innermost function of a thread returns. -/
theorem pop (h : Frames stack phase nextItem) {t : ThreadId} {f : SyncFrame}
    {rest : List SyncFrame} {x : ItemId} (hstack : stack t = f :: rest) (hitem : f.item = some x)
    (r : Result) :
    Frames (Function.update stack t rest) (Function.update phase x (.returned r))
      nextItem := by
  have hx : phase x = .running t := h.frame t f (hstack ▸ List.mem_cons_self) x hitem
  have hdistinct := h.distinct t
  rw [hstack, List.pairwise_cons] at hdistinct
  -- the function was in this frame only
  have honly : ∀ t', ∀ g ∈ Function.update stack t rest t', g.item ≠ some x := by
    rw [Function.forall_update_iff stack fun _ fs => ∀ g ∈ fs, g.item ≠ some x]
    refine ⟨fun g hg heq => hdistinct.1 g hg (hitem.trans heq.symm), fun t' ht' g hg heq => ?_⟩
    have hrunning := h.frame t' g hg x heq
    rw [hx] at hrunning
    cases hrunning
    exact ht' rfl
  have hsub : ∀ t', ∀ g ∈ Function.update stack t rest t', g ∈ stack t' := by
    rw [Function.forall_update_iff stack fun t' fs => ∀ g ∈ fs, g ∈ stack t']
    exact ⟨fun g hg => hstack ▸ List.mem_cons_of_mem _ hg, fun t' _ g hg => hg⟩
  refine ⟨fun y hy => ?_, fun t' g hg y hy => ?_, fun y t' hy => ?_, ?_⟩
  · have hlt := h.lt_nextItem (x := x) (by rw [hx]; simp)
    rw [Function.update_of_ne (hlt.trans_le hy).ne']
    exact h.fresh y hy
  · have hne : y ≠ x := by
      rintro rfl
      exact honly t' g hg hy
    rw [Function.update_of_ne hne]
    exact h.frame t' g (hsub t' g hg) y hy
  · have hne : y ≠ x := fun heq => by
      subst heq
      rw [Function.update_self] at hy
      cases hy
    rw [Function.update_of_ne hne] at hy
    obtain ⟨g, hg, hgy⟩ := h.running y t' hy
    refine ⟨g, ?_, hgy⟩
    by_cases ht : t' = t
    · subst ht
      rw [Function.update_self]
      rw [hstack] at hg
      rcases List.mem_cons.mp hg with rfl | hg
      · exact absurd (Option.some.inj (hgy.symm.trans hitem)) hne
      · exact hg
    · rwa [Function.update_of_ne ht]
  · rw [Function.forall_update_iff stack fun _ fs => fs.Pairwise fun f g => f.item ≠ g.item]
    exact ⟨hdistinct.2, fun t' _ => h.distinct t'⟩

/-- An item that does not run changes. -/
theorem setPhase (h : Frames stack phase nextItem) {x : ItemId} {p : Phase}
    {n : ItemId} (hx : ∀ t, phase x ≠ .running t) (hp : ∀ t, p ≠ .running t)
    (hn : nextItem ≤ n) (hlt : x < n) :
    Frames stack (Function.update phase x p) n := by
  refine ⟨fun y hy => ?_, fun t f hf y hy => ?_, fun y t hy => ?_, h.distinct⟩
  · rw [Function.update_of_ne (hlt.trans_le hy).ne']
    exact h.fresh y (hn.trans hy)
  · have hne : y ≠ x := by
      rintro rfl
      exact h.not_mem hx hf hy
    rw [Function.update_of_ne hne]
    exact h.frame t f hf y hy
  · by_cases hyx : y = x
    · subst hyx
      rw [Function.update_self] at hy
      exact absurd hy (hp t)
    · rw [Function.update_of_ne hyx] at hy
      exact h.running y t hy

end Frames

theorem frames_init (contexts : List Context) :
    Frames (init contexts).stack (init contexts).phase (init contexts).nextItem where
  fresh _ _ := rfl
  frame t f hf x hx := by
    simp only [init] at hf
    split at hf
    · rw [List.mem_singleton.mp hf] at hx
      cases hx
    · cases hf
  running x t hx := by cases hx
  distinct t := by
    simp only [init]
    split <;> simp

variable {env : Env} {s s' : State} {a : Action} {as : List Action}

/-- **Every step keeps the frames.** -/
theorem Frames.step (h : Frames s.stack s.phase s.nextItem)
    (hs : (machine env).step s a = some s') : Frames s'.stack s'.phase s'.nextItem := by
  have hnotRunning : ∀ {x : ItemId} {p : Phase}, s.phase x = p → (∀ t, p ≠ .running t) →
      ∀ t, s.phase x ≠ .running t := fun hx hp t => hx ▸ hp t
  -- only the steps that start or end a function touch both the stacks and the phases
  have hcase := step_inv hs
  cases hcase with
  | callParent t frame rest force l hstack hcall hparent => exact h.replace hstack rfl
  | callNewLoop t frame rest force hstack hcall hparent => exact h.replace hstack rfl
  | leave t frame rest c hstack hcall hbroken hempty => exact h.replace hstack rfl
  | take t x q q' context hdequeue hqueued hrestore => exact h.push hqueued
  | takeRaising t x q q' context e hdequeue hqueued hrestore =>
      exact h.setPhase (hnotRunning hqueued (by simp)) (by simp) (Nat.le_refl _)
        (h.lt_nextItem (by rw [hqueued]; simp))
  | ret t frame rest x r hstack hitem hcall => exact h.pop hstack hitem r
  | syncToAsync k b custom selection executor hstatus hlive hselect hsubmit =>
      exact h.setPhase (hnotRunning (h.fresh _ (Nat.le_refl _)) (by simp)) (by simp) (Nat.le_succ _)
        (Nat.lt_succ_self _)
  | dropItem x hcancelled hqueued =>
      exact h.setPhase (hnotRunning hqueued (by simp)) (by simp) (Nat.le_refl _)
        (h.lt_nextItem (by rw [hqueued]; simp))
  | _ => exact h

/-! ## Frames and their calls -/

namespace Parked

/-- The frames further out. -/
theorem rest (h : Parked stack call nextCall) {t : ThreadId} {f : SyncFrame}
    {rest : List SyncFrame} (hstack : stack t = f :: rest) :
    Parked (Function.update stack t rest) call nextCall := by
  have hdecreasing := h.decreasing t
  rw [hstack, List.pairwise_cons] at hdecreasing
  refine ⟨?_, ?_⟩
  · rw [Function.forall_update_iff stack fun t fs => ∀ f ∈ fs, ∀ c, f.call = some c →
      c < nextCall ∧ (call c).thread = t ∧ (call c).item = f.item]
    exact ⟨fun g hg => h.call t g (hstack ▸ List.mem_cons_of_mem _ hg), fun t' _ => h.call t'⟩
  · rw [Function.forall_update_iff stack fun _ fs =>
      fs.Pairwise fun f g => ∀ c d, f.call = some c → g.call = some d → d < c]
    exact ⟨hdecreasing.2, fun t' _ => h.decreasing t'⟩

/-- A frame that is not parked. -/
theorem push (h : Parked stack call nextCall) (t : ThreadId) (item : Option ItemId) :
    Parked (Function.update stack t (⟨item, none⟩ :: stack t)) call nextCall := by
  refine ⟨?_, ?_⟩
  · rw [Function.forall_update_iff stack fun t fs => ∀ f ∈ fs, ∀ c, f.call = some c →
      c < nextCall ∧ (call c).thread = t ∧ (call c).item = f.item]
    refine ⟨fun f hf c hc => ?_, fun t' _ => h.call t'⟩
    rcases List.mem_cons.mp hf with rfl | hf
    · cases hc
    · exact h.call t f hf c hc
  · rw [Function.forall_update_iff stack fun _ fs =>
      fs.Pairwise fun f g => ∀ c d, f.call = some c → g.call = some d → d < c]
    refine ⟨?_, fun t' _ => h.decreasing t'⟩
    rw [List.pairwise_cons]
    exact ⟨fun g _ c d hc => (by cases hc), h.decreasing t⟩

/-- A frame goes on after its call. -/
theorem unpark (h : Parked stack call nextCall) {t : ThreadId} {f : SyncFrame}
    {rest : List SyncFrame} (hstack : stack t = f :: rest) (item : Option ItemId) :
    Parked (Function.update stack t (⟨item, none⟩ :: rest)) call nextCall := by
  -- the same as taking the frame off and putting one on that is not parked
  have hpush := (h.rest hstack).push t item
  rwa [Function.update_idem, Function.update_self] at hpush

/-- A frame makes a call. -/
theorem park (h : Parked stack call nextCall) {t : ThreadId} {f : SyncFrame}
    {rest : List SyncFrame} (hstack : stack t = f :: rest) {made : Call} (hthread : made.thread = t)
    (hitem : made.item = f.item) :
    Parked (Function.update stack t (⟨f.item, some nextCall⟩ :: rest))
      (Function.update call nextCall made) (nextCall + 1) := by
  have hold : ∀ t', ∀ g ∈ stack t', ∀ c, g.call = some c → c < nextCall + 1 ∧
      (Function.update call nextCall made c).thread = t' ∧
      (Function.update call nextCall made c).item = g.item := fun t' g hg c hc => by
    obtain ⟨hlt, hrest⟩ := h.call t' g hg c hc
    rw [Function.update_of_ne hlt.ne]
    exact ⟨hlt.trans (Nat.lt_succ_self _), hrest⟩
  have hdecreasing := h.decreasing t
  rw [hstack, List.pairwise_cons] at hdecreasing
  refine ⟨?_, ?_⟩
  · rw [Function.forall_update_iff stack fun t' fs => ∀ f ∈ fs, ∀ c, f.call = some c →
      c < nextCall + 1 ∧ (Function.update call nextCall made c).thread = t' ∧
        (Function.update call nextCall made c).item = f.item]
    refine ⟨fun g hg c hc => ?_, fun t' _ => hold t'⟩
    rcases List.mem_cons.mp hg with rfl | hg
    · cases hc
      rw [Function.update_self]
      exact ⟨Nat.lt_succ_self _, hthread, hitem⟩
    · exact hold t g (hstack ▸ List.mem_cons_of_mem _ hg) c hc
  · rw [Function.forall_update_iff stack fun _ fs =>
      fs.Pairwise fun f g => ∀ c d, f.call = some c → g.call = some d → d < c]
    refine ⟨?_, fun t' _ => h.decreasing t'⟩
    rw [List.pairwise_cons]
    refine ⟨fun g hg c d hc hd => ?_, hdecreasing.2⟩
    cases hc
    exact (h.call t g (hstack ▸ List.mem_cons_of_mem _ hg) d hd).1

end Parked

theorem parked_init (contexts : List Context) :
    Parked (init contexts).stack (init contexts).call (init contexts).nextCall where
  call t f hf c hc := by
    simp only [init] at hf
    split at hf
    · rw [List.mem_singleton.mp hf] at hc
      cases hc
    · cases hf
  decreasing t := by
    simp only [init]
    split <;> simp

/-- **Every step keeps the calls of the frames.** -/
theorem Parked.step (h : Parked s.stack s.call s.nextCall)
    (hs : (machine env).step s a = some s') : Parked s'.stack s'.call s'.nextCall := by
  have hcase := step_inv hs
  cases hcase with
  | callParent t frame rest force l hstack hcall hparent => exact h.park hstack rfl rfl
  | callNewLoop t frame rest force hstack hcall hparent => exact h.park hstack rfl rfl
  | leave t frame rest c hstack hcall hbroken hempty => exact h.unpark hstack frame.item
  | take t x q q' context hdequeue hqueued hrestore => exact h.push t (some x)
  | ret t frame rest x r hstack hitem hcall => exact h.rest hstack
  | _ => exact h

/-- **Every run keeps the calls of the frames.** -/
theorem Parked.run {contexts : List Context}
    (h : (machine env).Run Machine.Any (init contexts) as s) :
    Parked s.stack s.call s.nextCall :=
  h.invariant (I := fun s => Parked s.stack s.call s.nextCall) (parked_init contexts)
    fun _ _ _ hI _ hs => hI.step hs

end Runtime

end Asgiref
