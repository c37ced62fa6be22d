import Asgiref.Runtime.Frames

/-! # Slots and numbers

* **`Numbers`** — everything that is spoken of has been made.
* **`Slots`** — the slots of a thread are those of the last item started there; if its function
  still runs, it is the innermost one of the thread. -/

namespace Asgiref

namespace Runtime

variable {env : Env} {s s' : State} {a : Action} {as : List Action}

/-! ## Numbers -/

/-- Tasks, items and their loops have been made. -/
structure Numbers (s : State) : Prop where
  task : ∀ k, k < s.nextTask → (s.task k).loop < s.nextLoop
  item : ∀ x, x < s.nextItem → (s.item x).task < s.nextTask ∧ (s.item x).loop < s.nextLoop
  status : ∀ k, s.nextTask ≤ k → s.status k = .done false
  await : ∀ x, s.nextItem ≤ x → s.await x = .over (.ok .none)

theorem numbers_init (contexts : List Context) : Numbers (init contexts) where
  task k hk := absurd hk (Nat.not_lt_zero k)
  item x hx := absurd hx (Nat.not_lt_zero x)
  status _ _ := rfl
  await _ _ := rfl

namespace Numbers

/-- A task that is not done has been made. -/
theorem lt_nextTask (h : Numbers s) {k : TaskId} {p : TaskStatus} (hk : s.status k = p)
    (hp : p ≠ .done false) : k < s.nextTask := by
  by_contra hlt
  exact hp (hk.symm.trans (h.status k (not_lt.mp hlt)))

/-- A call that is not over has been made. -/
theorem lt_nextItem (h : Numbers s) {x : ItemId} {p : Await} (hx : s.await x = p)
    (hp : p ≠ .over (.ok .none)) : x < s.nextItem := by
  by_contra hlt
  exact hp (hx.symm.trans (h.await x (not_lt.mp hlt)))

/-- A task that has been made comes to another point. -/
theorem setStatus (h : Numbers s) {k : TaskId} (hk : k < s.nextTask) (p : TaskStatus) :
    ∀ k', s.nextTask ≤ k' → Function.update s.status k p k' = .done false := fun k' hk' => by
  rw [Function.update_of_ne (hk.trans_le hk').ne']
  exact h.status k' hk'

/-- A call that has been made comes to another point. -/
theorem setAwait (h : Numbers s) {x : ItemId} (hx : x < s.nextItem) (p : Await) :
    ∀ y, s.nextItem ≤ y → Function.update s.await x p y = .over (.ok .none) := fun y hy => by
  rw [Function.update_of_ne (hx.trans_le hy).ne']
  exact h.await y hy

/-- A task is cancelled. -/
theorem cancelTask (h : Numbers s) (k : TaskId) : Numbers (cancelTask k s) := by
  refine ⟨h.task, h.item, fun k' hk' => ?_, fun y hy => ?_⟩
  · simp only [Runtime.cancelTask]
    by_cases heq : k' = k
    · subst heq
      rw [Function.update_self, h.status k' hk']
      rfl
    · rw [Function.update_of_ne heq]
      exact h.status k' hk'
  · simp only [Runtime.cancelTask]
    cases hx : s.callAt .shielded k with
    | none => exact h.await y hy
    | some x =>
        have hawait : s.await x = .shielded := by
          simp only [State.callAt] at hx
          split at hx
          · split at hx
            · cases hx
              assumption
            · cases hx
          · cases hx
        exact h.setAwait (h.lt_nextItem hawait (by simp)) _ y hy

/-- A call has passed its cancellation on. -/
theorem setDelivered (h : Numbers s) {x : ItemId} (hx : x < s.nextItem) (k : TaskId) :
    Numbers (setDelivered x k s) :=
  { h with await := h.setAwait hx _ }

/-- A call ends. -/
theorem endItem (h : Numbers s) {x : ItemId} (hx : x < s.nextItem) (r : Result) :
    Numbers (endItem env x r s) :=
  { h with
    status := h.setStatus (h.item x hx).1 _
    await := h.setAwait hx _ }

/-- A call is given up. -/
theorem abandon (h : Numbers s) {x : ItemId} (hx : x < s.nextItem) : Numbers (abandon x s) :=
  { h with await := h.setAwait hx _ }

/-- A task is made. -/
theorem addTask (h : Numbers s) {l n : LoopId} (hl : l < n) (hn : s.nextLoop ≤ n)
    (call below : Option CallId) (p : TaskStatus) :
    (∀ k, k < s.nextTask + 1 → (Function.update s.task s.nextTask ⟨l, call, below⟩ k).loop < n) ∧
    (∀ x, x < s.nextItem → (s.item x).task < s.nextTask + 1 ∧ (s.item x).loop < n) ∧
    (∀ k, s.nextTask + 1 ≤ k → Function.update s.status s.nextTask p k = .done false) := by
  refine ⟨fun k hk => ?_, fun x hx => ?_, fun k hk => ?_⟩
  -- the new task is on `l`, and the others are where they were
  · by_cases heq : k = s.nextTask
    · subst heq
      rw [Function.update_self]
      exact hl
    · rw [Function.update_of_ne heq]
      exact (h.task k (lt_of_le_of_ne (Nat.lt_succ_iff.mp hk) heq)).trans_le hn
  · obtain ⟨htask, hloop⟩ := h.item x hx
    exact ⟨htask.trans (Nat.lt_succ_self _), hloop.trans_le hn⟩
  · have hlt : s.nextTask < k := hk
    rw [Function.update_of_ne hlt.ne']
    exact h.status k hlt.le

end Numbers

/-- The parent loop of a call has been made. -/
def ParentKnown (env : Env) (s : State) : Prop :=
  ∀ t l, parentLoop env false t s = some l → l < s.nextLoop

/-- A loop that is forced to be new is nobody's. -/
theorem parentLoop_forced (env : Env) (t : ThreadId) (s : State) :
    parentLoop env true t s = none := rfl

theorem Numbers.step (h : Numbers s) (hparent : ParentKnown env s)
    (hs : (machine env).step s a = some s') : Numbers s' := by
  have hcase := step_inv hs
  cases hcase with
  | callParent t frame rest force l hstack hcall hl =>
      have hlt : l < s.nextLoop := by
        cases force with
        | true => rw [parentLoop_forced] at hl; cases hl
        | false => exact hparent t l hl
      obtain ⟨htask, hitem, hstatus⟩ :=
        h.addTask hlt (Nat.le_refl _) (some s.nextCall) (some s.nextCall) .queued
      exact ⟨htask, hitem, hstatus, h.await⟩
  | callNewLoop t frame rest force hstack hcall hl =>
      obtain ⟨htask, hitem, hstatus⟩ := h.addTask (Nat.lt_succ_self s.nextLoop) (Nat.le_succ _)
        (some s.nextCall) (some s.nextCall) (.created false)
      exact ⟨htask, hitem, hstatus, h.await⟩
  | spawnThreadsafe t frame rest l hstack hcall hl =>
      obtain ⟨htask, hitem, hstatus⟩ := h.addTask hl (Nat.le_refl _) none none .queued
      exact ⟨htask, hitem, hstatus, h.await⟩
  | startLoop context =>
      obtain ⟨htask, hitem, hstatus⟩ :=
        h.addTask (Nat.lt_succ_self s.nextLoop) (Nat.le_succ _) none none .running
      exact ⟨htask, hitem, hstatus, h.await⟩
  | spawn k custom hstatus hlive =>
      have hk := h.lt_nextTask hstatus (by simp)
      obtain ⟨htask, hitem, hstatus⟩ := h.addTask (h.task k hk) (Nat.le_refl _) none
        (s.task k).spawnedBelow (.created false)
      exact ⟨htask, hitem, hstatus, h.await⟩
  | closeGenerator l c context hshutting =>
      obtain ⟨htask, hitem, hstatus⟩ :=
        h.addTask hshutting.1 (Nat.le_refl _) none none (.created false)
      exact ⟨htask, hitem, hstatus, h.await⟩
  | create k hstatus hlive =>
      exact { h with status := h.setStatus (h.lt_nextTask hstatus (by simp)) _ }
  | startCancelled k hlive hstatus =>
      exact { h with status := h.setStatus (h.lt_nextTask hstatus (by simp)) _ }
  | startMain k c context hlive hstatus hcall hrestore =>
      exact { h with status := h.setStatus (h.lt_nextTask hstatus (by simp)) _ }
  | failMain k c context e hlive hstatus hcall hrestore =>
      exact { h with status := h.setStatus (h.lt_nextTask hstatus (by simp)) _ }
  | startTask k hlive hstatus hcall =>
      exact { h with status := h.setStatus (h.lt_nextTask hstatus (by simp)) _ }
  | awaitTask k k' hstatus hlive hk' =>
      exact { h with status := h.setStatus (h.lt_nextTask hstatus (by simp)) _ }
  | resumeTask k k' hstatus hlive =>
      exact { h with status := h.setStatus (h.lt_nextTask hstatus (by simp)) _ }
  | finishMain k c r mustCancel hstatus hlive hcall =>
      exact { h with status := h.setStatus (h.lt_nextTask hstatus (by simp)) _ }
  | finishTask k r mustCancel hstatus hlive hcall =>
      exact { h with status := h.setStatus (h.lt_nextTask hstatus (by simp)) _ }
  | syncToAsync k b custom selection executor hstatus hlive hselect hsubmit =>
      have hk := h.lt_nextTask hstatus (by simp)
      refine ⟨h.task, fun x hx => ?_, h.setStatus hk _, fun x hx => ?_⟩
      · simp only [addWorker, awaitItem] at hx ⊢
        by_cases heq : x = s.nextItem
        · subst heq
          rw [Function.update_self]
          exact ⟨hk, h.task k hk⟩
        · rw [Function.update_of_ne heq]
          exact h.item x (lt_of_le_of_ne (Nat.lt_succ_iff.mp hx) heq)
      · have hlt : s.nextItem < x := hx
        simp only [addWorker, awaitItem, Function.update_of_ne hlt.ne']
        exact h.await x hlt.le
  | complete x r hlive hawait hresult =>
      rcases hawait with hawait | hawait
      · exact h.endItem (h.lt_nextItem hawait (by simp)) r
      · exact h.endItem (h.lt_nextItem hawait (by simp)) r
  | cancel k => exact h.cancelTask k
  | passOn x k rest hawait hlive htasks hloop =>
      exact (h.cancelTask k).setDelivered (h.lt_nextItem hawait (by simp)) k
  | passOnOther x k rest hawait hlive htasks hloop =>
      have hx := h.lt_nextItem hawait (by simp)
      exact ((h.cancelTask k).setDelivered hx k).endItem hx _
  | deliverDone x hawait hlive htasks hresult =>
      exact h.endItem (h.lt_nextItem hawait (by simp)) _
  | deliverAbandon x hawait hlive htasks => exact h.abandon (h.lt_nextItem hawait (by simp))
  | resumeDone x k b hawait hstatus hlive hresult =>
      exact h.endItem (h.lt_nextItem hawait (by simp)) _
  | resumeAbandon x k hawait hstatus hlive => exact h.abandon (h.lt_nextItem hawait (by simp))
  | resumeAwait x k hawait hstatus hlive hresult =>
      exact { h with await := h.setAwait (h.lt_nextItem hawait (by simp)) _ }
  | _ => exact { h with }

/-! ## Slots -/

/-- The item in the slot of a thread is the innermost one there, if its function still runs. -/
def Innermost (stack : ThreadId → List SyncFrame) (taskContext : ThreadId → Option ItemId)
    (phase : ItemId → Phase) : Prop :=
  ∀ t x t', taskContext t = some x → phase x = .running t' →
    t' = t ∧ ∃ f rest, stack t = f :: rest ∧ f.item = some x

/-- The items in the slots have started. -/
def Started (taskContext : ThreadId → Option ItemId) (phase : ItemId → Phase) : Prop :=
  ∀ t x, taskContext t = some x → phase x ≠ .queued

/-- The slots of the threads. -/
structure Slots (env : Env) (s : State) : Prop where
  mainEventLoop : ∀ t, s.mainEventLoop t =
    (s.taskContext t).map fun x => ((s.item x).loop, env.getpid)
  known : ∀ t x, s.taskContext t = some x → x < s.nextItem
  started : Started s.taskContext s.phase
  innermost : Innermost s.stack s.taskContext s.phase

theorem slots_init (env : Env) (contexts : List Context) : Slots env (init contexts) where
  mainEventLoop _ := rfl
  known t x hx := by cases hx
  started t x hx := by cases hx
  innermost t x t' hx := by cases hx

section

variable {stack : ThreadId → List SyncFrame} {taskContext : ThreadId → Option ItemId}
  {phase : ItemId → Phase}

/-- The innermost frame may change in everything but its function. -/
theorem Innermost.replace (h : Innermost stack taskContext phase) {t : ThreadId} {f g : SyncFrame}
    {rest : List SyncFrame} (hstack : stack t = f :: rest) (hitem : g.item = f.item) :
    Innermost (Function.update stack t (g :: rest)) taskContext phase := by
  intro t' x t'' hslot hx
  obtain ⟨ht, f', rest', hstack', hx'⟩ := h t' x t'' hslot hx
  refine ⟨ht, ?_⟩
  by_cases heq : t' = t
  · subst heq
    rw [hstack] at hstack'
    cases hstack'
    exact ⟨g, rest, Function.update_self .., hitem.trans hx'⟩
  · exact ⟨f', rest', by rw [Function.update_of_ne heq, hstack'], hx'⟩

/-- A function starts and is in the slot. -/
theorem Innermost.push (h : Innermost stack taskContext phase)
    (hstarted : Started taskContext phase) (t : ThreadId) {x : ItemId}
    (hqueued : phase x = .queued) :
    Innermost (Function.update stack t (⟨some x, none⟩ :: stack t))
      (Function.update taskContext t (some x)) (Function.update phase x (.running t)) := by
  intro t' y t'' hslot hy
  by_cases heq : t' = t
  · subst heq
    rw [Function.update_self] at hslot
    cases hslot
    rw [Function.update_self] at hy
    cases hy
    exact ⟨rfl, _, _, Function.update_self .., rfl⟩
  · rw [Function.update_of_ne heq] at hslot
    -- what is in another slot has started, so it is not the item that starts now
    have hne : y ≠ x := by
      rintro rfl
      exact hstarted t' y hslot hqueued
    rw [Function.update_of_ne hne] at hy
    rw [Function.update_of_ne heq]
    exact h t' y t'' hslot hy

/-- An item is in the slot, and its function does not run. -/
theorem Innermost.fail (h : Innermost stack taskContext phase)
    (hstarted : Started taskContext phase) (t : ThreadId) {x : ItemId}
    (hqueued : phase x = .queued) (r : Result) :
    Innermost stack (Function.update taskContext t (some x))
      (Function.update phase x (.returned r)) := by
  intro t' y t'' hslot hy
  by_cases heq : t' = t
  · subst heq
    rw [Function.update_self] at hslot
    cases hslot
    rw [Function.update_self] at hy
    cases hy
  · rw [Function.update_of_ne heq] at hslot
    have hne : y ≠ x := by
      rintro rfl
      exact hstarted t' y hslot hqueued
    rw [Function.update_of_ne hne] at hy
    exact h t' y t'' hslot hy

/-- The innermost function returns. -/
theorem Innermost.pop (h : Innermost stack taskContext phase) {t : ThreadId} {f : SyncFrame}
    {rest : List SyncFrame} {x : ItemId} (hstack : stack t = f :: rest) (hitem : f.item = some x)
    (r : Result) :
    Innermost (Function.update stack t rest) taskContext
      (Function.update phase x (.returned r)) := by
  intro t' y t'' hslot hy
  have hne : y ≠ x := by
    rintro rfl
    rw [Function.update_self] at hy
    cases hy
  rw [Function.update_of_ne hne] at hy
  obtain ⟨ht, f', rest', hstack', hy'⟩ := h t' y t'' hslot hy
  refine ⟨ht, f', rest', ?_, hy'⟩
  -- on thread `t` the innermost function is the one that returns
  have heq : t' ≠ t := by
    rintro rfl
    rw [hstack] at hstack'
    cases hstack'
    exact hne (Option.some.inj (hy'.symm.trans hitem))
  rw [Function.update_of_ne heq, hstack']

/-- An item that no slot knows, or that does not run before and after, changes. -/
theorem Innermost.setPhase (h : Innermost stack taskContext phase) {x : ItemId} {p : Phase}
    (hp : ∀ t, p ≠ .running t) : Innermost stack taskContext (Function.update phase x p) := by
  intro t' y t'' hslot hy
  by_cases hyx : y = x
  · subst hyx
    rw [Function.update_self] at hy
    exact absurd hy (hp t'')
  · rw [Function.update_of_ne hyx] at hy
    exact h t' y t'' hslot hy

/-- An item starts or ends. -/
theorem Started.setPhase (h : Started taskContext phase) (x : ItemId) {p : Phase}
    (hp : p ≠ .queued) : Started taskContext (Function.update phase x p) := by
  intro t y hslot
  by_cases hyx : y = x
  · subst hyx
    rwa [Function.update_self]
  · rw [Function.update_of_ne hyx]
    exact h t y hslot

/-- The slot of a thread gets an item that has started. -/
theorem Started.setSlot (h : Started taskContext phase) (t : ThreadId) {x : ItemId}
    (hx : phase x ≠ .queued) : Started (Function.update taskContext t (some x)) phase := by
  intro t' y hslot
  by_cases heq : t' = t
  · subst heq
    rw [Function.update_self] at hslot
    cases hslot
    exact hx
  · rw [Function.update_of_ne heq] at hslot
    exact h t' y hslot

end

/-- The slots of a thread are filled together. -/
theorem Slots.fill (h : Slots env s) (t : ThreadId) (x : ItemId) :
    ∀ t', Function.update s.mainEventLoop t (some ((s.item x).loop, env.getpid)) t' =
      (Function.update s.taskContext t (some x) t').map
        fun x => ((s.item x).loop, env.getpid) := by
  intro t'
  by_cases heq : t' = t
  · subst heq
    rw [Function.update_self, Function.update_self]
    rfl
  · rw [Function.update_of_ne heq, Function.update_of_ne heq]
    exact h.mainEventLoop t'

/-- The items in the slots still have numbers. -/
theorem Slots.known_fill (h : Slots env s) (t : ThreadId) {x : ItemId} (hx : x < s.nextItem) :
    ∀ t' y, Function.update s.taskContext t (some x) t' = some y → y < s.nextItem := by
  intro t' y hslot
  by_cases heq : t' = t
  · subst heq
    rw [Function.update_self] at hslot
    cases hslot
    exact hx
  · rw [Function.update_of_ne heq] at hslot
    exact h.known t' y hslot

/-- **Every step keeps the slots.** -/
theorem Slots.step (h : Slots env s) (hframes : Frames s.stack s.phase s.nextItem)
    (hs : (machine env).step s a = some s') : Slots env s' := by
  obtain ⟨hmain, hknown, hstarted, hinnermost⟩ := h
  have hcase := step_inv hs
  cases hcase with
  | callParent t frame rest force l hstack hcall hparent =>
      exact ⟨hmain, hknown, hstarted, hinnermost.replace hstack rfl⟩
  | callNewLoop t frame rest force hstack hcall hparent =>
      exact ⟨hmain, hknown, hstarted, hinnermost.replace hstack rfl⟩
  | leave t frame rest c hstack hcall hbroken hempty =>
      exact ⟨hmain, hknown, hstarted, hinnermost.replace hstack rfl⟩
  | take t x q q' context hdequeue hqueued hrestore =>
      have hx := hframes.lt_nextItem (x := x) (by rw [hqueued]; simp)
      exact ⟨Slots.fill ⟨hmain, hknown, hstarted, hinnermost⟩ t x,
        Slots.known_fill ⟨hmain, hknown, hstarted, hinnermost⟩ t hx,
        (hstarted.setPhase x (by simp)).setSlot t (by rw [Function.update_self]; simp),
        hinnermost.push hstarted t hqueued⟩
  | takeRaising t x q q' context e hdequeue hqueued hrestore =>
      have hx := hframes.lt_nextItem (x := x) (by rw [hqueued]; simp)
      exact ⟨Slots.fill ⟨hmain, hknown, hstarted, hinnermost⟩ t x,
        Slots.known_fill ⟨hmain, hknown, hstarted, hinnermost⟩ t hx,
        (hstarted.setPhase x (by simp)).setSlot t (by rw [Function.update_self]; simp),
        hinnermost.fail hstarted t hqueued _⟩
  | ret t frame rest x r hstack hitem hcall =>
      exact ⟨hmain, hknown, hstarted.setPhase x (by simp), hinnermost.pop hstack hitem r⟩
  | syncToAsync k b custom selection executor hstatus hlive hselect hsubmit =>
      refine ⟨fun t => ?_, fun t x hx => (hknown t x hx).trans (Nat.lt_succ_self _),
        fun t x hx => ?_, hinnermost.setPhase (by simp)⟩
      -- the items in the slots are older than the one that is made
      · show s.mainEventLoop t = (s.taskContext t).map fun x =>
          ((Function.update s.item s.nextItem _ x).loop, env.getpid)
        rw [hmain t]
        cases hslot : s.taskContext t with
        | none => rfl
        | some x => simp only [Option.map_some, Function.update_of_ne (hknown t x hslot).ne]
      · show Function.update s.phase s.nextItem .queued x ≠ .queued
        rw [Function.update_of_ne (hknown t x hx).ne]
        exact hstarted t x hx
  | dropItem x hcancelled hqueued =>
      exact ⟨hmain, hknown, hstarted.setPhase x (by simp), hinnermost.setPhase (by simp)⟩
  | _ => exact ⟨hmain, hknown, hstarted, hinnermost⟩

/-- The loop in a slot is that of an item. -/
theorem Slots.parentKnown (h : Slots env s) (hnumbers : Numbers s) : ParentKnown env s := by
  intro t l hl
  simp only [parentLoop, h.mainEventLoop t] at hl
  cases hslot : s.taskContext t with
  | none => simp [hslot] at hl
  | some x =>
      have hloop := (hnumbers.item x (h.known t x hslot)).2
      simp only [hslot, Option.map_some, Bool.false_eq_true, if_false] at hl
      split at hl
      · cases hl
        exact hloop
      · cases hl

/-! ## The functions that make calls -/

/-- The functions that have made calls have numbers. -/
def CallItems (s : State) : Prop :=
  ∀ c, c < s.nextCall → ∀ x, (s.call c).item = some x → x < s.nextItem

/-- A call is one more to look at. -/
theorem forall_lt_update_iff {call : CallId → Call} {n : CallId} {made : Call}
    {P : Call → Prop} : (∀ c, c < n + 1 → P (Function.update call n made c)) ↔
      (∀ c, c < n → P (call c)) ∧ P made := by
  constructor
  · intro h
    refine ⟨fun c hc => ?_, ?_⟩
    · have hold := h c (hc.trans (Nat.lt_succ_self n))
      rwa [Function.update_of_ne hc.ne] at hold
    · have hnew := h n (Nat.lt_succ_self n)
      rwa [Function.update_self] at hnew
  · rintro ⟨hold, hnew⟩ c hc
    by_cases heq : c = n
    · subst heq
      rwa [Function.update_self]
    · rw [Function.update_of_ne heq]
      exact hold c (lt_of_le_of_ne (Nat.lt_succ_iff.mp hc) heq)

/-- A function that makes a call has a number. -/
theorem CallItems.park (h : CallItems s) (hframes : Frames s.stack s.phase s.nextItem)
    {t : ThreadId} {frame : SyncFrame} {rest : List SyncFrame} (hstack : s.stack t = frame :: rest)
    {made : Call} (hmade : made.item = frame.item) :
    ∀ c, c < s.nextCall + 1 → ∀ x,
      (Function.update s.call s.nextCall made c).item = some x → x < s.nextItem := by
  rw [forall_lt_update_iff (P := fun made => ∀ x, made.item = some x → x < s.nextItem)]
  refine ⟨h, fun x hx => hframes.lt_nextItem ?_⟩
  rw [hframes.frame t frame (hstack ▸ List.mem_cons_self) x (hmade ▸ hx)]
  simp

theorem CallItems.step (h : CallItems s) (hframes : Frames s.stack s.phase s.nextItem)
    (hs : (machine env).step s a = some s') : CallItems s' := by
  have hcase := step_inv hs
  cases hcase with
  | callParent t frame rest force l hstack hcall hparent => exact h.park hframes hstack rfl
  | callNewLoop t frame rest force hstack hcall hparent => exact h.park hframes hstack rfl
  | syncToAsync k b custom selection executor hstatus hlive hselect hsubmit =>
      exact fun c hc x hx => (h c hc x hx).trans (Nat.lt_succ_self _)
  | _ => exact h

/-- What holds of the slots and numbers together. -/
structure Known (env : Env) (s : State) : Prop where
  frames : Frames s.stack s.phase s.nextItem
  numbers : Numbers s
  slots : Slots env s
  callItems : CallItems s

/-- **Every run keeps the slots and numbers.** -/
theorem Known.run {contexts : List Context}
    (h : (machine env).Run Machine.Any (init contexts) as s) : Known env s :=
  h.invariant
    ⟨frames_init contexts, numbers_init contexts, slots_init env contexts,
      fun c hc => absurd hc (Nat.not_lt_zero c)⟩
    fun _ _ _ hI _ hs => ⟨hI.frames.step hs,
      hI.numbers.step (hI.slots.parentKnown hI.numbers) hs, hI.slots.step hI.frames hs,
      hI.callItems.step hI.frames hs⟩

end Runtime

end Asgiref
