import Asgiref.Executor.Delivery
import Asgiref.Calls.Machine

/-! # The frames form stacks

* **`Inv`** — what always holds: the frames of a thread are those of its calls that have not ended,
  the later calls above the earlier ones; an executor's old executor is that of an earlier call; and
  only the innermost frame can be the one whose `run_until_future` goes on.
* **`executors_step`**, **`run_executors`** — what the executors see of a step and of a run.
* **`Framed`**, **`framed_run`** — while a call has its frame, the frames and the contexts below it
  stay as they were when it began. -/

namespace Asgiref

namespace Calls

open CurrentThreadExecutor (Chain step_change step_start took_of_start running_of_finish)

variable {env : Env} {chain : Chain} {s s' : State} {a : Action}

/-! ## What the executors see -/

/-- What a step does to the executors, if anything. -/
theorem executors_step (hs : (machine env chain).step s a = some s') :
    s'.executors = s.executors ∨
      ∃ b, (CurrentThreadExecutor.machine chain).step s.executors b = some s'.executors ∧
        (allows chain s b = true ∧ a = .executor b ∨
          ∃ t c rest, s.stack t = c :: rest ∧ (b = .start c ∨ b = .finish c)) := by
  cases step_inv hs with
  | @enterItem t c rest executors x context hstack hstart =>
      exact .inr ⟨.start c, hstart, .inr ⟨t, c, rest, hstack, .inl rfl⟩⟩
  | @dropItem t c rest executors context hstack hstart =>
      exact .inr ⟨.start c, hstart, .inr ⟨t, c, rest, hstack, .inl rfl⟩⟩
  | @leaveItem t c rest executors hstack hfinish =>
      exact .inr ⟨.finish c, hfinish, .inr ⟨t, c, rest, hstack, .inr rfl⟩⟩
  | @executor b executors hallows hstep => exact .inr ⟨b, hstep, .inl ⟨hallows, rfl⟩⟩
  | _ => exact .inl rfl

/-- What the executors see of a run is a run of theirs. -/
theorem run_executors {as : List Action} (h : (machine env chain).Run Machine.Any s as s') :
    ∃ bs, (CurrentThreadExecutor.machine chain).Run Machine.Any s.executors bs s'.executors := by
  induction h with
  | nil => exact ⟨[], .nil⟩
  | snoc _ _ hs ih =>
      obtain ⟨bs, hrun⟩ := ih
      rcases executors_step hs with hsame | ⟨b, hstep, -⟩
      · rw [hsame]
        exact ⟨bs, hrun⟩
      · exact ⟨bs ++ [b], .snoc hrun trivial hstep⟩

/-! ## The invariant -/

/-- What always holds of the calls. -/
structure Inv (chain : Chain) (s : State) : Prop where
  executors : CurrentThreadExecutor.Inv chain s.executors
  sorted : ∀ t, (s.stack t).Pairwise (· > ·)
  below : ∀ t, ∀ c ∈ s.stack t, c < s.next ∧ chain.workThread c = t
  active : ∀ c, (s.loop c).Active → c ∈ s.stack (chain.workThread c)
  older : ∀ c < s.next, ∀ e, chain.oldExecutor c = some e → e < c
  start : ∀ x, (s.executors.item x).submit ≠ .notCalled → (s.executors.item x).start < s.next
  /-- A call that has no frame has not begun or has ended. -/
  frameless : ∀ c, c ∉ s.stack (chain.workThread c) →
    (s.call c).path = none ∨ (s.executors.executor c).futureDone = true

theorem inv_init (chain : Chain) (context : ThreadId → Context) : Inv chain (init context) where
  executors := CurrentThreadExecutor.inv_init chain
  sorted t := .nil
  below t c hc := by cases hc
  active c hactive := absurd rfl hactive.1
  older c hc := absurd hc (Nat.not_lt_zero c)
  start x hcalled := absurd rfl hcalled
  frameless c _ := .inl rfl

/-- A step of the executors alone. -/
theorem Inv.setExecutors (h : Inv chain s) {b : CurrentThreadExecutor.Action}
    {executors : CurrentThreadExecutor.State}
    (hstep : (CurrentThreadExecutor.machine chain).step s.executors b = some executors)
    (henter : ∀ c t, b = .enter c t → c ∈ s.stack (chain.workThread c))
    (hsubmit : ∀ x t c, b = .submit x t c → c < s.next) :
    Inv chain { s with executors := executors } where
  executors := h.executors.step hstep
  sorted := h.sorted
  below := h.below
  active c hactive := by
    rcases (step_change hstep c).active hactive with hbefore | ⟨t, hb⟩
    · exact h.active c hbefore
    · exact henter c t hb
  older := h.older
  start x hcalled := by
    show (executors.item x).start < s.next
    rcases step_start hstep hcalled with ⟨t, hb⟩ | ⟨hbefore, hsame⟩
    · exact hsubmit x t _ hb
    · rw [hsame]
      exact h.start x hbefore
  frameless c hc := (h.frameless c hc).imp id fun hdone => by
    rcases (step_change hstep c).futureDone with hsame | ⟨-, hdone'⟩
    · exact hsame.trans hdone
    · exact hdone'

/-- The contexts of the threads play no part, and neither does the table. -/
theorem Inv.setEntered (h : Inv chain s) (entered : ThreadId → List Context) :
    Inv chain { s with entered := entered } :=
  { h with }

theorem Inv.setTable (h : Inv chain s) (table : LoopId → Option CallId) :
    Inv chain { s with loopThreadExecutors := table } :=
  { h with }

/-- A call changes that has a frame, or keeps its path. -/
theorem Inv.setCall (h : Inv chain s) {c : CallId} {call : Call}
    (hpath : c ∈ s.stack (chain.workThread c) ∨ call.path = (s.call c).path) :
    Inv chain (s.setCall c call) :=
  { h with
    frameless := by
      refine (Function.forall_update_iff s.call fun c' call => c' ∉ s.stack (chain.workThread c') →
        call.path = none ∨ (s.executors.executor c').futureDone = true).mpr
        ⟨fun hc => ?_, fun c' _ => h.frameless c'⟩
      rw [hpath.resolve_left hc]
      exact h.frameless c hc }

/-- A new call. -/
theorem Inv.made (h : Inv chain s) {t : ThreadId} (hthread : chain.workThread s.next = t)
    (holder : ∀ e, chain.oldExecutor s.next = some e → e < s.next) :
    Inv chain (begin env t s) := by
  have hstack : ∀ t', (begin env t s).stack t' =
      if t' = t then s.next :: s.stack t' else s.stack t' := by
    intro t'
    show Function.update s.stack t (s.next :: s.stack t) t' = _
    by_cases ht : t' = t
    · rw [ht, Function.update_self, if_pos rfl]
    · rw [Function.update_of_ne ht, if_neg ht]
  have hkeep : ∀ t' c, c ∈ s.stack t' → c ∈ (begin env t s).stack t' := by
    intro t' c hc
    rw [hstack]
    split
    · exact List.mem_cons_of_mem _ hc
    · exact hc
  refine ⟨h.executors, fun t' => ?_, fun t' c hc => ?_, fun c hactive => ?_, fun c hc e he => ?_,
    fun x hcalled => ?_, fun c hc => ?_⟩
  · rw [hstack]
    split
    · exact List.pairwise_cons.mpr ⟨fun c hc => (h.below t' c hc).1, h.sorted t'⟩
    · exact h.sorted t'
  · rw [hstack] at hc
    have hold : c ∈ s.stack t' → c < s.next + 1 ∧ chain.workThread c = t' := fun hmem =>
      ⟨Nat.lt_succ_of_lt (h.below t' c hmem).1, (h.below t' c hmem).2⟩
    split at hc
    · rename_i ht
      rcases List.mem_cons.mp hc with rfl | hmem
      · exact ⟨Nat.lt_succ_self _, hthread.trans ht.symm⟩
      · exact hold hmem
    · exact hold hc
  · exact hkeep _ c (h.active c hactive)
  · rcases Nat.lt_succ_iff_lt_or_eq.mp hc with hlt | rfl
    · exact h.older c hlt e he
    · exact holder e he
  · exact Nat.lt_succ_of_lt (h.start x hcalled)
  · show (Function.update s.call s.next _ c).path = none ∨ _
    by_cases hnext : c = s.next
    · subst hnext
      rw [Function.update_self]
      exact .inl rfl
    · rw [Function.update_of_ne hnext]
      exact h.frameless c fun hmem => hc (hkeep _ c hmem)

/-- The innermost call of a thread ends. -/
theorem Inv.leave (h : Inv chain s) {t : ThreadId} {c : CallId} {rest : List CallId}
    (hstack : s.stack t = c :: rest)
    (hover : s.loop c = .notCalled ∧ (s.call c).path = none ∨ s.loop c = .returned)
    (entered : ThreadId → List Context) :
    Inv chain { s with entered := entered, stack := Function.update s.stack t rest } := by
  have hthread : chain.workThread c = t := (h.below t c (by rw [hstack]; exact .head _)).2
  have hinactive : ¬ (s.loop c).Active := by
    rintro ⟨hcall, hreturned⟩
    exact hover.elim (fun hnone => hcall hnone.1) hreturned
  have hdone : (s.call c).path = none ∨ (s.executors.executor c).futureDone = true := by
    refine hover.imp And.right fun hreturned => ?_
    have hex := h.executors.executor c
    exact hex.called (hex.broken.mp (hex.returned hreturned).2)
  -- the other frames are where they were
  have hmem : ∀ t' c', c' ≠ c → c' ∈ s.stack t' → c' ∈ Function.update s.stack t rest t' := by
    intro t' c' hne hc'
    by_cases ht : t' = t
    · subst ht
      rw [Function.update_self]
      rw [hstack] at hc'
      exact (List.mem_cons.mp hc').resolve_left hne
    · rwa [Function.update_of_ne ht]
  have hsub : ∀ t', (Function.update s.stack t rest t').Sublist (s.stack t') := by
    intro t'
    by_cases ht : t' = t
    · subst ht
      rw [Function.update_self, hstack]
      exact List.sublist_cons_self c rest
    · rw [Function.update_of_ne ht]
  exact { h with
    sorted := fun t' => (h.sorted t').sublist (hsub t')
    below := fun t' c' hc' => h.below t' c' ((hsub t').subset hc')
    active := fun c' hactive =>
      hmem _ c' (fun heq => hinactive (heq ▸ hactive)) (h.active c' hactive)
    frameless := fun c' hc' => by
      by_cases heq : c' = c
      · subst heq
        exact hdone
      · exact h.frameless c' fun hold => hc' (hmem _ c' heq hold) }

/-- **Every step keeps the invariant.** -/
theorem Inv.step (h : Inv chain s) (hs : (machine env chain).step s a = some s') :
    Inv chain s' := by
  cases step_inv hs with
  | call hfree hthread hold hmade =>
      refine h.made hthread fun e he => hmade e ?_
      rw [← hold]
      exact he
  | work context hfree => exact h.setEntered _
  | @schedule t c rest path hstack hpath =>
      have hmem : c ∈ s.stack t := by
        rw [hstack]
        exact .head _
      apply h.setCall
      left
      rwa [(h.below t c hmem).2]
  | leave hstack hover => exact h.leave hstack hover _
  | enterItem context hstack hstart =>
      exact (h.setExecutors hstart (fun _ _ heq => by cases heq)
        fun _ _ _ heq => by cases heq).setEntered _
  | dropItem context hstack hstart =>
      exact h.setExecutors hstart (fun _ _ heq => by cases heq) fun _ _ _ heq => by cases heq
  | leaveItem hstack hfinish =>
      exact (h.setExecutors hfinish (fun _ _ heq => by cases heq)
        fun _ _ _ heq => by cases heq).setEntered _
  | startOnParent | capture | finish =>
      apply h.setCall
      exact .inr rfl
  | startOnNew | finishOnNew =>
      apply Inv.setTable
      apply h.setCall
      exact .inr rfl
  | executor hallows hstep =>
      refine h.setExecutors hstep (fun c t heq => ?_) fun x t c heq => ?_
      · subst heq
        simp only [allows, Bool.and_eq_true, decide_eq_true_eq] at hallows
        exact List.mem_of_head? hallows.1
      · subst heq
        simpa [allows] using hallows

/-- **The invariant holds throughout every run.** -/
theorem Inv.run {context : ThreadId → Context} {as : List Action}
    (h : (machine env chain).Run Machine.Any (init context) as s) : Inv chain s :=
  h.invariant (inv_init chain context) fun _ _ _ hI _ hs => hI.step hs

/-! ## From the beginning to the end of a call -/

/-- The number of these frames in which the function of an item is being called. -/
def depth (s : State) (cs : List CallId) : Nat := cs.countP fun c => (s.loop c).isRunning

/-- As long as call `c` has its frame on thread `t`, these calls and contexts are below it. The
thread is in one more context for each item that it runs in the frame and in those above. -/
def Framed (t : ThreadId) (c : CallId) (rest : List CallId) (outer : List Context) (s : State) :
    Prop :=
  c ∈ s.stack t → ∃ above, s.stack t = above ++ c :: rest ∧
    (s.entered t).drop (depth s (above ++ [c]) + 1) = outer

variable {t : ThreadId} {c : CallId} {rest : List CallId} {outer : List Context}

theorem depth_congr {cs : List CallId}
    (h : ∀ c ∈ cs, (s'.loop c).isRunning = (s.loop c).isRunning) : depth s' cs = depth s cs :=
  List.countP_congr fun c hc => by rw [h c hc]

theorem depth_cons_idle {c : CallId} (h : (s.loop c).isRunning = false) (cs : List CallId) :
    depth s (c :: cs) = depth s cs :=
  List.countP_cons_of_neg (by simpa using h)

theorem depth_cons_running {c : CallId} (h : (s.loop c).isRunning = true) (cs : List CallId) :
    depth s (c :: cs) = depth s cs + 1 := by
  unfold depth
  rw [List.countP_cons, if_pos h]

/-- A step that the frames of this thread do not see. -/
theorem Framed.congr (h : Framed t c rest outer s) (hstack : s'.stack t = s.stack t)
    (hentered : (s'.entered t).tail = (s.entered t).tail)
    (hrunning : ∀ c ∈ s.stack t, (s'.loop c).isRunning = (s.loop c).isRunning) :
    Framed t c rest outer s' := by
  intro hc
  rw [hstack] at hc ⊢
  obtain ⟨above, habove, houter⟩ := h hc
  refine ⟨above, habove, ?_⟩
  have hdepth : depth s' (above ++ [c]) = depth s (above ++ [c]) := depth_congr fun c' hc' => by
    refine hrunning c' ?_
    rw [habove]
    rcases List.mem_append.mp hc' with hmem | hmem
    · exact List.mem_append_left _ hmem
    · rw [List.mem_singleton.mp hmem]
      exact List.mem_append_right _ List.mem_cons_self
  rw [hdepth, ← houter, ← List.drop_tail, ← List.drop_tail, hentered]

/-- A call without a frame runs no item. -/
theorem Inv.not_running (h : Inv chain s) (hc : c ∉ s.stack (chain.workThread c)) :
    (s.loop c).isRunning = false := by
  by_contra hrunning
  rw [Bool.not_eq_false] at hrunning
  refine hc (h.active c ⟨fun hcall => ?_, fun hreturned => ?_⟩)
  · rw [hcall] at hrunning
    cases hrunning
  · rw [hreturned] at hrunning
    cases hrunning

/-- A call begins above. -/
theorem Framed.made (h : Framed t c rest outer s) (hinv : Inv chain s) (hc : c < s.next) :
    Framed t c rest outer (begin env t s) := by
  have hstack : (begin env t s).stack t = s.next :: s.stack t := Function.update_self ..
  have hentered : ((begin env t s).entered t).tail = (s.entered t).tail := by
    show (Function.update s.entered t _ t).tail = _
    rw [Function.update_self]
    rfl
  have hnew : (s.loop s.next).isRunning = false := by
    refine hinv.not_running fun hmem => ?_
    exact Nat.lt_irrefl _ (hinv.below _ _ hmem).1
  intro hmem
  rw [hstack] at hmem ⊢
  obtain ⟨above, habove, houter⟩ :=
    h ((List.mem_cons.mp hmem).resolve_left (Nat.ne_of_lt hc))
  refine ⟨s.next :: above, by rw [habove]; rfl, ?_⟩
  have hdepth : depth (begin env t s) (s.next :: above ++ [c]) = depth s (above ++ [c]) :=
    depth_cons_idle hnew _
  rw [hdepth, ← houter, ← List.drop_tail, ← List.drop_tail, hentered]

/-- The innermost frame is the first of those down to `c`. -/
theorem exists_first {top : CallId} {rest₀ above : List CallId}
    (habove : top :: rest₀ = above ++ c :: rest) :
    ∃ more, above ++ [c] = top :: more ∧ ∀ c' ∈ more, c' ∈ rest₀ := by
  cases above with
  | nil =>
      obtain ⟨rfl, rfl⟩ := List.cons.inj habove
      exact ⟨[], rfl, fun c' hc' => by cases hc'⟩
  | cons first above =>
      obtain ⟨rfl, rfl⟩ := List.cons.inj habove
      refine ⟨above ++ [c], rfl, fun c' hc' => ?_⟩
      rcases List.mem_append.mp hc' with hmem | hmem
      · exact List.mem_append_left _ hmem
      · rw [List.mem_singleton.mp hmem]
        exact List.mem_append_right _ List.mem_cons_self

/-- The innermost frame begins or ends the function of an item. -/
theorem Framed.item (h : Framed t c rest outer s) (hinv : Inv chain s) {top : CallId}
    {rest₀ : List CallId} (hstack : s.stack t = top :: rest₀) (hstack' : s'.stack t = s.stack t)
    (hother : ∀ c' ≠ top, (s'.loop c').isRunning = (s.loop c').isRunning)
    (hitem : (s.loop top).isRunning = false ∧ (s'.loop top).isRunning = true ∧
        (s'.entered t).tail = s.entered t ∨
      (s.loop top).isRunning = true ∧ (s'.loop top).isRunning = false ∧
        s'.entered t = (s.entered t).tail) : Framed t c rest outer s' := by
  intro hc
  rw [hstack'] at hc ⊢
  obtain ⟨above, habove, houter⟩ := h hc
  refine ⟨above, habove, ?_⟩
  obtain ⟨more, hmore, hbelow⟩ := exists_first (hstack.symm.trans habove)
  have hsorted := hinv.sorted t
  rw [hstack] at hsorted
  have hsame : depth s' more = depth s more := depth_congr fun c' hc' =>
    hother c' (Nat.ne_of_lt ((List.pairwise_cons.mp hsorted).1 c' (hbelow c' hc')))
  rw [hmore] at houter ⊢
  rcases hitem with ⟨hbefore, hafter, hentered⟩ | ⟨hbefore, hafter, hentered⟩
  · rw [depth_cons_idle hbefore] at houter
    rw [depth_cons_running hafter, hsame, ← List.drop_tail, hentered]
    exact houter
  · rw [depth_cons_running hbefore] at houter
    rw [depth_cons_idle hafter, hsame, hentered, List.drop_tail]
    exact houter

/-- The innermost call ends. -/
theorem Framed.leave (h : Framed t c rest outer s) (hinv : Inv chain s) {top : CallId}
    {rest₀ : List CallId} (hstack : s.stack t = top :: rest₀)
    (hidle : (s.loop top).isRunning = false) (hstack' : s'.stack t = rest₀)
    (hentered : (s'.entered t).tail = (s.entered t).tail) (hloop : s'.loop = s.loop) :
    Framed t c rest outer s' := by
  intro hc
  rw [hstack'] at hc ⊢
  obtain ⟨above, habove, houter⟩ := h (by rw [hstack]; exact List.mem_cons_of_mem _ hc)
  rw [hstack] at habove
  cases above with
  | nil =>
      -- then it is `c` itself that ends, and it has no second frame
      obtain ⟨rfl, rfl⟩ := List.cons.inj habove
      have hsorted := hinv.sorted t
      rw [hstack] at hsorted
      exact absurd ((List.pairwise_cons.mp hsorted).1 top hc) (Nat.lt_irrefl top)
  | cons first above =>
      obtain ⟨rfl, rfl⟩ := List.cons.inj habove
      refine ⟨above, rfl, ?_⟩
      have hdepth : depth s' (above ++ [c]) = depth s (top :: above ++ [c]) := by
        rw [List.cons_append, depth_cons_idle hidle]
        exact depth_congr fun c' _ => by rw [hloop]
      rw [hdepth, ← houter, ← List.drop_tail, ← List.drop_tail, hentered]

/-- A step of one executor's `_WorkItem.run` concerns no other. -/
theorem isRunning_of_ne {top c' : CallId} (hne : c' ≠ top) {b : CurrentThreadExecutor.Action}
    (hb : b = .start top ∨ b = .finish top)
    {executors executors' : CurrentThreadExecutor.State}
    (hstep : (CurrentThreadExecutor.machine chain).step executors b = some executors') :
    (executors'.executor c').loop.isRunning = (executors.executor c').loop.isRunning := by
  rcases (step_change hstep c').isRunning with hsame | ⟨rfl, -⟩ | ⟨rfl, -⟩
  · exact hsame
  · rcases hb with heq | heq <;> cases heq
    exact absurd rfl hne
  · rcases hb with heq | heq <;> cases heq
    exact absurd rfl hne

/-- The innermost frame of another thread starts or finishes an item. -/
theorem Framed.otherItem (h : Framed t c rest outer s) (hinv : Inv chain s) {t' : ThreadId}
    (ht : t' ≠ t) {top : CallId} {rest₀ : List CallId} (hstack : s.stack t' = top :: rest₀)
    {b : CurrentThreadExecutor.Action} (hb : b = .start top ∨ b = .finish top)
    {executors : CurrentThreadExecutor.State}
    (hstep : (CurrentThreadExecutor.machine chain).step s.executors b = some executors)
    {entered : ThreadId → List Context} (hentered : entered t = s.entered t) :
    Framed t c rest outer { s with executors := executors, entered := entered } := by
  refine h.congr rfl (congrArg List.tail hentered) fun c' hc' => isRunning_of_ne ?_ hb hstep
  -- a frame is on one thread only
  rintro rfl
  have hthread := (hinv.below t' c' (by rw [hstack]; exact .head _)).2
  exact ht (hthread.symm.trans (hinv.below t c' hc').2)

/-- **While a call has its frame, what is below it stays.** -/
theorem Framed.step (h : Framed t c rest outer s) (hinv : Inv chain s) (hc : c < s.next)
    (hs : (machine env chain).step s a = some s') : Framed t c rest outer s' := by
  have hset : ∀ (t' : ThreadId) (context : Context),
      (Function.update s.entered t' (context :: (s.entered t').tail) t).tail
        = (s.entered t).tail := by
    intro t' context
    by_cases ht : t = t'
    · subst ht
      rw [Function.update_self, List.tail_cons]
    · rw [Function.update_of_ne ht]
  cases step_inv hs with
  | @call t' hfree hthread =>
      by_cases ht : t' = t
      · subst ht
        exact h.made hinv hc
      · have hstack : (begin env t' s).stack t = s.stack t :=
          Function.update_of_ne (Ne.symm ht) _ _
        exact h.congr hstack (hset t' _) fun _ _ => rfl
  | @work t' context => exact h.congr rfl (hset t' context) fun _ _ => rfl
  | @leave t' top rest₀ hstack hover =>
      by_cases ht : t' = t
      · subst ht
        have hidle : (s.loop top).isRunning = false := by
          rcases hover with ⟨hcall, -⟩ | hreturned
          · rw [hcall]
            rfl
          · rw [hreturned]
            rfl
        exact h.leave hinv hstack hidle (Function.update_self ..) (hset t' _) rfl
      · have hstack' : Function.update s.stack t' rest₀ t = s.stack t :=
          Function.update_of_ne (Ne.symm ht) _ _
        exact h.congr hstack' (hset t' _) fun _ _ => rfl
  | @enterItem t' top rest₀ executors x context hstack hstart hrunning =>
      by_cases ht : t' = t
      · subst ht
        obtain ⟨y, htook⟩ := took_of_start hstart
        have hbefore : (s.loop top).isRunning = false := by
          show (s.executors.executor top).loop.isRunning = false
          rw [htook]
          rfl
        have hafter : (executors.executor top).loop.isRunning = true := by
          rw [hrunning]
          rfl
        refine h.item hinv hstack rfl (fun c' hne => isRunning_of_ne hne (.inl rfl) hstart)
          (.inl ⟨hbefore, hafter, ?_⟩)
        show (Function.update s.entered t' (context :: s.entered t') t').tail = _
        rw [Function.update_self, List.tail_cons]
      · exact h.otherItem hinv ht hstack (.inl rfl) hstart (Function.update_of_ne (Ne.symm ht) _ _)
  | @dropItem t' top rest₀ executors context hstack hstart hnot =>
      refine h.congr rfl rfl fun c' _ => ?_
      by_cases hc' : c' = top
      · subst hc'
        obtain ⟨y, htook⟩ := took_of_start hstart
        show (executors.executor c').loop.isRunning = (s.executors.executor c').loop.isRunning
        rw [htook]
        cases hloop : (executors.executor c').loop with
        | running x => exact absurd hloop (hnot x)
        | _ => rfl
      · exact isRunning_of_ne hc' (.inl rfl) hstart
  | @leaveItem t' top rest₀ executors hstack hfinish =>
      by_cases ht : t' = t
      · subst ht
        obtain ⟨⟨x, hrunning⟩, htop⟩ := running_of_finish hfinish
        have hbefore : (s.loop top).isRunning = true := by
          show (s.executors.executor top).loop.isRunning = true
          rw [hrunning]
          rfl
        have hafter : (executors.executor top).loop.isRunning = false := by
          rw [htop]
          rfl
        exact h.item hinv hstack rfl (fun c' hne => isRunning_of_ne hne (.inr rfl) hfinish)
          (.inr ⟨hbefore, hafter, Function.update_self ..⟩)
      · exact h.otherItem hinv ht hstack (.inr rfl) hfinish (Function.update_of_ne (Ne.symm ht) _ _)
  | @executor b executors hallows hstep =>
      refine h.congr rfl rfl fun c' _ => ?_
      rcases (step_change hstep c').isRunning with hsame | ⟨rfl, -⟩ | ⟨rfl, -⟩
      · exact hsame
      · simp [allows] at hallows
      · simp [allows] at hallows
  | schedule | startOnParent | startOnNew | capture | finishOnNew | finish =>
      exact h.congr rfl rfl fun _ _ => rfl

/-- Calls are only ever added. -/
theorem next_step (hs : (machine env chain).step s a = some s') : s.next ≤ s'.next := by
  cases step_inv hs with
  | call => exact Nat.le_succ s.next
  | _ => exact Nat.le_refl _

/-- **From the beginning of a call on**, the frames and contexts that were there before it stay
below it. -/
theorem framed_run {s₁ s₂ : State} {bs : List Action} (hinv : Inv chain s₁)
    (hcall : (machine env chain).step s₁ (.call t) = some s₂)
    (hrun : (machine env chain).Run Machine.Any s₂ bs s) :
    Inv chain s ∧ s₁.next < s.next ∧
      Framed t s₁.next (s₁.stack t) (s₁.entered t).tail s := by
  refine hrun.invariant (I := fun s => Inv chain s ∧ s₁.next < s.next ∧
    Framed t s₁.next (s₁.stack t) (s₁.entered t).tail s) ⟨hinv.step hcall, ?_, ?_⟩
    fun s a s' hI _ hs => ⟨hI.1.step hs, Nat.lt_of_lt_of_le hI.2.1 (next_step hs),
      hI.2.2.step hI.1 hI.2.1 hs⟩
  · cases step_inv hcall with
    | call => exact Nat.lt_succ_self _
  · cases step_inv hcall with
    | call hfree hthread =>
        intro _
        refine ⟨[], Function.update_self .., ?_⟩
        have hidle : (s₁.loop s₁.next).isRunning = false := by
          refine hinv.not_running fun hmem => ?_
          exact Nat.lt_irrefl _ (hinv.below _ _ hmem).1
        have hdepth : depth (begin env t s₁) ([] ++ [s₁.next]) = 0 := depth_cons_idle hidle []
        rw [hdepth, Nat.zero_add, List.drop_one]
        show (Function.update s₁.entered t _ t).tail = _
        rw [Function.update_self, List.tail_cons]

/-- The end of a call finds below it what was there at its beginning. -/
theorem Framed.top (h : Framed t c rest outer s) (hinv : Inv chain s) {rest' : List CallId}
    (hstack : s.stack t = c :: rest') (hidle : (s.loop c).isRunning = false) :
    rest' = rest ∧ (s.entered t).tail = outer := by
  obtain ⟨above, habove, houter⟩ := h (by rw [hstack]; exact .head _)
  rw [hstack] at habove
  cases above with
  | nil =>
      obtain ⟨-, rfl⟩ := List.cons.inj habove
      have hdepth : depth s ([] ++ [c]) = 0 := depth_cons_idle hidle []
      rw [hdepth, Nat.zero_add, List.drop_one] at houter
      exact ⟨rfl, houter⟩
  | cons first above =>
      -- it would have two frames
      obtain ⟨rfl, rfl⟩ := List.cons.inj habove
      have hsorted := hinv.sorted t
      rw [hstack] at hsorted
      exact absurd ((List.pairwise_cons.mp hsorted).1 c
        (List.mem_append_right _ List.mem_cons_self)) (Nat.lt_irrefl c)

/-- Executors 0 and 1 of thread 7, made by a call and by one below it. -/
def nestedFrames : Chain where
  workThread _ := 7
  oldExecutor e := if e = 1 then some 0 else none

/-- The context of the function of an item that executor 0 runs. -/
def inItem : Context := Local.setattr 7 ∅ executors "current" (.executor 0)

end Calls

end Asgiref
