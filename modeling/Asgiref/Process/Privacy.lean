import Asgiref.Process.Machine

/-! # Is a `Local` private to its thread?

The storage of a `Local` is tagged with the ident of the thread that wrote it. An ident says who a
thread is only while the thread lives, but the storage stays in the context and in its copies.

* **`Private`** — what a thread can read is what it has set itself.
* **`Untainted`** — a thread comes to run in a context only if the storage there that bears its
  ident holds nothing but what it has set.
* **`private_iff`** — the first holds all along exactly the runs whose steps meet the second. -/

namespace Asgiref.Process

open Local

/-- All that this thread, with this ident, can read in the context it has set itself. -/
def Clean (s : State) (t : ThreadId) (ident : Nat) (x : Context) : Prop :=
  ∀ l key value, getattr ident x l key = .ok value → (t, l, key, value) ∈ s.written

/-- In every context that it is in, a thread reads only values that it has set; where it has set
none, reading raises `AttributeError`. -/
def Private (s : State) : Prop :=
  ∀ t, ∀ c ∈ s.entered t, ∀ l key,
    (∀ value, getattr (s.ident t) (s.context c) l key = .ok value →
      (t, l, key, value) ∈ s.written) ∧
      ((∀ value, (t, l, key, value) ∉ s.written) →
        getattr (s.ident t) (s.context c) l key = .error (.attributeError key))

/-- A thread comes to run in a context, at its start or by `Context.run`, only if the storage in it
that bears its ident holds nothing but what it has set itself: nothing that is left from an earlier
thread with this ident. -/
def Untainted (s : State) : Action → Prop
  | .start parent ident .inherit =>
      ∀ c rest, s.entered parent = c :: rest → Clean s s.nextThread ident (s.context c)
  | .start _ ident (.entering c) => Clean s s.nextThread ident (s.context c)
  | .enter t c => Clean s t (s.ident t) (s.context c)
  | _ => True

variable {s s' : State}

/-- Reading gives a value or raises `AttributeError`. -/
theorem getattr_error (i : Nat) (x : Context) (l : Nat) {key : String}
    (h : ∀ value, getattr i x l key ≠ .ok value) :
    getattr i x l key = .error (.attributeError key) := by
  rw [getattr_eq] at h ⊢
  cases hlookup : (view i x l).lookup key with
  | none => rfl
  | some value => exact absurd (by rw [hlookup]) (h value)

/-- Being private is being clean in all contexts. -/
theorem private_iff_clean :
    Private s ↔ ∀ t, ∀ c ∈ s.entered t, Clean s t (s.ident t) (s.context c) := by
  constructor
  · intro h t c hc l key value hvalue
    exact (h t c hc l key).1 value hvalue
  · intro h t c hc l key
    refine ⟨fun value => h t c hc l key value, fun hnone => ?_⟩
    exact getattr_error _ _ _ fun value hvalue => hnone value (h t c hc l key value hvalue)

/-! ## The contexts of threads -/

/-- Threads are in contexts that there are, no two in the same one. -/
structure Wf (s : State) : Prop where
  below : ∀ t, ∀ c ∈ s.entered t, c < s.nextContext
  apart : ∀ t t', ∀ c ∈ s.entered t, c ∈ s.entered t' → t = t'
  future : ∀ t, s.nextThread ≤ t → s.entered t = []

theorem wf_init (ident : Nat) : Wf (init ident) := by
  have hzero : ∀ t c, c ∈ (init ident).entered t → t = 0 ∧ c = 0 := by
    intro t c hc
    by_cases ht : t = 0
    · subst ht
      simpa [init] using hc
    · simp [init, ht] at hc
  refine ⟨fun t c hc => ?_, fun t t' c hc hc' => ?_, fun t ht => ?_⟩
  · rw [(hzero t c hc).2]
    exact Nat.one_pos
  · rw [(hzero t c hc).1, (hzero t' c hc').1]
  · have hpos : 1 ≤ t := ht
    have hne : t ≠ 0 := Nat.ne_of_gt hpos
    simp [init, hne]

/-- No thread is in a free context, and there is one of this number. -/
theorem Wf.of_free (h : Wf s) {c : ContextId} (hfree : s.free c = true) :
    c < s.nextContext ∧ ∀ t, c ∉ s.entered t := by
  simp only [State.free, Bool.and_eq_true, decide_eq_true_eq, List.all_eq_true,
    List.mem_range] at hfree
  refine ⟨hfree.1, fun t hc => ?_⟩
  by_cases ht : t < s.nextThread
  · exact hfree.2 t ht hc
  · rw [h.future t (Nat.le_of_not_lt ht)] at hc
    cases hc

theorem Wf.newContext (h : Wf s) (x : Context) : Wf (s.newContext x) :=
  ⟨fun t c hc => Nat.lt_succ_of_lt (h.below t c hc), h.apart, h.future⟩

theorem Wf.setContext (h : Wf s) (c : ContextId) (x : Context) : Wf (s.setContext c x) :=
  { h with }

/-- A thread leaves contexts, or enters free ones. -/
theorem Wf.setEntered (h : Wf s) {t : ThreadId} {cs : List ContextId} (ht : t < s.nextThread)
    (hcs : ∀ c ∈ cs, c ∈ s.entered t ∨ s.free c = true) : Wf (s.setEntered t cs) := by
  -- who is in a context afterwards was in it before, or it was free
  have hmem : ∀ t' c, c ∈ (s.setEntered t cs).entered t' →
      c ∈ s.entered t' ∨ t' = t ∧ s.free c = true := by
    intro t' c hc
    by_cases heq : t' = t
    · subst heq
      have hc' : c ∈ cs := by simpa [State.setEntered] using hc
      exact (hcs c hc').imp id fun hfree => ⟨rfl, hfree⟩
    · exact .inl (by simpa [State.setEntered, heq] using hc)
  refine ⟨fun t' c hc => ?_, fun t₁ t₂ c hc₁ hc₂ => ?_, fun t' ht' => ?_⟩
  · rcases hmem t' c hc with hold | ⟨-, hfree⟩
    · exact h.below t' c hold
    · exact (h.of_free hfree).1
  · rcases hmem t₁ c hc₁ with hold₁ | ⟨rfl, hfree₁⟩
    · rcases hmem t₂ c hc₂ with hold₂ | ⟨rfl, hfree₂⟩
      · exact h.apart t₁ t₂ c hold₁ hold₂
      · exact absurd hold₁ ((h.of_free hfree₂).2 t₁)
    -- a free context is nobody else's
    · rcases hmem t₂ c hc₂ with hold₂ | ⟨rfl, -⟩
      · exact absurd hold₂ ((h.of_free hfree₁).2 t₂)
      · rfl
  · have hne : t' ≠ t := by
      rintro rfl
      exact absurd ht (Nat.not_lt.mpr ht')
    show Function.update s.entered t cs t' = []
    rw [Function.update_of_ne hne]
    exact h.future t' ht'

/-- A new thread, in a context that no other is in. -/
theorem Wf.startIn (h : Wf s) (ident : Nat) {c : ContextId} (hc : c < s.nextContext)
    (hother : ∀ t, c ∉ s.entered t) : Wf (s.startIn ident c) := by
  have hmem : ∀ t d, d ∈ (s.startIn ident c).entered t →
      d ∈ s.entered t ∨ t = s.nextThread ∧ d = c := by
    intro t d hd
    by_cases heq : t = s.nextThread
    · subst heq
      exact .inr ⟨rfl, by simpa [State.startIn] using hd⟩
    · exact .inl (by simpa [State.startIn, heq] using hd)
  refine ⟨fun t d hd => ?_, fun t₁ t₂ d hd₁ hd₂ => ?_, fun t ht => ?_⟩
  · rcases hmem t d hd with hold | ⟨-, rfl⟩
    · exact h.below t d hold
    · exact hc
  · rcases hmem t₁ d hd₁ with hold₁ | ⟨rfl, rfl⟩
    · rcases hmem t₂ d hd₂ with hold₂ | ⟨rfl, rfl⟩
      · exact h.apart t₁ t₂ d hold₁ hold₂
      · exact absurd hold₁ (hother t₁)
    · rcases hmem t₂ _ hd₂ with hold₂ | ⟨rfl, -⟩
      · exact absurd hold₂ (hother t₂)
      · rfl
  · have hlt : s.nextThread < t := ht
    show Function.update s.entered s.nextThread [c] t = []
    rw [Function.update_of_ne (Nat.ne_of_gt hlt)]
    exact h.future t (Nat.le_of_lt hlt)

/-- A thread that is in a context has been started. -/
theorem Wf.lt (h : Wf s) {t : ThreadId} {cs : List ContextId} {c : ContextId}
    (hentered : s.entered t = c :: cs) : t < s.nextThread := by
  by_contra hle
  rw [h.future t (Nat.le_of_not_lt hle)] at hentered
  cases hentered

/-- A new thread, in a new context. -/
theorem Wf.startInNew (h : Wf s) (ident : Nat) (x : Context) :
    Wf ((s.newContext x).startIn ident s.nextContext) := by
  refine (h.newContext x).startIn ident (Nat.lt_succ_self _) fun t hc => ?_
  exact absurd (h.below t _ hc) (Nat.lt_irrefl _)

/-- **Steps keep threads apart.** -/
theorem Wf.step (h : Wf s) {a : Action} (hstep : machine.step s a = some s') : Wf s' := by
  cases step_inv hstep with
  | startEmpty parent ident => exact h.startInNew ident ∅
  | startInherit parent ident => exact h.startInNew ident _
  | startEntering parent ident d hfree =>
      exact h.startIn ident (h.of_free hfree).1 (h.of_free hfree).2
  | exit hentered => exact h.setEntered (h.lt hentered) (by simp)
  | copy c => exact h.newContext _
  | enter hentered hfree =>
      refine h.setEntered (h.lt hentered) fun c' hc' => ?_
      rcases List.mem_cons.mp hc' with rfl | hold
      · exact .inr hfree
      · exact .inl (by rwa [hentered])
  | leave hentered =>
      refine h.setEntered (h.lt hentered) fun c' hc' => .inl ?_
      rw [hentered]
      exact List.mem_cons_of_mem _ hc'
  | setattr => exact { h with }
  | delattr => exact h.setContext _ _

/-! ## What threads read -/

/-- What was set stays set. -/
theorem Clean.mono {t : ThreadId} {i : Nat} {x : Context} (h : Clean s t i x)
    (hwritten : ∀ w ∈ s.written, w ∈ s'.written) : Clean s' t i x :=
  fun l key value hvalue => hwritten _ (h l key value hvalue)

/-- Nothing can be read in an empty context. -/
theorem Clean.empty (s : State) (t : ThreadId) (i : Nat) : Clean s t i ∅ := by
  intro l key value hvalue
  rw [getattr_eq, view_of_none (by simp [storage])] at hvalue
  simp at hvalue

/-- A thread sets an attribute. -/
theorem Clean.setattr {t : ThreadId} {i : Nat} {x : Context} (h : Clean s t i x) {l : Nat}
    {key : String} {value : Obj}
    (hwritten : ∀ w ∈ (t, l, key, value) :: s.written, w ∈ s'.written) :
    Clean s' t i (setattr i x l key value) := by
  intro l' key' value' hvalue
  rw [getattr_eq] at hvalue
  by_cases hl : l' = l
  · subst hl
    rw [setattr_eq, view_of_owner (storage_setStorage_self _ _ _)] at hvalue
    by_cases hkey : key' = key
    · subst hkey
      simp only [AList.lookup_insert] at hvalue
      cases hvalue
      exact hwritten _ List.mem_cons_self
    · rw [AList.lookup_insert_ne hkey, ← getattr_eq] at hvalue
      exact hwritten _ (List.mem_cons_of_mem _ (h l' key' value' hvalue))
  · have hsame : view i (setStorage x l ⟨i, (view i x l).insert key value⟩) l' = view i x l' :=
      view_congr (storage_setStorage_ne _ _ hl) i
    rw [setattr_eq, hsame, ← getattr_eq] at hvalue
    exact hwritten _ (List.mem_cons_of_mem _ (h l' key' value' hvalue))

/-- A thread deletes an attribute. -/
theorem Clean.delattr {t : ThreadId} {i : Nat} {x y : Context} (h : Clean s t i x) {l : Nat}
    {key : String} (hdel : delattr i x l key = .ok y) : Clean s t i y := by
  rw [delattr_eq] at hdel
  split at hdel
  · cases hdel
    intro l' key' value' hvalue
    rw [getattr_eq] at hvalue
    by_cases hl : l' = l
    · subst hl
      rw [view_of_owner (storage_setStorage_self _ _ _)] at hvalue
      by_cases hkey : key' = key
      · subst hkey
        simp at hvalue
      · rw [AList.lookup_erase_ne hkey, ← getattr_eq] at hvalue
        exact h l' key' value' hvalue
    · have hsame : view i (setStorage x l ⟨i, (view i x l).erase key⟩) l' = view i x l' :=
        view_congr (storage_setStorage_ne _ _ hl) i
      rw [hsame, ← getattr_eq] at hvalue
      exact h l' key' value' hvalue
  · cases hdel

/-- A new context is none that a thread is in. -/
theorem Private.newContext (hwf : Wf s) (h : Private s) (x : Context) :
    Private (s.newContext x) := by
  rw [private_iff_clean] at h ⊢
  intro t c hc
  have hne : c ≠ s.nextContext := Nat.ne_of_lt (hwf.below t c hc)
  have hsame : (s.newContext x).context c = s.context c := by simp [State.newContext, hne]
  rw [hsame]
  exact h t c hc

/-- A new thread can read nothing exactly if there is nothing that bears its ident. -/
theorem private_startIn_iff (h : Private s) (ident : Nat) (c : ContextId) :
    Private (s.startIn ident c) ↔ Clean s s.nextThread ident (s.context c) := by
  rw [private_iff_clean] at h ⊢
  constructor
  · intro hprivate
    have hnew := hprivate s.nextThread c (by simp [State.startIn])
    have hident : (s.startIn ident c).ident s.nextThread = ident := by simp [State.startIn]
    rw [hident] at hnew
    exact hnew
  · intro hclean t d hd
    by_cases ht : t = s.nextThread
    · subst ht
      obtain rfl : d = c := by simpa [State.startIn] using hd
      have hident : (s.startIn ident d).ident s.nextThread = ident := by simp [State.startIn]
      rw [hident]
      exact hclean
    · have hd' : d ∈ s.entered t := by simpa [State.startIn, ht] using hd
      have hident : (s.startIn ident c).ident t = s.ident t := by simp [State.startIn, ht]
      rw [hident]
      exact h t d hd'

/-- The same for a new thread in a new context. -/
theorem private_startInNew_iff (hwf : Wf s) (h : Private s) (ident : Nat) (x : Context) :
    Private ((s.newContext x).startIn ident s.nextContext) ↔ Clean s s.nextThread ident x := by
  rw [private_startIn_iff (h.newContext hwf x)]
  have hcontext : (s.newContext x).context s.nextContext = x := by simp [State.newContext]
  rw [hcontext]
  exact Iff.rfl

/-- A thread that goes to other contexts. -/
theorem private_setEntered_iff (h : Private s) (t : ThreadId) (cs : List ContextId) :
    Private (s.setEntered t cs) ↔ ∀ c ∈ cs, Clean s t (s.ident t) (s.context c) := by
  rw [private_iff_clean] at h ⊢
  constructor
  · intro hprivate c hc
    exact hprivate t c (by simpa [State.setEntered] using hc)
  · intro hclean t' c hc
    by_cases ht : t' = t
    · subst ht
      exact hclean c (by simpa [State.setEntered] using hc)
    · exact h t' c (by simpa [State.setEntered, ht] using hc)

/-- A thread changes its current context. -/
theorem Private.setContext (hwf : Wf s) (h : Private s) {t : ThreadId} {c : ContextId}
    {cs : List ContextId} (hentered : s.entered t = c :: cs) {x : Context}
    {written : List (ThreadId × Nat × String × Obj)} (hwritten : ∀ w ∈ s.written, w ∈ written)
    (hclean : Clean { s.setContext c x with written := written } t (s.ident t) x) :
    Private { s.setContext c x with written := written } := by
  rw [private_iff_clean] at h ⊢
  intro t' d hd
  by_cases hdc : d = c
  · subst hdc
    -- only the thread itself is in the context
    obtain rfl := hwf.apart t' t d hd (by rw [hentered]; exact List.mem_cons_self)
    simpa [State.setContext] using hclean
  · have hsame :
        ({ s.setContext c x with written := written } : State).context d = s.context d := by
      simp [State.setContext, hdc]
    rw [hsame]
    exact (h t' d hd).mono hwritten

/-- **One step** from a private state leads to a private one exactly if it is untainted. -/
theorem private_step_iff (hwf : Wf s) (h : Private s) {a : Action}
    (hstep : machine.step s a = some s') : Private s' ↔ Untainted s a := by
  have hclean := private_iff_clean.mp h
  cases step_inv hstep with
  | startEmpty parent ident =>
      exact iff_of_true ((private_startInNew_iff hwf h ident ∅).mpr (.empty s _ _)) trivial
  | startInherit parent ident hparent =>
      rw [private_startInNew_iff hwf h]
      constructor
      · intro hcopy d rest' hd
        rw [hparent] at hd
        cases hd
        exact hcopy
      · intro hall
        exact hall _ _ hparent
  | startEntering parent ident d => exact private_startIn_iff h ident d
  | exit hentered =>
      exact iff_of_true ((private_setEntered_iff h _ []).mpr (by simp)) trivial
  | copy c => exact iff_of_true (h.newContext hwf _) trivial
  | enter hentered hfree =>
      rw [private_setEntered_iff h, List.forall_mem_cons]
      refine and_iff_left fun c' hc' => hclean _ c' ?_
      rwa [hentered]
  | leave hentered =>
      refine iff_of_true ((private_setEntered_iff h _ _).mpr fun c' hc' => ?_) trivial
      refine hclean _ c' ?_
      rw [hentered]
      exact List.mem_cons_of_mem _ hc'
  | setattr l key value hentered =>
      have hc := hclean _ _ (by rw [hentered]; exact List.mem_cons_self)
      refine iff_of_true (h.setContext hwf hentered (fun w hw => ?_)
        (hc.setattr fun w hw => hw)) trivial
      exact List.mem_cons_of_mem _ hw
  | delattr l key hentered hdel =>
      have hc := hclean _ _ (by rw [hentered]; exact List.mem_cons_self)
      exact iff_of_true (h.setContext hwf hentered (fun w hw => hw) (hc.delattr hdel)) trivial

/-- **When a `Local` is private to its thread.** In every state of a run every thread reads only
what it has set itself, if and only if every step of the run is untainted. -/
theorem private_iff {ident : Nat} {as : List Action}
    (h : machine.Run Machine.Any (init ident) as s) :
    machine.Always Private (init ident) as ↔ machine.Run Untainted (init ident) as s := by
  have hwf : ∀ as s, machine.Run Machine.Any (init ident) as s → Wf s := fun as s hrun =>
    hrun.invariant (wf_init ident) fun _ _ _ hI _ hs => hI.step hs
  have h₀ : Private (init ident) := private_iff_clean.mpr fun t c _ => .empty _ _ _
  exact h.always_iff hwf h₀ fun s a s' hJ hP hs => private_step_iff hJ hP hs

/-- The main thread sets an attribute and starts a thread in a copy of its context, which sets it
too. -/
def inheriting : List Action :=
  [.setattr 0 0 "user" (.int 1), .start 0 2 .inherit, .setattr 1 0 "user" (.int 2)]

/-- Neither reads what the other has set. -/
theorem private_iff_inheriting :
    ∃ s, machine.exec (init 1) inheriting = some s ∧ machine.Run Untainted (init 1) inheriting s ∧
      machine.Always Private (init 1) inheriting := by
  obtain ⟨s₁, hs₁⟩ : ∃ s₁, machine.step (init 1) (.setattr 0 0 "user" (.int 1)) = some s₁ :=
    ⟨_, rfl⟩
  obtain ⟨s₂, hs₂⟩ : ∃ s₂, machine.step s₁ (.start 0 2 .inherit) = some s₂ := by
    cases hs₁
    exact ⟨_, rfl⟩
  obtain ⟨s, hs⟩ : ∃ s, machine.step s₂ (.setattr 1 0 "user" (.int 2)) = some s := by
    cases hs₁
    cases hs₂
    exact ⟨_, rfl⟩
  have hset : ∀ s t value, Untainted s (.setattr t 0 "user" value) := fun _ _ _ => trivial
  -- the storage in the copy bears the ident of the main thread
  have hinherit : Untainted s₁ (.start 0 2 .inherit) := by
    cases hs₁
    intro c rest hentered
    cases hentered
    refine fun l key value hread => ?_
    have hview : view 2 (setattr 1 ∅ 0 "user" (.int 1)) l = ∅ := by
      by_cases hl : l = 0
      · subst hl
        exact view_of_ne_owner (storage_setStorage_self _ _ _) (by decide)
      · exact view_of_none (storage_setStorage_ne _ _ hl)
    have hread' : getattr 2 (setattr 1 ∅ 0 "user" (.int 1)) l key = .ok value := hread
    rw [getattr_eq, hview] at hread'
    cases hread'
  have hrun : machine.Run Untainted (init 1) inheriting s :=
    ((Machine.Run.single (hset _ _ _) hs₁).append (.single hinherit hs₂)).append
      (.single (hset _ _ _) hs)
  have hprivate := (private_iff (hrun.mono fun _ _ _ => trivial)).mpr hrun
  cases hs₁
  cases hs₂
  cases hs
  exact ⟨_, rfl, hrun, hprivate⟩

/-- A thread with ident 2 sets an attribute, starts another in a copy of its context, and exits. The
other one starts a third, which gets the ident 2 again. -/
def identReused : List Action :=
  [.start 0 2 .empty, .setattr 1 0 "user" (.int 1), .start 1 3 .inherit, .exit 1,
    .start 2 2 .inherit]

/-- The third thread reads the attribute, and has set nothing. -/
theorem identReused_not_private :
    ∃ s, machine.exec (init 1) identReused = some s ∧ ¬ Private s ∧ s.entered 3 = [3] ∧
      getattr (s.ident 3) (s.context 3) 0 "user" = .ok (.int 1) ∧
      ∀ value, (3, 0, "user", value) ∉ s.written := by
  have hwritten : ∀ value, ((3, 0, "user", value) : ThreadId × Nat × String × Obj) ∉
      [((1, 0, "user", .int 1) : ThreadId × Nat × String × Obj)] := by
    intro value hmem
    simp at hmem
  refine ⟨_, rfl, fun h => ?_, rfl, rfl, hwritten⟩
  exact hwritten _ ((h 3 3 (by decide) 0 "user").1 (.int 1) rfl)

end Asgiref.Process
