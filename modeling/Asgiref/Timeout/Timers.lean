import Mathlib.Data.List.Count
import Mathlib.Tactic.Common
import Asgiref.Timeout.Machine

/-! # The blocks and the timers of `timeout` objects

* **`Fresh`** — a `timeout` is entered only while it is not in use and has not expired, as one that
  is made for its block.
* **`Blocks`** — an object has in its `_task` the task that is in its block.
* **`Timers`** — which handles there are for which objects.
* **`Inv`** — both together, which every step keeps (**`inv_run`**). -/

namespace Asgiref.AsyncTimeout

/-- A `timeout` is entered while it is in no block and has not expired. -/
def Fresh (s : State) : Action → Prop
  | .enter o => (s.timeouts o).task = none ∧ (s.timeouts o).cancelled = false
  | _ => True

instance (s : State) (a : Action) : Decidable (Fresh s a) := by
  cases a <;> unfold Fresh <;> infer_instance

variable {resolution : Nat} {timeouts : Nat → Option Int} {time : Int} {s s' : State}
  {as : List Action} {t o h : Nat}

/-! ## The blocks -/

/-- An object that is not disabled has the task in its `_task` that is in its block, which is in it
once. -/
structure Blocks (timeouts : Nat → Option Int) (task : Nat → Option Nat)
    (blocks : Nat → List Nat) : Prop where
  mem : ∀ t o, task o = some t → o ∈ blocks t
  task : ∀ t o, o ∈ blocks t → timeouts o ≠ none → task o = some t
  once : ∀ t o, timeouts o ≠ none → (blocks t).count o ≤ 1

section Blocks

variable {task : Nat → Option Nat} {blocks : Nat → List Nat}

/-- What is not in use is in no block. -/
theorem Blocks.notMem (hinv : Blocks timeouts task blocks) (htask : task o = none)
    (hsome : timeouts o ≠ none) (t : Nat) : o ∉ blocks t := by
  intro hmem
  rw [hinv.task t o hmem hsome] at htask
  cases htask

theorem mem_push {o' t' : Nat} :
    o' ∈ Function.update blocks t (o :: blocks t) t' ↔ o' ∈ blocks t' ∨ o' = o ∧ t' = t := by
  by_cases ht : t' = t
  · subst ht
    rw [Function.update_self, List.mem_cons]
    tauto
  · rw [Function.update_of_ne ht]
    tauto

/-- An object that does nothing is entered. -/
theorem Blocks.pushDisabled (hinv : Blocks timeouts task blocks) (hnone : timeouts o = none)
    (t : Nat) : Blocks timeouts task (Function.update blocks t (o :: blocks t)) := by
  constructor
  · intro t' o' htask
    exact mem_push.mpr (.inl (hinv.mem t' o' htask))
  · intro t' o' hmem hsome
    rcases mem_push.mp hmem with hmem | ⟨rfl, -⟩
    · exact hinv.task t' o' hmem hsome
    · exact absurd hnone hsome
  · intro t' o' hsome
    have ho : o ≠ o' := by
      rintro rfl
      exact hsome hnone
    by_cases ht : t' = t
    · subst ht
      rw [Function.update_self, List.count_cons_of_ne ho]
      exact hinv.once t' o' hsome
    · rw [Function.update_of_ne ht]
      exact hinv.once t' o' hsome

/-- An object is entered. -/
theorem Blocks.push (hinv : Blocks timeouts task blocks) (htask : task o = none)
    (hsome : timeouts o ≠ none) (t : Nat) :
    Blocks timeouts (Function.update task o (some t))
      (Function.update blocks t (o :: blocks t)) := by
  have hout := hinv.notMem htask hsome
  constructor
  · intro t' o' h
    rw [mem_push]
    by_cases ho : o' = o
    · subst ho
      rw [Function.update_self] at h
      cases h
      exact .inr ⟨rfl, rfl⟩
    · rw [Function.update_of_ne ho] at h
      exact .inl (hinv.mem t' o' h)
  · intro t' o' hmem hsome'
    rcases mem_push.mp hmem with hbefore | ⟨rfl, rfl⟩
    · have ho : o' ≠ o := by
        rintro rfl
        exact hout t' hbefore
      rw [Function.update_of_ne ho]
      exact hinv.task t' o' hbefore hsome'
    · rw [Function.update_self]
  · intro t' o' hsome'
    by_cases ht : t' = t
    · subst ht
      rw [Function.update_self]
      by_cases ho : o = o'
      · subst ho
        rw [List.count_cons_self, List.count_eq_zero.mpr (hout t')]
      · rw [List.count_cons_of_ne ho]
        exact hinv.once t' o' hsome'
    · rw [Function.update_of_ne ht]
      exact hinv.once t' o' hsome'

/-- The innermost block of a task is left. -/
theorem Blocks.pop (hinv : Blocks timeouts task blocks) {rest : List Nat}
    (hblocks : blocks t = o :: rest) (hdisabled : timeouts o = none → task o = none) :
    Blocks timeouts (Function.update task o none) (Function.update blocks t rest) := by
  have hsub : ∀ t' o', o' ∈ Function.update blocks t rest t' → o' ∈ blocks t' := by
    intro t' o' hmem
    by_cases ht : t' = t
    · subst ht
      rw [Function.update_self] at hmem
      rw [hblocks]
      exact List.mem_cons_of_mem _ hmem
    · rwa [Function.update_of_ne ht] at hmem
  have hin : o ∈ blocks t := by
    rw [hblocks]
    exact List.mem_cons_self
  constructor
  · intro t' o' h
    have ho : o' ≠ o := by
      rintro rfl
      rw [Function.update_self] at h
      cases h
    rw [Function.update_of_ne ho] at h
    have hmem := hinv.mem t' o' h
    by_cases ht : t' = t
    · subst ht
      rw [Function.update_self]
      rw [hblocks] at hmem
      exact List.mem_of_ne_of_mem ho hmem
    · rwa [Function.update_of_ne ht]
  · intro t' o' hmem hsome
    have ho : o' ≠ o := by
      rintro rfl
      -- it was in one block, and that one is left
      have htask := hinv.task t o' hin hsome
      obtain rfl : t = t' := by
        have htask' := hinv.task t' o' (hsub t' o' hmem) hsome
        rw [htask] at htask'
        exact Option.some.inj htask'
      rw [Function.update_self] at hmem
      have honce := hinv.once t o' hsome
      rw [hblocks, List.count_cons_self] at honce
      have hpos := List.count_pos_iff.mpr hmem
      omega
    rw [Function.update_of_ne ho]
    exact hinv.task t' o' (hsub t' o' hmem) hsome
  · intro t' o' hsome
    have honce := hinv.once t' o' hsome
    by_cases ht : t' = t
    · subst ht
      rw [Function.update_self]
      rw [hblocks] at honce
      have hle := List.count_le_count_cons (a := o') (b := o) (l := rest)
      omega
    · rwa [Function.update_of_ne ht]

end Blocks

/-! ## The timers -/

/-- The timer of `o` is due: it was entered so long ago. -/
def Expired (resolution : Nat) (timeouts : Nat → Option Int) (s : State) (o : Nat) : Prop :=
  ∃ d, timeouts o = some d ∧ (0 < d → s.enteredAt o + d < s.time + resolution)

/-- What holds of the objects and the handles. -/
structure Timers (resolution : Nat) (timeouts : Nat → Option Int) (s : State) : Prop where
  timeout : ∀ o, (s.timeouts o).timeout = timeouts o
  /-- A handle that an object keeps is that of its block, and was called if it has expired. -/
  handler : ∀ o h, (s.timeouts o).cancelHandler = some h → (s.timeouts o).task ≠ none ∧
    ∃ d, timeouts o = some d ∧ 0 < d ∧
      s.handles h = some ⟨o, some (s.enteredAt o + d), false, (s.timeouts o).cancelled⟩
  armed : ∀ o d, (s.timeouts o).task ≠ none → timeouts o = some d → 0 < d →
    (s.timeouts o).cancelHandler ≠ none
  /-- A handle that may still be called is kept by its object, but for those of `call_soon`. -/
  kept : ∀ h handle, s.handles h = some handle → handle.Live →
    (s.timeouts handle.owner).cancelHandler = some h ∨
      handle.time = none ∧ ∃ d ≤ 0, timeouts handle.owner = some d
  expired : ∀ o, (s.timeouts o).cancelled = true → Expired resolution timeouts s o
  made : ∀ h, s.made ≤ h → s.handles h = none
  disabled : ∀ o, timeouts o = none → (s.timeouts o).task = none
  deadline : ∀ o d, (s.timeouts o).task ≠ none → timeouts o = some d → 0 < d →
    (s.timeouts o).cancelAt = some (s.enteredAt o + d)

theorem timers_init (resolution : Nat) (timeouts : Nat → Option Int) (time : Int) :
    Timers resolution timeouts (init timeouts time) where
  timeout _ := rfl
  handler _ _ h := nomatch h
  armed _ _ h := absurd rfl h
  kept _ _ h := nomatch h
  expired _ h := nomatch h
  made _ _ := rfl
  disabled _ _ := rfl
  deadline _ _ h := absurd rfl h

/-- An object that is not in use keeps no handle. -/
theorem Timers.unused (hinv : Timers resolution timeouts s) (htask : (s.timeouts o).task = none) :
    (s.timeouts o).cancelHandler = none := by
  by_contra hhandler
  obtain ⟨h, hh⟩ := Option.ne_none_iff_exists'.mp hhandler
  exact (hinv.handler o h hh).1 htask

theorem Expired.mono (hexpired : Expired resolution timeouts s o)
    (hentered : s'.enteredAt o = s.enteredAt o) (htime : s.time ≤ s'.time) :
    Expired resolution timeouts s' o := by
  obtain ⟨d, hd, hdue⟩ := hexpired
  refine ⟨d, hd, fun hpos => ?_⟩
  have hlt := hdue hpos
  rw [hentered]
  omega

/-- Time passes, and tasks do this and that. -/
theorem Timers.of_eq (hinv : Timers resolution timeouts s) (htimeouts : s'.timeouts = s.timeouts)
    (hhandles : s'.handles = s.handles) (hmade : s'.made = s.made)
    (hentered : s'.enteredAt = s.enteredAt) (htime : s.time ≤ s'.time) :
    Timers resolution timeouts s' where
  timeout := by
    rw [htimeouts]
    exact hinv.timeout
  handler := by
    rw [htimeouts, hhandles, hentered]
    exact hinv.handler
  armed := by
    rw [htimeouts]
    exact hinv.armed
  kept := by
    rw [htimeouts, hhandles]
    exact hinv.kept
  expired := by
    rw [htimeouts]
    exact fun o h => (hinv.expired o h).mono (congrFun hentered o) htime
  made := by
    rw [hhandles, hmade]
    exact hinv.made
  disabled := by
    rw [htimeouts]
    exact hinv.disabled
  deadline := by
    rw [htimeouts, hentered]
    exact hinv.deadline

/-! ### Entering -/

/-- What entering a block does to the objects and the handles: nothing if the object is disabled,
and else there is a new handle, which the object keeps if it is for a later time. -/
inductive Entered (s : State) (t o : Nat) : State → Prop
  | disabled (h : (s.timeouts o).timeout = none) : Entered s t o s
  | scheduled (d : Int) (self : Timeout) (handle : Handle)
      (h : (s.timeouts o).timeout = some d) (htimeout : self.timeout = some d)
      (htask : self.task = some t) (hcancelled : self.cancelled = (s.timeouts o).cancelled)
      (hkept : d ≤ 0 ∧ self.cancelHandler = (s.timeouts o).cancelHandler ∧
          handle = ⟨o, none, false, false⟩ ∨
        0 < d ∧ self.cancelHandler = some s.made ∧ self.cancelAt = some (s.time + d) ∧
          handle = ⟨o, some (s.time + d), false, false⟩) :
      Entered s t o
        { s with
          timeouts := Function.update s.timeouts o self
          handles := Function.update s.handles s.made (some handle)
          made := s.made + 1 }

theorem enter_spec (s : State) (t o : Nat) :
    ∃ s₁, Entered s t o s₁ ∧ s.enter t o =
      { s₁ with
        blocks := Function.update s.blocks t (o :: s.blocks t)
        enteredAt := Function.update s.enteredAt o s.time } := by
  unfold State.enter doEnter
  cases htimeout : (s.timeouts o).timeout with
  | none =>
      refine ⟨s, .disabled htimeout, ?_⟩
      simp only [State.setTimeout, State.schedule, Function.update_eq_self]
  | some d =>
      by_cases hd : d ≤ 0
      · simp only [if_pos hd]
        let self := s.timeouts o
        exact ⟨_, .scheduled d ⟨some d, some t, self.cancelled, self.cancelHandler, self.cancelAt⟩
          ⟨o, none, false, false⟩ htimeout rfl rfl rfl (.inl ⟨hd, rfl, rfl⟩), rfl⟩
      · simp only [if_neg hd]
        let self := s.timeouts o
        exact ⟨_, .scheduled d ⟨some d, some t, self.cancelled, some s.made, some (s.time + d)⟩
          ⟨o, some (s.time + d), false, false⟩ htimeout rfl rfl rfl
          (.inr ⟨by omega, rfl, rfl, rfl⟩), rfl⟩

theorem Timers.enter (hinv : Timers resolution timeouts s) (htask : (s.timeouts o).task = none)
    (hcancelled : (s.timeouts o).cancelled = false) (t : Nat) :
    Timers resolution timeouts (s.enter t o) := by
  have hnone := hinv.unused htask
  obtain ⟨s₁, hentered, heq⟩ := enter_spec s t o
  rw [heq]
  -- another object has the times that it had
  have hhandler : ∀ o' h, o' ≠ o → (s.timeouts o').cancelHandler = some h →
      (s.timeouts o').task ≠ none ∧ h ≠ s.made ∧ ∃ d, timeouts o' = some d ∧ 0 < d ∧
        s.handles h = some ⟨o', some (Function.update s.enteredAt o s.time o' + d), false,
          (s.timeouts o').cancelled⟩ := by
    intro o' h ho hh
    obtain ⟨ht, d, hd, hpos, hhandle⟩ := hinv.handler o' h hh
    refine ⟨ht, ?_, d, hd, hpos, by rwa [Function.update_of_ne ho]⟩
    rintro rfl
    rw [hinv.made s.made le_rfl] at hhandle
    cases hhandle
  have hexpired : ∀ o', (s.timeouts o').cancelled = true → Expired resolution timeouts
      { s with enteredAt := Function.update s.enteredAt o s.time } o' := by
    intro o' h
    have ho : o' ≠ o := by
      rintro rfl
      rw [hcancelled] at h
      cases h
    exact (hinv.expired o' h).mono (Function.update_of_ne ho _ _) le_rfl
  cases hentered with
  | disabled htimeout =>
      rw [hinv.timeout] at htimeout
      refine ⟨hinv.timeout, ?_, hinv.armed, hinv.kept, hexpired, hinv.made, hinv.disabled, ?_⟩
      · intro o' h hh
        have ho : o' ≠ o := by
          rintro rfl
          rw [hnone] at hh
          cases hh
        obtain ⟨ht, -, hrest⟩ := hhandler o' h ho hh
        exact ⟨ht, hrest⟩
      · intro o' d ht hd hpos
        have ho : o' ≠ o := by
          rintro rfl
          rw [htimeout] at hd
          cases hd
        simpa [ho] using hinv.deadline o' d ht hd hpos
  | scheduled d self handle htimeout htimeout' htask' hcancelled' hkept =>
      rw [hinv.timeout] at htimeout
      constructor
      · intro o'
        by_cases ho : o' = o
        · subst ho
          simp [htimeout, htimeout']
        · simpa [ho] using hinv.timeout o'
      · intro o' h hh
        by_cases ho : o' = o
        · subst ho
          simp only [Function.update_self] at hh
          rcases hkept with ⟨-, hsame, -⟩ | ⟨hd, hself, -, rfl⟩
          · rw [hsame, hnone] at hh
            cases hh
          · rw [hself] at hh
            cases hh
            exact ⟨by simp [htask'], d, htimeout, hd, by simp [hcancelled', hcancelled]⟩
        · obtain ⟨ht, hne, d', hd', hpos, hhandle⟩ := hhandler o' h ho (by simpa [ho] using hh)
          refine ⟨by simpa [ho] using ht, d', hd', hpos, ?_⟩
          simpa [ho, hne] using hhandle
      · intro o' d' ht hd' hpos
        by_cases ho : o' = o
        · subst ho
          rcases hkept with ⟨hd, -, -⟩ | ⟨-, hself, -⟩
          · rw [htimeout] at hd'
            cases hd'
            omega
          · simp [hself]
        · simpa [ho] using hinv.armed o' d' (by simpa [ho] using ht) hd' hpos
      · intro h handle' hh hlive
        by_cases hmade : h = s.made
        · subst hmade
          obtain rfl : handle = handle' := by simpa using hh
          rcases hkept with ⟨hd, -, rfl⟩ | ⟨-, hself, -, rfl⟩
          · exact .inr ⟨rfl, d, hd, htimeout⟩
          · exact .inl (by simp [hself])
        · rcases hinv.kept h handle' (by simpa [hmade] using hh) hlive with hhandler' | hsoon
          · have ho : handle'.owner ≠ o := by
              intro ho
              rw [ho, hnone] at hhandler'
              cases hhandler'
            exact .inl (by simpa [ho] using hhandler')
          · exact .inr hsoon
      · intro o' h
        by_cases ho : o' = o
        · subst ho
          simp [hcancelled', hcancelled] at h
        · exact hexpired o' (by simpa [ho] using h)
      · intro h hle
        have hle' : s.made + 1 ≤ h := hle
        have hne : h ≠ s.made := by omega
        simpa [hne] using hinv.made h (by omega)
      · intro o' hnone'
        have ho : o' ≠ o := by
          rintro rfl
          rw [htimeout] at hnone'
          cases hnone'
        simpa [ho] using hinv.disabled o' hnone'
      · intro o' d' ht hd' hpos
        by_cases ho : o' = o
        · subst ho
          rw [htimeout] at hd'
          cases hd'
          rcases hkept with ⟨hd, -, -⟩ | ⟨-, -, hdeadline, -⟩
          · omega
          · simpa using hdeadline
        · simpa [ho] using hinv.deadline o' d' (by simpa [ho] using ht) hd' hpos

/-! ### Leaving and calling -/

/-- `_do_exit` lets go of the task and the handle. -/
theorem doExit_self (excType : Option ExcType) {self : Timeout}
    (hnone : self.timeout = none → self.cancelHandler = none) :
    (doExit excType self).1 = { self with cancelHandler := none, task := none } := by
  unfold doExit
  split
  · rfl
  · split
    · rfl
    · rename_i hnot
      have hhandler : self.cancelHandler = none := by tauto
      rw [← hhandler]

/-- What a block is left with. -/
theorem doExit_raises (excType : Option ExcType) (self : Timeout) :
    (doExit excType self).2.2 =
      if excType = some .cancelledError ∧ self.cancelled = true then some .timeoutError
      else excType := by
  unfold doExit
  split
  · rfl
  · split <;> rfl

/-- Leaving a block takes its handle from the loop, and no other one. -/
theorem Timers.leave_spec (hinv : Timers resolution timeouts s) (t o : Nat)
    (excType : Option ExcType) :
    ∃ handles, s.leave t o excType =
        { s with
          timeouts := Function.update s.timeouts o
            { s.timeouts o with cancelHandler := none, task := none }
          handles := handles
          blocks := Function.update s.blocks t (s.blocks t).tail } ∧
      (∀ h, (s.timeouts o).cancelHandler ≠ some h → handles h = s.handles h) ∧
      ∀ h, (s.timeouts o).cancelHandler = some h → ∃ handle, handles h = some handle ∧
        ¬ handle.Live := by
  have hself : (doExit excType (s.timeouts o)).1 =
      { s.timeouts o with cancelHandler := none, task := none } := by
    apply doExit_self
    intro hnone
    by_contra hhandler
    obtain ⟨h, hh⟩ := Option.ne_none_iff_exists'.mp hhandler
    obtain ⟨-, d, hd, -⟩ := hinv.handler o h hh
    rw [hinv.timeout, hd] at hnone
    cases hnone
  unfold State.leave
  simp only [hself]
  cases hhandle : (doExit excType (s.timeouts o)).2.1 with
  | none =>
      refine ⟨s.handles, rfl, fun _ _ => rfl, fun h hh => ?_⟩
      obtain ⟨-, d, hd, -, hmem⟩ := hinv.handler o h hh
      refine ⟨_, hmem, fun hlive => ?_⟩
      -- a handle that is not cancelled was called
      have hcancelled : (s.timeouts o).cancelled = true := by
        unfold doExit at hhandle
        rw [hinv.timeout, hd, hh] at hhandle
        split at hhandle
        · rename_i hboth
          exact hboth.2
        · cases hhandle
      rw [hcancelled] at hlive
      cases hlive.2
  | some h =>
      have hh : (s.timeouts o).cancelHandler = some h := by
        unfold doExit at hhandle
        split at hhandle
        · cases hhandle
        · split at hhandle
          · exact hhandle
          · cases hhandle
      obtain ⟨-, d, -, -, hmem⟩ := hinv.handler o h hh
      refine ⟨Function.update s.handles h
        (some ⟨o, some (s.enteredAt o + d), true, (s.timeouts o).cancelled⟩), ?_, ?_, ?_⟩
      · simp [State.cancelHandle, State.setTimeout, State.setHandle, hmem]
      · intro h' hne
        have hne' : h' ≠ h := by
          rintro rfl
          exact hne hh
        exact Function.update_of_ne hne' _ _
      · intro h' hh'
        rw [hh] at hh'
        cases hh'
        exact ⟨_, Function.update_self _ _ _, fun hlive => nomatch hlive.1⟩

theorem Timers.leave (hinv : Timers resolution timeouts s) (t o : Nat)
    (excType : Option ExcType) : Timers resolution timeouts (s.leave t o excType) := by
  obtain ⟨handles, heq, hsame, hdead⟩ := hinv.leave_spec t o excType
  rw [heq]
  constructor
  · intro o'
    by_cases ho : o' = o
    · subst ho
      simpa using hinv.timeout o'
    · simpa [ho] using hinv.timeout o'
  · intro o' h hh
    have ho : o' ≠ o := by
      rintro rfl
      simp at hh
    obtain ⟨ht, d, hd, hpos, hhandle⟩ := hinv.handler o' h (by simpa [ho] using hh)
    refine ⟨by simpa [ho] using ht, d, hd, hpos, ?_⟩
    -- the handle is that of another block
    have hne : (s.timeouts o).cancelHandler ≠ some h := by
      intro hh'
      obtain ⟨-, d', -, -, hhandle'⟩ := hinv.handler o h hh'
      rw [hhandle] at hhandle'
      exact ho (congrArg Handle.owner (Option.some.inj hhandle'))
    simpa [ho, hsame h hne] using hhandle
  · intro o' d ht hd hpos
    have ho : o' ≠ o := by
      rintro rfl
      simp at ht
    simpa [ho] using hinv.armed o' d (by simpa [ho] using ht) hd hpos
  · intro h handle hh hlive
    have hne : (s.timeouts o).cancelHandler ≠ some h := by
      intro hh'
      obtain ⟨handle', hmem, hnot⟩ := hdead h hh'
      simp only [hmem, Option.some.injEq] at hh
      subst hh
      exact hnot hlive
    rcases hinv.kept h handle (by rw [← hsame h hne]; exact hh) hlive with hkept | hsoon
    · have ho : handle.owner ≠ o := by
        intro ho
        rw [ho] at hkept
        exact hne hkept
      exact .inl (by simpa [ho] using hkept)
    · exact .inr hsoon
  · intro o' h
    refine (hinv.expired o' ?_).mono rfl le_rfl
    by_cases ho : o' = o
    · subst ho
      simpa using h
    · simpa [ho] using h
  · intro h hle
    have hnone := hinv.made h hle
    have hne : (s.timeouts o).cancelHandler ≠ some h := by
      intro hh
      obtain ⟨-, d, -, -, hhandle⟩ := hinv.handler o h hh
      rw [hnone] at hhandle
      cases hhandle
    rw [← hnone]
    exact hsame h hne
  · intro o' hnone
    by_cases ho : o' = o
    · subst ho
      simp
    · simpa [ho] using hinv.disabled o' hnone
  · intro o' d ht hd hpos
    have ho : o' ≠ o := by
      rintro rfl
      simp at ht
    simpa [ho] using hinv.deadline o' d (by simpa [ho] using ht) hd hpos

/-- A handle that is called and due is that of an object whose time is up. -/
theorem Timers.expired_of_due (hinv : Timers resolution timeouts s) {handle : Handle}
    (hhandle : s.handles h = some handle) (hlive : handle.Live)
    (hdue : due resolution s.time handle) : Expired resolution timeouts s handle.owner := by
  rcases hinv.kept h handle hhandle hlive with hkept | ⟨-, d, hd, htimeout⟩
  · obtain ⟨-, d, hd, hpos, hmem⟩ := hinv.handler _ h hkept
    refine ⟨d, hd, fun _ => hdue _ ?_⟩
    rw [hhandle] at hmem
    rw [Option.some.inj hmem]
  · exact ⟨d, htimeout, fun hpos => by omega⟩

/-- The loop calls a handle whose object is in no block. -/
theorem call_unused {handle : Handle} (htask : (s.timeouts handle.owner).task = none) (h : Nat) :
    s.call h handle =
      { s with handles := Function.update s.handles h (some { handle with called := true }) } := by
  simp [State.call, cancelTask, State.setHandle, htask]

/-- The loop calls a handle whose object is in a block of task `t`. -/
theorem call_used {handle : Handle} (htask : (s.timeouts handle.owner).task = some t) (h : Nat) :
    s.call h handle =
      { s with
        timeouts := Function.update s.timeouts handle.owner
          { s.timeouts handle.owner with cancelled := true }
        handles := Function.update s.handles h (some { handle with called := true })
        tasks := Function.update s.tasks t (s.tasks t).cancel } := by
  simp [State.call, cancelTask, State.setHandle, State.setTimeout, State.setTask, htask]

theorem Timers.call (hinv : Timers resolution timeouts s) {handle : Handle}
    (hhandle : s.handles h = some handle) (hlive : handle.Live)
    (hdue : due resolution s.time handle) : Timers resolution timeouts (s.call h handle) := by
  have hexpired := hinv.expired_of_due hhandle hlive hdue
  have hmade : ∀ h', s.made ≤ h' → h' ≠ h := by
    rintro h' hle rfl
    rw [hinv.made h' hle] at hhandle
    cases hhandle
  cases htask : (s.timeouts handle.owner).task with
  | none =>
      rw [call_unused htask]
      refine ⟨hinv.timeout, ?_, hinv.armed, ?_, hinv.expired, ?_, hinv.disabled,
        hinv.deadline⟩
      · intro o h' hh
        obtain ⟨ht, d, hd, hpos, hmem⟩ := hinv.handler o h' hh
        refine ⟨ht, d, hd, hpos, ?_⟩
        have hne : h' ≠ h := by
          rintro rfl
          rw [hhandle] at hmem
          rw [Option.some.inj hmem] at htask
          exact ht htask
        simpa [hne] using hmem
      · intro h' handle' hh hlive'
        by_cases hne : h' = h
        · subst hne
          obtain rfl : { handle with called := true } = handle' := by simpa using hh
          cases hlive'.2
        · exact hinv.kept h' handle' (by simpa [hne] using hh) hlive'
      · intro h' hle
        simpa [hmade h' hle] using hinv.made h' hle
  | some t =>
      rw [call_used htask]
      constructor
      · intro o
        by_cases ho : o = handle.owner
        · subst ho
          simpa using hinv.timeout _
        · simpa [ho] using hinv.timeout o
      · intro o h' hh
        obtain ⟨ht, d, hd, hpos, hmem⟩ := hinv.handler o h' (by
          by_cases ho : o = handle.owner
          · subst ho
            simpa using hh
          · simpa [ho] using hh)
        by_cases hne : h' = h
        · subst hne
          rw [hhandle] at hmem
          obtain rfl := Option.some.inj hmem
          exact ⟨by simpa using ht, d, hd, hpos, by simp⟩
        · -- an object that keeps a handle is not called by another one
          have ho : o ≠ handle.owner := by
            rintro rfl
            rcases hinv.kept h handle hhandle hlive with hkept | ⟨-, d', hd', htimeout⟩
            · have hh' : (s.timeouts handle.owner).cancelHandler = some h' := by simpa using hh
              rw [hkept] at hh'
              exact hne (Option.some.inj hh').symm
            · rw [hd] at htimeout
              cases htimeout
              omega
          exact ⟨by simpa [ho] using ht, d, hd, hpos, by simpa [ho, hne] using hmem⟩
      · intro o d ht hd hpos
        by_cases ho : o = handle.owner
        · subst ho
          simpa using hinv.armed _ d (by simp [htask]) hd hpos
        · simpa [ho] using hinv.armed o d (by simpa [ho] using ht) hd hpos
      · intro h' handle' hh hlive'
        by_cases hne : h' = h
        · subst hne
          obtain rfl : { handle with called := true } = handle' := by simpa using hh
          cases hlive'.2
        · rcases hinv.kept h' handle' (by simpa [hne] using hh) hlive' with hkept | hsoon
          · refine .inl ?_
            by_cases ho : handle'.owner = handle.owner
            · rw [ho] at hkept ⊢
              simpa using hkept
            · simpa [ho] using hkept
          · exact .inr hsoon
      · intro o hcancelled
        by_cases ho : o = handle.owner
        · subst ho
          exact hexpired
        · exact hinv.expired o (by simpa [ho] using hcancelled)
      · intro h' hle
        simpa [hmade h' hle] using hinv.made h' hle
      · intro o hnone
        have ho : o ≠ handle.owner := by
          rintro rfl
          rw [hinv.disabled _ hnone] at htask
          cases htask
        simpa [ho] using hinv.disabled o hnone
      · intro o d ht hd hpos
        by_cases ho : o = handle.owner
        · subst ho
          simpa using hinv.deadline _ d (by simp [htask]) hd hpos
        · simpa [ho] using hinv.deadline o d (by simpa [ho] using ht) hd hpos

/-! ## Every state -/

/-- Which task each object says is in its block. -/
def State.taskOf (s : State) (o : Nat) : Option Nat := (s.timeouts o).task

/-- What holds of the objects, the handles and the blocks. -/
structure Inv (resolution : Nat) (timeouts : Nat → Option Int) (s : State) : Prop where
  timers : Timers resolution timeouts s
  blocks : Blocks timeouts s.taskOf s.blocks

/-- A step that only has time pass and tasks do this and that. -/
theorem Inv.of_eq (hinv : Inv resolution timeouts s) (htimeouts : s'.timeouts = s.timeouts)
    (hhandles : s'.handles = s.handles) (hmade : s'.made = s.made) (hblocks : s'.blocks = s.blocks)
    (hentered : s'.enteredAt = s.enteredAt) (htime : s.time ≤ s'.time) :
    Inv resolution timeouts s' where
  timers := hinv.timers.of_eq htimeouts hhandles hmade hentered htime
  blocks := by
    have htask : s'.taskOf = s.taskOf := by
      funext o
      unfold State.taskOf
      rw [htimeouts]
    rw [htask, hblocks]
    exact hinv.blocks

theorem Inv.enter (hinv : Inv resolution timeouts s) (htask : (s.timeouts o).task = none)
    (hcancelled : (s.timeouts o).cancelled = false) (t : Nat) :
    Inv resolution timeouts (s.enter t o) := by
  refine ⟨hinv.timers.enter htask hcancelled t, ?_⟩
  obtain ⟨s₁, hentered, heq⟩ := enter_spec s t o
  rw [heq]
  cases hentered with
  | disabled htimeout =>
      rw [hinv.timers.timeout] at htimeout
      exact hinv.blocks.pushDisabled htimeout t
  | scheduled d self handle htimeout _ htask' =>
      rw [hinv.timers.timeout] at htimeout
      have hsome : timeouts o ≠ none := by
        rw [htimeout]
        exact Option.some_ne_none d
      have hpush := hinv.blocks.push htask hsome t
      have heq : (fun o' => (Function.update s.timeouts o self o').task) =
          Function.update s.taskOf o (some t) := by
        funext o'
        by_cases ho : o' = o
        · subst ho
          simp [htask']
        · simp [ho, State.taskOf]
      rw [← heq] at hpush
      exact hpush

theorem Inv.leave (hinv : Inv resolution timeouts s) {rest : List Nat}
    (hblocks : s.blocks t = o :: rest) (excType : Option ExcType) :
    Inv resolution timeouts (s.leave t o excType) := by
  refine ⟨hinv.timers.leave t o excType, ?_⟩
  obtain ⟨handles, heq, -, -⟩ := hinv.timers.leave_spec t o excType
  rw [heq]
  have hpop := hinv.blocks.pop hblocks (hinv.timers.disabled o)
  have htask : (fun o' => (Function.update s.timeouts o
      { s.timeouts o with cancelHandler := none, task := none } o').task) =
        Function.update s.taskOf o none := by
    funext o'
    by_cases ho : o' = o
    · subst ho
      simp
    · simp [ho, State.taskOf]
  rw [← htask] at hpop
  rw [hblocks]
  exact hpop

theorem Inv.call (hinv : Inv resolution timeouts s) {handle : Handle}
    (hhandle : s.handles h = some handle) (hlive : handle.Live)
    (hdue : due resolution s.time handle) : Inv resolution timeouts (s.call h handle) := by
  refine ⟨hinv.timers.call hhandle hlive hdue, ?_⟩
  cases htask : (s.timeouts handle.owner).task with
  | none =>
      rw [call_unused htask]
      exact hinv.blocks
  | some t =>
      rw [call_used htask]
      have heq : (fun o => (Function.update s.timeouts handle.owner
          { s.timeouts handle.owner with cancelled := true } o).task) = s.taskOf := by
        funext o
        by_cases ho : o = handle.owner
        · subst ho
          simp [State.taskOf]
        · simp [ho, State.taskOf]
      have hblocks := hinv.blocks
      rw [← heq] at hblocks
      exact hblocks

theorem inv_init (resolution : Nat) (timeouts : Nat → Option Int) (time : Int) :
    Inv resolution timeouts (init timeouts time) where
  timers := timers_init resolution timeouts time
  blocks :=
    { mem := fun _ _ h => nomatch h
      task := fun _ _ h => nomatch h
      once := fun _ _ _ => Nat.zero_le _ }

/-- A block that is left is the innermost one of the running task. -/
theorem leave_inv {excType : Option ExcType}
    (hs : (machine resolution).step s (.leave excType) = some s') :
    ∃ t o rest, s.running = some t ∧ s.blocks t = o :: rest ∧ s' = s.leave t o excType := by
  unfold machine at hs
  simp only at hs
  split at hs
  · cases hs
  · split at hs
    · cases hs
    · cases hs
      exact ⟨_, _, _, by assumption, by assumption, rfl⟩

/-- A handle that the loop calls is live and due, and no task runs. -/
theorem call_inv (hs : (machine resolution).step s (.call h) = some s') :
    ∃ handle, s.handles h = some handle ∧ handle.Live ∧ due resolution s.time handle ∧
      s.running = none ∧ s' = s.call h handle := by
  unfold machine at hs
  simp only at hs
  split at hs
  · split at hs
    · rename_i handle hhandle hcall
      cases hs
      exact ⟨handle, hhandle, hcall.2.1, hcall.2.2, hcall.1, rfl⟩
    · cases hs
  · cases hs

theorem Inv.step {a : Action} (hinv : Inv resolution timeouts s) (hfresh : Fresh s a)
    (hs : (machine resolution).step s a = some s') : Inv resolution timeouts s' := by
  cases a with
  | tick d =>
      cases hs
      have hle : s.time ≤ s.time + (d : Int) := by omega
      exact hinv.of_eq rfl rfl rfl rfl rfl hle
  | enter o =>
      obtain ⟨t, -, rfl⟩ := Option.map_eq_some_iff.mp hs
      exact hinv.enter hfresh.1 hfresh.2 t
  | leave excType =>
      obtain ⟨t, o, rest, -, hblocks, rfl⟩ := leave_inv hs
      exact hinv.leave hblocks excType
  | awaitFuture | awaitTask | yield =>
      obtain ⟨t, -, rfl⟩ := Option.map_eq_some_iff.mp hs
      exact hinv.of_eq rfl rfl rfl rfl rfl le_rfl
  | complete t cancelled | cancel t =>
      cases hs
      exact hinv.of_eq rfl rfl rfl rfl rfl le_rfl
  | resume t =>
      simp only [machine, Option.ite_none_right_eq_some, Option.some.injEq] at hs
      obtain ⟨-, rfl⟩ := hs
      exact hinv.of_eq rfl rfl rfl rfl rfl le_rfl
  | call h =>
      obtain ⟨handle, hhandle, hlive, hdue, -, rfl⟩ := call_inv hs
      exact hinv.call hhandle hlive hdue

theorem inv_run (h : (machine resolution).Run Fresh (init timeouts time) as s) :
    Inv resolution timeouts s :=
  h.invariant (inv_init resolution timeouts time) fun _ _ _ hinv hfresh hs => hinv.step hfresh hs

end Asgiref.AsyncTimeout
