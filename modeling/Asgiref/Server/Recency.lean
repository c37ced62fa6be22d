import Asgiref.Lib.Recency
import Asgiref.Lib.Simulation
import Asgiref.Server.Checker

/-! # Which instances make space

A call for a new scope id first deletes the oldest instances. `last_used` tells which these are, and
it is written on each call that creates or returns an instance.

* **`deleted`** — the items that a step puts through `delete_application_instance`. **`Deletes`** is
  what that does to the table, the tasks and the calls of `cancel()`.
* **`returned`** — what a step shows: the queue that a call returns, which stands for its instance,
  and the reading of the clock.
* **`Cancelled`** — no task is cancelled twice, and one that was cancelled is not in the table.
* **`makesSpace`** — a call, after any run, evicts the least recently used. -/

namespace Asgiref.StatelessServer

variable {κ Scope : Type*} [DecidableEq κ]

/-- The items that the loop making space deletes, in turn. -/
def evicted (maxApplications : Nat) : Nat → State κ Scope → List (Item κ Scope)
  | 0, _ => []
  | n + 1, s =>
      if maxApplications < s.size then
        match deleteOldestApplicationInstance s with
        | some s' => (oldest s).toList ++ evicted maxApplications n s'
        | none => []
      else []

/-- The items that a step puts through `delete_application_instance`. -/
def deleted (maxApplications : Nat) (s : State κ Scope) : Action κ Scope → List (Item κ Scope)
  | .getOrCreate scopeId _ _ _ =>
      match s.applicationInstances.lookup scopeId with
      | some _ => []
      | none => evicted maxApplications s.size s
  | .delete scopeId =>
      (s.applicationInstances.lookup scopeId).toList.map fun details => ⟨scopeId, details⟩
  | .deleteOldest => (oldest s).toList
  | _ => []

/-- The queue that a step returns, and the reading of the clock with which it does. -/
def returned (maxApplications : Nat) (s : State κ Scope) : Action κ Scope → Option (Nat × Nat)
  | .getOrCreate scopeId scope now raised =>
      match (getOrCreateApplicationInstance maxApplications s scopeId scope now raised).2 with
      | .ok queue => some (queue, now)
      | .error _ => none
  | _ => none

/-- The tasks of the items that are not done. -/
def pending (s : State κ Scope) (items : List (Item κ Scope)) : List Nat :=
  (items.map fun item => item.2.future).filter fun i => (s.outcome i).isNone

variable {s s' : State κ Scope} {maxApplications : Nat}

omit [DecidableEq κ] in
theorem mem_pending {items : List (Item κ Scope)} {i : Nat} :
    i ∈ pending s items ↔ (∃ x ∈ items, x.2.future = i) ∧ s.outcome i = none := by
  rw [pending, List.mem_filter, List.mem_map, Option.isNone_iff_eq_none]

/-! ## What a deletion does -/

/-- The items go through `delete_application_instance`, one after the other. -/
inductive Deletes : State κ Scope → List (Item κ Scope) → State κ Scope → Prop
  | nil (s : State κ Scope) : Deletes s [] s
  | cons {s s₁ s' : State κ Scope} {item : Item κ Scope} {items : List (Item κ Scope)}
      (hitem : s.applicationInstances.lookup item.1 = some item.2)
      (hdelete : deleteApplicationInstance s item.1 = some s₁) (h : Deletes s₁ items s') :
      Deletes s (item :: items) s'

theorem deletes_oldest (h : deleteOldestApplicationInstance s = some s') :
    ∃ item, oldest s = some item ∧ Deletes s [item] s' := by
  obtain ⟨item, hitem, hdelete⟩ := Option.bind_eq_some_iff.mp h
  exact ⟨item, hitem, .cons (mem_items.mp (mem_items_of_oldest hitem)) hdelete (.nil s')⟩

/-- The loop deletes what it is said to delete. -/
theorem deletes_evict (maxApplications n : Nat) (s : State κ Scope) :
    Deletes s (evicted maxApplications n s) (evict maxApplications n s) := by
  induction n generalizing s with
  | zero => exact .nil s
  | succ n ih =>
      unfold evict evicted
      split
      · cases hdelete : deleteOldestApplicationInstance s with
        | none => exact .nil s
        | some s' =>
            obtain ⟨item, hitem, hdeletes⟩ := deletes_oldest hdelete
            rw [hitem]
            cases hdeletes with
            | cons hlookup hdelete' hnil =>
                cases hnil
                exact .cons hlookup hdelete' (ih s')
      · exact .nil s

/-- The tasks themselves, and when they were last used, are as before. -/
theorem Deletes.tasks {items : List (Item κ Scope)} (h : Deletes s items s') :
    s'.started = s.started ∧ s'.lastUsed = s.lastUsed ∧ s'.outcome = s.outcome := by
  induction h with
  | nil s => exact ⟨rfl, rfl, rfl⟩
  | cons _ hdelete _ ih =>
      obtain ⟨d, -, rfl⟩ := Option.map_eq_some_iff.mp hdelete
      exact ih

/-- **Exactly the tasks of the items that are not done are cancelled**, each by one call. -/
theorem Deletes.cancelCalls {items : List (Item κ Scope)} (h : Deletes s items s') :
    s'.cancelCalls = s.cancelCalls ++ pending s items := by
  induction h with
  | nil s => simp [pending]
  | @cons s s₁ s' item items hitem hdelete _ ih =>
      obtain ⟨d, hd, rfl⟩ := Option.map_eq_some_iff.mp hdelete
      rw [hitem] at hd
      cases hd
      rw [ih]
      cases houtcome : s.outcome item.2.future <;> simp [pending, houtcome]

/-- **Exactly the items go.** -/
theorem Deletes.mem_items_iff {items : List (Item κ Scope)} (h : Deletes s items s')
    (x : Item κ Scope) : x ∈ s'.items ↔ x ∈ s.items ∧ x ∉ items := by
  induction h with
  | nil s => simp
  | @cons s s₁ s' item items hitem hdelete _ ih =>
      obtain ⟨d, -, rfl⟩ := Option.map_eq_some_iff.mp hdelete
      rw [ih, mem_items, mem_items, List.mem_cons]
      show (s.applicationInstances.erase item.1).lookup x.1 = some x.2 ∧ _ ↔ _
      by_cases hkey : x.1 = item.1
      · rw [hkey, AList.lookup_erase, hitem]
        refine iff_of_false (fun h => by cases h.1) fun ⟨hx, hnot⟩ => hnot (.inl ?_)
        exact Sigma.ext hkey (heq_of_eq (Option.some.inj hx).symm)
      · have hne : x ≠ item := fun heq => hkey (congrArg Sigma.fst heq)
        rw [AList.lookup_erase_ne hkey]
        simp [hne]

/-- The items were in the table, each once. -/
theorem Deletes.items {items : List (Item κ Scope)} (h : Deletes s items s') :
    (∀ x ∈ items, x ∈ s.items) ∧ items.Nodup := by
  induction h with
  | nil s => simp
  | @cons s s₁ s' item items hitem hdelete hrest ih =>
      have hone : Deletes s [item] s₁ := .cons hitem hdelete (.nil s₁)
      refine ⟨fun x hx => ?_, List.nodup_cons.mpr ⟨fun hmem => ?_, ih.2⟩⟩
      · rcases List.mem_cons.mp hx with rfl | hx
        · exact mem_items.mpr hitem
        · exact ((hone.mem_items_iff x).mp (ih.1 x hx)).1
      · exact ((hone.mem_items_iff item).mp (ih.1 item hmem)).2 (List.mem_singleton_self _)

/-- Entries only go. -/
theorem Deletes.kept {items : List (Item κ Scope)} (h : Deletes s items s') : Kept s s' where
  started := h.tasks.1
  lookup {k d} hd := mem_items.mp ((h.mem_items_iff ⟨k, d⟩).mp (mem_items.mpr hd)).1

/-- The tasks of the items are not in the table any more. -/
theorem Deletes.gone (howned : Owned s) {items : List (Item κ Scope)} (h : Deletes s items s')
    {x : Item κ Scope} (hx : x ∈ items) : Gone s' x.2.future := by
  rintro k d hd hfuture
  obtain ⟨hmem, hnot⟩ := (h.mem_items_iff ⟨k, d⟩).mp (mem_items.mpr hd)
  have hmem' := h.items.1 x hx
  obtain ⟨k', d'⟩ := x
  obtain rfl := howned.unique (mem_items.mp hmem) (mem_items.mp hmem') hfuture
  have hlookup := mem_items.mp hmem
  rw [mem_items.mp hmem'] at hlookup
  cases hlookup
  exact hnot hx

/-- The tasks of the items are pairwise different. -/
theorem Deletes.nodup (howned : Owned s) {items : List (Item κ Scope)} (h : Deletes s items s') :
    (items.map fun item => item.2.future).Nodup := by
  refine List.Nodup.map_on (fun x hx y hy hfuture => ?_) h.items.2
  exact List.inj_on_of_nodup_map howned.nodup_items (h.items.1 x hx) (h.items.1 y hy) hfuture

/-! ## The oldest go first -/

omit [DecidableEq κ] in
/-- The oldest item has the least `last_used`. -/
theorem lastUsed_oldest_le {item x : Item κ Scope} (h : oldest s = some item) (hx : x ∈ s.items) :
    s.lastUsed item.2.future ≤ s.lastUsed x.2.future := by
  have hleast := List.find?_some h
  rw [beq_iff_eq] at hleast
  exact (List.min?_eq_some_iff.mp hleast.symm).2 _ (List.mem_map_of_mem hx)

/-- **What the loop deletes was last used no later than what it leaves.** -/
theorem lastUsed_evicted_le {n : Nat} {x y : Item κ Scope} (hx : x ∈ evicted maxApplications n s)
    (hy : y ∈ (evict maxApplications n s).items) :
    s.lastUsed x.2.future ≤ s.lastUsed y.2.future := by
  induction n generalizing s with
  | zero => cases hx
  | succ n ih =>
      have hstays := (((deletes_evict maxApplications (n + 1) s).mem_items_iff y).mp hy).1
      unfold evict at hy
      unfold evicted at hx
      split at hx
      · rename_i hover
        rw [if_pos hover] at hy
        cases hdelete : deleteOldestApplicationInstance s with
        | none =>
            rw [hdelete] at hx
            cases hx
        | some s' =>
            obtain ⟨item, hitem, hdeletes⟩ := deletes_oldest hdelete
            rw [hdelete, hitem] at hx
            rw [hdelete] at hy
            rcases List.mem_cons.mp hx with rfl | hx
            · exact lastUsed_oldest_le hitem hstays
            · have hle := ih hx hy
              rwa [hdeletes.tasks.2.1] at hle
      · cases hx

/-! ## What a step does -/

/-- There is nothing to delete if there is no oldest instance. -/
theorem oldest_eq_none (h : deleteOldestApplicationInstance s = none) : oldest s = none := by
  by_contra hne
  obtain ⟨item, hitem⟩ := Option.ne_none_iff_exists'.mp hne
  have hlookup := mem_items.mp (mem_items_of_oldest hitem)
  simp [deleteOldestApplicationInstance, hitem, deleteApplicationInstance, hlookup] at h

/-- A step deletes its items, and then at most registers one more, or the checker does its part. -/
theorem step_deletes {a : Action κ Scope} (hstep : (machine maxApplications).step s a = some s') :
    ∃ s₁, Deletes s (deleted maxApplications s a) s₁ ∧ TableStep s₁ s' ∧
      s'.cancelCalls = s₁.cancelCalls := by
  cases step_inv hstep with
  | getOrCreate k scope now raised =>
      cases hlookup : s.applicationInstances.lookup k with
      | some details =>
          simp only [deleted, getOrCreateApplicationInstance, hlookup]
          exact ⟨s, .nil s, .kept ⟨rfl, id⟩, rfl⟩
      | none =>
          simp only [deleted, getOrCreateApplicationInstance, hlookup]
          refine ⟨_, deletes_evict maxApplications s.size s, ?_⟩
          cases raised with
          | some e => exact ⟨.kept (.refl _), rfl⟩
          | none => exact ⟨.registered _ k scope now (.refl _) rfl, rfl⟩
  | delete k =>
      cases hlookup : s.applicationInstances.lookup k with
      | none =>
          simp only [deleted, deleteApplicationInstance, hlookup]
          exact ⟨s, .nil s, .kept (.refl s), rfl⟩
      | some d =>
          obtain ⟨s₁, hdelete⟩ : ∃ s₁, deleteApplicationInstance s k = some s₁ := by
            simp [deleteApplicationInstance, hlookup]
          simp only [deleted, hlookup, hdelete]
          exact ⟨s₁, .cons hlookup hdelete (.nil s₁), .kept (.refl s₁), rfl⟩
  | deleteOldest =>
      cases hdelete : deleteOldestApplicationInstance s with
      | none =>
          simp only [deleted, oldest_eq_none hdelete]
          exact ⟨s, .nil s, .kept (.refl s), rfl⟩
      | some s₁ =>
          obtain ⟨item, hitem, hdeletes⟩ := deletes_oldest hdelete
          simp only [deleted, hitem]
          exact ⟨s₁, hdeletes, .kept (.refl s₁), rfl⟩
  | finish task outcome => exact ⟨s, .nil s, step_table hstep, rfl⟩
  | wake => exact ⟨s, .nil s, step_table hstep, (walk_tasks s.items s).2.2⟩
  | resume => exact ⟨s, .nil s, step_table hstep, (walk_tasks _ (discard s _)).2.2⟩
  | fail e => exact ⟨s, .nil s, step_table hstep, rfl⟩

/-! ## Nothing is cancelled twice -/

/-- There is one call of `cancel()` for each task that was cancelled, and these are not in the
table. -/
structure Cancelled (s : State κ Scope) : Prop where
  nodup : s.cancelCalls.Nodup
  started : ∀ i ∈ s.cancelCalls, i < s.started.length
  gone : ∀ i ∈ s.cancelCalls, Gone s i

theorem Cancelled.step (h : Cancelled s) (howned : Owned s) {a : Action κ Scope}
    (hstep : (machine maxApplications).step s a = some s') : Cancelled s' := by
  obtain ⟨s₁, hdeletes, htable, hasked⟩ := step_deletes hstep
  rw [hdeletes.cancelCalls] at hasked
  have hlt : ∀ {i}, i < s.started.length → i < s₁.started.length := by
    rw [hdeletes.tasks.1]
    exact id
  have hnew : ∀ i ∈ pending s (deleted maxApplications s a),
      i < s.started.length ∧ ¬ Gone s i ∧ Gone s₁ i := by
    intro i hi
    obtain ⟨⟨x, hx, rfl⟩, -⟩ := mem_pending.mp hi
    have hlookup := mem_items.mp (hdeletes.items.1 x hx)
    exact ⟨howned.lt hlookup, fun hgone => hgone _ _ hlookup rfl, hdeletes.gone howned hx⟩
  constructor
  · rw [hasked, List.nodup_append]
    refine ⟨h.nodup, (hdeletes.nodup howned).filter _, ?_⟩
    rintro i hi j hj rfl
    exact (hnew i hj).2.1 (h.gone i hi)
  · intro i hi
    refine Nat.lt_of_lt_of_le (hlt ?_) htable.started.length_le
    rw [hasked] at hi
    exact (List.mem_append.mp hi).elim (h.started i) fun hi => (hnew i hi).1
  · intro i hi
    rw [hasked] at hi
    rcases List.mem_append.mp hi with hold | hi
    · have hgone : Gone s₁ i := fun k d hd => h.gone i hold k d (hdeletes.kept.lookup hd)
      exact hgone.step (hlt (h.started i hold)) htable
    · exact (hnew i hi).2.2.step (hlt (hnew i hi).1) htable

/-- **Nothing is cancelled twice**, in any run. -/
theorem Cancelled.run {as : List (Action κ Scope)}
    (h : (machine maxApplications).Run Machine.Any init as s) : Cancelled s :=
  Machine.Run.invariant_of (fun _ _ hrun => Owned.run hrun)
    ⟨List.nodup_nil, by simp [init], by simp [init]⟩
    (fun _ _ _ howned hcancelled _ hstep => hcancelled.step howned hstep) h

/-- The calls of `cancel()` of a run stay. -/
theorem cancelCalls_subset {as : List (Action κ Scope)}
    (h : (machine maxApplications).Run Machine.Any s as s') : s.cancelCalls ⊆ s'.cancelCalls := by
  induction h with
  | nil => exact List.Subset.refl _
  | snoc _ _ hstep ih =>
      obtain ⟨s₁, hdeletes, -, hasked⟩ := step_deletes hstep
      rw [hasked, hdeletes.cancelCalls]
      exact List.subset_append_of_subset_left _ ih

/-! ## Uses and readings -/

/-- A stretch of the checker's loop uses nothing. -/
theorem lastUsed_walk (items : List (Item κ Scope)) (s : State κ Scope) :
    (walk items s).lastUsed = s.lastUsed := by
  induction items generalizing s with
  | nil => rfl
  | cons item rest ih =>
      unfold walk
      cases s.outcome item.2.future with
      | none => exact ih s
      | some o =>
          cases o with
          | result | falseException e => exact ih (discard s item.1)
          | exception e | raisingException e raised | cancelled => rfl

omit [DecidableEq κ] in
/-- A deletion, or none where the method raised, uses nothing. -/
theorem lastUsed_getD {o : Option (State κ Scope)}
    (h : ∀ s', o = some s' → s'.started = s.started ∧ s'.lastUsed = s.lastUsed) :
    (o.getD s).started = s.started ∧ (o.getD s).lastUsed = s.lastUsed :=
  getD_of (P := fun s' => s'.started = s.started ∧ s'.lastUsed = s.lastUsed) ⟨rfl, rfl⟩ h

/-- `last_used` is written for the instance whose queue a step returns, and only for that one. -/
theorem step_returned (howned : Owned s) {a : Action κ Scope}
    (hstep : (machine maxApplications).step s a = some s') :
    match returned maxApplications s a with
    | none => s'.started = s.started ∧ s'.lastUsed = s.lastUsed
    | some (i, now) => (∀ j, j < s'.started.length ↔ j < s.started.length ∨ j = i) ∧
        s'.lastUsed = Function.update s.lastUsed i now := by
  cases step_inv hstep with
  | getOrCreate k scope now raised =>
      cases hlookup : s.applicationInstances.lookup k with
      | some details =>
          have hqueue := howned.queue k details hlookup
          simp only [returned, getOrCreateApplicationInstance, hlookup, hqueue]
          refine ⟨fun j => ⟨.inl, fun h => h.elim id ?_⟩, trivial⟩
          rintro rfl
          exact howned.lt hlookup
      | none =>
          obtain ⟨hstarted, hlastUsed, -⟩ := (deletes_evict maxApplications s.size s).tasks
          cases raised with
          | some e =>
              simp only [returned, getOrCreateApplicationInstance, hlookup]
              exact ⟨hstarted, hlastUsed⟩
          | none =>
              simp only [returned, getOrCreateApplicationInstance, hlookup, register, hstarted,
                hlastUsed, List.length_append, List.length_singleton]
              exact ⟨fun j => by omega, trivial⟩
  | delete k =>
      refine lastUsed_getD fun s₁ hdelete => ?_
      obtain ⟨d, -, rfl⟩ := Option.map_eq_some_iff.mp hdelete
      exact ⟨rfl, rfl⟩
  | deleteOldest =>
      refine lastUsed_getD fun s₁ hdelete => ?_
      obtain ⟨item, -, hdeletes⟩ := deletes_oldest hdelete
      exact ⟨hdeletes.tasks.1, hdeletes.tasks.2.1⟩
  | finish task outcome => exact ⟨rfl, rfl⟩
  | wake => exact ⟨(walk_tasks s.items s).1, lastUsed_walk s.items s⟩
  | resume => exact ⟨(walk_tasks _ (discard s _)).1, lastUsed_walk _ (discard s _)⟩
  | fail e => exact ⟨rfl, rfl⟩

/-- **`last_used` has the latest reading of each instance**, as long as the clock runs on. -/
theorem stamped_run {as : List (Action κ Scope)} {us : List (Nat × Nat)}
    (h : (machine maxApplications).Shows (returned maxApplications) Machine.Any init as us s)
    (hticks : Ticks us) : Stamped us (fun i => i < s.started.length) s.lastUsed := by
  induction h with
  | nil => exact ⟨fun i hi => (Nat.not_lt_zero i hi).elim, by simp, by simp⟩
  | @snoc as us s s' a hrun _ hstep ih =>
      have hspec := step_returned (Owned.run hrun.run) hstep
      have hstamped := ih hticks.left
      cases hreturned : returned maxApplications s a with
      | none =>
          rw [hreturned] at hspec
          obtain ⟨hstarted, hlastUsed⟩ := hspec
          rw [hstarted, hlastUsed]
          simpa using hstamped
      | some u =>
          obtain ⟨i, now⟩ := u
          rw [hreturned] at hspec hticks
          obtain ⟨hstarted, hlastUsed⟩ := hspec
          have hUsed : (fun j => j < s'.started.length) =
              fun j => j < s.started.length ∨ j = i := funext fun j => propext (hstarted j)
          rw [hUsed, hlastUsed]
          exact hstamped.snoc hticks

/-! ## A call -/

/-- What a call for a scope id should do, which leads from `s` to `s'`. `us` are the queues that
were returned up to its end, and `raised` says whether the application raised when it was called. -/
structure MakesSpace (s : State κ Scope) (scopeId : κ) (raised : Option PyError)
    (s' : State κ Scope) (result : Except PyError Nat) (us : List Nat) : Prop where
  /-- A registered scope id: its own queue, no eviction and no new task. -/
  hit : ∀ d, s.applicationInstances.lookup scopeId = some d → result = .ok d.inputQueue ∧
    d.inputQueue = d.future ∧ s'.items = s.items ∧ s'.started = s.started ∧
    s'.cancelCalls = s.cancelCalls
  leastRecent : ∀ x ∈ s.items, x ∉ s'.items → ∀ y ∈ s'.items,
    LessRecent us x.2.inputQueue y.2.inputQueue
  /-- There is one call of `cancel()` for each instance that went and is not done, and no other. -/
  cancelled : ∃ calls, s'.cancelCalls = s.cancelCalls ++ calls ∧ calls.Nodup ∧
    ∀ i, i ∈ calls ↔ ∃ x ∈ s.items, x ∉ s'.items ∧ x.2.future = i ∧ s.outcome i = none
  returns : raised = none → ∃ queue, result = .ok queue
  registered : ∀ queue, result = .ok queue → ∃ d,
    s'.applicationInstances.lookup scopeId = some d ∧ d.inputQueue = queue ∧ d.future = queue

/-- What goes in the loop was used less recently than what stays. -/
theorem lessRecent_evict {us : List (Nat × Nat)} (howned : Owned s)
    (hstamped : Stamped us (fun i => i < s.started.length) s.lastUsed) (hticks : Ticks us) {n : Nat}
    {x y : Item κ Scope} (hx : x ∈ evicted maxApplications n s)
    (hy : y ∈ (evict maxApplications n s).items) :
    LessRecent (us.map Prod.fst) x.2.inputQueue y.2.inputQueue := by
  have hdeletes := deletes_evict maxApplications n s
  have hx' := mem_items.mp (hdeletes.items.1 x hx)
  have hy' := mem_items.mp ((hdeletes.mem_items_iff y).mp hy).1
  rw [howned.queue _ _ hx', howned.queue _ _ hy']
  refine hstamped.lessRecent hticks (howned.lt hx') (howned.lt hy')
    (lastUsed_evicted_le hx hy) fun heq => ?_
  exact hdeletes.gone howned hx y.1 y.2 (mem_items.mp hy) heq.symm

/-- The items after a new one was registered. -/
theorem mem_items_register {k : κ} (hfree : s.applicationInstances.lookup k = none) (scope : Scope)
    (now : Nat) (x : Item κ Scope) : x ∈ (register s k scope now).items ↔
      x = ⟨k, ⟨s.started.length, s.started.length, scope⟩⟩ ∨ x ∈ s.items := by
  rw [mem_items, mem_items, lookup_register]
  obtain ⟨k', d⟩ := x
  by_cases hk : k' = k
  · subst hk
    rw [if_pos rfl, hfree]
    simp [eq_comm]
  · simp [hk]

/-- A registered scope id. -/
theorem makesSpace_hit (howned : Owned s) {k : κ} {d : Details Scope}
    (hlookup : s.applicationInstances.lookup k = some d) (now : Nat) (raised : Option PyError)
    (us : List Nat) :
    MakesSpace s k raised { s with lastUsed := Function.update s.lastUsed d.future now }
      (.ok d.inputQueue) us where
  hit d' hd' := by
    rw [hlookup] at hd'
    cases hd'
    exact ⟨rfl, howned.queue k d hlookup, rfl, rfl, rfl⟩
  leastRecent x hx hnot := absurd hx hnot
  cancelled := by
    refine ⟨[], (List.append_nil _).symm, List.nodup_nil, fun i => ?_⟩
    exact iff_of_false List.not_mem_nil fun ⟨x, hx, hnot, _⟩ => hnot hx
  returns _ := ⟨_, rfl⟩
  registered queue hqueue := by
    cases hqueue
    exact ⟨d, hlookup, rfl, (howned.queue k d hlookup).symm⟩

/-- What the loop removes is what it deletes. -/
theorem mem_evicted {n : Nat} {x : Item κ Scope} (hx : x ∈ s.items)
    (hnot : x ∉ (evict maxApplications n s).items) : x ∈ evicted maxApplications n s := by
  by_contra hstays
  exact hnot (((deletes_evict maxApplications n s).mem_items_iff x).mpr ⟨hx, hstays⟩)

/-- The calls of `cancel()` of the loop, up to a state that has the items the loop leaves and others
that are new. -/
theorem cancelled_evict (howned : Owned s) {n : Nat}
    (hcancelCalls : s'.cancelCalls = (evict maxApplications n s).cancelCalls)
    (hitems : ∀ x ∈ s.items, x ∈ s'.items ↔ x ∈ (evict maxApplications n s).items) :
    ∃ calls, s'.cancelCalls = s.cancelCalls ++ calls ∧ calls.Nodup ∧
      ∀ i, i ∈ calls ↔ ∃ x ∈ s.items, x ∉ s'.items ∧ x.2.future = i ∧ s.outcome i = none := by
  have hdeletes := deletes_evict maxApplications n s
  refine ⟨_, hcancelCalls.trans hdeletes.cancelCalls, (hdeletes.nodup howned).filter _,
    fun i => ?_⟩
  rw [mem_pending]
  constructor
  · rintro ⟨⟨x, hx, hi⟩, hrunning⟩
    have hx' := hdeletes.items.1 x hx
    refine ⟨x, hx', fun hstays => ?_, hi, hrunning⟩
    exact ((hdeletes.mem_items_iff x).mp ((hitems x hx').mp hstays)).2 hx
  · rintro ⟨x, hx, hnot, hi, hrunning⟩
    exact ⟨⟨x, mem_evicted hx fun hstays => hnot ((hitems x hx).mpr hstays), hi⟩, hrunning⟩

/-- A new scope id whose application raises when it is called. -/
theorem makesSpace_raised {us : List (Nat × Nat)} (howned : Owned s)
    (hstamped : Stamped us (fun i => i < s.started.length) s.lastUsed) (hticks : Ticks us) {k : κ}
    (hlookup : s.applicationInstances.lookup k = none) (e : PyError) :
    MakesSpace s k (some e) (evict maxApplications s.size s) (.error e) (us.map Prod.fst) where
  hit d hd := by
    rw [hlookup] at hd
    cases hd
  leastRecent _ hx hnot _ hy := lessRecent_evict howned hstamped hticks (mem_evicted hx hnot) hy
  cancelled := cancelled_evict howned rfl fun _ _ => Iff.rfl
  returns hraised := by cases hraised
  registered queue hqueue := by cases hqueue

/-- A new scope id. -/
theorem makesSpace_created {us : List (Nat × Nat)} (howned : Owned s)
    (hstamped : Stamped us (fun i => i < s.started.length) s.lastUsed) (hticks : Ticks us) {k : κ}
    (hlookup : s.applicationInstances.lookup k = none) (scope : Scope) (now : Nat) :
    MakesSpace s k none (register (evict maxApplications s.size s) k scope now)
      (.ok (evict maxApplications s.size s).started.length)
      (us.map Prod.fst ++ [(evict maxApplications s.size s).started.length]) := by
  have hfree := lookup_evict_none hlookup maxApplications s.size
  have hmem := mem_items_register hfree scope now
  have hstays : ∀ x ∈ s.items, x ∈ (register (evict maxApplications s.size s) k scope now).items ↔
      x ∈ (evict maxApplications s.size s).items := by
    refine fun x hx => ⟨fun hstays => ((hmem x).mp hstays).resolve_left ?_,
      fun hstays => (hmem x).mpr (.inr hstays)⟩
    rintro rfl
    rw [mem_items, hlookup] at hx
    cases hx
  constructor
  · intro d hd
    rw [hlookup] at hd
    cases hd
  · intro x hx hnot y hy
    have hx' := mem_items.mp hx
    have hlt := howned.lt hx'
    have hqueue := howned.queue _ _ hx'
    rw [(deletes_evict maxApplications s.size s).tasks.1]
    rcases (hmem y).mp hy with rfl | hy
    · -- the new instance is the most recent one
      rw [hqueue, (deletes_evict maxApplications s.size s).tasks.1]
      exact .last (List.mem_map.mpr ⟨_, hstamped.mem _ hlt, rfl⟩) (Nat.ne_of_lt hlt)
    · have hgone := mem_evicted hx fun hstay => hnot ((hstays x hx).mpr hstay)
      refine (lessRecent_evict howned hstamped hticks hgone hy).snoc ?_
      rw [hqueue]
      exact Nat.ne_of_lt hlt
  · exact cancelled_evict howned rfl hstays
  · exact fun _ => ⟨_, rfl⟩
  · intro queue hqueue
    cases hqueue
    exact ⟨_, by rw [lookup_register, if_pos rfl], rfl, rfl⟩

/-- **Eviction is least recently used.** Take any run from a new server and then a call, and let the
clock run on. The call evicts nothing if the scope id is registered, and returns its queue; whatever
it evicts was used less recently than all that stays, and is cancelled if it is not done, once in
the whole run, however the run goes on; and unless the application raises when it is called, the
call returns a queue with which the scope id is registered. -/
theorem makesSpace {as : List (Action κ Scope)} {us us' : List (Nat × Nat)} {k : κ} {scope : Scope}
    {now : Nat} {raised : Option PyError} {result : Except PyError Nat}
    (h : (machine maxApplications).Shows (returned maxApplications) Machine.Any init as us s)
    (hcall : getOrCreateApplicationInstance maxApplications s k scope now raised = (s', result))
    (hus' : us' = us ++ (returned maxApplications s (.getOrCreate k scope now raised)).toList)
    (hticks : Ticks us') :
    MakesSpace s k raised s' result (us'.map Prod.fst) ∧
      ∀ x ∈ s.items, x ∉ s'.items → s.outcome x.2.future = none → ∀ bs s'',
        (machine maxApplications).Run Machine.Any s' bs s'' →
        s''.cancelCalls.count x.2.future = 1 := by
  have howned := Owned.run h.run
  have hstep : (machine maxApplications).step s (.getOrCreate k scope now raised) = some s' := by
    show some (getOrCreateApplicationInstance maxApplications s k scope now raised).1 = _
    rw [hcall]
  have hspace : MakesSpace s k raised s' result (us'.map Prod.fst) := by
    rw [hus'] at hticks ⊢
    have hstamped := stamped_run h hticks.left
    cases hlookup : s.applicationInstances.lookup k with
    | some d =>
        simp only [getOrCreateApplicationInstance, hlookup, Prod.mk.injEq] at hcall
        obtain ⟨rfl, rfl⟩ := hcall
        exact makesSpace_hit howned hlookup now raised _
    | none =>
        cases raised with
        | some e =>
            simp only [getOrCreateApplicationInstance, hlookup, Prod.mk.injEq] at hcall
            obtain ⟨rfl, rfl⟩ := hcall
            simpa [returned, getOrCreateApplicationInstance, hlookup] using
              makesSpace_raised howned hstamped hticks.left hlookup e
        | none =>
            simp only [getOrCreateApplicationInstance, hlookup, Prod.mk.injEq] at hcall
            obtain ⟨rfl, rfl⟩ := hcall
            simpa [returned, getOrCreateApplicationInstance, hlookup] using
              makesSpace_created howned hstamped hticks.left hlookup scope now
  refine ⟨hspace, fun x hx hnot hrunning bs s'' hon => ?_⟩
  obtain ⟨calls, hcalls, -, hiff⟩ := hspace.cancelled
  have hcancelled : x.2.future ∈ s'.cancelCalls := by
    rw [hcalls]
    exact List.mem_append_right _ ((hiff _).mpr ⟨x, hx, hnot, rfl, hrunning⟩)
  exact List.count_eq_one_of_mem (Cancelled.run ((h.run.snoc trivial hstep).append hon)).nodup
    (cancelCalls_subset hon hcancelled)

/-- Two instances, of which the first is returned again. -/
def twoUsed : List (Action Nat Unit) :=
  [.getOrCreate 0 () 0 none, .getOrCreate 1 () 1 none, .getOrCreate 0 () 2 none]

/-- What these show with a limit of one, and the server then. -/
def shown : List (Nat × Nat) × State Nat Unit :=
  ((machine 1).observe (returned 1) Machine.Any init twoUsed).getD ([], init)

/-- The second instance makes space for a third, and is cancelled. -/
theorem makesSpace_twoUsed :
    ∃ s', getOrCreateApplicationInstance 1 shown.2 2 () 3 none = (s', .ok 2) ∧
      shown.2.items.map (fun item => item.1) = [0, 1] ∧
      s'.items.map (fun item => item.1) = [0, 2] ∧ s'.cancelCalls = [1] ∧
      MakesSpace shown.2 2 none s' (.ok 2) [0, 1, 0, 2] ∧
      ∀ x ∈ shown.2.items, x ∉ s'.items → shown.2.outcome x.2.future = none → ∀ bs s'',
        (machine 1).Run Machine.Any s' bs s'' → s''.cancelCalls.count x.2.future = 1 := by
  have hshows : (machine 1).Shows (returned 1) Machine.Any init twoUsed shown.1 shown.2 :=
    Machine.observe_shows rfl
  have hcall : getOrCreateApplicationInstance 1 shown.2 2 () 3 none =
      ((getOrCreateApplicationInstance 1 shown.2 2 () 3 none).1, .ok 2) := rfl
  exact ⟨_, hcall, rfl, rfl, rfl, makesSpace hshows hcall rfl (by decide)⟩

end Asgiref.StatelessServer
