import Asgiref.Server.Deletion

/-! # The entries of the server's table

* **`TableStep`** — what a step does to the table: entries go, or one is registered with a new task
  (**`step_table`**).
* **`Owned`** — every entry has the task and the queue that were made for its scope id, in every
  state of every run (**`Owned.run`**); so no two entries share a task. -/

namespace Asgiref.StatelessServer

variable {κ Scope : Type*} [DecidableEq κ] {s s' : State κ Scope} {maxApplications : Nat}

/-- Every entry has the task and the queue that were made for its scope id. -/
structure Owned (s : State κ Scope) : Prop where
  task : ∀ k d, s.applicationInstances.lookup k = some d → s.started[d.future]? = some k
  queue : ∀ k d, s.applicationInstances.lookup k = some d → d.inputQueue = d.future

theorem owned_init : Owned (init : State κ Scope) where
  task k d h := by cases h
  queue k d h := by cases h

/-- The task of an entry has been started. -/
theorem Owned.lt (h : Owned s) {k : κ} {d : Details Scope}
    (hd : s.applicationInstances.lookup k = some d) : d.future < s.started.length :=
  (List.getElem?_eq_some_iff.mp (h.task k d hd)).1

/-- No two entries share a task. -/
theorem Owned.unique (h : Owned s) {k k' : κ} {d d' : Details Scope}
    (hd : s.applicationInstances.lookup k = some d)
    (hd' : s.applicationInstances.lookup k' = some d') (hfuture : d.future = d'.future) :
    k = k' := by
  have htask := h.task k d hd
  rw [hfuture, h.task k' d' hd'] at htask
  exact (Option.some.inj htask).symm

/-- No task is started, and entries only go. -/
structure Kept (s s' : State κ Scope) : Prop where
  started : s'.started = s.started
  lookup : ∀ {k d}, s'.applicationInstances.lookup k = some d →
    s.applicationInstances.lookup k = some d

theorem Kept.refl (s : State κ Scope) : Kept s s := ⟨rfl, id⟩

theorem Reclaimed.keeps (h : Reclaimed s s') : Kept s s' := ⟨h.started, h.kept⟩

/-- A stretch of the checker's loop adds no entry. -/
theorem kept_walk (items : List (Item κ Scope)) (s : State κ Scope) : Kept s (walk items s) where
  started := (walk_tasks items s).1
  lookup h := by
    rw [lookup_walk] at h
    split at h
    · cases h
    · exact h

/-- The checker's `del` adds no entry. -/
theorem kept_discard (s : State κ Scope) (k : κ) : Kept s (discard s k) where
  started := rfl
  lookup h := by
    rw [lookup_discard] at h
    split at h
    · cases h
    · exact h

theorem Kept.trans {s'' : State κ Scope} (h : Kept s s') (h' : Kept s' s'') : Kept s s'' where
  started := h'.started.trans h.started
  lookup hd := h.lookup (h'.lookup hd)

/-- A deletion, or none where the method raised. -/
theorem reclaimed_getD {o : Option (State κ Scope)} (h : ∀ s', o = some s' → Reclaimed s s') :
    Reclaimed s (o.getD s) :=
  getD_of (.refl s) h

/-- What a step does to the table. -/
inductive TableStep (s s' : State κ Scope) : Prop
  | kept (h : Kept s s')
  | registered (s₁ : State κ Scope) (k : κ) (scope : Scope) (now : Nat) (h : Kept s s₁)
      (hs' : s' = register s₁ k scope now)

theorem step_table {a : Action κ Scope} (hstep : (machine maxApplications).step s a = some s') :
    TableStep s s' := by
  cases step_inv hstep with
  | getOrCreate k scope now raised =>
      unfold getOrCreateApplicationInstance
      cases s.applicationInstances.lookup k with
      | some details => exact .kept ⟨rfl, id⟩
      | none =>
          have hevict := (reclaimed_evict maxApplications s.size s).keeps
          cases raised with
          | some e => exact .kept hevict
          | none => exact .registered _ k scope now hevict rfl
  | delete k => exact .kept (reclaimed_getD fun _ => .of_delete).keeps
  | deleteOldest => exact .kept (reclaimed_getD fun _ => .of_deleteOldest).keeps
  | finish task outcome => exact .kept ⟨rfl, id⟩
  | wake => exact .kept (kept_walk s.items s)
  | resume => exact .kept ((kept_discard s _).trans (kept_walk _ _))
  | fail e => exact .kept ⟨rfl, id⟩

/-- Tasks are only started. -/
theorem TableStep.started (h : TableStep s s') : s.started <+: s'.started := by
  cases h with
  | kept hkept => exact ⟨[], by rw [List.append_nil, hkept.started]⟩
  | registered s₁ k scope now hkept hs' =>
      subst hs'
      show s.started <+: s₁.started ++ [k]
      rw [hkept.started]
      exact List.prefix_append _ _

/-- An entry was there before, or its task is new. -/
theorem TableStep.lookup (h : TableStep s s') {k : κ} {d : Details Scope}
    (hd : s'.applicationInstances.lookup k = some d) :
    s.applicationInstances.lookup k = some d ∨ d.future = s.started.length := by
  cases h with
  | kept hkept => exact .inl (hkept.lookup hd)
  | registered s₁ k' scope now hkept hs' =>
      subst hs'
      rw [lookup_register] at hd
      split at hd
      · cases hd
        exact .inr (by rw [hkept.started])
      · exact .inl (hkept.lookup hd)

/-! ## Each entry has a task of its own -/

theorem Owned.kept (h : Owned s) (hkept : Kept s s') : Owned s' where
  task k d hd := by
    rw [hkept.started]
    exact h.task k d (hkept.lookup hd)
  queue k d hd := h.queue k d (hkept.lookup hd)

theorem Owned.register (h : Owned s) (k : κ) (scope : Scope) (now : Nat) :
    Owned (register s k scope now) := by
  have hstarted : (StatelessServer.register s k scope now).started = s.started ++ [k] := rfl
  constructor
  · intro k' d hd
    rw [lookup_register] at hd
    rw [hstarted]
    split at hd
    · rename_i hk
      cases hd
      rw [hk]
      exact List.getElem?_concat_length
    · rw [List.getElem?_append_left (h.lt hd)]
      exact h.task k' d hd
  · intro k' d hd
    rw [lookup_register] at hd
    split at hd
    · cases hd
      rfl
    · exact h.queue k' d hd

theorem Owned.step (h : Owned s) (hstep : TableStep s s') : Owned s' := by
  cases hstep with
  | kept hkept => exact h.kept hkept
  | registered s₁ k scope now hkept hs' =>
      subst hs'
      exact (h.kept hkept).register k scope now

/-- **Every entry has a task of its own** in every state of every run. -/
theorem Owned.run {as : List (Action κ Scope)}
    (h : (machine maxApplications).Run Machine.Any init as s) : Owned s :=
  h.invariant owned_init fun _ _ _ howned _ hstep => howned.step (step_table hstep)

end Asgiref.StatelessServer
