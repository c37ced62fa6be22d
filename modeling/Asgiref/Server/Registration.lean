import Asgiref.Server.Table

/-! # No application is orphaned

An application that is still running, and was not asked to stop, should be in the table under its
own scope id, where handlers find it and deletions cancel it.

The checker deletes by key, and it works through a snapshot: while it is suspended in
`application_exception` the entry it came for, or a later one of its snapshot, may be deleted and
its scope id taken by a new application, whose entry it then removes without cancelling the task.

* **`NoOrphan`** — every live application is registered under its own scope id.
* **`Undisturbed`** — the entries that the checker deletes when it comes back from
  `application_exception` are not those of live applications.
* **`registered_iff`** — the first holds all along exactly the runs whose steps meet the second; and
  then no scope id has two live applications, and no step removes the entry of a live one. -/

namespace Asgiref.StatelessServer

variable {κ Scope : Type*}

/-- No scope id has two live applications. -/
def AtMostOne (s : State κ Scope) : Prop := ∀ i j k, s.Live i k → s.Live j k → i = j

/-- The entries that the checker deletes are of tasks that it found done. -/
theorem mem_swept {outcome : Nat → Option Outcome} {items : List (Item κ Scope)} {k : κ}
    (h : k ∈ swept outcome items) :
    ∃ item ∈ items, item.1 = k ∧ (outcome item.2.future).isSome := by
  induction items with
  | nil => cases h
  | cons item rest ih =>
      unfold swept at h
      have hrest : k ∈ swept outcome rest →
          ∃ item' ∈ item :: rest, item'.1 = k ∧ (outcome item'.2.future).isSome := by
        intro hk
        obtain ⟨item', hmem, hitem'⟩ := ih hk
        exact ⟨item', List.mem_cons_of_mem _ hmem, hitem'⟩
      cases houtcome : outcome item.2.future with
      | none =>
          rw [houtcome] at h
          exact hrest h
      | some o =>
          rw [houtcome] at h
          cases o with
          | result | falseException e =>
              rcases List.mem_cons.mp h with rfl | hk
              · exact ⟨item, List.mem_cons_self, rfl, by rw [houtcome]; rfl⟩
              · exact hrest hk
          | exception e | raisingException e raised | cancelled => cases h

variable [DecidableEq κ] {s s' : State κ Scope} {maxApplications : Nat}

/-- Every live application is registered under its own scope id. -/
def NoOrphan (s : State κ Scope) : Prop :=
  ∀ i k, s.Live i k → ∃ d, s.applicationInstances.lookup k = some d ∧ d.future = i

/-- Whenever the checker comes back from `application_exception`, the entries that it deletes before
it is suspended again, or ends, are not those of live applications. -/
def Undisturbed (s : State κ Scope) : Action κ Scope → Prop
  | .resume =>
      match s.checker with
      | .handling scopeId rest =>
          ∀ k ∈ scopeId :: swept s.outcome rest, ∀ d,
            s.applicationInstances.lookup k = some d → ¬ s.Live d.future k
      | _ => True
  | _ => True

/-- From `s` to `s'` every entry that is gone is that of a task that is done or was asked to
stop. -/
def Stopping (s s' : State κ Scope) : Prop :=
  ∀ k d, s.applicationInstances.lookup k = some d →
    (∃ d', s'.applicationInstances.lookup k = some d' ∧ d'.future = d.future) ∨
      ¬ s'.Live d.future k

/-! ## The table and the tasks -/

/-- A deletion that cancels keeps every live application registered. -/
theorem NoOrphan.of_reclaimed (h : NoOrphan s) (hr : Reclaimed s s') : NoOrphan s' := by
  intro i k hlive
  obtain ⟨d, hd, rfl⟩ := h i k (hr.live hlive)
  rcases hr.stopped hd with hd' | hdead
  · exact ⟨d, hd', rfl⟩
  · exact absurd hlive hdead

/-- A new application is registered; its scope id was free. -/
theorem NoOrphan.register (h : NoOrphan s) {k : κ} (hfree : s.applicationInstances.lookup k = none)
    (scope : Scope) (now : Nat) : NoOrphan (register s k scope now) := by
  rintro i k' ⟨hstarted, hrunning, hnot⟩
  have hstarted' : (s.started ++ [k])[i]? = some k' := hstarted
  rw [lookup_register]
  by_cases hi : i < s.started.length
  · rw [List.getElem?_append_left hi] at hstarted'
    obtain ⟨d, hd, hdi⟩ := h i k' ⟨hstarted', hrunning, hnot⟩
    have hk : k' ≠ k := by
      rintro rfl
      rw [hfree] at hd
      cases hd
    exact ⟨d, by rwa [if_neg hk], hdi⟩
  · have hlength := (List.getElem?_eq_some_iff.mp hstarted').1
    rw [List.length_append, List.length_singleton] at hlength
    obtain rfl : i = s.started.length := by omega
    obtain rfl : k = k' := by simpa using hstarted'
    exact ⟨_, if_pos rfl, rfl⟩

/-- **Deleting by key.** Removing the entries of some scope ids, the tasks as they are, keeps every
live application registered exactly if none of the entries is that of a live one. -/
theorem noOrphan_sweep_iff (h : NoOrphan s) (hstarted : s'.started = s.started)
    (houtcome : s'.outcome = s.outcome) (hcancel : s'.cancelCalls = s.cancelCalls)
    {ks : List κ} (hlookup : ∀ k, s'.applicationInstances.lookup k =
      if k ∈ ks then none else s.applicationInstances.lookup k) :
    NoOrphan s' ↔
      ∀ k ∈ ks, ∀ d, s.applicationInstances.lookup k = some d → ¬ s.Live d.future k := by
  have hlive : ∀ i k, s'.Live i k ↔ s.Live i k := by
    intro i k
    unfold State.Live
    rw [hstarted, houtcome, hcancel]
  constructor
  · intro h' k hk d hd hlived
    -- its entry is gone, and the task goes on
    obtain ⟨d', hd', -⟩ := h' d.future k ((hlive _ _).mpr hlived)
    rw [hlookup, if_pos hk] at hd'
    cases hd'
  · intro hdead i k hlivei
    obtain ⟨d, hd, rfl⟩ := h i k ((hlive _ _).mp hlivei)
    have hk : k ∉ ks := fun hk => hdead k hk d hd ((hlive _ _).mp hlivei)
    exact ⟨d, by rw [hlookup, if_neg hk, hd], rfl⟩

/-! ## Steps and runs -/

/-- A call registers what it starts. -/
theorem NoOrphan.getOrCreate (h : NoOrphan s) (maxApplications : Nat) (k : κ) (scope : Scope)
    (now : Nat) (raised : Option PyError) :
    NoOrphan (getOrCreateApplicationInstance maxApplications s k scope now raised).1 := by
  unfold getOrCreateApplicationInstance
  have hevict := h.of_reclaimed (reclaimed_evict maxApplications s.size s)
  cases hlookup : s.applicationInstances.lookup k with
  | some d => exact h
  | none =>
      cases raised with
      | some e => exact hevict
      | none => exact hevict.register (lookup_evict_none hlookup maxApplications s.size) scope now

/-- What a resumed checker deletes before its next suspension. -/
theorem lookup_resume (s : State κ Scope) (k₀ : κ) (rest : List (Item κ Scope)) (k : κ) :
    (walk rest (discard s k₀)).applicationInstances.lookup k =
      if k ∈ k₀ :: swept s.outcome rest then none else s.applicationInstances.lookup k := by
  rw [lookup_walk, lookup_discard]
  show (if k ∈ swept s.outcome rest then none
    else if k = k₀ then none else s.applicationInstances.lookup k) = _
  by_cases hk : k = k₀
  · simp [hk]
  · simp [hk]

/-- A fresh snapshot: the checker deletes only entries of tasks that are done. -/
theorem swept_items_dead {k : κ} (hk : k ∈ swept s.outcome s.items) {d : Details Scope}
    (hd : s.applicationInstances.lookup k = some d) : ¬ s.Live d.future k := by
  obtain ⟨item, hmem, rfl, hdone⟩ := mem_swept hk
  rw [mem_items.mp hmem] at hd
  cases hd
  rintro ⟨-, hrunning, -⟩
  rw [hrunning] at hdone
  cases hdone

/-- A step from a state without orphans leaves none exactly if it is undisturbed. -/
theorem noOrphan_step_iff (h : NoOrphan s) {a : Action κ Scope}
    (hstep : (machine maxApplications).step s a = some s') : NoOrphan s' ↔ Undisturbed s a := by
  cases step_inv hstep with
  | getOrCreate k scope now raised =>
      exact iff_of_true (h.getOrCreate maxApplications k scope now raised) trivial
  | delete k => exact iff_of_true (h.of_reclaimed (reclaimed_getD fun _ => .of_delete)) trivial
  | deleteOldest =>
      exact iff_of_true (h.of_reclaimed (reclaimed_getD fun _ => .of_deleteOldest)) trivial
  | finish task outcome =>
      -- the table is as it was, and one task fewer is live
      refine iff_of_true (fun i k ⟨hstarted, hrunning, hnot⟩ => ?_) trivial
      by_cases hi : i = task
      · subst hi
        simp at hrunning
      · have hrunning' : s.outcome i = none := by
          simpa [Function.update_of_ne hi] using hrunning
        exact h i k ⟨hstarted, hrunning', hnot⟩
  | wake =>
      obtain ⟨hstarted, houtcome, hcancel⟩ := walk_tasks s.items s
      refine iff_of_true ?_ trivial
      rw [noOrphan_sweep_iff h hstarted houtcome hcancel (lookup_walk s.items s)]
      exact fun k hk d hd => swept_items_dead hk hd
  | @resume k rest hchecker =>
      obtain ⟨hstarted, houtcome, hcancel⟩ := walk_tasks rest (discard s k)
      -- here the snapshot is an old one, and an entry may be that of a newer instance
      rw [noOrphan_sweep_iff h hstarted houtcome hcancel (lookup_resume s k rest)]
      simp only [Undisturbed, hchecker]
  | fail e => exact iff_of_true h trivial

/-- Two live applications of one scope id would be registered in one entry. -/
theorem NoOrphan.atMostOne (h : NoOrphan s) : AtMostOne s := by
  intro i j k hi hj
  obtain ⟨d, hd, rfl⟩ := h i k hi
  obtain ⟨d', hd', rfl⟩ := h j k hj
  rw [hd] at hd'
  cases hd'
  rfl

/-- A step that leaves no orphan removes no entry of a live application. -/
theorem NoOrphan.stopping (h : NoOrphan s') : Stopping s s' := by
  intro k d _
  by_cases hlive : s'.Live d.future k
  · exact .inl (h _ k hlive)
  · exact .inr hlive

/-- **When the server orphans no application.** All along a run every live application is registered
under its own scope id, if and only if the checker is undisturbed in every step of the run. In a run
where it is, no scope id has two live applications, and no further such step removes the entry of a
live one. -/
theorem registered_iff {as : List (Action κ Scope)}
    (h : (machine maxApplications).Run Machine.Any init as s) :
    ((machine maxApplications).Always NoOrphan init as ↔
      (machine maxApplications).Run Undisturbed init as s) ∧
    ((machine maxApplications).Run Undisturbed init as s → AtMostOne s ∧
      ∀ a s', Undisturbed s a → (machine maxApplications).step s a = some s' → Stopping s s') := by
  have h₀ : NoOrphan (init : State κ Scope) := by
    rintro i k ⟨hstarted, -⟩
    cases hstarted
  have halways : (machine maxApplications).Always NoOrphan init as ↔
      (machine maxApplications).Run Undisturbed init as s :=
    h.always_iff (J := fun _ => True) (fun _ _ _ => trivial) h₀
      fun _ _ _ _ hno hstep => noOrphan_step_iff hno hstep
  refine ⟨halways, fun hgood => ?_⟩
  have hno : NoOrphan s := halways.mpr hgood as s (List.prefix_refl _) h
  exact ⟨hno.atMostOne, fun a s' ha hstep => ((noOrphan_step_iff hno hstep).mpr ha).stopping⟩

/-- An application fails and is cleaned up without anything in between. -/
def cleanedUp : List (Action Nat Unit) :=
  [.getOrCreate 0 () 0 none, .finish 0 (.exception (.other 0)), .wake, .resume]

/-- Nothing is orphaned by that. -/
theorem registered_iff_cleanedUp :
    ∃ s, (machine 10).exec init cleanedUp = some s ∧
      (machine 10).Always NoOrphan init cleanedUp ∧ AtMostOne s ∧
      ∀ a s', Undisturbed s a → (machine 10).step s a = some s' → Stopping s s' := by
  have hbefore : ∀ a ∈ cleanedUp.take 3, ∀ s, Undisturbed s a := by simp [cleanedUp, Undisturbed]
  have hresume : Undisturbed (((machine 10).exec init (cleanedUp.take 3)).getD init) .resume := by
    intro k hk d hd
    rw [List.mem_singleton.mp hk] at hd
    cases hd
    rintro ⟨-, hrunning, -⟩
    cases hrunning
  have hrun : (machine 10).Run Undisturbed init cleanedUp _ :=
    (Machine.exec_run_of hbefore rfl).append (.single hresume rfl)
  obtain ⟨halways, hmore⟩ := registered_iff (hrun.mono fun _ _ _ => trivial)
  exact ⟨_, rfl, halways.mpr hrun, hmore hrun⟩

/-- While the checker is in `application_exception`, a handler deletes the entry and makes a new
instance for the scope id. -/
def recreated : List (Action Nat Unit) :=
  [.getOrCreate 0 () 0 none, .finish 0 (.exception (.other 0)), .wake, .delete 0,
    .getOrCreate 0 () 1 none, .resume]

/-- The new application is live, and the table is empty. -/
theorem recreated_orphaned :
    ∃ s, (machine 10).exec init recreated = some s ∧ ¬ NoOrphan s ∧ s.Live 1 0 ∧ s.size = 0 := by
  refine ⟨_, rfl, fun h => ?_, ⟨rfl, rfl, by decide⟩, rfl⟩
  obtain ⟨d, hd, -⟩ := h 1 0 ⟨rfl, rfl, by decide⟩
  cases hd

end Asgiref.StatelessServer
