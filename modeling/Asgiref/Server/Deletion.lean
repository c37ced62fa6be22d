import Asgiref.Server.Machine

/-! # How entries leave the server's table

Three things remove entries: `delete_application_instance`, the eviction that rests on it, and the
checker.

* **`Reclaimed`** — what a deletion through `delete_application_instance` leaves: entries only go,
  and the task of an entry that went is done or was asked to stop. It composes, so it describes the
  eviction loop as well.
* **`oldest_isSome`**, **`size_evict`** — there is an oldest instance in every table but the empty
  one, so the loop does come down to its limit.
* **`lookup_walk`** — the checker deletes exactly the entries of the `swept` scope ids. -/

namespace Asgiref.StatelessServer

variable {κ Scope : Type*}

/-- `len` counts the items. -/
theorem length_items (s : State κ Scope) : s.items.length = s.size := by
  simp [State.items, State.size, AList.keys, List.keys]

/-- The oldest item is one of the table. -/
theorem mem_items_of_oldest {s : State κ Scope} {item : Item κ Scope} (h : oldest s = some item) :
    item ∈ s.items :=
  List.mem_of_find?_eq_some h

/-- Every table but the empty one has an oldest item. -/
theorem oldest_isSome {s : State κ Scope} (h : 0 < s.size) : (oldest s).isSome := by
  have hitems : (s.items.map fun item => s.lastUsed item.2.future) ≠ [] := by
    intro hnil
    have hlength := congrArg List.length hnil
    rw [List.length_map, length_items, List.length_nil] at hlength
    omega
  obtain ⟨m, hm⟩ := Option.isSome_iff_exists.mp (List.isSome_min?_of_ne_nil hitems)
  obtain ⟨item, hmem, hitem⟩ := List.mem_map.mp (List.min?_mem hm)
  unfold oldest
  rw [List.find?_isSome]
  exact ⟨item, hmem, by simp [hm, hitem]⟩

/-- What a method leaves that may raise: the state as it was, where it does. -/
theorem getD_of {P : State κ Scope → Prop} {s : State κ Scope} {result : Option (State κ Scope)}
    (hs : P s) (h : ∀ s', result = some s' → P s') : P (result.getD s) := by
  cases result with
  | none => exact hs
  | some s' => exact h s' rfl

/-! ## Deleting with `delete_application_instance` -/

/-- **Reclaimed.** From `s` to `s'` entries were only removed, and the tasks of those removed are
done or were asked to stop. -/
structure Reclaimed [DecidableEq κ] (s s' : State κ Scope) : Prop where
  started : s'.started = s.started
  outcome : s'.outcome = s.outcome
  kept : ∀ {k d}, s'.applicationInstances.lookup k = some d →
    s.applicationInstances.lookup k = some d
  stopped : ∀ {k d}, s.applicationInstances.lookup k = some d →
    s'.applicationInstances.lookup k = some d ∨ ¬ s'.Live d.future k
  asked : s.cancelCalls <+: s'.cancelCalls

variable [DecidableEq κ] {s s' s'' : State κ Scope}

namespace Reclaimed

theorem refl (s : State κ Scope) : Reclaimed s s :=
  ⟨rfl, rfl, id, .inl, List.prefix_refl _⟩

/-- A task that is live after a deletion was live before. -/
theorem live (h : Reclaimed s s') {i : Nat} {k : κ} (hlive : s'.Live i k) : s.Live i k := by
  obtain ⟨hstarted, hrunning, hnot⟩ := hlive
  exact ⟨h.started ▸ hstarted, h.outcome ▸ hrunning, fun hasked => hnot (h.asked.subset hasked)⟩

/-- Deletions compose. -/
theorem trans (h : Reclaimed s s') (h' : Reclaimed s' s'') : Reclaimed s s'' where
  started := h'.started.trans h.started
  outcome := h'.outcome.trans h.outcome
  kept hk := h.kept (h'.kept hk)
  stopped hk := by
    rcases h.stopped hk with hk' | hdead
    · exact h'.stopped hk'
    · exact .inr fun hlive => hdead (h'.live hlive)
  asked := h.asked.trans h'.asked

end Reclaimed

/-- **`delete_application_instance`** removes its entry, and cancels the task unless it is done. -/
theorem Reclaimed.of_delete {k : κ} (h : deleteApplicationInstance s k = some s') :
    Reclaimed s s' := by
  unfold deleteApplicationInstance at h
  obtain ⟨d, hd, rfl⟩ := Option.map_eq_some_iff.mp h
  refine ⟨rfl, rfl, fun {k' d'} hk' => ?_, fun {k' d'} hk' => ?_, ?_⟩
  · have hne : k' ≠ k := by
      rintro rfl
      rw [AList.lookup_erase] at hk'
      cases hk'
    rwa [AList.lookup_erase_ne hne] at hk'
  · by_cases hne : k' = k
    · subst hne
      rw [hd] at hk'
      cases hk'
      refine .inr fun ⟨_, hrunning, hnot⟩ => ?_
      simp [show s.outcome d.future = none from hrunning] at hnot
    · exact .inl (by rwa [AList.lookup_erase_ne hne])
  · show s.cancelCalls <+: if (s.outcome d.future).isSome then s.cancelCalls
      else s.cancelCalls ++ [d.future]
    split
    · exact List.prefix_refl _
    · exact List.prefix_append _ _

/-- An entry fewer. -/
theorem size_delete {k : κ} (h : deleteApplicationInstance s k = some s') :
    s'.size + 1 = s.size := by
  unfold deleteApplicationInstance at h
  obtain ⟨d, hd, rfl⟩ := Option.map_eq_some_iff.mp h
  have hmem : k ∈ s.applicationInstances.keys := AList.mem_keys.mp
    (AList.lookup_isSome.mp (by simp [hd]))
  have hpos := List.length_pos_of_mem hmem
  show (s.applicationInstances.erase k).keys.length + 1 = s.applicationInstances.keys.length
  rw [AList.keys_erase, List.length_erase_of_mem hmem]
  omega

/-- The items are the entries. -/
theorem mem_items {item : Item κ Scope} :
    item ∈ s.items ↔ s.applicationInstances.lookup item.1 = some item.2 := by
  unfold State.items
  rw [List.mem_reverse, ← Option.mem_def, AList.mem_lookup_iff]

/-- **`delete_oldest_application_instance`** is a deletion. -/
theorem Reclaimed.of_deleteOldest (h : deleteOldestApplicationInstance s = some s') :
    Reclaimed s s' := by
  obtain ⟨item, -, hdelete⟩ := Option.bind_eq_some_iff.mp h
  exact .of_delete hdelete

/-- An entry fewer. -/
theorem size_deleteOldest (h : deleteOldestApplicationInstance s = some s') :
    s'.size + 1 = s.size := by
  obtain ⟨item, -, hdelete⟩ := Option.bind_eq_some_iff.mp h
  exact size_delete hdelete

/-- There is something to delete in every table but the empty one. -/
theorem deleteOldest_isSome (h : 0 < s.size) : (deleteOldestApplicationInstance s).isSome := by
  obtain ⟨item, hitem⟩ := Option.isSome_iff_exists.mp (oldest_isSome h)
  have hlookup := mem_items.mp (mem_items_of_oldest hitem)
  simp [deleteOldestApplicationInstance, hitem, deleteApplicationInstance, hlookup]

/-- **The eviction loop** only deletes. -/
theorem reclaimed_evict (maxApplications n : Nat) (s : State κ Scope) :
    Reclaimed s (evict maxApplications n s) := by
  induction n generalizing s with
  | zero => exact .refl s
  | succ n ih =>
      unfold evict
      split
      · split
        · rename_i s' hdelete
          exact (Reclaimed.of_deleteOldest hdelete).trans (ih s')
        · exact .refl s
      · exact .refl s

/-- **The eviction loop ends at its limit.** -/
theorem size_evict (maxApplications : Nat) {n : Nat} (h : s.size ≤ n) :
    (evict maxApplications n s).size = min s.size maxApplications := by
  induction n generalizing s with
  | zero =>
      rw [Nat.le_zero] at h
      simp [evict, h]
  | succ n ih =>
      unfold evict
      split
      · rename_i hover
        obtain ⟨s', hdelete⟩ := Option.isSome_iff_exists.mp
          (deleteOldest_isSome (Nat.zero_lt_of_lt hover))
        have hsize := size_deleteOldest hdelete
        rw [hdelete]
        show (evict maxApplications n s').size = min s.size maxApplications
        rw [ih (by omega)]
        omega
      · omega

/-- The eviction loop leaves a new scope id new. -/
theorem lookup_evict_none {k : κ} (h : s.applicationInstances.lookup k = none)
    (maxApplications n : Nat) :
    (evict maxApplications n s).applicationInstances.lookup k = none := by
  by_contra hne
  obtain ⟨d, hd⟩ := Option.ne_none_iff_exists'.mp hne
  rw [(reclaimed_evict maxApplications n s).kept hd] at h
  cases h

/-! ## Deleting in the checker -/

/-- The checker's `del` touches one entry. -/
theorem lookup_discard (s : State κ Scope) (k k' : κ) :
    (discard s k').applicationInstances.lookup k =
      if k = k' then none else s.applicationInstances.lookup k := by
  unfold discard
  by_cases h : k = k'
  · subst h
    rw [if_pos rfl, AList.lookup_erase]
  · rw [if_neg h, AList.lookup_erase_ne h]

/-- **What a stretch of the checker's loop deletes.** -/
theorem lookup_walk (items : List (Item κ Scope)) (s : State κ Scope) (k : κ) :
    (walk items s).applicationInstances.lookup k =
      if k ∈ swept s.outcome items then none else s.applicationInstances.lookup k := by
  induction items generalizing s with
  | nil => rfl
  | cons item rest ih =>
      unfold walk swept
      cases houtcome : s.outcome item.2.future with
      | none => exact ih s
      | some o =>
          cases o with
          | result | falseException e =>
              show (walk rest (discard s item.1)).applicationInstances.lookup k = _
              rw [ih, lookup_discard]
              show (if k ∈ swept s.outcome rest then none
                else if k = item.1 then none else s.applicationInstances.lookup k) = _
              by_cases hk : k = item.1
              · simp [hk]
              · simp [hk]
          | exception e | raisingException e raised | cancelled => rfl

/-- The tasks are not touched by the checker. -/
theorem walk_tasks (items : List (Item κ Scope)) (s : State κ Scope) :
    (walk items s).started = s.started ∧ (walk items s).outcome = s.outcome ∧
      (walk items s).cancelCalls = s.cancelCalls := by
  induction items generalizing s with
  | nil => exact ⟨rfl, rfl, rfl⟩
  | cons item rest ih =>
      unfold walk
      cases s.outcome item.2.future with
      | none => exact ih s
      | some o =>
          cases o with
          | result | falseException e => exact ih (discard s item.1)
          | exception e | raisingException e raised | cancelled => exact ⟨rfl, rfl, rfl⟩

/-- The checker's `del` adds no entry. -/
theorem size_discard_le (s : State κ Scope) (k : κ) : (discard s k).size ≤ s.size := by
  show (s.applicationInstances.erase k).keys.length ≤ s.applicationInstances.keys.length
  rw [AList.keys_erase]
  exact List.length_erase_le

/-- A stretch of the checker's loop adds no entry. -/
theorem size_walk_le (items : List (Item κ Scope)) (s : State κ Scope) :
    (walk items s).size ≤ s.size := by
  induction items generalizing s with
  | nil => exact Nat.le_refl _
  | cons item rest ih =>
      unfold walk
      cases s.outcome item.2.future with
      | none => exact ih s
      | some o =>
          cases o with
          | result | falseException e =>
              exact Nat.le_trans (ih (discard s item.1)) (size_discard_le s item.1)
          | exception e | raisingException e raised | cancelled => exact Nat.le_refl _

/-! ## Adding an entry -/

/-- A new instance touches one entry. -/
theorem lookup_register (s : State κ Scope) (k : κ) (scope : Scope) (now : Nat) (k' : κ) :
    (register s k scope now).applicationInstances.lookup k' =
      if k' = k then some ⟨s.started.length, s.started.length, scope⟩
      else s.applicationInstances.lookup k' := by
  unfold register
  by_cases h : k' = k
  · subst h
    rw [if_pos rfl]
    exact AList.lookup_insert _
  · rw [if_neg h]
    exact AList.lookup_insert_ne h

/-- One entry more, if there was none for the scope id. -/
theorem size_register {k : κ} (h : s.applicationInstances.lookup k = none) (scope : Scope)
    (now : Nat) : (register s k scope now).size = s.size + 1 := by
  have hnot : k ∉ s.applicationInstances.keys := fun hmem =>
    AList.lookup_eq_none.mp h (AList.mem_keys.mpr hmem)
  show (s.applicationInstances.insert k _).keys.length = s.applicationInstances.keys.length + 1
  rw [AList.keys_insert, List.erase_of_not_mem hnot, List.length_cons]

end Asgiref.StatelessServer
