import Asgiref.Server.Deletion

/-! # The capacity of the server

The eviction loop runs while there are more instances than `max_applications`, and then the new one
is added.

* **`size_le_succ`** — so there is never more than one instance too many.
* **`capacity_iff`** — and there is none too many exactly as long as each call that makes an
  instance finds fewer than `max_applications`: the loop makes no space for the new one. -/

namespace Asgiref.StatelessServer

variable {κ Scope : Type*} [DecidableEq κ] {s s' : State κ Scope} {maxApplications : Nat}

/-- A call that makes an instance finds fewer than `max_applications`. -/
def Room (maxApplications : Nat) (s : State κ Scope) : Action κ Scope → Prop
  | .getOrCreate scopeId _ _ none =>
      s.applicationInstances.lookup scopeId = none → s.size < maxApplications
  | _ => True

/-- The number of instances after a call. -/
theorem size_getOrCreate (scopeId : κ) (scope : Scope) (now : Nat) (raised : Option PyError) :
    (getOrCreateApplicationInstance maxApplications s scopeId scope now raised).1.size =
      if (s.applicationInstances.lookup scopeId).isSome then s.size
      else min s.size maxApplications + if raised = none then 1 else 0 := by
  unfold getOrCreateApplicationInstance
  have hevict := size_evict maxApplications (Nat.le_refl s.size)
  cases hlookup : s.applicationInstances.lookup scopeId with
  | some details => rfl
  | none =>
      cases raised with
      | some e => simpa using hevict
      | none =>
          -- the loop adds no entry, so the scope id is still a new one
          have hnew := lookup_evict_none hlookup maxApplications s.size
          simpa [hevict] using size_register hnew scope now

omit [DecidableEq κ] in
/-- The number of instances after a deletion. -/
theorem size_getD_le {o : Option (State κ Scope)} (h : ∀ s', o = some s' → s'.size + 1 = s.size) :
    (o.getD s).size ≤ s.size :=
  getD_of (P := fun s' => s'.size ≤ s.size) (Nat.le_refl _) fun s' hs' => by
    have hsize := h s' hs'
    omega

/-- No other action than a call adds an entry. -/
theorem size_step_le {a : Action κ Scope} (hstep : (machine maxApplications).step s a = some s')
    (ha : ∀ k scope now raised, a ≠ .getOrCreate k scope now raised) : s'.size ≤ s.size := by
  cases step_inv hstep with
  | getOrCreate k scope now raised => exact absurd rfl (ha k scope now raised)
  | delete k => exact size_getD_le fun _ => size_delete
  | deleteOldest => exact size_getD_le fun _ => size_deleteOldest
  | finish task outcome => exact Nat.le_refl _
  | wake => exact size_walk_le s.items s
  | resume => exact Nat.le_trans (size_walk_le _ _) (size_discard_le s _)
  | fail e => exact Nat.le_refl _

/-- From a state within the capacity, a step stays within it exactly if there is room. -/
theorem size_step_iff (hsize : s.size ≤ maxApplications) {a : Action κ Scope}
    (hstep : (machine maxApplications).step s a = some s') :
    s'.size ≤ maxApplications ↔ Room maxApplications s a := by
  cases a with
  | getOrCreate k scope now raised =>
      cases hstep
      rw [size_getOrCreate]
      cases hlookup : s.applicationInstances.lookup k with
      | some d => cases raised <;> simp [Room, hlookup, hsize]
      | none =>
          cases raised with
          | some e =>
              refine iff_of_true ?_ trivial
              simp only [Option.isSome_none, Bool.false_eq_true, if_false, reduceCtorEq]
              omega
          | none =>
              simp only [Room, hlookup, Option.isSome_none, Bool.false_eq_true, if_false, if_true,
                forall_const]
              omega
  | delete | deleteOldest | finish | wake | resume | fail =>
      have hle := size_step_le hstep (by simp)
      exact ⟨fun _ => trivial, fun _ => Nat.le_trans hle hsize⟩

/-- **At most one too many.** In every reachable state there are at most `max_applications + 1`
instances. -/
theorem size_le_succ {as : List (Action κ Scope)}
    (h : (machine maxApplications).Run Machine.Any init as s) : s.size ≤ maxApplications + 1 := by
  refine h.invariant (I := fun s => s.size ≤ maxApplications + 1) (Nat.zero_le _) ?_
  intro s a s' hsize _ hstep
  cases a with
  | getOrCreate k scope now raised =>
      cases hstep
      rw [size_getOrCreate]
      split
      · exact hsize
      · split <;> omega
  | delete | deleteOldest | finish | wake | resume | fail =>
      exact Nat.le_trans (size_step_le hstep (by simp)) hsize

/-- **When the capacity is respected.** There are at most `max_applications` instances after every
operation of a run, if and only if every call of the run that makes an instance finds fewer. -/
theorem capacity_iff {as : List (Action κ Scope)}
    (h : (machine maxApplications).Run Machine.Any init as s) :
    (machine maxApplications).Always (fun s => s.size ≤ maxApplications) init as ↔
      (machine maxApplications).Run (Room maxApplications) init as s :=
  h.always_iff (J := fun _ => True) (fun _ _ _ => trivial) (Nat.zero_le _)
    fun _ _ _ _ hsize hstep => size_step_iff hsize hstep

/-- Two calls with different scope ids. -/
def twoCalls : List (Action Nat Unit) := [.getOrCreate 0 () 0 none, .getOrCreate 1 () 1 none]

/-- A server for two applications has room for both. -/
theorem capacity_iff_twoCalls :
    ∃ s, (machine 2).exec init twoCalls = some s ∧ (machine 2).Run (Room 2) init twoCalls s ∧
      (machine 2).Always (fun s => s.size ≤ 2) init twoCalls := by
  have hfirst : Room 2 (init : State Nat Unit) (.getOrCreate 0 () 0 none) := fun _ => by decide
  have hsecond : Room 2 (((machine 2).exec (init : State Nat Unit)
      [.getOrCreate 0 () 0 none]).getD init) (.getOrCreate 1 () 1 none) := fun _ => by decide
  have hrun : (machine 2).Run (Room 2) init twoCalls _ :=
    (Machine.Run.single hfirst rfl).append (.single hsecond rfl)
  exact ⟨_, rfl, hrun, (capacity_iff (Machine.exec_run rfl)).mpr hrun⟩

/-- A server for one application ends up with two. -/
theorem twoCalls_not_capacity : ∃ s, (machine 1).exec init twoCalls = some s ∧ ¬ s.size ≤ 1 :=
  ⟨_, rfl, by decide⟩

end Asgiref.StatelessServer
