import Mathlib.Data.List.Basic
import Mathlib.Data.List.Nodup
import Mathlib.Logic.Function.Basic
import Asgiref.Lib.Machine

/-! # Sessions

Messages are addressed to keys, and each key is served by one session after the other. A session
has a queue of its own, and a message for a key goes to the session that was opened last for it.
Nothing here is about any particular machine.

* **`sessions`**, **`newest`** — the sessions of a key, in the order in which they were opened, and
  the last one of them.
* **`Sessions.machine`** — sessions are opened, and their queues are put to and taken from.
* **`Sessions.split`** — the messages for a key, in their order, are those that its first session
  has taken, then those that this has left in its queue, then those of the second session, and so
  on. -/

namespace Asgiref

namespace Sessions

variable {κ M : Type} [DecidableEq κ]

/-! ## The sessions of a key -/

/-- The sessions of a key. Sessions are numbered in the order in which they were opened, and
`owners` has the key of each. -/
def sessions (owners : List κ) (k : κ) : List Nat :=
  (List.range owners.length).filter fun i => owners[i]? = some k

/-- The session of a key that was opened last. -/
def newest (owners : List κ) (k : κ) : Option Nat := (sessions owners k).getLast?

variable {owners : List κ} {k : κ} {i : Nat}

theorem mem_sessions : i ∈ sessions owners k ↔ owners[i]? = some k := by
  unfold sessions
  rw [List.mem_filter, List.mem_range, decide_eq_true_eq]
  constructor
  · exact And.right
  · intro h
    exact ⟨(List.getElem?_eq_some_iff.mp h).1, h⟩

theorem nodup_sessions (owners : List κ) (k : κ) : (sessions owners k).Nodup :=
  List.Nodup.filter _ List.nodup_range

/-- A session is opened for `k`. -/
theorem sessions_concat (owners : List κ) (k k' : κ) :
    sessions (owners ++ [k]) k' =
      sessions owners k' ++ if k = k' then [owners.length] else [] := by
  unfold sessions
  rw [List.length_append, List.length_singleton, List.range_succ, List.filter_append]
  congr 1
  · apply List.filter_congr
    intro i hi
    rw [List.getElem?_append_left (List.mem_range.mp hi)]
  · rw [List.filter_singleton, List.getElem?_concat_length]
    by_cases hk : k = k'
    · simp [hk]
    · simp [hk]

/-- The newest session is the last one of its key. -/
theorem sessions_of_newest (h : newest owners k = some i) :
    ∃ before, sessions owners k = before ++ [i] ∧ i ∉ before := by
  obtain ⟨before, hbefore⟩ := List.getLast?_eq_some_iff.mp h
  refine ⟨before, hbefore, fun hmem => ?_⟩
  have hnodup := nodup_sessions owners k
  rw [hbefore] at hnodup
  exact List.disjoint_of_nodup_append hnodup hmem List.mem_cons_self

/-- It is the newest if no later one is of its key. -/
theorem newest_of (howner : owners[i]? = some k) (hlast : ∀ j, owners[j]? = some k → j ≤ i) :
    newest owners k = some i := by
  induction owners using List.reverseRecOn with
  | nil => cases howner
  | append_singleton owners k' ih =>
      unfold newest
      rw [sessions_concat]
      by_cases hk : k' = k
      · subst hk
        have hle := hlast owners.length List.getElem?_concat_length
        have hlt := (List.getElem?_eq_some_iff.mp howner).1
        rw [List.length_append, List.length_singleton] at hlt
        obtain rfl : i = owners.length := by omega
        simp
      · have hlt : i < owners.length := by
          have hlt := (List.getElem?_eq_some_iff.mp howner).1
          rw [List.length_append, List.length_singleton] at hlt
          rcases Nat.lt_or_eq_of_le (Nat.le_of_lt_succ hlt) with h | rfl
          · exact h
          · rw [List.getElem?_concat_length] at howner
            exact absurd (Option.some.inj howner) hk
        rw [if_neg hk, List.append_nil]
        refine ih ?_ fun j hj => hlast j ?_
        · rwa [List.getElem?_append_left hlt] at howner
        · rwa [List.getElem?_append_left (List.getElem?_eq_some_iff.mp hj).1]

/-! ## The machine -/

/-- What happens to the sessions. -/
inductive Event (κ M : Type)
  | opened (k : κ)
  | put (k : κ) (m : M)
  | take (i : Nat) (m : M)

/-- The sessions and their queues. -/
structure State (κ M : Type) where
  owners : List κ
  queues : Nat → List M

/-- No session yet. -/
def init : State κ M := ⟨[], fun _ => []⟩

section Machine

open scoped Classical

/-- What is put for a key goes to its newest session, and a session takes from the front. -/
noncomputable def machine (κ M : Type) [DecidableEq κ] : Machine (State κ M) (Event κ M) where
  step s
    | .opened k => some { s with owners := s.owners ++ [k] }
    | .put k m =>
        (newest s.owners k).map fun i =>
          { s with queues := Function.update s.queues i (s.queues i ++ [m]) }
    | .take i m =>
        if (s.queues i).head? = some m then
          some { s with queues := Function.update s.queues i (s.queues i).tail }
        else none

end Machine

/-- What was put for a key. -/
def puts (k : κ) (es : List (Event κ M)) : List M :=
  es.filterMap fun
    | .put k' m => if k' = k then some m else none
    | _ => none

/-- What a session has taken. -/
def takes (i : Nat) (es : List (Event κ M)) : List M :=
  es.filterMap fun
    | .take j m => if j = i then some m else none
    | _ => none

/-- What a session has taken, and then what is in its queue. -/
def log (es : List (Event κ M)) (s : State κ M) (i : Nat) : List M := takes i es ++ s.queues i

/-! ## Splitting -/

/-- Adding a message to the log of the newest session of a key adds it to the messages of the
key. -/
theorem flatMap_update {f : Nat → List M} {m : M} (h : newest owners k = some i) (k' : κ) :
    (sessions owners k').flatMap (Function.update f i (f i ++ [m])) =
      (sessions owners k').flatMap f ++ if k = k' then [m] else [] := by
  have hother : ∀ is : List Nat, i ∉ is →
      is.flatMap (Function.update f i (f i ++ [m])) = is.flatMap f := by
    intro is hi
    refine List.flatMap_congr fun j hj => Function.update_of_ne ?_ _ _
    rintro rfl
    exact hi hj
  obtain ⟨before, hbefore, hi⟩ := sessions_of_newest h
  by_cases hk : k = k'
  · subst hk
    rw [hbefore, List.flatMap_append, List.flatMap_append, hother before hi]
    simp
  · have howner : owners[i]? = some k := by
      rw [← mem_sessions, hbefore]
      exact List.mem_append_right _ List.mem_cons_self
    rw [if_neg hk, List.append_nil]
    refine hother _ fun hmem => hk ?_
    rw [mem_sessions, howner] at hmem
    exact Option.some.inj hmem

/-- The messages are where they belong. -/
structure Split (es : List (Event κ M)) (s : State κ M) : Prop where
  puts : ∀ k, puts k es = (sessions s.owners k).flatMap (log es s)
  /-- A session that was not opened yet has none. -/
  unopened : ∀ i, s.owners.length ≤ i → log es s i = []

theorem Split.step {es : List (Event κ M)} {s s' : State κ M} {e : Event κ M} (h : Split es s)
    (hstep : (machine κ M).step s e = some s') : Split (es ++ [e]) s' := by
  cases e with
  | opened k =>
      cases hstep
      have hlog : log (es ++ [.opened k]) { s with owners := s.owners ++ [k] } = log es s := by
        funext i
        simp [log, takes]
      constructor
      · intro k'
        have hputs : Sessions.puts k' (es ++ [.opened k]) = Sessions.puts k' es := by
          simp [Sessions.puts]
        rw [hputs, h.puts k', hlog, sessions_concat, List.flatMap_append]
        by_cases hk : k = k'
        · simp [hk, h.unopened s.owners.length (Nat.le_refl _)]
        · simp [hk]
      · intro i hi
        rw [hlog]
        rw [List.length_append, List.length_singleton] at hi
        exact h.unopened i (by omega)
  | put k m =>
      obtain ⟨i, hi, rfl⟩ := Option.map_eq_some_iff.mp hstep
      have hlog : log (es ++ [.put k m])
            { s with queues := Function.update s.queues i (s.queues i ++ [m]) } =
          Function.update (log es s) i (log es s i ++ [m]) := by
        funext j
        by_cases hj : j = i
        · subst hj
          simp [log, takes]
        · simp [log, takes, hj]
      have hlt : i < s.owners.length := by
        obtain ⟨before, hbefore, -⟩ := sessions_of_newest hi
        have hmem : i ∈ sessions s.owners k := by
          rw [hbefore]
          exact List.mem_append_right _ List.mem_cons_self
        exact (List.getElem?_eq_some_iff.mp (mem_sessions.mp hmem)).1
      constructor
      · intro k'
        have hputs : Sessions.puts k' (es ++ [.put k m]) =
            Sessions.puts k' es ++ if k = k' then [m] else [] := by
          by_cases hk : k = k'
          · simp [Sessions.puts, hk]
          · simp [Sessions.puts, hk]
        rw [hputs, h.puts k', hlog]
        exact (flatMap_update hi k').symm
      · intro j hj
        have hne : j ≠ i := by
          rintro rfl
          exact Nat.not_lt.mpr hj hlt
        rw [hlog, Function.update_of_ne hne]
        exact h.unopened j hj
  | take i m =>
      have hstep' := hstep
      unfold machine at hstep'
      simp only [Option.ite_none_right_eq_some, Option.some.injEq] at hstep'
      obtain ⟨hhead, rfl⟩ := hstep'
      obtain ⟨rest, hrest⟩ := List.head?_eq_some_iff.mp hhead
      have hlog : log (es ++ [.take i m])
          { s with queues := Function.update s.queues i (s.queues i).tail } = log es s := by
        funext j
        by_cases hj : j = i
        · subst hj
          simp [log, takes, hrest]
        · have hij : i ≠ j := fun h => hj h.symm
          simp [log, takes, hj, hij]
      constructor
      · intro k
        have hputs : Sessions.puts k (es ++ [.take i m]) = Sessions.puts k es := by
          simp [Sessions.puts]
        rw [hputs, h.puts k, hlog]
      · intro j hj
        rw [hlog]
        exact h.unopened j hj

/-- **Splitting.** What was put for a key is, in this order, what its sessions have taken, each
followed by what is still in its queue. -/
theorem split {es : List (Event κ M)} {s : State κ M}
    (h : (machine κ M).Run Machine.Any init es s) (k : κ) :
    puts k es = (sessions s.owners k).flatMap fun i => takes i es ++ s.queues i := by
  have hsplit : Split es s := by
    induction h with
    | nil => exact ⟨fun _ => rfl, fun _ _ => rfl⟩
    | snoc _ _ hstep ih => exact ih.step hstep
  exact hsplit.puts k

end Sessions

end Asgiref
