import Mathlib.Data.List.Basic
import Mathlib.Logic.Function.Basic
import Asgiref.Lib.Simulation

/-! # First-in-first-out queues

A family of queues, each of which is put to at its end and taken from at its front. A machine that
keeps queues of its own, among other things, refines them if it answers its puts and takes as they
do. Nothing here is about any particular machine.

* **`Queues.machine`** — the queues, driven by their own puts and takes.
* **`Queues.puts`**, **`Queues.takes`** — what an observation says was put to a queue and taken
  from it.
* **`Queues.conservation`** — what was put is what was taken, and then what is there: nothing is
  lost, doubled or reordered.
* **`Queues.simulates_of`**, **`Queues.conservation_of`** — the rules for a machine whose steps move
  its queues as they show (**`Queues.Moves`**). -/

namespace Asgiref

namespace Queues

variable {ι M : Type} [DecidableEq ι]

/-- What happens to the queues. -/
inductive Event (ι M : Type)
  | put (i : ι) (m : M)
  | take (i : ι) (m : M)

/-- What was put to queue `i`. -/
def puts (i : ι) (es : List (Event ι M)) : List M :=
  es.filterMap fun
    | .put j m => if j = i then some m else none
    | .take .. => none

/-- What was taken from queue `i`. -/
def takes (i : ι) (es : List (Event ι M)) : List M :=
  es.filterMap fun
    | .put .. => none
    | .take j m => if j = i then some m else none

/-- How the queues change with what happens to them, if anything. -/
def Moves (q q' : ι → List M) : Option (Event ι M) → Prop
  | none => q' = q
  | some (.put i m) => q' = Function.update q i (q i ++ [m])
  | some (.take i m) => ∃ rest, q i = m :: rest ∧ q' = Function.update q i rest

section Machine

open scoped Classical

/-- The queues: only what is at the front can be taken. -/
noncomputable def machine (ι M : Type) [DecidableEq ι] : Machine (ι → List M) (Event ι M) where
  step q
    | .put i m => some (Function.update q i (q i ++ [m]))
    | .take i m =>
        if (q i).head? = some m then some (Function.update q i (q i).tail) else none

variable {q q' : ι → List M} {e : Event ι M}

/-- The queues take every step that moves them as it should. -/
theorem step_iff : (machine ι M).step q e = some q' ↔ Moves q q' (some e) := by
  cases e with
  | put i m =>
      unfold machine Moves
      rw [Option.some.injEq]
      exact eq_comm
  | take i m =>
      unfold machine Moves
      simp only
      constructor
      · intro h
        split at h
        · rename_i hhead
          cases h
          obtain ⟨rest, hrest⟩ := List.head?_eq_some_iff.mp hhead
          exact ⟨rest, hrest, by rw [hrest, List.tail_cons]⟩
        · cases h
      · rintro ⟨rest, hrest, rfl⟩
        have hhead : (q i).head? = some m := by rw [hrest, List.head?_cons]
        rw [if_pos hhead, hrest, List.tail_cons]

end Machine

variable {es : List (Event ι M)} {q : ι → List M}

/-- **Conservation.** What was put to a queue is what was taken from it, in this order, and then
what is still there. -/
theorem conservation (h : (machine ι M).Run Machine.Any (fun _ => []) es q) (i : ι) :
    puts i es = takes i es ++ q i := by
  induction h with
  | nil => rfl
  | @snoc es q q' e _ _ hstep ih =>
      unfold puts takes at ih ⊢
      rw [List.filterMap_append, List.filterMap_append, ih]
      have hmoves := step_iff.mp hstep
      cases e with
      | put j m =>
          cases hmoves
          by_cases hji : j = i
          · subst hji
            simp
          · have hij : i ≠ j := fun h => hji h.symm
            simp [hji, hij]
      | take j m =>
          obtain ⟨rest, hfront, rfl⟩ := hmoves
          by_cases hji : j = i
          · subst hji
            simp [hfront]
          · have hij : i ≠ j := fun h => hji h.symm
            simp [hji, hij]

section Refinement

variable {σ : Type} {α : Type*} {M' : Machine σ α} {event : σ → α → Option (Event ι M)}
  {G : σ → α → Prop} {contents : σ → ι → List M} {s₀ s : σ} {as : List α}

/-- **Refinement.** A machine whose steps move its queues as they show refines the queues. -/
theorem simulates_of (hmoves : ∀ s a s', G s a → M'.step s a = some s' →
      Moves (contents s) (contents s') (event s a)) :
    M'.Simulates event G (machine ι M) fun s q => q = contents s := by
  rintro s q a s' rfl hG hstep
  have h := hmoves s a s' hG hstep
  cases hevent : event s a with
  | none =>
      rw [hevent] at h
      exact h.symm
  | some e =>
      rw [hevent] at h
      exact ⟨contents s', step_iff.mpr h, rfl⟩

/-- **Conservation, for a machine that refines the queues.** -/
theorem conservation_of (hmoves : ∀ s a s', G s a → M'.step s a = some s' →
      Moves (contents s) (contents s') (event s a))
    (h₀ : ∀ i, contents s₀ i = []) (h : M'.Shows event G s₀ as es s) (i : ι) :
    puts i es = takes i es ++ contents s i := by
  have hempty : (fun _ => []) = contents s₀ := by
    funext i
    exact (h₀ i).symm
  obtain ⟨q, hrun, rfl⟩ := (simulates_of hmoves).run hempty h
  exact conservation hrun i

end Refinement

end Queues

end Asgiref
