import Asgiref.Lib.Machine

/-! # Forward simulation

A machine whose steps show events refines a specification, a machine that is driven by these
events, if a relation between their states can be kept up: a step that shows nothing keeps it, and
a step that shows an event is answered by the specification. Nothing here is about any particular
machine.

* **`Machine.Shows`** — a run and the events that its steps show.
* **`Machine.Simulates`** — what one step of the machine asks of the specification.
* **`Simulates.run`** — then the events of every run are a run of the specification.
* **`Machine.observe`** — the executable counterpart of `Shows`, with **`observe_shows`**. -/

namespace Asgiref

universe u v w

namespace Machine

variable {σ τ : Type u} {α : Type v} {ε : Type w}

/-- **Runs with their events.** The actions `as` lead from `s₀` to `s`, each of them allowed by `G`,
and show `es`. -/
inductive Shows (M : Machine σ α) (event : σ → α → Option ε) (G : σ → α → Prop) (s₀ : σ) :
    List α → List ε → σ → Prop
  | nil : Shows M event G s₀ [] [] s₀
  | snoc {as : List α} {es : List ε} {s s' : σ} {a : α} :
      Shows M event G s₀ as es s → G s a → M.step s a = some s' →
        Shows M event G s₀ (as ++ [a]) (es ++ (event s a).toList) s'

variable {M : Machine σ α} {event : σ → α → Option ε} {G : σ → α → Prop} {N : Machine τ ε}
  {s₀ s : σ} {as : List α} {es : List ε}

/-- The run of which the events are. -/
theorem Shows.run (h : M.Shows event G s₀ as es s) : M.Run G s₀ as s := by
  induction h with
  | nil => exact .nil
  | snoc _ hG hstep ih => exact .snoc ih hG hstep

/-- Runs with their events compose. -/
theorem Shows.append {s' : σ} {bs : List α} {fs : List ε} (h : M.Shows event G s₀ as es s)
    (h' : M.Shows event G s bs fs s') : M.Shows event G s₀ (as ++ bs) (es ++ fs) s' := by
  induction h' with
  | nil => simpa using h
  | snoc _ hG hstep ih =>
      rw [← List.append_assoc, ← List.append_assoc]
      exact .snoc ih hG hstep

/-- Run a list of actions and collect the events; `none` as soon as one is not enabled or not
allowed. -/
def observe (M : Machine σ α) (event : σ → α → Option ε) (G : σ → α → Prop)
    [∀ s a, Decidable (G s a)] : σ → List α → Option (List ε × σ)
  | s, [] => some ([], s)
  | s, a :: as =>
      if G s a then
        (M.step s a).bind fun s' =>
          (observe M event G s' as).map fun (es, s'') => ((event s a).toList ++ es, s'')
      else none

/-- An evaluated run shows the events that were collected. -/
theorem observe_shows [∀ s a, Decidable (G s a)] (h : M.observe event G s₀ as = some (es, s)) :
    M.Shows event G s₀ as es s := by
  induction as generalizing s₀ es with
  | nil =>
      cases h
      exact .nil
  | cons a as ih =>
      unfold observe at h
      split at h
      · rename_i hG
        obtain ⟨s₁, hstep, hrest⟩ := Option.bind_eq_some_iff.mp h
        obtain ⟨⟨es', s'⟩, hobserve, heq⟩ := Option.map_eq_some_iff.mp hrest
        cases heq
        exact Shows.append (.snoc .nil hG hstep) (ih hobserve)
      · cases h

/-- The specification answers every event that an allowed step shows, and the relation is kept. -/
def Simulates (M : Machine σ α) (event : σ → α → Option ε) (G : σ → α → Prop) (N : Machine τ ε)
    (R : σ → τ → Prop) : Prop :=
  ∀ s t a s', R s t → G s a → M.step s a = some s' →
    match event s a with
    | none => R s' t
    | some e => ∃ t', N.step t e = some t' ∧ R s' t'

/-- **Simulation.** What a run shows is a run of the specification, to a related state. -/
theorem Simulates.run {R : σ → τ → Prop} (hsim : Simulates M event G N R) {t₀ : τ}
    (h₀ : R s₀ t₀) (h : M.Shows event G s₀ as es s) : ∃ t, N.Run Any t₀ es t ∧ R s t := by
  induction h with
  | nil => exact ⟨t₀, .nil, h₀⟩
  | @snoc as es s s' a _ hG hstep ih =>
      obtain ⟨t, hrun, hR⟩ := ih
      have hanswer := hsim s t a s' hR hG hstep
      cases hevent : event s a with
      | none =>
          rw [hevent] at hanswer
          exact ⟨t, by simpa using hrun, hanswer⟩
      | some e =>
          rw [hevent] at hanswer
          obtain ⟨t', hstep', hR'⟩ := hanswer
          exact ⟨t', .snoc hrun trivial hstep', hR'⟩

end Machine

end Asgiref
