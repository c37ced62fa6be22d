import Mathlib.Data.List.Induction
import Mathlib.Logic.Function.Basic

/-! # Machines with partial steps

A machine moves between states by actions, and an action that is not enabled has no successor. This
file has what every development over such a machine needs and nothing about any particular one:

* **`Machine.Run M G s₀ as s`** — the actions `as` lead from `s₀` to `s`, and each of them is taken
  in a state that the side condition `G` allows.
* **`Run.invariant`** — the induction rule for a property that each allowed step keeps, with
  `Run.invariant_of` for a property whose proof needs another one, and `Run.history` for a property
  of the state together with the actions that led to it. **`Run.iff_of_step`** is the rule for the
  exact condition under which a property holds of the last state of a run, **`Run.along_iff`**,
  **`Run.always_iff`** and **`Run.all_steps_iff`** are those for properties of all its states and
  steps. **`Run.length_le`** and **`Run.exists_stuck`** are the rules for a measure that each step
  lowers.
* **`Machine.exec`** — the executable counterpart: it runs a list of actions, `exec_run` turns an
  evaluated run into a `Run`, and `Run.exec` goes the other way. -/

namespace Asgiref

universe u v

/-- A machine: a partial step function on states `σ`, driven by actions `α`. -/
structure Machine (σ : Type u) (α : Type v) where
  /-- The state after an action, or `none` where the action is not enabled. -/
  step : σ → α → Option σ

namespace Machine

variable {σ : Type u} {α : Type v} (M : Machine σ α)

/-- The side condition that allows every step. -/
def Any : σ → α → Prop := fun _ _ => True

instance (s : σ) (a : α) : Decidable (Any s a) := .isTrue trivial

/-- **Runs.** `M.Run G s₀ as s`: the actions `as` lead from `s₀` to `s`, and `G` holds of each
action and the state it is taken in. -/
inductive Run (G : σ → α → Prop) (s₀ : σ) : List α → σ → Prop
  | nil : Run G s₀ [] s₀
  | snoc {as : List α} {s s' : σ} {a : α} :
      Run G s₀ as s → G s a → M.step s a = some s' → Run G s₀ (as ++ [a]) s'

/-- The property holds in every state that the actions lead through, the start and the end
included. -/
def Always (P : σ → Prop) (s₀ : σ) (as : List α) : Prop :=
  ∀ bs s, bs <+: as → M.Run Any s₀ bs s → P s

/-- Every step that the actions lead through has the property. -/
def Along (Q : σ → α → σ → Prop) (s₀ : σ) (as : List α) : Prop :=
  ∀ bs a s s', bs ++ [a] <+: as → M.Run Any s₀ bs s → M.step s a = some s' → Q s a s'

variable {M} {G : σ → α → Prop} {s₀ s s' : σ} {as bs : List α}

namespace Run

/-- A run of one allowed step. -/
theorem single {a : α} (hG : G s a) (hstep : M.step s a = some s') : M.Run G s [a] s' :=
  .snoc .nil hG hstep

/-- A run that meets a side condition meets every weaker one. -/
theorem mono {G' : σ → α → Prop} (himp : ∀ s a, G s a → G' s a) (h : M.Run G s₀ as s) :
    M.Run G' s₀ as s := by
  induction h with
  | nil => exact .nil
  | snoc _ hG hstep ih => exact .snoc ih (himp _ _ hG) hstep

/-- Runs compose. -/
theorem append (h : M.Run G s₀ as s) (h' : M.Run G s bs s') : M.Run G s₀ (as ++ bs) s' := by
  induction h' with
  | nil => simpa using h
  | snoc _ hG hstep ih =>
      rw [← List.append_assoc]
      exact .snoc ih hG hstep

/-- **Invariants.** A property of the start that every allowed step keeps holds after every run. -/
theorem invariant {I : σ → Prop} (h₀ : I s₀)
    (hstep : ∀ s a s', I s → G s a → M.step s a = some s' → I s') (h : M.Run G s₀ as s) : I s := by
  induction h with
  | nil => exact h₀
  | snoc _ hG hs ih => exact hstep _ _ _ ih hG hs

/-- **Relative invariants.** A property whose steps may use a fact `J` already known of every
state of the run. -/
theorem invariant_of {I J : σ → Prop} (hJ : ∀ as s, M.Run G s₀ as s → J s) (h₀ : I s₀)
    (hstep : ∀ s a s', J s → I s → G s a → M.step s a = some s' → I s')
    (h : M.Run G s₀ as s) : I s := by
  induction h with
  | nil => exact h₀
  | snoc hrun hG hs ih => exact hstep _ _ _ (hJ _ _ hrun) ih hG hs

/-- **Histories.** A property of the actions taken so far and the state they led to. -/
theorem history {P : List α → σ → Prop} (h₀ : P [] s₀)
    (hstep : ∀ as s a s', M.Run G s₀ as s → P as s → G s a → M.step s a = some s' →
      P (as ++ [a]) s')
    (h : M.Run G s₀ as s) : P as s := by
  induction h with
  | nil => exact h₀
  | snoc hrun hG hs ih => exact hstep _ _ _ _ hrun ih hG hs

/-- The last step of a run. -/
theorem snoc_inv {a : α} (h : M.Run G s₀ (as ++ [a]) s') :
    ∃ s, M.Run G s₀ as s ∧ G s a ∧ M.step s a = some s' := by
  generalize hbs : as ++ [a] = bs at h
  cases h with
  | nil => simp at hbs
  | snoc hrun hG hstep =>
      obtain ⟨rfl, ha⟩ := List.append_inj' hbs rfl
      cases ha
      exact ⟨_, hrun, hG, hstep⟩

/-- A run in two parts. -/
theorem append_inv (h : M.Run G s₀ (as ++ bs) s') :
    ∃ s, M.Run G s₀ as s ∧ M.Run G s bs s' := by
  induction bs using List.reverseRecOn generalizing s' with
  | nil => exact ⟨s', by simpa using h, .nil⟩
  | append_singleton bs a ih =>
      rw [← List.append_assoc] at h
      obtain ⟨s₁, hrun, hG, hstep⟩ := h.snoc_inv
      obtain ⟨s, hfirst, hrest⟩ := ih hrun
      exact ⟨s, hfirst, .snoc hrest hG hstep⟩

/-- The actions determine where a run leads. -/
theorem unique {G' : σ → α → Prop} (h : M.Run G s₀ as s) (h' : M.Run G' s₀ as s') : s = s' := by
  induction h generalizing s' with
  | nil =>
      generalize hbs : ([] : List α) = bs at h'
      cases h' with
      | nil => rfl
      | snoc => simp at hbs
  | snoc _ _ hstep ih =>
      obtain ⟨s₁, hrun, -, hstep'⟩ := h'.snoc_inv
      rw [ih hrun, hstep'] at hstep
      exact (Option.some.inj hstep).symm

/-- The first step of a run. -/
theorem cons_inv {a : α} (h : M.Run G s₀ (a :: as) s') :
    ∃ s, M.step s₀ a = some s ∧ M.Run G s as s' := by
  have h' : M.Run G s₀ ([a] ++ as) s' := h
  obtain ⟨s, hfirst, hrest⟩ := h'.append_inv
  have hfirst' : M.Run G s₀ ([] ++ [a]) s := hfirst
  obtain ⟨s₁, hrun, -, hstep⟩ := hfirst'.snoc_inv
  obtain rfl := hrun.unique (.nil (G := G))
  exact ⟨s, hstep, hrest⟩

/-- **Exact conditions.** A property that a step keeps exactly if the condition allows it holds
after exactly the runs whose steps it all allows. -/
theorem iff_of_step {P J : σ → Prop} (hJ : ∀ as s, M.Run Any s₀ as s → J s) (h₀ : P s₀)
    (hstep : ∀ s a s', J s → M.step s a = some s' → (P s' ↔ P s ∧ G s a))
    (h : M.Run Any s₀ as s) : P s ↔ M.Run G s₀ as s := by
  induction h with
  | nil => exact ⟨fun _ => .nil, fun _ => h₀⟩
  | snoc hrun _ hs ih =>
      rw [hstep _ _ _ (hJ _ _ hrun) hs, ih]
      constructor
      · rintro ⟨hgood, ha⟩
        exact .snoc hgood ha hs
      · intro hgood
        obtain ⟨s₁, hrun₁, ha, -⟩ := hgood.snoc_inv
        rw [hrun₁.unique hrun] at ha
        exact ⟨(hrun₁.unique hrun) ▸ hrun₁, ha⟩

/-- **Exact conditions, all along a run.** The condition allows a step from a state that has the
property `P` exactly if the next state has it too and `Q` holds of the step. Then `P` and `Q` hold
all along exactly the runs whose steps it allows. -/
theorem along_iff {P J : σ → Prop} {Q : σ → α → σ → Prop} (hJ : ∀ as s, M.Run Any s₀ as s → J s)
    (h₀ : P s₀) (hstep : ∀ s a s', J s → P s → M.step s a = some s' → (P s' ∧ Q s a s' ↔ G s a))
    (h : M.Run Any s₀ as s) : M.Always P s₀ as ∧ M.Along Q s₀ as ↔ M.Run G s₀ as s := by
  induction h with
  | nil =>
      refine ⟨fun _ => .nil, fun _ => ⟨fun bs s' hinit hrun => ?_, fun bs a s₁ s' hinit => ?_⟩⟩
      · obtain rfl := List.prefix_nil.mp hinit
        rwa [hrun.unique (.nil (G := Any))]
      · simp at hinit
  | @snoc as s s' a hrun _ hs ih =>
      have hrun' : M.Run Any s₀ (as ++ [a]) s' := .snoc hrun trivial hs
      constructor
      · rintro ⟨halways, halong⟩
        have hPs : P s := halways as s (List.prefix_append _ _) hrun
        have hPs' : P s' := halways _ s' (List.prefix_refl _) hrun'
        have hQ : Q s a s' := halong as a s s' (List.prefix_refl _) hrun hs
        have hgood := ih.mp
          ⟨fun bs s₁ hinit => halways bs s₁ (hinit.trans (List.prefix_append _ _)),
          fun bs b s₁ s₂ hinit => halong bs b s₁ s₂ (hinit.trans (List.prefix_append _ _))⟩
        exact .snoc hgood ((hstep _ _ _ (hJ _ _ hrun) hPs hs).mp ⟨hPs', hQ⟩) hs
      · intro hgood
        obtain ⟨s₂, hrun₂, ha, -⟩ := hgood.snoc_inv
        obtain rfl := hrun₂.unique hrun
        obtain ⟨halways, halong⟩ := ih.mpr hrun₂
        have hPs := halways as s₂ (List.prefix_refl _) hrun
        have hlast := (hstep _ _ _ (hJ _ _ hrun) hPs hs).mpr ha
        -- a prefix of the longer run is the whole of it or a prefix of the shorter one
        constructor
        · intro bs s₁ hinit hrun₁
          rcases List.prefix_concat_iff.mp (by simpa using hinit) with heq | hinit
          · subst heq
            rw [hrun₁.unique hrun']
            exact hlast.1
          · exact halways bs s₁ hinit hrun₁
        · intro bs b s₁ s₃ hinit hrun₁ hs₁
          rcases List.prefix_concat_iff.mp (by simpa using hinit) with heq | hinit
          · obtain ⟨rfl, hb⟩ := List.append_inj' heq rfl
            cases hb
            obtain rfl := hrun₁.unique hrun
            rw [hs] at hs₁
            cases hs₁
            exact hlast.2
          · exact halong bs b s₁ s₃ hinit hrun₁ hs₁

/-- The rule for a property of states alone. -/
theorem always_iff {P J : σ → Prop} (hJ : ∀ as s, M.Run Any s₀ as s → J s) (h₀ : P s₀)
    (hstep : ∀ s a s', J s → P s → M.step s a = some s' → (P s' ↔ G s a))
    (h : M.Run Any s₀ as s) : M.Always P s₀ as ↔ M.Run G s₀ as s := by
  have halong : M.Along (fun _ _ _ => True) s₀ as := fun _ _ _ _ _ _ _ => trivial
  rw [← h.along_iff (Q := fun _ _ _ => True) hJ h₀ fun s a s' hJs hPs hs => by
    rw [← hstep s a s' hJs hPs hs, and_true]]
  exact ⟨fun halways => ⟨halways, halong⟩, And.left⟩

/-- The rule for a property of steps alone. -/
theorem all_steps_iff {J : σ → Prop} {Q : σ → α → σ → Prop} (hJ : ∀ as s, M.Run Any s₀ as s → J s)
    (hstep : ∀ s a s', J s → M.step s a = some s' → (Q s a s' ↔ G s a))
    (h : M.Run Any s₀ as s) : M.Along Q s₀ as ↔ M.Run G s₀ as s := by
  have halways : M.Always (fun _ => True) s₀ as := fun _ _ _ _ => trivial
  rw [← h.along_iff (P := fun _ => True) (Q := Q) hJ trivial fun s a s' hJs _ hs => by
    rw [true_and, hstep s a s' hJs hs]]
  exact ⟨fun halong => ⟨halways, halong⟩, And.right⟩

/-- **Measures.** Where each step lowers a measure, it bounds the length of a run. -/
theorem length_le {I : σ → Prop} {m : σ → Nat} (h₀ : I s₀)
    (hstep : ∀ s a s', I s → G s a → M.step s a = some s' → I s' ∧ m s' < m s)
    (h : M.Run G s₀ as s) : I s ∧ as.length + m s ≤ m s₀ := by
  induction h with
  | nil => exact ⟨h₀, by simp⟩
  | snoc _ hG hs ih =>
      obtain ⟨hI, hle⟩ := ih
      obtain ⟨hI', hlt⟩ := hstep _ _ _ hI hG hs
      refine ⟨hI', ?_⟩
      rw [List.length_append, List.length_singleton]
      omega

/-- Where each step lowers a measure, some run gets to a state in which no step is left. -/
theorem exists_stuck {I : σ → Prop} {m : σ → Nat}
    (hstep : ∀ s a s', I s → G s a → M.step s a = some s' → I s' ∧ m s' < m s) (h₀ : I s₀) :
    ∃ as s, M.Run G s₀ as s ∧ ∀ a, G s a → M.step s a = none := by
  generalize hn : m s₀ = n
  induction n using Nat.strongRecOn generalizing s₀ with
  | ind n ih =>
      by_cases hstuck : ∀ a, G s₀ a → M.step s₀ a = none
      · exact ⟨[], s₀, .nil, hstuck⟩
      · obtain ⟨a, hstuck⟩ := not_forall.mp hstuck
        obtain ⟨hG, hsome⟩ := Classical.not_imp.mp hstuck
        obtain ⟨s₁, hs⟩ := Option.ne_none_iff_exists'.mp hsome
        obtain ⟨hI, hlt⟩ := hstep _ _ _ h₀ hG hs
        obtain ⟨as, s, hrun, hend⟩ := ih (m s₁) (hn ▸ hlt) hI rfl
        exact ⟨[a] ++ as, s, (Run.single hG hs).append hrun, hend⟩

end Run

variable (M)

/-- Run a list of actions from a state; `none` as soon as one of them is not enabled. -/
def exec : σ → List α → Option σ
  | s, [] => some s
  | s, a :: as => (M.step s a).bind fun s' => exec s' as

variable {M}

/-- An evaluated run of actions that are all allowed. -/
theorem exec_run_of (hG : ∀ a ∈ as, ∀ s, G s a) (h : M.exec s₀ as = some s) :
    M.Run G s₀ as s := by
  induction as generalizing s₀ with
  | nil =>
      obtain rfl : s₀ = s := by simpa [exec] using h
      exact .nil
  | cons a as ih =>
      obtain ⟨s₁, hstep, hrest⟩ : ∃ s₁, M.step s₀ a = some s₁ ∧ M.exec s₁ as = some s := by
        simpa [exec, Option.bind_eq_some_iff] using h
      exact Run.append (.single (hG a List.mem_cons_self s₀) hstep)
        (ih (fun b hb => hG b (List.mem_cons_of_mem _ hb)) hrest)

/-- **An evaluated run is a run.** -/
theorem exec_run (h : M.exec s₀ as = some s) : M.Run Any s₀ as s :=
  exec_run_of (fun _ _ _ => trivial) h

/-- Running the actions of a run leads to its end. -/
theorem Run.exec (h : M.Run G s₀ as s) : M.exec s₀ as = some s := by
  have happend : ∀ (bs : List α) (s₁ : σ) {s₂ s₃ : σ} {a : α}, M.exec s₁ bs = some s₂ →
      M.step s₂ a = some s₃ → M.exec s₁ (bs ++ [a]) = some s₃ := by
    intro bs
    induction bs with
    | nil =>
        intro s₁ s₂ s₃ a hexec hstep
        obtain rfl : s₁ = s₂ := by simpa [Machine.exec] using hexec
        simp [Machine.exec, hstep]
    | cons b bs ih =>
        intro s₁ s₂ s₃ a hexec hstep
        obtain ⟨s₄, hstep', hrest⟩ := Option.bind_eq_some_iff.mp hexec
        simpa [Machine.exec, hstep'] using ih s₄ hrest hstep
  induction h with
  | nil => rfl
  | snoc _ _ hstep ih => exact happend _ _ ih hstep

end Machine

end Asgiref
