import Mathlib.Data.List.Basic

/-! # Computations that return or raise, and leave a trace

What a computation comes to: a value or an exception, and what it showed on its way. Nothing here is
about any particular program.

* **`Traced`** — such a computation; **`after`** puts a trace before its own, **`bind`** goes on
  where it has returned, and **`handle`** where it has raised.
* **`Departs`** — two computations show the same up to a point at which both show something, and not
  the same.
* **`Exact`** — the rule of two computations that are equal under a condition and depart otherwise:
  `bind` and `handle` keep it, and **`Exact.eq_iff`** makes the condition exact. -/

namespace Asgiref

/-- What a computation comes to: its result and its trace. -/
structure Traced (ε ω α : Type) where
  result : Except ε α
  trace : List ω

namespace Traced

variable {ε ω α β : Type} {t t' : Traced ε ω α} {G : Prop}

/-- The computation, after something else has been shown. -/
def after (t : Traced ε ω α) (l : List ω) : Traced ε ω α := { t with trace := l ++ t.trace }

/-- Go on with the value. -/
def bind (t : Traced ε ω α) (next : α → Traced ε ω β) : Traced ε ω β :=
  match t.result with
  | .ok v => (next v).after t.trace
  | .error e => ⟨.error e, t.trace⟩

/-- Go on with the exception. -/
def handle (t : Traced ε ω α) (handler : ε → Traced ε ω α) : Traced ε ω α :=
  match t.result with
  | .ok _ => t
  | .error e => (handler e).after t.trace

theorem bind_ok {v : α} (h : t.result = .ok v) (next : α → Traced ε ω β) :
    t.bind next = (next v).after t.trace := by
  unfold bind
  rw [h]

theorem bind_error {e : ε} (h : t.result = .error e) (next : α → Traced ε ω β) :
    t.bind next = ⟨.error e, t.trace⟩ := by
  unfold bind
  rw [h]

theorem handle_ok {v : α} (h : t.result = .ok v) (handler : ε → Traced ε ω α) :
    t.handle handler = t := by
  unfold handle
  rw [h]

theorem handle_error {e : ε} (h : t.result = .error e) (handler : ε → Traced ε ω α) :
    t.handle handler = (handler e).after t.trace := by
  unfold handle
  rw [h]

theorem exists_bind_trace (t : Traced ε ω α) (next : α → Traced ε ω β) :
    ∃ l, (t.bind next).trace = t.trace ++ l := by
  cases h : t.result with
  | ok v => exact ⟨(next v).trace, by rw [bind_ok h]; rfl⟩
  | error e => exact ⟨[], by rw [bind_error h, List.append_nil]⟩

theorem exists_handle_trace (t : Traced ε ω α) (handler : ε → Traced ε ω α) :
    ∃ l, (t.handle handler).trace = t.trace ++ l := by
  cases h : t.result with
  | ok v => exact ⟨[], by rw [handle_ok h, List.append_nil]⟩
  | error e => exact ⟨(handler e).trace, by rw [handle_error h]; rfl⟩

/-! ## Computations that depart -/

/-- The traces are the same up to a point at which both go on, and not in the same way. -/
def Departs (t t' : Traced ε ω α) : Prop :=
  ∃ l a b r r', a ≠ b ∧ t.trace = l ++ a :: r ∧ t'.trace = l ++ b :: r'

theorem Departs.ne (h : Departs t t') : t ≠ t' := by
  rintro rfl
  obtain ⟨l, a, b, r, r', hne, ht, ht'⟩ := h
  rw [ht] at ht'
  exact hne (List.cons.inj (List.append_cancel_left ht')).1

/-- Longer traces depart where their first parts do. -/
theorem Departs.extend {u u' : Traced ε ω β} (h : Departs t t')
    (hu : ∃ l, u.trace = t.trace ++ l) (hu' : ∃ l, u'.trace = t'.trace ++ l) : Departs u u' := by
  obtain ⟨l, a, b, r, r', hne, ht, ht'⟩ := h
  obtain ⟨m, hu⟩ := hu
  obtain ⟨m', hu'⟩ := hu'
  refine ⟨l, a, b, r ++ m, r' ++ m', hne, ?_, ?_⟩
  · rw [hu, ht, List.append_assoc, List.cons_append]
  · rw [hu', ht', List.append_assoc, List.cons_append]

theorem Departs.after (h : Departs t t') (l : List ω) : Departs (t.after l) (t'.after l) := by
  obtain ⟨m, a, b, r, r', hne, ht, ht'⟩ := h
  refine ⟨l ++ m, a, b, r, r', hne, ?_, ?_⟩
  · rw [List.append_assoc, ← ht]
    rfl
  · rw [List.append_assoc, ← ht']
    rfl

/-- They depart at once. -/
theorem departs_cons {a b : ω} (h : a ≠ b) : Departs (t.after [a]) (t'.after [b]) :=
  ⟨[], a, b, t.trace, t'.trace, h, rfl, rfl⟩

/-! ## Exact conditions -/

/-- The computations are equal if `G` holds, and depart otherwise. -/
structure Exact (G : Prop) (t t' : Traced ε ω α) : Prop where
  eq : G → t = t'
  departs : ¬ G → Departs t t'

namespace Exact

theorem eq_iff (h : Exact G t t') : t = t' ↔ G := by
  refine ⟨fun heq => ?_, h.eq⟩
  by_contra hG
  exact (h.departs hG).ne heq

theorem refl (t : Traced ε ω α) : Exact True t t := ⟨fun _ => rfl, fun h => absurd trivial h⟩

theorem after (h : Exact G t t') (l : List ω) : Exact G (t.after l) (t'.after l) :=
  ⟨fun hG => by rw [h.eq hG], fun hG => (h.departs hG).after l⟩

/-- What the computations show first, and what comes after. -/
theorem cons {a b : ω} (h : a = b → Exact G t t') :
    Exact (a = b ∧ G) (t.after [a]) (t'.after [b]) := by
  by_cases hab : a = b
  · subst hab
    obtain ⟨heq, hdeparts⟩ := (h rfl).after [a]
    exact ⟨fun hG => heq hG.2, fun hG => hdeparts fun hG' => hG ⟨rfl, hG'⟩⟩
  · exact ⟨fun hG => absurd hG.1 hab, fun _ => departs_cons hab⟩

theorem bind {H : α → Prop} {next next' : α → Traced ε ω β} (h : Exact G t t')
    (hnext : ∀ v, t.result = .ok v → Exact (H v) (next v) (next' v)) :
    Exact (G ∧ ∀ v, t.result = .ok v → H v) (t.bind next) (t'.bind next') := by
  by_cases hG : G
  · obtain rfl := h.eq hG
    cases hresult : t.result with
    | ok v =>
        rw [bind_ok hresult, bind_ok hresult]
        obtain ⟨heq, hdeparts⟩ := (hnext v hresult).after t.trace
        constructor
        · intro hH
          exact heq (hH.2 v rfl)
        · intro hnot
          refine hdeparts fun hv => hnot ⟨hG, fun v' hv' => ?_⟩
          cases hv'
          exact hv
    | error e =>
        rw [bind_error hresult, bind_error hresult]
        refine ⟨fun _ => rfl, fun hnot => absurd ⟨hG, fun v hv => ?_⟩ hnot⟩
        cases hv
  · refine ⟨fun hboth => absurd hboth.1 hG, fun _ => ?_⟩
    exact (h.departs hG).extend (exists_bind_trace t next) (exists_bind_trace t' next')

theorem handle {H : ε → Prop} {handler handler' : ε → Traced ε ω α} (h : Exact G t t')
    (hhandler : ∀ e, t.result = .error e → Exact (H e) (handler e) (handler' e)) :
    Exact (G ∧ ∀ e, t.result = .error e → H e) (t.handle handler) (t'.handle handler') := by
  by_cases hG : G
  · obtain rfl := h.eq hG
    cases hresult : t.result with
    | ok v =>
        rw [handle_ok hresult, handle_ok hresult]
        refine ⟨fun _ => rfl, fun hnot => absurd ⟨hG, fun e he => ?_⟩ hnot⟩
        cases he
    | error e =>
        rw [handle_error hresult, handle_error hresult]
        obtain ⟨heq, hdeparts⟩ := (hhandler e hresult).after t.trace
        constructor
        · intro hH
          exact heq (hH.2 e rfl)
        · intro hnot
          refine hdeparts fun he => hnot ⟨hG, fun e' he' => ?_⟩
          cases he'
          exact he
  · refine ⟨fun hboth => absurd hboth.1 hG, fun _ => ?_⟩
    exact (h.departs hG).extend (exists_handle_trace t handler) (exists_handle_trace t' handler')

end Exact

end Traced

end Asgiref
