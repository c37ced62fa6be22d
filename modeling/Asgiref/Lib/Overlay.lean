import Mathlib.Data.List.AList

/-! # Overlaying one finite map on another

A loop goes through the entries of one map. Each turn looks at what another map has for the same
key, and sets it there, leaves it, or raises. Nothing here is about what the turns do:

* **`Turn`**, **`run`** — what a turn does for a key, and the loop.
* **`lookup_run`**, **`run_none_iff`**, **`exists_of_run`** — since every key has one turn, what the
  loop leaves for a key, and whether and what it raises, is told by the map as it was before it.
* **`mapValues`**, **`run_mapValues`** — a loop over values simulates a loop over what stands for
  them. -/

namespace Asgiref

namespace Overlay

universe u v w

variable {α : Type u} [DecidableEq α] {β γ : α → Type v} {ε : Type w}

/-- What a turn does for a key, given the value that is there: it sets another one, leaves it as it
is, or raises. -/
abbrev Turn (β : α → Type v) (ε : Type w) := (x : α) → Option (β x) → β x → Except ε (Option (β x))

/-- The loop: the map that it leaves, and the exception that ended it early. -/
def run (turn : Turn β ε) (current : AList β) : List (Sigma β) → AList β × Option ε
  | [] => (current, none)
  | entry :: rest =>
      match turn entry.1 (current.lookup entry.1) entry.2 with
      | .ok (some w) => run turn (current.insert entry.1 w) rest
      | .ok none => run turn current rest
      | .error e => (current, some e)

variable {turn : Turn β ε} {c : AList β} {entries rest : List (Sigma β)} {entry : Sigma β}
  {x : α} {v : β x}

theorem run_cons_set {w : β entry.1}
    (h : turn entry.1 (c.lookup entry.1) entry.2 = .ok (some w)) :
    run turn c (entry :: rest) = run turn (c.insert entry.1 w) rest := by
  simp only [run, h]

theorem run_cons_left (h : turn entry.1 (c.lookup entry.1) entry.2 = .ok none) :
    run turn c (entry :: rest) = run turn c rest := by
  simp only [run, h]

theorem run_cons_error {e : ε} (h : turn entry.1 (c.lookup entry.1) entry.2 = .error e) :
    run turn c (entry :: rest) = (c, some e) := by
  simp only [run, h]

/-- A key without an entry is untouched. -/
theorem lookup_run_notMem (turn : Turn β ε) (c : AList β) (hx : x ∉ entries.keys) :
    (run turn c entries).1.lookup x = c.lookup x := by
  induction entries generalizing c with
  | nil => rfl
  | cons entry rest ih =>
      rw [List.keys_cons, List.mem_cons, not_or] at hx
      unfold run
      split
      · rw [ih _ hx.2, AList.lookup_insert_ne hx.1]
      · exact ih c hx.2
      · rfl

/-- What a turn does depends on its own key only, so that a turn before it changes nothing. -/
theorem lookup_insert_of_mem (hnodup : entry.1 ∉ rest.keys) {e : Sigma β} (he : e ∈ rest)
    (w : β entry.1) :
    (c.insert entry.1 w).lookup e.1 = c.lookup e.1 :=
  AList.lookup_insert_ne fun heq => hnodup (heq ▸ List.mem_keys_of_mem he)

/-- **What the loop leaves** for a key: what its turn sets, or what was there, if the turn sets
nothing or is not reached. -/
theorem lookup_run (turn : Turn β ε) (c : AList β) (hnodup : entries.NodupKeys)
    (hx : ⟨x, v⟩ ∈ entries) :
    (run turn c entries).1.lookup x = c.lookup x ∧
        ((run turn c entries).2 = none → turn x (c.lookup x) v = .ok none) ∨
      ∃ w, turn x (c.lookup x) v = .ok (some w) ∧ (run turn c entries).1.lookup x = some w := by
  induction entries generalizing c with
  | nil => cases hx
  | cons entry rest ih =>
      rw [List.nodupKeys_cons] at hnodup
      unfold run
      rcases List.mem_cons.mp hx with rfl | hmem
      · -- its own turn; the later ones are for other keys
        split
        · rename_i w hset
          exact .inr ⟨w, hset, by rw [lookup_run_notMem _ _ hnodup.1, AList.lookup_insert]⟩
        · rename_i hleft
          exact .inl ⟨lookup_run_notMem _ _ hnodup.1, fun _ => hleft⟩
        · exact .inl ⟨rfl, fun hnone => by cases hnone⟩
      · split
        · rename_i w hset
          have hlater := ih (c.insert entry.1 w) hnodup.2 hmem
          rwa [lookup_insert_of_mem hnodup.1 hmem] at hlater
        · exact ih c hnodup.2 hmem
        · exact .inl ⟨rfl, fun hnone => by cases hnone⟩

/-- **When the loop reaches its end**: where no turn raises. -/
theorem run_none_iff (hnodup : entries.NodupKeys) :
    (run turn c entries).2 = none ↔
      ∀ entry ∈ entries, ∀ e, turn entry.1 (c.lookup entry.1) entry.2 ≠ .error e := by
  induction entries generalizing c with
  | nil => simp [run]
  | cons entry rest ih =>
      rw [List.nodupKeys_cons] at hnodup
      unfold run
      rw [List.forall_mem_cons]
      split
      · rename_i w hset
        have hturn : ∀ e, turn entry.1 (c.lookup entry.1) entry.2 ≠ .error e := by
          rw [hset]
          exact nofun
        rw [ih hnodup.2, and_iff_right hturn]
        refine forall₂_congr fun e he => ?_
        rw [lookup_insert_of_mem hnodup.1 he]
      · rename_i hleft
        have hturn : ∀ e, turn entry.1 (c.lookup entry.1) entry.2 ≠ .error e := by
          rw [hleft]
          exact nofun
        rw [ih hnodup.2, and_iff_right hturn]
      · rename_i e herror
        exact ⟨nofun, fun h => absurd herror (h.1 e)⟩

/-- **What the loop raises** is what a turn raises. -/
theorem exists_of_run (hnodup : entries.NodupKeys) {e : ε} (h : (run turn c entries).2 = some e) :
    ∃ entry ∈ entries, turn entry.1 (c.lookup entry.1) entry.2 = .error e := by
  induction entries generalizing c with
  | nil => cases h
  | cons entry rest ih =>
      rw [List.nodupKeys_cons] at hnodup
      unfold run at h
      split at h
      · rename_i w hset
        obtain ⟨entry', hmem, herror⟩ := ih hnodup.2 h
        rw [lookup_insert_of_mem hnodup.1 hmem] at herror
        exact ⟨entry', List.mem_cons_of_mem _ hmem, herror⟩
      · obtain ⟨entry', hmem, herror⟩ := ih hnodup.2 h
        exact ⟨entry', List.mem_cons_of_mem _ hmem, herror⟩
      · rename_i e' herror
        cases h
        exact ⟨entry, List.mem_cons_self, herror⟩

/-! ## What stands for the values -/

/-- The map with another value for each key. -/
def mapValues (f : (x : α) → β x → γ x) (m : AList β) : AList γ where
  entries := m.entries.map (.map id f)
  nodupKeys := m.nodupKeys.map₂ f m.entries

@[simp] theorem lookup_mapValues (f : (x : α) → β x → γ x) (m : AList β) (x : α) :
    (mapValues f m).lookup x = (m.lookup x).map (f x) :=
  List.dlookup_map₂ x

/-- Two turns that do the same to the values and to what stands for them. -/
def Simulates (f : (x : α) → β x → γ x) (turn : Turn β ε) (turn' : Turn γ ε) : Prop :=
  ∀ x get v, turn' x (get.map (f x)) (f x v) = (turn x get v).map (Option.map (f x))

/-- **The loop over what stands for the values** leaves what stands for what the loop leaves, and
raises the same. -/
theorem run_mapValues {f : (x : α) → β x → γ x} {turn' : Turn γ ε} (h : Simulates f turn turn')
    (c : AList β) {c' : AList γ} (hc : ∀ x, c'.lookup x = (c.lookup x).map (f x)) (entries) :
    (run turn' c' (entries.map (.map id f))).2 = (run turn c entries).2 ∧
      ∀ x, (run turn' c' (entries.map (.map id f))).1.lookup x
        = ((run turn c entries).1.lookup x).map (f x) := by
  induction entries generalizing c c' with
  | nil => exact ⟨rfl, hc⟩
  | cons entry rest ih =>
      have hturn := h entry.1 (c.lookup entry.1) entry.2
      rw [← hc] at hturn
      rw [List.map_cons]
      cases hentry : turn entry.1 (c.lookup entry.1) entry.2 with
      | error e =>
          rw [hentry] at hturn
          rw [run_cons_error hentry, run_cons_error hturn]
          exact ⟨rfl, hc⟩
      | ok r =>
          rw [hentry] at hturn
          cases r with
          | none =>
              rw [run_cons_left hentry, run_cons_left hturn]
              exact ih c hc
          | some w =>
              rw [run_cons_set hentry, run_cons_set hturn]
              refine ih _ fun x => ?_
              by_cases hx : x = entry.1
              · subst hx
                exact (AList.lookup_insert c').trans (by rw [AList.lookup_insert]; rfl)
              · exact (AList.lookup_insert_ne hx).trans
                  (by rw [AList.lookup_insert_ne hx]; exact hc x)

end Overlay

end Asgiref
