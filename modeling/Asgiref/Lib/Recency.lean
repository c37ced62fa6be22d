import Mathlib.Data.List.Nodup
import Mathlib.Order.Lattice

/-! # Recency

A history is the list of the uses of some things, each with the stamp of a clock that runs on. What
is known of a history through the latest stamp of each thing is which of two things was used less
recently. Nothing here is about any particular system.

* **`LessRecent`** — some use of one thing comes after all uses of another, and what further uses
  do to that.
* **`Stamped`** — `last` keeps the latest stamp of all things that were used; a further use keeps it
  up (**`Stamped.snoc`**).
* **`Stamped.lessRecent`** — of two things, the one with the smaller stamp was used less
  recently. -/

namespace Asgiref

variable {ι τ : Type*}

/-- `i` was used, and some use of `j` comes after all uses of `i`. -/
def LessRecent (us : List ι) (i j : ι) : Prop :=
  ∃ xs ys, us = xs ++ j :: ys ∧ i ∈ xs ∧ i ∉ j :: ys

/-- What is used now is used more recently than what was used before. -/
theorem LessRecent.last {us : List ι} {i j : ι} (hi : i ∈ us) (hne : i ≠ j) :
    LessRecent (us ++ [j]) i j :=
  ⟨us, [], rfl, hi, by simpa using hne⟩

/-- A use of anything but `i` leaves `i` the less recent one. -/
theorem LessRecent.snoc {us : List ι} {i j k : ι} (h : LessRecent us i j) (hne : i ≠ k) :
    LessRecent (us ++ [k]) i j := by
  obtain ⟨xs, ys, rfl, hi, hnot⟩ := h
  refine ⟨xs, ys ++ [k], by rw [List.append_assoc, List.cons_append], hi, ?_⟩
  rw [← List.cons_append, List.mem_append, List.mem_singleton]
  exact fun h => h.elim hnot hne

variable [LinearOrder τ]

/-- The stamps of a history grow. -/
def Ticks (us : List (ι × τ)) : Prop := us.Pairwise fun u v => u.2 < v.2

instance (us : List (ι × τ)) : Decidable (Ticks us) :=
  inferInstanceAs (Decidable (us.Pairwise fun u v => u.2 < v.2))

/-- `last` has the latest stamp of each thing that was used. -/
structure Stamped (us : List (ι × τ)) (Used : ι → Prop) (last : ι → τ) : Prop where
  mem : ∀ i, Used i → (i, last i) ∈ us
  used : ∀ u ∈ us, Used u.1
  le : ∀ u ∈ us, u.2 ≤ last u.1

theorem Ticks.left {us vs : List (ι × τ)} (h : Ticks (us ++ vs)) : Ticks us :=
  (List.pairwise_append.mp h).1

variable {us : List (ι × τ)} {Used : ι → Prop} {last : ι → τ}

/-- A further use. -/
theorem Stamped.snoc [DecidableEq ι] (h : Stamped us Used last) {i : ι} {t : τ}
    (hticks : Ticks (us ++ [(i, t)])) :
    Stamped (us ++ [(i, t)]) (fun j => Used j ∨ j = i) (Function.update last i t) := by
  have hlate : ∀ u ∈ us, u.2 < t := fun u hu =>
    (List.pairwise_append.mp hticks).2.2 u hu (i, t) (List.mem_singleton_self _)
  constructor
  · intro j hj
    by_cases hji : j = i
    · subst hji
      rw [Function.update_self]
      exact List.mem_append_right _ (List.mem_singleton_self _)
    · rw [Function.update_of_ne hji]
      exact List.mem_append_left _ (h.mem j (hj.resolve_right hji))
  · intro u hu
    rcases List.mem_append.mp hu with hu | hu
    · exact .inl (h.used u hu)
    · obtain rfl := List.mem_singleton.mp hu
      exact .inr rfl
  · intro u hu
    rcases List.mem_append.mp hu with hu | hu
    · by_cases hui : u.1 = i
      · rw [hui, Function.update_self]
        exact (hlate u hu).le
      · rw [Function.update_of_ne hui]
        exact h.le u hu
    · obtain rfl := List.mem_singleton.mp hu
      rw [Function.update_self]

/-- No two things have the same latest stamp. -/
theorem Stamped.injective (h : Stamped us Used last) (hticks : Ticks us) {i j : ι} (hi : Used i)
    (hj : Used j) (heq : last i = last j) : i = j := by
  have hnodup : (us.map Prod.snd).Nodup :=
    List.pairwise_map.mpr (hticks.imp fun hlt => hlt.ne)
  exact congrArg Prod.fst (List.inj_on_of_nodup_map hnodup (h.mem i hi) (h.mem j hj) heq)

/-- **Of two things, the one with the smaller stamp was used less recently.** -/
theorem Stamped.lessRecent (h : Stamped us Used last) (hticks : Ticks us) {i j : ι} (hi : Used i)
    (hj : Used j) (hle : last i ≤ last j) (hne : i ≠ j) : LessRecent (us.map Prod.fst) i j := by
  have hlt : last i < last j := lt_of_le_of_ne hle fun heq => hne (h.injective hticks hi hj heq)
  obtain ⟨xs, ys, hus⟩ := List.append_of_mem (h.mem j hj)
  have hpair := hticks
  rw [Ticks, hus, List.pairwise_append, List.pairwise_cons] at hpair
  obtain ⟨-, ⟨hafter, -⟩, -⟩ := hpair
  -- from the last use of `j` on, the stamps are too late for `i`
  have hlate : ∀ u ∈ (j, last j) :: ys, u.1 ≠ i := by
    intro u hu hui
    have hlast := h.le u (by rw [hus]; exact List.mem_append_right _ hu)
    rw [hui] at hlast
    rcases List.mem_cons.mp hu with rfl | hu
    · exact absurd hlt (not_lt.mpr hlast)
    · exact absurd (hafter u hu) (not_lt.mpr (hlast.trans hle))
  refine ⟨xs.map Prod.fst, ys.map Prod.fst, by rw [hus, List.map_append, List.map_cons], ?_, ?_⟩
  · have hmem := h.mem i hi
    rw [hus] at hmem
    rcases List.mem_append.mp hmem with hmem | hmem
    · exact List.mem_map_of_mem hmem
    · exact absurd rfl (hlate _ hmem)
  · rw [show j :: ys.map Prod.fst = ((j, last j) :: ys).map Prod.fst from rfl, List.mem_map]
    rintro ⟨u, hu, hui⟩
    exact hlate u hu hui

end Asgiref
