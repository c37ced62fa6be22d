import Asgiref.Local

/-! # What a crossing does to a context

Every bridge call moves a context to another thread by `_restore_context`, into a context that has
no variable the moved one lacks. For a lawful comparison, and as long as no foreign variable of the
name `cvarName` holds a tuple and no variable that is not set there is moved with its default, the
outcome is always the same: the moved context, with all `Local` storage owned by the thread it came
to.

* **`Moved`** — that outcome, and **`exists_restoreContext`**, that restoring reaches it.
* **`Crossing`** — a context that is restored, and where; `Crossing.Plain` says the above of it.
* **`OwnedBy`** — all `Local` storage of a context belongs to one thread; `Moved.ownedBy` and
  `Moved.view` say that a crossing keeps it so and shows the same data on the other side. -/

namespace Asgiref

open Local

/-- All `Local` storage in the context belongs to the thread with this ident. -/
def OwnedBy (i : Nat) (c : Context) : Prop := ∀ l s, storage c l = some s → s.owner = i

/-- No variable of other code that bears the name `cvarName` holds a tuple. -/
def NoForeignTuple (c : Context) : Prop :=
  ∀ id v, c.lookup (ContextVar.user cvarName id) = some v → Value.isTuple v = false

/-- A tuple in a variable of other code that bears the name `cvarName`. -/
def isForeignTuple : Sigma ContextVar.Val → Bool
  | ⟨.user name _, v⟩ => name = cvarName && Value.isTuple v
  | ⟨.cvar _, _⟩ | ⟨.critical .., _⟩ => false

/-- A context has finitely many entries to look through. -/
theorem noForeignTuple_iff {c : Context} :
    NoForeignTuple c ↔ ∀ entry ∈ c.entries, isForeignTuple entry = false := by
  constructor
  · rintro h ⟨x, v⟩ hmem
    cases x with
    | user name id =>
        by_cases hname : name = cvarName
        · subst hname
          have hlookup := h id v (AList.mem_lookup_iff.mpr hmem)
          simp [isForeignTuple, hlookup]
        · simp [isForeignTuple, hname]
    | cvar l => rfl
    | critical l t => rfl
  · intro h id v hv
    simpa [isForeignTuple] using h _ (AList.mem_lookup_iff.mp hv)

instance (c : Context) : Decidable (NoForeignTuple c) := decidable_of_iff _ noForeignTuple_iff.symm

/-- A context that is restored, and the one that it is restored in. -/
structure Crossing where
  moved : Context
  current : Context

/-- `_restore_context` takes nothing in the moved context for the storage of a `Local` that is not,
and takes no variable for unchanged that is not set: none has its default as the value moved. -/
structure Crossing.Plain (crossing : Crossing) : Prop where
  noTuple : NoForeignTuple crossing.moved
  noDefault : ∀ x v, crossing.moved.lookup x = some v → crossing.current.lookup x = none →
    x.default ≠ some v

instance : DecidablePred Crossing.Plain := fun crossing =>
  decidable_of_iff (NoForeignTuple crossing.moved ∧ ∀ entry ∈ crossing.moved.entries,
      crossing.current.lookup entry.1 = none → entry.1.default ≠ some entry.2)
    ⟨fun h => ⟨h.1, fun x v hv => h.2 ⟨x, v⟩ (AList.mem_lookup_iff.mp hv)⟩,
      fun h => ⟨h.noTuple, fun entry hmem =>
        h.noDefault entry.1 entry.2 (AList.mem_lookup_iff.mpr hmem)⟩⟩

/-- Every variable set in `c` is set in `d`. -/
def Covers (d c : Context) : Prop := ∀ x, (c.lookup x).isSome → (d.lookup x).isSome

/-- `c` is `moved` with all its `Local` storage owned by the thread with ident `i`. -/
structure Moved (i : Nat) (moved c : Context) : Prop where
  other : ∀ x, (∀ l, x ≠ .cvar l) → c.lookup x = moved.lookup x
  storage : ∀ l, storage c l = (storage moved l).map fun s => ⟨i, s.data⟩

theorem Moved.user {i : Nat} {moved c : Context} (h : Moved i moved c) (name : String)
    (id : VarId) : c.lookup (ContextVar.user name id) = moved.lookup (ContextVar.user name id) :=
  h.other (.user name id) fun _ heq => by cases heq

theorem Covers.refl (c : Context) : Covers c c := fun _ h => h

theorem Covers.empty (c : Context) : Covers c ∅ := fun _ h => by simp at h

theorem Covers.trans {c d e : Context} (h : Covers d c) (h' : Covers e d) : Covers e c :=
  fun x hx => h' x (h x hx)

theorem Covers.insert (c : Context) (x : ContextVar) (v : x.Val) : Covers (c.insert x v) c := by
  intro y hy
  by_cases heq : y = x
  · subst heq
    rw [AList.lookup_insert]
    rfl
  · rwa [AList.lookup_insert_ne heq]

theorem OwnedBy.empty (i : Nat) : OwnedBy i ∅ := fun l s hs => by simp [storage] at hs

/-- A value of another variable moves as it is, a tuple under the name `cvarName` apart. -/
theorem movedValue_user {i : Nat} {name : String} {id : VarId} {v : Value}
    (h : name = cvarName → Value.isTuple v = false) :
    movedValue i (ContextVar.user name id) v = .ok v := by
  cases v with
  | obj o => rfl
  | tuple items =>
      have hname : name ≠ cvarName := fun hname => by simpa [Value.isTuple] using h hname
      simp [movedValue, hname]

/-- Every variable of a context without foreign tuples can be moved, and only `Local` storage
changes. -/
theorem exists_movedValue {c : Context} (hplain : NoForeignTuple c) (i : Nat) :
    ∀ x v, c.lookup x = some v →
      ∃ cvalue, movedValue i x v = .ok cvalue ∧ ((∀ l, x ≠ .cvar l) → cvalue = v)
  | .cvar l, storage, _ => ⟨Storage.rehome i storage, rfl, fun h => absurd rfl (h l)⟩
  | .critical _ _, data, _ => ⟨data, rfl, fun _ => rfl⟩
  | .user name id, v, hv =>
      ⟨v, movedValue_user fun hname => hplain id v (by subst hname; exact hv), fun _ => rfl⟩

/-- **A crossing reaches `Moved`.** Restoring a context into one that it covers succeeds, and leaves
the moved context, owned by the current thread. -/
theorem exists_restoreContext {ne : Comparison} (hne : ne.Lawful) (i : Nat)
    {current moved : Context} (hcovers : Covers moved current)
    (hplain : Crossing.Plain ⟨moved, current⟩) :
    ∃ c, restoreContext ne i current moved = (c, none) ∧ Moved i moved c := by
  obtain ⟨c, hc⟩ := restoreContext_ok hne current moved fun x v hv =>
    have ⟨cvalue, hmoved, _⟩ := exists_movedValue hplain.noTuple i x v hv
    ⟨cvalue, hmoved⟩
  have hleft : (restoreContext ne i current moved).1 = c := by rw [hc]
  refine ⟨c, hc, ?_, ?_⟩
  · intro x hx
    cases hv : moved.lookup x with
    | some v =>
        obtain ⟨cvalue, hmoved, hsame⟩ := exists_movedValue hplain.noTuple i x v hv
        obtain rfl := hsame hx
        obtain ⟨cvalue', hmoved', hlookup⟩ := lookup_restoreContext_at (hne x) hc hv
          fun hunset cvalue' hmoved' => by
            rw [hmoved] at hmoved'
            cases hmoved'
            exact hplain.noDefault x _ hv hunset
        rw [hmoved] at hmoved'
        cases hmoved'
        exact hlookup
    | none =>
        rw [← hleft, lookup_restoreContext_none ne i hv]
        by_contra hcurrent
        have hsome := hcovers _ (Option.isSome_iff_ne_none.mpr hcurrent)
        simp [hv] at hsome
  · intro l
    cases hs : storage moved l with
    | some s => exact storage_restoreContext hne hc hs
    | none =>
        rw [← hleft, storage_restoreContext_none ne hs, Option.map_none]
        by_contra hcurrent
        have hsome := hcovers (.cvar l) (Option.isSome_iff_ne_none.mpr hcurrent)
        rw [show moved.lookup (ContextVar.cvar l) = none from hs] at hsome
        cases hsome

namespace Moved

variable {i j : Nat} {moved c : Context}

theorem ownedBy (h : Moved i moved c) : OwnedBy i c := by
  intro l s hs
  rw [h.storage] at hs
  obtain ⟨s', -, rfl⟩ := Option.map_eq_some_iff.mp hs
  rfl

/-- The thread that a context came to sees what the thread that owned it saw. -/
theorem view (h : Moved i moved c) (howned : OwnedBy j moved) (l : Nat) :
    Local.view i c l = Local.view j moved l := by
  unfold Local.view
  rw [h.storage]
  cases hs : Local.storage moved l with
  | none => rfl
  | some s => simp [howned l s hs]

theorem covers (h : Moved i moved c) : Covers c moved := by
  intro x hx
  by_cases hcvar : ∃ l, x = .cvar l
  · obtain ⟨l, rfl⟩ := hcvar
    have hstorage : (Local.storage c l).isSome := by
      rw [h.storage, Option.isSome_map]
      exact hx
    exact hstorage
  · rwa [h.other x fun l heq => hcvar ⟨l, heq⟩]

end Moved

/-- What a thread sees of a `Local` it owns is what is stored. -/
theorem OwnedBy.view {i : Nat} {c : Context} (h : OwnedBy i c) (l : Nat) :
    Local.view i c l = ((storage c l).map Storage.data).getD ∅ := by
  unfold Local.view
  cases hs : storage c l with
  | none => rfl
  | some s => simp [h l s hs]

theorem OwnedBy.setStorage {i : Nat} {c : Context} (h : OwnedBy i c) (l : Nat) (data : Dict) :
    OwnedBy i (setStorage c l ⟨i, data⟩) := by
  intro l' s hs
  by_cases hl : l' = l
  · subst hl
    rw [storage_setStorage_self] at hs
    exact (Option.some.inj hs) ▸ rfl
  · rw [storage_setStorage_ne c _ hl] at hs
    exact h l' s hs

end Asgiref
