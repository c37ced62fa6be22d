import Asgiref.Crossing
import Asgiref.Lib.Machine

/-! # Independent maps: what a `Local` is to mean

In the specification every context holds, for each non-thread-critical `Local`, an owner and a map
of its own. Nothing is shared: copying a context and moving its variables duplicate the pairs.

* **`Pair.read`**, **`Pair.write`**, **`Pair.delete`** — the accessors on one pair.
* **`move`** — `_restore_context`: the current thread becomes the owner of a duplicate of each pair.
* **`Entered`** — which contexts the threads have entered; a context is entered by one at a time.
* **`Event`**, **`specification`** — the operations with their results, and the machine of them.
* **`pairs_setattr`**, **`pairs_delattr`**, **`read_pairs`**, **`pairs_restoreContext`** — the
  accessors and `_restore_context` as they are modelled on contexts are those of the
  specification. -/

namespace Asgiref.CopyOnWrite

/-- The attributes of a `Local` and their values. -/
abbrev Attributes := String → Option Obj

/-- The owner and the attributes of a `Local` in a context. -/
abbrev Pair := Nat × Attributes

/-- What a context holds for each `Local`. -/
abbrev Pairs := Nat → Option Pair

namespace Pair

/-- The attributes that thread `t` sees: those of another thread count as unset. -/
def visible (t : Nat) : Option Pair → Attributes
  | some (owner, attributes) => if owner = t then attributes else fun _ => none
  | none => fun _ => none

/-- Reading an attribute. -/
def read (t : Nat) (pair : Option Pair) (key : String) : Except PyError Obj :=
  match visible t pair key with
  | some o => .ok o
  | none => .error (.attributeError key)

/-- Writing an attribute makes the thread the owner. -/
def write (t : Nat) (pair : Option Pair) (key : String) (value : Obj) : Pair :=
  (t, Function.update (visible t pair) key (some value))

/-- Deleting an attribute. -/
def delete (t : Nat) (pair : Option Pair) (key : String) : Except PyError Pair :=
  match visible t pair key with
  | some _ => .ok (t, Function.update (visible t pair) key none)
  | none => .error (.attributeError key)

end Pair

/-- `_restore_context`: the pairs of the moved context, owned by thread `t`, over its own. -/
def move (t : Nat) (moved own : Pairs) : Pairs := fun l =>
  match moved l with
  | some (_, attributes) => some (t, attributes)
  | none => own l

/-- The contexts that are entered, and those that each thread is in, innermost first. -/
structure Entered where
  isEntered : Nat → Bool
  stack : Nat → List Nat

namespace Entered

/-- No context is entered. -/
def init : Entered := ⟨fun _ => false, fun _ => []⟩

/-- The start of `Context.run`. -/
def enter (entered : Entered) (t c : Nat) : Entered :=
  ⟨Function.update entered.isEntered c true,
    Function.update entered.stack t (c :: entered.stack t)⟩

/-- The end of `Context.run`, in the innermost context `c` of thread `t`. -/
def leave (entered : Entered) (t c : Nat) : Entered :=
  ⟨Function.update entered.isEntered c false,
    Function.update entered.stack t (entered.stack t).tail⟩

/-- A context is in one stack, once, and then it is entered. -/
structure Exclusive (entered : Entered) : Prop where
  nodup : ∀ t, (entered.stack t).Nodup
  thread : ∀ t t' c, c ∈ entered.stack t → c ∈ entered.stack t' → t = t'
  isEntered : ∀ t c, c ∈ entered.stack t → entered.isEntered c = true

theorem exclusive_init : init.Exclusive where
  nodup _ := .nil
  thread t t' c h := by cases h
  isEntered t c h := by cases h

variable {entered : Entered} {t t' c c' : Nat}

theorem mem_stack_enter : c' ∈ (entered.enter t c).stack t' ↔
    (t' = t ∧ c' = c) ∨ c' ∈ entered.stack t' := by
  simp only [enter, Function.update_apply]
  split
  · rename_i ht
    subst ht
    simp
  · rename_i ht
    simp [ht]

theorem Exclusive.enter (h : entered.Exclusive) (t : Nat) (hc : entered.isEntered c = false) :
    (entered.enter t c).Exclusive := by
  have hnot : ∀ t, c ∉ entered.stack t := fun t hmem => by
    rw [h.isEntered t c hmem] at hc
    cases hc
  constructor
  · intro t'
    simp only [Entered.enter, Function.update_apply]
    split
    · exact List.nodup_cons.mpr ⟨hnot t, h.nodup t⟩
    · exact h.nodup t'
  · intro t₁ t₂ c' h₁ h₂
    rw [mem_stack_enter] at h₁ h₂
    rcases h₁ with ⟨rfl, rfl⟩ | h₁
    · rcases h₂ with ⟨rfl, -⟩ | h₂
      · rfl
      · exact absurd h₂ (hnot t₂)
    · rcases h₂ with ⟨rfl, rfl⟩ | h₂
      · exact absurd h₁ (hnot t₁)
      · exact h.thread t₁ t₂ c' h₁ h₂
  · intro t' c' hmem
    simp only [Entered.enter, Function.update_apply]
    split
    · rfl
    · rename_i hc'
      rw [mem_stack_enter] at hmem
      exact h.isEntered t' c' (hmem.resolve_left fun heq => hc' heq.2)

theorem Exclusive.leave (h : entered.Exclusive) {rest : List Nat}
    (hstack : entered.stack t = c :: rest) : (entered.leave t c).Exclusive := by
  have hnotRest : c ∉ rest := (List.nodup_cons.mp (hstack ▸ h.nodup t)).1
  have hmem : ∀ t' c', c' ∈ (entered.leave t c).stack t' → c' ∈ entered.stack t' ∧ c' ≠ c := by
    intro t' c' hc'
    simp only [Entered.leave, Function.update_apply] at hc'
    split at hc'
    · rename_i ht
      subst ht
      rw [hstack, List.tail_cons] at hc'
      rw [hstack]
      exact ⟨List.mem_cons_of_mem _ hc', fun heq => hnotRest (heq ▸ hc')⟩
    · rename_i ht
      refine ⟨hc', fun heq => ht ?_⟩
      exact h.thread t' t c (heq ▸ hc') (by rw [hstack]; exact List.mem_cons_self)
  constructor
  · intro t'
    simp only [Entered.leave, Function.update_apply]
    split
    · rw [hstack, List.tail_cons]
      exact (List.nodup_cons.mp (hstack ▸ h.nodup t)).2
    · exact h.nodup t'
  · intro t₁ t₂ c' h₁ h₂
    exact h.thread t₁ t₂ c' (hmem t₁ c' h₁).1 (hmem t₂ c' h₂).1
  · intro t' c' hc'
    obtain ⟨hold, hne⟩ := hmem t' c' hc'
    simp only [Entered.leave, Function.update_apply, if_neg hne]
    exact h.isEntered t' c' hold

end Entered

/-- The operations, with what they return or raise. -/
inductive Event
  /-- A context is made, empty or as a copy of another. -/
  | create (c : Nat) (source : Option Nat)
  /-- Thread `t` enters context `c`, or is told that it is already entered. -/
  | enter (t c : Nat) (ok : Bool)
  | leave (t : Nat)
  | getattr (t l : Nat) (key : String) (result : Except PyError Obj)
  | setattr (t l : Nat) (key : String) (value : Obj)
  | delattr (t l : Nat) (key : String) (result : Except PyError Unit)
  /-- Thread `t` calls `_restore_context` on context `c`. -/
  | restore (t c : Nat)
  deriving DecidableEq

/-- The state of the specification. -/
structure Spec where
  context : Nat → Option Pairs
  entered : Entered

namespace Spec

/-- No context has been made yet. -/
def init : Spec := ⟨fun _ => none, .init⟩

/-- The context that thread `t` is in, and what it holds. -/
def current (s : Spec) (t : Nat) : Option (Nat × Pairs) :=
  match s.entered.stack t with
  | [] => none
  | c :: _ => (s.context c).map fun pairs => (c, pairs)

def setContext (s : Spec) (c : Nat) (pairs : Pairs) : Spec :=
  { s with context := Function.update s.context c (some pairs) }

/-- The context `c` of the current thread gets this pair for `l`. -/
def setPair (s : Spec) (c : Nat) (pairs : Pairs) (l : Nat) (pair : Pair) : Spec :=
  s.setContext c (Function.update pairs l (some pair))

/-- One operation: it is possible with the result that the pairs give, and no other. -/
def step (s : Spec) : Event → Option Spec
  | .create c source =>
      match s.context c, source with
      | some _, _ => none
      | none, none => some (s.setContext c fun _ => none)
      | none, some c' => (s.context c').map (s.setContext c)
  | .enter t c ok =>
      if (s.context c).isSome ∧ ok = !s.entered.isEntered c then
        some (if ok then { s with entered := s.entered.enter t c } else s)
      else none
  | .leave t =>
      match s.entered.stack t with
      | [] => none
      | c :: _ => some { s with entered := s.entered.leave t c }
  | .getattr t l key result =>
      match s.current t with
      | none => none
      | some (_, pairs) => if result = Pair.read t (pairs l) key then some s else none
  | .setattr t l key value =>
      match s.current t with
      | none => none
      | some (c, pairs) => some (s.setPair c pairs l (Pair.write t (pairs l) key value))
  | .delattr t l key result =>
      match s.current t with
      | none => none
      | some (c, pairs) =>
          match Pair.delete t (pairs l) key, result with
          | .ok pair, .ok () => some (s.setPair c pairs l pair)
          | .error e, .error e' => if e = e' then some s else none
          | _, _ => none
  | .restore t c =>
      match s.current t, s.context c with
      | some (own, pairs), some moved => some (s.setContext own (move t moved pairs))
      | _, _ => none

end Spec

/-- The machine of independent maps. -/
def specification : Machine Spec Event := ⟨Spec.step⟩

/-- The thread that an operation belongs to. -/
def Event.thread : Event → Option Nat
  | .create .. => none
  | .enter t .. | .leave t | .getattr t .. | .setattr t .. | .delattr t .. | .restore t .. => some t

/-- What a modelled context holds for each `Local`. -/
def pairs (c : Context) : Pairs := fun l =>
  (Local.storage c l).map fun s => (s.owner, fun key => s.data.lookup key)

variable {c c' : Context} {t l : Nat} {key : String}

theorem visible_pairs (t : Nat) (c : Context) (l : Nat) (key : String) :
    Pair.visible t (pairs c l) key = (Local.view t c l).lookup key := by
  unfold pairs Local.view
  cases Local.storage c l with
  | none => rfl
  | some s =>
      by_cases howner : s.owner = t
      · simp [Pair.visible, howner]
      · simp [Pair.visible, howner]

/-- `__getattr__` reads the pair of the `Local`. -/
theorem read_pairs (t : Nat) (c : Context) (l : Nat) (key : String) :
    Pair.read t (pairs c l) key = Local.getattr t c l key := by
  have hvisible := visible_pairs t c l key
  cases hlookup : (Local.view t c l).lookup key with
  | none => simp only [Local.getattr_eq, Pair.read, hvisible, hlookup]
  | some value => simp only [Local.getattr_eq, Pair.read, hvisible, hlookup]

theorem pairs_setStorage (c : Context) (l : Nat) (s : Storage) :
    pairs (Local.setStorage c l s) =
      Function.update (pairs c) l (some (s.owner, fun key => s.data.lookup key)) := by
  funext l'
  by_cases hl : l' = l
  · subst hl
    simp [pairs]
  · simp [pairs, hl, Local.storage_setStorage_ne c s hl]

/-- `__setattr__` writes the pair of the `Local` and no other. -/
theorem pairs_setattr (t : Nat) (c : Context) (l : Nat) (key : String) (value : Obj) :
    pairs (Local.setattr t c l key value) =
      Function.update (pairs c) l (some (Pair.write t (pairs c l) key value)) := by
  rw [Local.setattr_eq, pairs_setStorage]
  congr 2
  refine Prod.ext rfl ?_
  funext key'
  by_cases hkey : key' = key
  · subst hkey
    simp [Pair.write]
  · simp [Pair.write, hkey, visible_pairs]

/-- `__delattr__` deletes from the pair of the `Local` and no other. -/
theorem pairs_delattr (t : Nat) (c : Context) (l : Nat) (key : String) :
    (Local.delattr t c l key).map pairs =
      (Pair.delete t (pairs c l) key).map fun pair => Function.update (pairs c) l (some pair) := by
  rw [Local.delattr_eq, Pair.delete, visible_pairs]
  cases hlookup : (Local.view t c l).lookup key with
  | none =>
      have hnot : key ∉ Local.view t c l := AList.lookup_eq_none.mp hlookup
      rw [if_neg hnot]
      rfl
  | some o =>
      have hmem : key ∈ Local.view t c l := by
        rw [← AList.lookup_isSome, hlookup]
        rfl
      rw [if_pos hmem]
      simp only [Except.map, pairs_setStorage]
      congr 3
      refine Prod.ext rfl ?_
      funext key'
      by_cases hkey : key' = key
      · subst hkey
        simp
      · simp [hkey, visible_pairs]

/-- `_restore_context` moves the pairs, where storage is compared lawfully. -/
theorem pairs_restoreContext {ne : Comparison} (hne : ∀ l, ne.LawfulAt (.cvar l)) {moved : Context}
    (h : restoreContext ne t c moved = (c', none)) : pairs c' = move t (pairs moved) (pairs c) := by
  funext l
  unfold pairs move
  cases hstored : Local.storage moved l with
  | some s => simp [hstored, Local.storage_restoreContext_at (hne l) h hstored]
  | none =>
      have hkept := Local.storage_restoreContext_none ne (i := t) (c := c) hstored
      rw [h] at hkept
      simp [hstored, hkept]

end Asgiref.CopyOnWrite
