import Asgiref.CopyOnWrite.Specification
import Asgiref.Lib.Simulation

/-! # A `thread_critical` `Local` as a namespace

In sync mode, with no running loop, a thread-critical `Local` works on the attributes of a
`threading.local`. In async mode it works on a `_CVar`, which it keeps there too, as the attribute
`cvar`, and which has an attribute of its own, the context variable `_data`. All names that are not
special to `Local` go through, these two included.

* **`Attr`**, **`Data`** — what the attributes can be: objects of the user, or these two.
* **`performSync`**, **`cvarGetattr`**, **`cvarSetattr`**, **`cvarDelattr`** — the accessors in the
  two modes, with **`threadCriticalStorage`**, which finds or makes the `_CVar`.
* **`Spec`** — what a namespace is to be: one map for each thread in sync mode, and one for each
  thread in each context in async mode.
* **`Harmless`** — the operations that keep out of the way of the two names.
* **`namespace_refines`** — a run of such operations is one of the namespace. -/

namespace Asgiref.CriticalNamespace

open CopyOnWrite (Attributes)

/-- What an operation returns or raises. -/
inductive Result
  | value (o : Obj)
  | done
  | attributeError (key : String)
  /-- The `_CVar` of this number. -/
  | cvar (n : Nat)
  /-- The `ContextVar` of the `_CVar` of this number. -/
  | contextVar (n : Nat)
  | raised (e : PyError)
  deriving DecidableEq

/-- What an attribute of the `threading.local` is. -/
inductive Attr
  | user (o : Obj)
  | cvar (n : Nat)
  deriving DecidableEq

/-- What the attribute `_data` of a `_CVar` is. -/
inductive Data
  | contextVar
  | user (o : Obj)
  deriving DecidableEq

/-- The attributes of the `threading.local` on one thread. -/
abbrev Attrs := AList fun _ : String => Attr

/-- The operations on the `Local`. -/
inductive Operation
  | get (key : String)
  | set (key : String) (value : Obj)
  | del (key : String)
  deriving DecidableEq

/-- The name that an operation is on. -/
def Operation.key : Operation → String
  | .get key | .set key _ | .del key => key

/-- Whether a loop is running, and then the context of the current task. -/
inductive Mode
  | sync
  | async (c : Nat)
  deriving DecidableEq

/-- One thread-critical `Local`, and the contexts. -/
structure State where
  /-- `self._storage` on each thread. -/
  storage : Nat → Attrs
  /-- The attribute `_data` of each `_CVar`. -/
  data : Nat → Data
  /-- The number of `_CVar`s so far. -/
  made : Nat
  /-- The values of the context variables of all `_CVar`s in each context. -/
  context : Nat → Option (Nat → Option Dict)

/-- A new `Local`. -/
def init : State := ⟨fun _ => ∅, fun _ => .contextVar, 0, fun _ => none⟩

/-- An operation on a thread with no running loop. -/
def performSync (attrs : Attrs) : Operation → Attrs × Result
  | .get key =>
      match attrs.lookup key with
      | some (.user o) => (attrs, .value o)
      | some (.cvar n) => (attrs, .cvar n)
      | none => (attrs, .attributeError key)
  | .set key value => (attrs.insert key (.user value), .done)
  | .del key => if key ∈ attrs then (attrs.erase key, .done) else (attrs, .attributeError key)

/-- `_thread_critical_storage` on thread `t` with a running loop. -/
def threadCriticalStorage (t : Nat) (s : State) : Attr × State :=
  match (s.storage t).lookup "cvar" with
  | some attr => (attr, s)
  -- `self._storage.cvar = _CVar()`
  | none =>
      (.cvar s.made,
        { s with
          storage := Function.update s.storage t ((s.storage t).insert "cvar" (.cvar s.made))
          data := Function.update s.data s.made .contextVar
          made := s.made + 1 })

/-- `self._data.set(storage_object)` in context `c`. -/
def setData (n c : Nat) (vars : Nat → Option Dict) (d : Dict) (s : State) : State :=
  { s with context := Function.update s.context c (some (Function.update vars n (some d))) }

/-- `getattr` on a `_CVar`; `foreign` is what happens where a user's object has come in the place of
its context variable. -/
def cvarGetattr (n : Nat) (vars : Nat → Option Dict) (key : String) (foreign : Result) (s : State) :
    Result :=
  match s.data n with
  | .contextVar =>
      -- found on the object itself
      if key = "_data" then .contextVar n
      else match ((vars n).getD ∅).lookup key with
        | some o => .value o
        | none => .attributeError key
  | .user o => if key = "_data" then .value o else foreign

/-- `_CVar.__setattr__`. -/
def cvarSetattr (n c : Nat) (vars : Nat → Option Dict) (key : String) (value : Obj)
    (foreign : Result) (s : State) : State × Result :=
  if key = "_data" then ({ s with data := Function.update s.data n (.user value) }, .done)
  else match s.data n with
    | .contextVar => (setData n c vars (((vars n).getD ∅).insert key value) s, .done)
    | .user _ => (s, foreign)

/-- `_CVar.__delattr__`. -/
def cvarDelattr (n c : Nat) (vars : Nat → Option Dict) (key : String) (foreign : Result)
    (s : State) : State × Result :=
  match s.data n with
  | .contextVar =>
      if key ∈ (vars n).getD ∅ then (setData n c vars (((vars n).getD ∅).erase key) s, .done)
      else (s, .attributeError key)
  | .user _ => (s, foreign)

/-- An operation on the `_CVar` of number `n`, in context `c`. -/
def performCVar (n c : Nat) (vars : Nat → Option Dict) (foreign : Result) (s : State) :
    Operation → State × Result
  | .get key => (s, cvarGetattr n vars key foreign s)
  | .set key value => cvarSetattr n c vars key value foreign s
  | .del key => cvarDelattr n c vars key foreign s

/-- An operation of thread `t`. -/
def perform (t : Nat) (mode : Mode) (o : Operation) (foreign : Result) (s : State) :
    Option (State × Result) :=
  match mode with
  | .sync =>
      let (attrs, result) := performSync (s.storage t) o
      some ({ s with storage := Function.update s.storage t attrs }, result)
  | .async c =>
      match s.context c with
      | none => none
      | some vars =>
          match threadCriticalStorage t s with
          | (.cvar n, s) => some (performCVar n c vars foreign s o)
          -- whatever the object makes of the operation
          | (.user _, s) => some (s, foreign)

/-- What happens: operations, and new contexts, which are empty or copies of others. -/
inductive Action
  | perform (t : Nat) (mode : Mode) (o : Operation) (foreign : Result)
  | createContext (c : Nat) (source : Option Nat)
  deriving DecidableEq

/-- What is seen of an action. -/
inductive Event
  | performed (t : Nat) (mode : Mode) (o : Operation) (result : Result)
  | createdContext (c : Nat) (source : Option Nat)
  deriving DecidableEq

/-- The names that `Local.__setattr__` reserves. -/
def reserved : List String := ["_local", "_storage", "_cvar", "_thread_critical"]

/-- The new context. -/
def createContext (c : Nat) (source : Option Nat) (s : State) : Option State :=
  match s.context c, source with
  | some _, _ => none
  | none, none => some { s with context := Function.update s.context c (some fun _ => none) }
  | none, some c' =>
      (s.context c').map fun vars => { s with context := Function.update s.context c (some vars) }

/-- One action, and what is seen of it. The names `onLocal` are those found on the class `Local` or
the object. -/
def act (onLocal : String → Bool) (s : State) : Action → Option (State × Event)
  | .perform t mode o foreign =>
      if o.key ∈ reserved ∨ onLocal o.key = true then none
      else (perform t mode o foreign s).map fun (s', result) => (s', .performed t mode o result)
  | .createContext c source =>
      (createContext c source s).map (·, .createdContext c source)

/-- The machine of one thread-critical `Local`. -/
def machine (onLocal : String → Bool) : Machine State Action :=
  ⟨fun s a => (act onLocal s a).map Prod.fst⟩

/-- What is seen of an action. -/
def event (onLocal : String → Bool) (s : State) (a : Action) : Option Event :=
  (act onLocal s a).map Prod.snd

/-! ## The namespace -/

/-- One map for each thread, and one for each context and thread. -/
structure Spec where
  sync : Nat → Attributes
  async : Nat → Option (Nat → Attributes)

/-- An operation on one map. -/
def Operation.apply (attributes : Attributes) : Operation → Attributes × Result
  | .get key =>
      match attributes key with
      | some o => (attributes, .value o)
      | none => (attributes, .attributeError key)
  | .set key value => (Function.update attributes key (some value), .done)
  | .del key =>
      match attributes key with
      | some _ => (Function.update attributes key none, .done)
      | none => (attributes, .attributeError key)

namespace Spec

def init : Spec := ⟨fun _ _ => none, fun _ => none⟩

def setAsync (s : Spec) (c : Nat) (attributes : Nat → Attributes) : Spec :=
  { s with async := Function.update s.async c (some attributes) }

/-- One action: an operation is possible with the result that its map gives, and no other. -/
def step (s : Spec) : Event → Option Spec
  | .performed t .sync o result =>
      let (attributes, expected) := o.apply (s.sync t)
      if result = expected then some { s with sync := Function.update s.sync t attributes }
      else none
  | .performed t (.async c) o result =>
      match s.async c with
      | none => none
      | some maps =>
          let (attributes, expected) := o.apply (maps t)
          if result = expected then some (s.setAsync c (Function.update maps t attributes))
          else none
  | .createdContext c source =>
      match s.async c, source with
      | some _, _ => none
      | none, none => some (s.setAsync c fun _ _ => none)
      | none, some c' => (s.async c').map (s.setAsync c)

end Spec

/-- The machine of a namespace. -/
def specification : Machine Spec Event := ⟨Spec.step⟩

/-! ## What a state stands for -/

/-- The user's attributes of a `threading.local`. -/
def userAttributes (attrs : Attrs) : Attributes := fun key =>
  match attrs.lookup key with
  | some (.user o) => some o
  | _ => none

/-- The `_CVar` of a thread, if its attribute `cvar` is one. -/
def cvarOf (attrs : Attrs) : Option Nat :=
  match attrs.lookup "cvar" with
  | some (.cvar n) => some n
  | _ => none

/-- A user's object is the attribute `cvar` of a thread. -/
def hasForeignCVar (attrs : Attrs) : Bool :=
  match attrs.lookup "cvar" with
  | some (.user _) => true
  | _ => false

/-- The data of a `_CVar` in a context. -/
def attributesOf (vars : Nat → Option Dict) : Option Nat → Attributes
  | some n => fun key => ((vars n).getD ∅).lookup key
  | none => fun _ => none

/-- The namespace that a state stands for. -/
def abs (s : State) : Spec where
  sync t := userAttributes (s.storage t)
  async c := (s.context c).map fun vars t => attributesOf vars (cvarOf (s.storage t))

/-- What holds as long as nothing has got in the way of the two names. -/
structure Inv (s : State) : Prop where
  named : ∀ t key n, (s.storage t).lookup key = some (.cvar n) → key = "cvar" ∧ n < s.made
  distinct : ∀ t t' n, cvarOf (s.storage t) = some n → cvarOf (s.storage t') = some n → t = t'
  data : ∀ n, s.data n = .contextVar
  unset : ∀ c vars n, s.context c = some vars → s.made ≤ n → vars n = none

theorem inv_init : Inv init where
  named t key n h := by simp [init] at h
  distinct t t' n h := by simp [init, cvarOf] at h
  data n := rfl
  unset c vars n h := by cases h

variable {s s' : State} {t : Nat}

theorem cvarOf_eq_some {attrs : Attrs} {n : Nat} :
    cvarOf attrs = some n ↔ attrs.lookup "cvar" = some (.cvar n) := by
  unfold cvarOf
  split
  · rename_i m h
    rw [h]
    simp
  · rename_i h
    constructor
    · intro hn
      cases hn
    · intro hn
      exact absurd hn (h n)

/-! ## Sync mode -/

/-- Away from a `_CVar`, an operation on the `threading.local` is one on the user's attributes. -/
theorem performSync_apply {attrs : Attrs} {o : Operation}
    (hkey : ∀ n, attrs.lookup o.key ≠ some (.cvar n)) :
    o.apply (userAttributes attrs) =
      (userAttributes (performSync attrs o).1, (performSync attrs o).2) := by
  cases o with
  | get key =>
      cases hlookup : attrs.lookup key with
      | none => simp [Operation.apply, performSync, userAttributes, hlookup]
      | some attr =>
          cases attr with
          | user u => simp [Operation.apply, performSync, userAttributes, hlookup]
          | cvar n => exact absurd hlookup (hkey n)
  | set key value =>
      refine Prod.ext ?_ rfl
      funext key'
      by_cases hk : key' = key
      · subst hk
        simp [Operation.apply, performSync, userAttributes]
      · simp [Operation.apply, performSync, userAttributes, hk]
  | del key =>
      cases hlookup : attrs.lookup key with
      | none =>
          have hnot : key ∉ attrs := AList.lookup_eq_none.mp hlookup
          simp [Operation.apply, performSync, userAttributes, hlookup, hnot]
      | some attr =>
          have hmem : key ∈ attrs := by
            rw [← AList.lookup_isSome, hlookup]
            rfl
          cases attr with
          | user u =>
              simp only [Operation.apply, performSync, userAttributes, hlookup, hmem, if_true]
              refine Prod.ext ?_ rfl
              funext key'
              by_cases hk : key' = key
              · subst hk
                simp [userAttributes]
              · simp [userAttributes, hk]
          | cvar n => exact absurd hlookup (hkey n)

/-- Away from a `_CVar`, an operation on the `threading.local` leaves and makes none. -/
theorem performSync_cvar {attrs : Attrs} {o : Operation}
    (hkey : ∀ n, attrs.lookup o.key ≠ some (.cvar n)) (key : String) (n : Nat) :
    (performSync attrs o).1.lookup key = some (.cvar n) ↔ attrs.lookup key = some (.cvar n) := by
  cases o with
  | get key' =>
      have hsame : (performSync attrs (.get key')).1 = attrs := by
        simp only [performSync]
        split <;> rfl
      rw [hsame]
  | set key' value =>
      by_cases hk : key = key'
      · subst hk
        simpa [performSync, Operation.key] using hkey n
      · simp [performSync, hk]
  | del key' =>
      by_cases hmem : key' ∈ attrs
      · by_cases hk : key = key'
        · subst hk
          simpa [performSync, Operation.key, hmem] using hkey n
        · simp [performSync, hmem, hk]
      · simp [performSync, hmem]

/-- Storage with the same `_CVar`s. -/
theorem cvarOf_congr {attrs attrs' : Attrs}
    (h : ∀ n, attrs'.lookup "cvar" = some (.cvar n) ↔ attrs.lookup "cvar" = some (.cvar n)) :
    cvarOf attrs' = cvarOf attrs := by
  cases hcvar : cvarOf attrs with
  | some n => rwa [cvarOf_eq_some, h n, ← cvarOf_eq_some]
  | none =>
      cases hcvar' : cvarOf attrs' with
      | none => rfl
      | some n =>
          rw [cvarOf_eq_some, h n, ← cvarOf_eq_some, hcvar] at hcvar'
          cases hcvar'

/-- An operation in sync mode. -/
theorem perform_sync (h : Inv s) {o : Operation}
    (hkey : ∀ n, (s.storage t).lookup o.key ≠ some (.cvar n)) :
    let attrs := (performSync (s.storage t) o).1
    let s' : State := { s with storage := Function.update s.storage t attrs }
    Inv s' ∧
      (abs s).step (.performed t .sync o (performSync (s.storage t) o).2) = some (abs s') := by
  intro attrs s'
  have hcvars : ∀ t' key n, (s'.storage t').lookup key = some (.cvar n) ↔
      (s.storage t').lookup key = some (.cvar n) := by
    intro t' key n
    by_cases ht : t' = t
    · subst ht
      change (Function.update s.storage t' attrs t').lookup key = _ ↔ _
      rw [Function.update_self]
      exact performSync_cvar hkey key n
    · change (Function.update s.storage t attrs t').lookup key = _ ↔ _
      rw [Function.update_of_ne ht]
  have hcvarOf : ∀ t', cvarOf (s'.storage t') = cvarOf (s.storage t') := fun t' =>
    cvarOf_congr (hcvars t' "cvar")
  constructor
  · constructor
    · intro t' key n hlookup
      exact h.named t' key n ((hcvars t' key n).mp hlookup)
    · intro t₁ t₂ n h₁ h₂
      rw [hcvarOf] at h₁ h₂
      exact h.distinct t₁ t₂ n h₁ h₂
    · exact h.data
    · exact h.unset
  · have hsync : (abs s).sync t = userAttributes (s.storage t) := rfl
    simp only [Spec.step, hsync, performSync_apply hkey, if_true]
    unfold abs
    simp only [hcvarOf, Option.some.injEq, Spec.mk.injEq]
    refine ⟨?_, rfl⟩
    funext t'
    by_cases ht : t' = t
    · subst ht
      simp [s', attrs]
    · simp [s', ht]

/-! ## Async mode -/

/-- The state with a new `_CVar` for thread `t`. -/
def newCVar (t : Nat) (s : State) : State :=
  { s with
    storage := Function.update s.storage t ((s.storage t).insert "cvar" (.cvar s.made))
    data := Function.update s.data s.made .contextVar
    made := s.made + 1 }

theorem lookup_newCVar (t' : Nat) (key : String) : ((newCVar t s).storage t').lookup key =
    if t' = t ∧ key = "cvar" then some (.cvar s.made) else (s.storage t').lookup key := by
  unfold newCVar
  by_cases ht : t' = t
  · subst ht
    by_cases hkey : key = "cvar"
    · subst hkey
      simp
    · simp [hkey]
  · simp [ht]

theorem cvarOf_newCVar (t' : Nat) : cvarOf ((newCVar t s).storage t') =
    if t' = t then some s.made else cvarOf (s.storage t') := by
  by_cases ht : t' = t
  · rw [if_pos ht, cvarOf_eq_some, lookup_newCVar, if_pos ⟨ht, rfl⟩]
  · rw [if_neg ht]
    exact cvarOf_congr fun n => by rw [lookup_newCVar, if_neg fun heq => ht heq.1]

/-- A new `_CVar` has a number of its own. -/
theorem Inv.newCVar (h : Inv s) : Inv (newCVar t s) := by
  have hlt : ∀ t' n, cvarOf (s.storage t') = some n → n < s.made := fun t' n hn =>
    (h.named t' "cvar" n (cvarOf_eq_some.mp hn)).2
  constructor
  · intro t' key n hn
    rw [lookup_newCVar] at hn
    split at hn
    · rename_i heq
      cases hn
      exact ⟨heq.2, Nat.lt_succ_self _⟩
    · obtain ⟨hname, hmade⟩ := h.named t' key n hn
      exact ⟨hname, Nat.lt_succ_of_lt hmade⟩
  · intro t₁ t₂ n h₁ h₂
    rw [cvarOf_newCVar] at h₁ h₂
    split at h₁
    · rename_i ht₁
      split at h₂
      · rename_i ht₂
        rw [ht₁, ht₂]
      · cases h₁
        exact absurd (hlt t₂ _ h₂) (Nat.lt_irrefl _)
    · split at h₂
      · cases h₂
        exact absurd (hlt t₁ _ h₁) (Nat.lt_irrefl _)
      · exact h.distinct t₁ t₂ n h₁ h₂
  · intro n
    show Function.update s.data s.made .contextVar n = .contextVar
    simp only [Function.update_apply, h.data n, ite_self]
  · intro c vars n hc hn
    exact h.unset c vars n hc (Nat.le_of_succ_le hn)

/-- A new `_CVar` does not show. -/
theorem abs_newCVar (h : Inv s) (hlookup : (s.storage t).lookup "cvar" = none) :
    abs (newCVar t s) = abs s := by
  have hnone : cvarOf (s.storage t) = none := by
    unfold cvarOf
    rw [hlookup]
  unfold abs
  simp only [Spec.mk.injEq]
  constructor
  · funext t' key
    unfold userAttributes
    rw [lookup_newCVar]
    by_cases heq : t' = t ∧ key = "cvar"
    · rw [if_pos heq]
      obtain ⟨rfl, rfl⟩ := heq
      rw [hlookup]
    · rw [if_neg heq]
  · funext c
    show (s.context c).map _ = (s.context c).map _
    cases hc : s.context c with
    | none => rfl
    | some vars =>
        simp only [Option.map_some, Option.some.injEq]
        funext t'
        rw [cvarOf_newCVar]
        split
        · rename_i ht
          subst ht
          -- the variable of the new `_CVar` is not set anywhere
          rw [hnone]
          funext key
          simp [attributesOf, h.unset c vars s.made hc (Nat.le_refl _)]
        · rfl

/-- A thread whose attribute `cvar` is not a user's object has a `_CVar` or gets one, and that
changes nothing in the namespace. -/
theorem threadCriticalStorage_spec (h : Inv s) (huser : hasForeignCVar (s.storage t) = false) :
    ∃ n s₁, threadCriticalStorage t s = (.cvar n, s₁) ∧ Inv s₁ ∧ abs s₁ = abs s ∧
      s₁.context = s.context ∧ cvarOf (s₁.storage t) = some n := by
  unfold threadCriticalStorage
  cases hlookup : (s.storage t).lookup "cvar" with
  | some attr =>
      cases attr with
      | user u => simp [hasForeignCVar, hlookup] at huser
      | cvar n => exact ⟨n, s, rfl, h, rfl, rfl, cvarOf_eq_some.mpr hlookup⟩
  | none =>
      refine ⟨s.made, newCVar t s, rfl, h.newCVar, abs_newCVar h hlookup, rfl, ?_⟩
      rw [cvarOf_newCVar, if_pos rfl]

/-- Setting the variable of the thread's `_CVar` in a context changes one map. -/
theorem abs_setData (h : Inv s) {n c : Nat} {vars : Nat → Option Dict} {d : Dict}
    (hn : cvarOf (s.storage t) = some n) (hc : s.context c = some vars) :
    Inv (setData n c vars d s) ∧ abs (setData n c vars d s) =
      (abs s).setAsync c (Function.update
        (fun t' => attributesOf vars (cvarOf (s.storage t'))) t fun key => d.lookup key) := by
  constructor
  · refine ⟨h.named, h.distinct, h.data, ?_⟩
    intro c' vars' m hc' hm
    have hne : m ≠ n := fun heq => by
      have hlt := (h.named t "cvar" n (cvarOf_eq_some.mp hn)).2
      rw [heq] at hm
      exact absurd hlt (Nat.not_lt.mpr hm)
    simp only [setData, Function.update_apply] at hc'
    split at hc'
    · cases hc'
      rw [Function.update_of_ne hne]
      exact h.unset c vars m hc hm
    · exact h.unset c' vars' m hc' hm
  · unfold abs setData Spec.setAsync
    simp only [Spec.mk.injEq, true_and]
    funext c'
    by_cases hcc : c' = c
    · subst hcc
      simp only [Function.update_self, Option.map_some, Option.some.injEq]
      funext t'
      by_cases ht : t' = t
      · subst ht
        simp [hn, attributesOf]
      · rw [Function.update_of_ne ht]
        cases hm : cvarOf (s.storage t') with
        | none => rfl
        | some m =>
            have hne : m ≠ n := fun heq => ht (h.distinct t' t m hm (heq ▸ hn))
            simp [attributesOf, hne]
    · simp [hcc]

/-- Leaving a map as it is leaves the namespace as it is. -/
theorem setAsync_self {σ : Spec} {c : Nat} {maps : Nat → Attributes} (hc : σ.async c = some maps) :
    σ.setAsync c (Function.update maps t (maps t)) = σ := by
  unfold Spec.setAsync
  rw [Function.update_eq_self, ← hc, Function.update_eq_self]

/-- An operation on the `_CVar` of thread `t`, away from its own attribute. -/
theorem performCVar_spec (h : Inv s) {n c : Nat} {vars : Nat → Option Dict}
    (hn : cvarOf (s.storage t) = some n) (hc : s.context c = some vars) {o : Operation}
    (hkey : o.key = "_data" → o = .del "_data") (foreign : Result) :
    Inv (performCVar n c vars foreign s o).1 ∧
      (abs s).step (.performed t (.async c) o (performCVar n c vars foreign s o).2) =
        some (abs (performCVar n c vars foreign s o).1) := by
  have hmaps : (abs s).async c = some fun t' => attributesOf vars (cvarOf (s.storage t')) := by
    simp [abs, hc]
  have hmap : attributesOf vars (cvarOf (s.storage t)) =
      fun key => ((vars n).getD ∅).lookup key := by
    rw [hn]
    rfl
  have hself := setAsync_self (t := t) hmaps
  rw [hmap] at hself
  cases o with
  | get key =>
      have hname : key ≠ "_data" := fun heq => by cases hkey heq
      refine ⟨h, ?_⟩
      simp only [Spec.step, hmaps, hmap, Operation.apply, performCVar, cvarGetattr, h.data n,
        if_neg hname]
      cases hlookup : ((vars n).getD ∅).lookup key <;> simp [hself]
  | set key value =>
      have hname : key ≠ "_data" := fun heq => by cases hkey heq
      simp only [performCVar, cvarSetattr, h.data n, if_neg hname]
      obtain ⟨hinv, habs⟩ := abs_setData (d := ((vars n).getD ∅).insert key value) h hn hc
      refine ⟨hinv, ?_⟩
      simp only [Spec.step, hmaps, hmap, Operation.apply, if_true, habs]
      congr 4
      funext key'
      by_cases hk : key' = key
      · subst hk
        simp
      · simp [hk]
  | del key =>
      by_cases hmem : key ∈ (vars n).getD ∅
      · obtain ⟨o, hlookup⟩ := Option.isSome_iff_exists.mp (AList.lookup_isSome.mpr hmem)
        simp only [performCVar, cvarDelattr, h.data n, if_pos hmem]
        obtain ⟨hinv, habs⟩ := abs_setData (d := ((vars n).getD ∅).erase key) h hn hc
        refine ⟨hinv, ?_⟩
        simp only [Spec.step, hmaps, hmap, Operation.apply, hlookup, if_true, habs]
        congr 4
        funext key'
        by_cases hk : key' = key
        · subst hk
          simp
        · simp [hk]
      · have hlookup : ((vars n).getD ∅).lookup key = none := AList.lookup_eq_none.mpr hmem
        simp only [performCVar, cvarDelattr, h.data n, if_neg hmem]
        refine ⟨h, ?_⟩
        simp only [Spec.step, hmaps, hmap, Operation.apply, hlookup, if_true, hself]

/-! ## Runs -/

/-- The operation keeps out of the way of the two names: in sync mode it is on `cvar` only where the
thread has no `_CVar`, and in async mode it finds no user's object there and does not read or write
`_data`. -/
def Harmless (s : State) : Action → Prop
  | .perform t .sync o _ => o.key = "cvar" → cvarOf (s.storage t) = none
  | .perform t (.async _) o _ =>
      hasForeignCVar (s.storage t) = false ∧ (o.key = "_data" → o = .del "_data")
  | .createContext .. => True

instance (s : State) : (a : Action) → Decidable (Harmless s a)
  | .perform t .sync o _ =>
      inferInstanceAs (Decidable (o.key = "cvar" → cvarOf (s.storage t) = none))
  | .perform t (.async _) o _ =>
      inferInstanceAs (Decidable
        (hasForeignCVar (s.storage t) = false ∧ (o.key = "_data" → o = .del "_data")))
  | .createContext .. => .isTrue trivial

/-- One harmless operation is one of the namespace. -/
theorem perform_spec (h : Inv s) {mode : Mode} {o : Operation} {foreign result : Result}
    (hharmless : Harmless s (.perform t mode o foreign))
    (hperform : perform t mode o foreign s = some (s', result)) :
    Inv s' ∧ (abs s).step (.performed t mode o result) = some (abs s') := by
  cases mode with
  | sync =>
      cases hperform
      refine perform_sync h fun n hlookup => ?_
      have hname := (h.named t o.key n hlookup).1
      rw [hname, ← cvarOf_eq_some, hharmless hname] at hlookup
      cases hlookup
  | async c =>
      obtain ⟨huser, hkey⟩ := hharmless
      simp only [perform] at hperform
      cases hc : s.context c with
      | none =>
          rw [hc] at hperform
          cases hperform
      | some vars =>
          obtain ⟨n, s₁, hstorage, hinv, habs, hcontext, hn⟩ := threadCriticalStorage_spec h huser
          simp only [hc, hstorage] at hperform
          have hspec := performCVar_spec hinv hn (by rw [hcontext, hc]) hkey foreign
          rwa [Option.some.inj hperform, habs] at hspec

/-- A new context is one of the namespace. -/
theorem createContext_spec (h : Inv s) {c : Nat} {source : Option Nat}
    (hcreate : createContext c source s = some s') :
    Inv s' ∧ (abs s).step (.createdContext c source) = some (abs s') := by
  have hnew : ∀ vars : Nat → Option Dict, s.context c = none →
      (∀ n, s.made ≤ n → vars n = none) →
      Inv { s with context := Function.update s.context c (some vars) } ∧
        abs { s with context := Function.update s.context c (some vars) } =
          (abs s).setAsync c fun t => attributesOf vars (cvarOf (s.storage t)) := by
    intro vars hc hvars
    refine ⟨⟨h.named, h.distinct, h.data, fun c' vars' n hc' hn => ?_⟩, ?_⟩
    · simp only [Function.update_apply] at hc'
      split at hc'
      · cases hc'
        exact hvars n hn
      · exact h.unset c' vars' n hc' hn
    · unfold abs Spec.setAsync
      simp only [Spec.mk.injEq, true_and]
      funext c'
      by_cases hcc : c' = c
      · subst hcc
        simp
      · simp [hcc]
  unfold createContext at hcreate
  split at hcreate
  · cases hcreate
  · rename_i hc
    cases hcreate
    obtain ⟨hinv, habs⟩ := hnew (fun _ => none) hc fun _ _ => rfl
    refine ⟨hinv, ?_⟩
    have hcSpec : (abs s).async c = none := by simp [abs, hc]
    simp only [Spec.step, hcSpec, habs, Option.some.injEq]
    congr 1
    funext t key
    cases cvarOf (s.storage t) <;> simp [attributesOf]
  · rename_i c' hc
    obtain ⟨vars, hvars, rfl⟩ := Option.map_eq_some_iff.mp hcreate
    obtain ⟨hinv, habs⟩ := hnew vars hc fun n => h.unset c' vars n hvars
    refine ⟨hinv, ?_⟩
    have hcSpec : (abs s).async c = none := by simp [abs, hc]
    have hsource : (abs s).async c' = some fun t => attributesOf vars (cvarOf (s.storage t)) := by
      simp [abs, hvars]
    simp only [Spec.step, hcSpec, hsource, habs, Option.map_some]

/-- **One harmless action** is one of the namespace. -/
theorem act_spec (h : Inv s) {onLocal : String → Bool} {a : Action} {e : Event}
    (hharmless : Harmless s a) (hact : act onLocal s a = some (s', e)) :
    Inv s' ∧ (abs s).step e = some (abs s') := by
  cases a with
  | perform t mode o foreign =>
      simp only [act] at hact
      split at hact
      · cases hact
      · obtain ⟨⟨s₁, result⟩, hperform, heq⟩ := Option.map_eq_some_iff.mp hact
        cases heq
        exact perform_spec h hharmless hperform
  | createContext c source =>
      obtain ⟨s₁, hcreate, heq⟩ := Option.map_eq_some_iff.mp hact
      cases heq
      exact createContext_spec h hcreate

/-- A step of the machine is an action with what it shows. -/
theorem step_inv {onLocal : String → Bool} {a : Action}
    (hstep : (machine onLocal).step s a = some s') :
    ∃ e, act onLocal s a = some (s', e) ∧ event onLocal s a = some e := by
  obtain ⟨⟨s₁, e⟩, hact, rfl⟩ := Option.map_eq_some_iff.mp hstep
  exact ⟨e, hact, by simp [event, hact]⟩

theorem simulates (onLocal : String → Bool) :
    (machine onLocal).Simulates (event onLocal) Harmless specification
      fun s σ => Inv s ∧ σ = abs s := by
  rintro s _ a s' ⟨hinv, rfl⟩ hharmless hstep
  obtain ⟨e, hact, hevent⟩ := step_inv hstep
  obtain ⟨hinv', hanswer⟩ := act_spec hinv hharmless hact
  rw [hevent]
  exact ⟨abs s', hanswer, hinv', rfl⟩

/-- Whatever an operation of the namespace does, it does to the map of its own thread and mode. -/
theorem Spec.step_apart {σ σ' : Spec} {mode : Mode} {o : Operation} {result : Result}
    (h : σ.step (.performed t mode o result) = some σ') :
    (∀ t', mode ≠ .sync ∨ t' ≠ t → σ'.sync t' = σ.sync t') ∧
      ∀ c t', mode ≠ .async c ∨ t' ≠ t → (σ'.async c).map (· t') = (σ.async c).map (· t') := by
  cases mode with
  | sync =>
      simp only [Spec.step] at h
      split at h
      · cases h
        refine ⟨fun t' ht => ?_, fun _ _ _ => rfl⟩
        exact Function.update_of_ne (ht.resolve_left fun hne => hne rfl) ..
      · cases h
  | async c =>
      simp only [Spec.step] at h
      split at h
      · cases h
      · rename_i maps hmaps
        split at h
        · cases h
          refine ⟨fun _ _ => rfl, fun c' t' ht => ?_⟩
          by_cases hc : c' = c
          · subst hc
            have hne : t' ≠ t := ht.resolve_left fun hne => hne rfl
            simp [Spec.setAsync, hmaps, hne]
          · simp [Spec.setAsync, hc]
        · cases h

/-- A proper namespace: what was seen so far is what the maps give, and what is to come in one mode
or on one thread leaves the maps of the other mode and of other threads as they are. -/
structure Namespace (onLocal : String → Bool) (s : State) (es : List Event) : Prop where
  specified : specification.Run Machine.Any Spec.init es (abs s)
  apart : ∀ t mode o foreign s', Harmless s (.perform t mode o foreign) →
    (machine onLocal).step s (.perform t mode o foreign) = some s' →
      (∀ t', mode ≠ .sync ∨ t' ≠ t → (abs s').sync t' = (abs s).sync t') ∧
        ∀ c t', mode ≠ .async c ∨ t' ≠ t →
          ((abs s').async c).map (· t') = ((abs s).async c).map (· t')

/-- **A namespace in both modes.** Every run of harmless operations, in any order of threads, modes
and contexts, is one of the namespace. -/
theorem namespace_refines {onLocal : String → Bool} {as : List Action} {es : List Event}
    (h : (machine onLocal).Shows (event onLocal) Harmless init as es s) :
    Namespace onLocal s es := by
  have hinit : abs init = Spec.init := by
    unfold abs Spec.init
    simp only [Spec.mk.injEq]
    refine ⟨?_, rfl⟩
    funext t key
    simp [userAttributes, init]
  obtain ⟨_, hrun, hinv, rfl⟩ := (simulates onLocal).run ⟨inv_init, Eq.refl (abs init)⟩ h
  refine ⟨hinit ▸ hrun, fun t mode o foreign s' hharmless hstep => ?_⟩
  obtain ⟨e, hact, -⟩ := step_inv hstep
  obtain ⟨-, hanswer⟩ := act_spec hinv hharmless hact
  have hevent : ∃ result, e = .performed t mode o result := by
    simp only [act] at hact
    split at hact
    · cases hact
    · obtain ⟨⟨s₁, result⟩, -, heq⟩ := Option.map_eq_some_iff.mp hact
      cases heq
      exact ⟨result, rfl⟩
  obtain ⟨result, rfl⟩ := hevent
  exact Spec.step_apart hanswer

/-- A task sets `x` and makes another, which reads it and deletes it, while sync code on the same
thread has an `x` of its own. -/
def bothModes : List Action :=
  [.createContext 0 none, .perform 1 (.async 0) (.set "x" (.int 1)) .done,
    .createContext 1 (some 0), .perform 1 .sync (.set "x" (.int 2)) .done,
    .perform 1 (.async 1) (.get "x") .done, .perform 1 (.async 1) (.del "x") .done,
    .perform 1 (.async 0) (.get "x") .done, .perform 1 .sync (.get "x") .done,
    .perform 2 .sync (.get "x") .done]

theorem namespace_bothModes :
    ∃ s, Namespace (fun _ => false) s
      [.createdContext 0 none, .performed 1 (.async 0) (.set "x" (.int 1)) .done,
        .createdContext 1 (some 0), .performed 1 .sync (.set "x" (.int 2)) .done,
        .performed 1 (.async 1) (.get "x") (.value (.int 1)),
        .performed 1 (.async 1) (.del "x") .done,
        .performed 1 (.async 0) (.get "x") (.value (.int 1)),
        .performed 1 .sync (.get "x") (.value (.int 2)),
        .performed 2 .sync (.get "x") (.attributeError "x")] := by
  refine ⟨(((machine fun _ => false).observe (event fun _ => false) Harmless init
    bothModes).getD ([], init)).2, ?_⟩
  have hobserve : (machine fun _ => false).observe (event fun _ => false) Harmless init bothModes =
      some ((((machine fun _ => false).observe (event fun _ => false) Harmless init
          bothModes).getD ([], init)).1,
        (((machine fun _ => false).observe (event fun _ => false) Harmless init
          bothModes).getD ([], init)).2) := rfl
  exact namespace_refines (Machine.observe_shows hobserve)

/-- Sync code on a thread where a task has set something reads `cvar`, which nobody has set. -/
def readsCVar : List Action :=
  [.createContext 0 none, .perform 1 (.async 0) (.set "x" (.int 1)) .done,
    .perform 1 .sync (.get "cvar") .done]

/-- It gets the `_CVar`, and no namespace would give it anything. -/
theorem readsCVar_not_namespace :
    ∃ s es, (machine fun _ => false).Shows (event fun _ => false) Machine.Any init readsCVar es s ∧
      ∀ σ, ¬ specification.Run Machine.Any Spec.init es σ := by
  refine ⟨_, _, Machine.observe_shows
    (h := (rfl : _ = some (((machine fun _ => false).observe (event fun _ => false) Machine.Any init
      readsCVar).getD ([], init)))), fun σ hrun => ?_⟩
  have hexec := hrun.exec
  cases hexec

end Asgiref.CriticalNamespace
