import Asgiref.Context

/-! # `Local` without `thread_critical`

A non-thread-critical `Local` keeps its data in a context variable, as a pair of the owning thread's
ident and a dict that is copied on every write. Reading, writing and deleting look at the current
context and the ident of the current thread only, so the three accessors are functions of these.

* **`Local.getattr`**, **`Local.setattr`**, **`Local.delattr`** — `__getattr__`, `__setattr__` and
  `__delattr__`.
* **`Local.view`** — the data that the current thread sees: nothing where another thread owns it.
  The three accessors read, insert into and erase from it.
* **`Local.storage_restoreContext`** — restoring a context makes the data of every `Local` in it
  visible to the current thread, whoever owned it. -/

namespace Asgiref

namespace Local

/-- `self._cvar.get(None)`. -/
def storage (c : Context) (l : Nat) : Option Storage := c.lookup (ContextVar.cvar l)

/-- `self._cvar.set(storage)`. -/
def setStorage (c : Context) (l : Nat) (s : Storage) : Context := c.insert (ContextVar.cvar l) s

/-- `__getattr__`. -/
def getattr (getIdent : Nat) (c : Context) (l : Nat) (key : String) : Except PyError Obj :=
  match storage c l with
  | some ⟨owner, data⟩ =>
      -- data of another thread counts as unset
      if owner = getIdent then
        match data.lookup key with
        | some o => .ok o
        | none => .error (.attributeError key)
      else .error (.attributeError key)
  | none => .error (.attributeError key)

/-- `__setattr__`: the new data is a copy of what the current thread sees, or starts empty. -/
def setattr (getIdent : Nat) (c : Context) (l : Nat) (key : String) (value : Obj) : Context :=
  let data : Dict := match storage c l with
    | some ⟨owner, data⟩ => if owner = getIdent then data else ∅
    | none => ∅
  setStorage c l ⟨getIdent, data.insert key value⟩

/-- `__delattr__`. -/
def delattr (getIdent : Nat) (c : Context) (l : Nat) (key : String) : Except PyError Context :=
  match storage c l with
  | some ⟨owner, data⟩ =>
      if owner = getIdent ∧ key ∈ data then .ok (setStorage c l ⟨getIdent, data.erase key⟩)
      else .error (.attributeError key)
  | none => .error (.attributeError key)

/-- The data of a `Local` that the thread with this ident sees in a context. -/
def view (getIdent : Nat) (c : Context) (l : Nat) : Dict :=
  match storage c l with
  | some ⟨owner, data⟩ => if owner = getIdent then data else ∅
  | none => ∅

variable {i : Nat} {c c' : Context} {l l' : Nat} {key : String}

@[simp] theorem storage_setStorage_self (c : Context) (l : Nat) (s : Storage) :
    storage (setStorage c l s) l = some s := by
  unfold storage setStorage
  exact AList.lookup_insert c

theorem storage_setStorage_ne (c : Context) (s : Storage) (h : l' ≠ l) :
    storage (setStorage c l s) l' = storage c l' := by
  unfold storage setStorage
  exact AList.lookup_insert_ne (by simpa using h)

@[simp] theorem lookup_setStorage_user (c : Context) (l : Nat) (s : Storage) (name : String)
    (id : VarId) : (setStorage c l s).lookup (ContextVar.user name id)
      = c.lookup (ContextVar.user name id) := by
  unfold setStorage
  exact AList.lookup_insert_ne (by simp)

@[simp] theorem storage_insert_user (c : Context) (name : String) (id : VarId) (v : Value)
    (l : Nat) : storage (c.insert (ContextVar.user name id) v) l = storage c l := by
  unfold storage
  exact AList.lookup_insert_ne (by simp)

@[simp] theorem storage_reset_user (c : Context) (name : String) (id : VarId) (old : Option Value)
    (l : Nat) : storage (c.reset (ContextVar.user name id) old) l = storage c l := by
  unfold storage
  exact Context.lookup_reset_ne (x := .user name id) c old (by simp)

/-! ## The accessors and the visible data -/

/-- The visible data of a `Local` the current thread owns. -/
theorem view_of_owner {data : Dict} (h : storage c l = some ⟨i, data⟩) : view i c l = data := by
  simp [view, h]

/-- Nothing of a `Local` that another thread owns is visible. -/
theorem view_of_ne_owner {owner : Nat} {data : Dict} (h : storage c l = some ⟨owner, data⟩)
    (howner : owner ≠ i) : view i c l = ∅ := by
  simp [view, h, howner]

/-- Nothing of a `Local` without storage is visible. -/
theorem view_of_none (h : storage c l = none) : view i c l = ∅ := by
  simp [view, h]

/-- Reading a `Local` is reading its visible data. -/
theorem getattr_eq (i : Nat) (c : Context) (l : Nat) (key : String) :
    getattr i c l key = match (view i c l).lookup key with
      | some o => .ok o
      | none => .error (.attributeError key) := by
  unfold getattr view
  cases storage c l with
  | none => rfl
  | some s =>
      by_cases howner : s.owner = i
      · simp [howner]
      · simp [howner]

/-- Two threads that see the same data of a `Local` read the same. -/
theorem getattr_congr {j : Nat} {d : Context} (h : view i c l = view j d l) (key : String) :
    getattr i c l key = getattr j d l key := by
  rw [getattr_eq, getattr_eq, h]

/-- Writing inserts into the visible data and makes the current thread the owner. -/
theorem setattr_eq (i : Nat) (c : Context) (l : Nat) (key : String) (value : Obj) :
    setattr i c l key value = setStorage c l ⟨i, (view i c l).insert key value⟩ := rfl

/-- Deleting succeeds exactly on the keys of the visible data, and erases the key there. -/
theorem delattr_eq (i : Nat) (c : Context) (l : Nat) (key : String) :
    delattr i c l key = if key ∈ view i c l then
        .ok (setStorage c l ⟨i, (view i c l).erase key⟩)
      else .error (.attributeError key) := by
  unfold delattr view
  cases storage c l with
  | none => simp
  | some s =>
      by_cases howner : s.owner = i
      · simp [howner]
      · simp [howner]

/-- The view of a `Local` depends on its own variable only. -/
theorem view_congr {d : Context} (h : storage c l = storage d l) (i : Nat) :
    view i c l = view i d l := by
  unfold view
  rw [h]

/-! ## Moving storage between threads -/

/-- After `_restore_context` the current thread owns the data of a `Local` stored in the moved
context, if its storage is compared lawfully. -/
theorem storage_restoreContext_at {ne : Comparison} {moved : Context}
    (hne : ne.LawfulAt (.cvar l)) (h : restoreContext ne i c moved = (c', none)) {s : Storage}
    (hstored : storage moved l = some s) : storage c' l = some ⟨i, s.data⟩ := by
  obtain ⟨cvalue, hmoved, hlookup⟩ :=
    lookup_restoreContext_at (x := .cvar l) hne h hstored (by simp [ContextVar.default])
  cases hmoved
  exact hlookup

/-- **Restoring shows every `Local`.** After `_restore_context` the current thread owns the data of
each `Local` stored in the moved context, whoever owned it there. -/
theorem storage_restoreContext {ne : Comparison} (hne : ne.Lawful) {moved : Context}
    (h : restoreContext ne i c moved = (c', none)) {s : Storage}
    (hstored : storage moved l = some s) : storage c' l = some ⟨i, s.data⟩ :=
  storage_restoreContext_at (hne _) h hstored

/-- A `Local` without storage in the moved context keeps what it had. -/
theorem storage_restoreContext_none (ne : Comparison) {moved : Context}
    (hstored : storage moved l = none) :
    storage (restoreContext ne i c moved).1 l = storage c l :=
  lookup_restoreContext_none ne i hstored

/-- Whatever `_restore_context` did, the storage of a `Local` is as it was or the moved one. -/
theorem storage_restoreContext_or (ne : Comparison) (i : Nat) (c moved : Context) (l : Nat) :
    storage (restoreContext ne i c moved).1 l = storage c l ∨
      ∃ s, storage moved l = some s ∧
        storage (restoreContext ne i c moved).1 l = some ⟨i, s.data⟩ := by
  rcases lookup_restoreContext_or ne i c moved (.cvar l) with
    hkeep | ⟨s, cvalue, hstored, hmoved, hlookup⟩
  · exact .inl hkeep
  · cases hmoved
    exact .inr ⟨s, hstored, hlookup⟩

end Local

end Asgiref
