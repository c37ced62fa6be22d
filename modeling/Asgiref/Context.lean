import Asgiref.Lib.Overlay

/-! # Context variables and `_restore_context`

A `contextvars.Context` is an immutable finite map from variables to values; copying one is free,
and setting a variable replaces the map that the running code holds. This file models:

* **`ContextVar`** — a variable of other code, with its name and its `default=`, or the one backing
  a `Local`; the type of its values depends on which it is.
* **`Context.get`** — `cvar.get()`, which gives the default of a variable that is not set.
* **`Storage`** — the `(thread_id, data)` pair in which a `Local` keeps its data.
* **`movedValue`**, **`restoreVar`**, **`restoreContext`** — the re-homing that `_restore_context`
  applies to a value, one turn of its loop, and the loop. Comparing two values is a parameter, since
  `!=` is defined by the values' class and may raise.
* **`get_restoreContext`** — for a comparison that is the negation of equality, what the moved
  context contributes to every variable: restoring is overwriting, except that a variable which is
  not set stays so where its default is the moved value. -/

namespace Asgiref

/-- The exceptions that the modelled code raises or sorts. -/
inductive PyError
  | attributeError (key : String)
  | lookupError
  | indexError
  | runtimeError (message : String)
  /-- `asyncio.CancelledError`. -/
  | cancelledError
  /-- Any other exception, raised by code that uses asgiref. -/
  | other (n : Nat)
  deriving DecidableEq, Repr

/-- Whether `except LookupError` catches the exception. -/
def PyError.isLookupError : PyError → Bool
  | .lookupError | .indexError => true
  | _ => false

/-- Python objects: the ones asgiref builds or tests, and all others. -/
inductive Obj
  | none
  | bool (b : Bool)
  | int (n : Nat)
  /-- A `CurrentThreadExecutor`. -/
  | executor (e : Nat)
  | other (n : Nat)
  deriving DecidableEq, Repr

/-- Python's truth value of an object. -/
def Obj.truthy : Obj → Bool
  | .none => false
  | .bool b => b
  | .int n => n ≠ 0
  | .executor _ | .other _ => true

/-- The data of a `Local`: attribute names and values. -/
abbrev Dict := AList fun _ : String => Obj

/-- Two dicts are equal when their entries are. -/
instance : DecidableEq Dict := fun d d' =>
  decidable_of_iff (d.entries = d'.entries) AList.ext_iff.symm

/-- The `(thread_id, data)` pair of a `Local`. -/
structure Storage where
  owner : Nat
  data : Dict

instance : DecidableEq Storage
  | ⟨o, d⟩, ⟨o', d'⟩ => decidable_of_iff (o = o' ∧ d = d') (by simp)

/-- What a context variable of other code can hold: a tuple, which `_restore_context` looks at, or
any other object. -/
inductive Value
  | obj (o : Obj)
  | tuple (items : List Obj)
  deriving DecidableEq, Repr

namespace Value

/-- `type(cvalue) is tuple`. -/
def isTuple : Value → Bool
  | .obj _ => false
  | .tuple _ => true

/-- Python's truth value. -/
def truthy : Value → Bool
  | .obj o => o.truthy
  | .tuple items => !items.isEmpty

end Value

/-- The name of the variable backing every non-thread-critical `Local`. -/
def cvarName : String := "asgiref.local"

/-- What tells apart the variables of other code that bear one name, and the `default=` that a
variable was made with, if it was. -/
structure VarId where
  number : Nat
  default : Option Value
  deriving DecidableEq, Repr

/-- A context variable: one of other code, which may bear any name, the `_cvar` of a `Local`, or the
`_data` of the `_CVar` that a `thread_critical` `Local` has made on a thread. -/
inductive ContextVar
  | user (name : String) (id : VarId)
  | cvar (l : Nat)
  | critical (l t : Nat)
  deriving DecidableEq, Repr

namespace ContextVar

/-- `ContextVar.name`. -/
def name : ContextVar → String
  | .user name _ => name
  | .cvar _ => cvarName
  | .critical .. => "asgiref.local.thread_critical"

/-- The values of a variable. Those of a `Local` are private to it, so they only ever hold what the
`Local` builds. -/
abbrev Val : ContextVar → Type
  | .user .. => Value
  | .cvar _ => Storage
  | .critical .. => Dict

instance : (x : ContextVar) → DecidableEq x.Val
  | .user .. => inferInstanceAs (DecidableEq Value)
  | .cvar _ => inferInstanceAs (DecidableEq Storage)
  | .critical .. => inferInstanceAs (DecidableEq Dict)

/-- The `default=` of a variable. asgiref makes all of its own without one. -/
def default : (x : ContextVar) → Option x.Val
  | .user _ id => id.default
  | .cvar _ | .critical .. => none

end ContextVar

/-- `contextvars.Context`: the variables that are set, and their values. -/
abbrev Context := AList ContextVar.Val

/-- `cvar.get()`: the value that is set, or else the default; `none` where it raises
`LookupError`. -/
def Context.get (c : Context) (x : ContextVar) : Option x.Val := (c.lookup x).or x.default

theorem Context.get_of_lookup {c : Context} {x : ContextVar} {v : x.Val}
    (h : c.lookup x = some v) : c.get x = some v := by
  rw [Context.get, h, Option.some_or]

/-- A variable without a default has the value that is set, if any. -/
theorem Context.get_of_default {x : ContextVar} (c : Context) (h : x.default = none) :
    c.get x = c.lookup x := by
  rw [Context.get, h, Option.or_none]

/-- `Token.reset`: the variable gets back the value it had, or becomes unset again. -/
def Context.reset (c : Context) (x : ContextVar) : Option x.Val → Context
  | some v => c.insert x v
  | none => c.erase x

theorem Context.lookup_reset_self (c : Context) (x : ContextVar) (old : Option x.Val) :
    (c.reset x old).lookup x = old := by
  cases old with
  | none => exact AList.lookup_erase x c
  | some v => exact AList.lookup_insert c

theorem Context.lookup_reset_ne (c : Context) {x y : ContextVar} (old : Option x.Val)
    (h : y ≠ x) : (c.reset x old).lookup y = c.lookup y := by
  cases old with
  | none => exact AList.lookup_erase_ne h
  | some v => exact AList.lookup_insert_ne h

/-! ## `_rehome` and `_restore_context` -/

/-- How `!=` compares two values of a variable: their class defines it, and it may raise. -/
abbrev Comparison := (x : ContextVar) → x.Val → x.Val → Except PyError Bool

/-- `!=` is the negation of equality. -/
def Comparison.Lawful (ne : Comparison) : Prop := ∀ x v w, ne x v w = .ok (decide (v ≠ w))

/-- `!=` is the negation of equality for the values of this variable. -/
def Comparison.LawfulAt (ne : Comparison) (x : ContextVar) : Prop :=
  ∀ v w, ne x v w = .ok (decide (v ≠ w))

/-- The comparison of values that follow the rule. -/
def Comparison.plain : Comparison := fun _ v w => .ok (decide (v ≠ w))

theorem Comparison.plain_lawful : Comparison.plain.Lawful := fun _ _ _ => rfl

/-- `_rehome` on the storage of a `Local`: the current thread becomes its owner. -/
def Storage.rehome (getIdent : Nat) (storage : Storage) : Storage := ⟨getIdent, storage.data⟩

/-- `_rehome` on a tuple of other code: `storage[1]` is the second item, whatever it is, and
raises on a shorter tuple. -/
def rehomeTuple (getIdent : Nat) (items : List Obj) : Except PyError Value :=
  match items[1]? with
  | some o => .ok (.tuple [.int getIdent, o])
  | none => .error .indexError

/-- The value that `_restore_context` moves for a variable: a tuple in a variable of the name
`cvarName` is re-homed. The pair of a `Local` always is one; a foreign variable of that name may
hold one. -/
def movedValue (getIdent : Nat) : (x : ContextVar) → x.Val → Except PyError x.Val
  | .cvar _, storage => .ok (Storage.rehome getIdent storage)
  | .critical .., data => .ok data
  | .user name _, .tuple items =>
      if name = cvarName then rehomeTuple getIdent items else .ok (.tuple items)
  | .user .., .obj o => .ok (.obj o)

/-- One turn of the loop of `_restore_context`. The comparison stands inside the `try`, so a
`LookupError` that it raises is taken for an unset variable. -/
def restoreVar (ne : Comparison) (getIdent : Nat) (current : Context) (x : ContextVar) (v : x.Val) :
    Except PyError Context :=
  match movedValue getIdent x v with
  | .error e => .error e
  | .ok cvalue =>
      match current.get x with
      -- the variable is not set and has no default
      | none => .ok (current.insert x cvalue)
      | some w =>
          match ne x w cvalue with
          | .ok true => .ok (current.insert x cvalue)
          | .ok false => .ok current
          | .error e => if e.isLookupError then .ok (current.insert x cvalue) else .error e

/-- The loop of `_restore_context` over these variables and values: the context that it leaves, and
the exception that ended it early. -/
def restoreEntries (ne : Comparison) (getIdent : Nat) (current : Context) :
    List (Sigma ContextVar.Val) → Context × Option PyError
  | [] => (current, none)
  | entry :: rest =>
      match restoreVar ne getIdent current entry.1 entry.2 with
      | .ok c => restoreEntries ne getIdent c rest
      | .error e => (current, some e)

/-- `_restore_context`. -/
def restoreContext (ne : Comparison) (getIdent : Nat) (current moved : Context) :
    Context × Option PyError :=
  restoreEntries ne getIdent current moved.entries

/-! ## A turn of the loop -/

section Turn

variable {β : ContextVar → Type} {default : (x : ContextVar) → Option (β x)}
  {rehome : (x : ContextVar) → β x → Except PyError (β x)}
  {ne : (x : ContextVar) → β x → β x → Except PyError Bool}

/-- What a turn sets its variable to, if it does, for whatever stands for the values. -/
def restoreTurn (default : (x : ContextVar) → Option (β x))
    (rehome : (x : ContextVar) → β x → Except PyError (β x))
    (ne : (x : ContextVar) → β x → β x → Except PyError Bool) : Overlay.Turn β PyError :=
  fun x there v =>
    match rehome x v with
    | .error e => .error e
    | .ok cvalue =>
        match there.or (default x) with
        -- the variable is not set and has no default
        | none => .ok (some cvalue)
        | some w =>
            match ne x w cvalue with
            | .ok true => .ok (some cvalue)
            | .ok false => .ok none
            | .error e => if e.isLookupError then .ok (some cvalue) else .error e

variable {x : ContextVar} {there : Option (β x)} {v cvalue : β x}

/-- A turn raises what re-homing raises. -/
theorem restoreTurn_eq_error {e : PyError} (hrehome : rehome x v = .error e) :
    restoreTurn default rehome ne x there v = .error e := by
  simp only [restoreTurn, hrehome]

/-- A turn that does not raise has re-homed the value. -/
theorem exists_of_restoreTurn {r : Option (β x)}
    (h : restoreTurn default rehome ne x there v = .ok r) : ∃ cvalue, rehome x v = .ok cvalue := by
  cases hrehome : rehome x v with
  | error e =>
      rw [restoreTurn_eq_error hrehome] at h
      cases h
  | ok cvalue => exact ⟨cvalue, rfl⟩

/-- A turn leaves the variable where its value, or its default, is found not unequal. -/
theorem restoreTurn_eq_none_iff (hrehome : rehome x v = .ok cvalue) :
    restoreTurn default rehome ne x there v = .ok none ↔
      ∃ w, there.or (default x) = some w ∧ ne x w cvalue = .ok false := by
  unfold restoreTurn
  rw [hrehome]
  cases there.or (default x) with
  | none => simp
  | some w =>
      cases hne : ne x w cvalue with
      | ok b => cases b <;> simp [hne]
      | error e => cases he : e.isLookupError <;> simp [hne, he]

/-- A turn that sets the variable sets it to the moved value. -/
theorem restoreTurn_eq_some (hrehome : rehome x v = .ok cvalue) {w : β x}
    (h : restoreTurn default rehome ne x there v = .ok (some w)) : w = cvalue := by
  unfold restoreTurn at h
  rw [hrehome] at h
  generalize there.or (default x) = get at h
  cases get with
  | none =>
      cases h
      rfl
  | some w' =>
      cases hne : ne x w' cvalue with
      | ok b =>
          cases b with
          | true =>
              simp only [hne] at h
              cases h
              rfl
          | false => simp [hne] at h
      | error e =>
          cases he : e.isLookupError with
          | true =>
              simp only [hne, he] at h
              cases h
              rfl
          | false => simp [hne, he] at h

/-- A turn raises what the comparison raises, unless that is a `LookupError`. -/
theorem restoreTurn_eq_error_iff (hrehome : rehome x v = .ok cvalue) {e : PyError} :
    restoreTurn default rehome ne x there v = .error e ↔
      ∃ w, there.or (default x) = some w ∧ ne x w cvalue = .error e ∧ e.isLookupError = false := by
  unfold restoreTurn
  rw [hrehome]
  cases there.or (default x) with
  | none => simp
  | some w =>
      cases hne : ne x w cvalue with
      | ok b => cases b <;> simp [hne]
      | error e' =>
          cases he : e'.isLookupError with
          | true =>
              have hnot : e' = e → ¬ e.isLookupError = false := by
                rintro rfl
                simp [he]
              simpa [hne, he] using hnot
          | false =>
              have hsame : e' = e → e.isLookupError = false := by
                rintro rfl
                exact he
              simpa [hne, he] using hsame

end Turn

/-- What a turn of `_restore_context` sets its variable to. -/
abbrev contextTurn (ne : Comparison) (i : Nat) : Overlay.Turn ContextVar.Val PyError :=
  restoreTurn ContextVar.default (movedValue i) ne

/-- A turn of the loop, on the context as a whole. -/
theorem restoreVar_eq (ne : Comparison) (i : Nat) (c : Context) (x : ContextVar) (v : x.Val) :
    restoreVar ne i c x v =
      (contextTurn ne i x (c.lookup x) v).map fun r => r.elim c (c.insert x) := by
  unfold restoreVar contextTurn restoreTurn Context.get
  cases movedValue i x v with
  | error e => rfl
  | ok cvalue =>
      cases (c.lookup x).or x.default with
      | none => simp [Except.map]
      | some w =>
          cases hne : ne x w cvalue with
          | ok b => cases b <;> simp [hne, Except.map]
          | error e => cases he : e.isLookupError <;> simp [hne, he, Except.map]

/-- **The loop is an overlay** of the moved context on the current one. -/
theorem restoreEntries_eq_run (ne : Comparison) (i : Nat) (c : Context)
    (entries : List (Sigma ContextVar.Val)) :
    restoreEntries ne i c entries = Overlay.run (contextTurn ne i) c entries := by
  induction entries generalizing c with
  | nil => rfl
  | cons entry rest ih =>
      unfold restoreEntries Overlay.run
      rw [restoreVar_eq]
      cases contextTurn ne i entry.1 (c.lookup entry.1) entry.2 with
      | error e => rfl
      | ok r => cases r <;> exact ih _

/-! ## What restoring leaves -/

section Restoring

variable {ne : Comparison} {i : Nat} {current moved c : Context} {x : ContextVar}

/-- What the loop leaves in a variable of the moved context, by what its turn does. -/
theorem lookup_restoreContext_turn (ne : Comparison) (i : Nat) (current : Context) {v : x.Val}
    (hx : moved.lookup x = some v) :
    (restoreContext ne i current moved).1.lookup x = current.lookup x ∧
        ((restoreContext ne i current moved).2 = none →
          contextTurn ne i x (current.lookup x) v = .ok none) ∨
      ∃ w, contextTurn ne i x (current.lookup x) v = .ok (some w) ∧
        (restoreContext ne i current moved).1.lookup x = some w := by
  unfold restoreContext
  rw [restoreEntries_eq_run]
  exact Overlay.lookup_run _ _ moved.nodupKeys (AList.mem_lookup_iff.mp hx)

/-- A variable that the moved context does not have is untouched. -/
theorem lookup_restoreContext_none (ne : Comparison) (i : Nat) {current moved : Context}
    {x : ContextVar} (hx : moved.lookup x = none) :
    (restoreContext ne i current moved).1.lookup x = current.lookup x := by
  rw [AList.lookup_eq_none] at hx
  unfold restoreContext
  rw [restoreEntries_eq_run]
  exact Overlay.lookup_run_notMem _ _ hx

/-- Whatever `_restore_context` did, a variable is as it was or has its moved value. -/
theorem lookup_restoreContext_or (ne : Comparison) (i : Nat) (current moved : Context)
    (x : ContextVar) :
    (restoreContext ne i current moved).1.lookup x = current.lookup x ∨
      ∃ v cvalue, moved.lookup x = some v ∧ movedValue i x v = .ok cvalue ∧
        (restoreContext ne i current moved).1.lookup x = some cvalue := by
  cases hx : moved.lookup x with
  | none => exact .inl (lookup_restoreContext_none ne i hx)
  | some v =>
      rcases lookup_restoreContext_turn ne i current hx with ⟨hkeep, -⟩ | ⟨w, hset, hw⟩
      · exact .inl hkeep
      · obtain ⟨cvalue, hmoved⟩ := exists_of_restoreTurn hset
        rw [restoreTurn_eq_some hmoved hset] at hw
        exact .inr ⟨v, cvalue, rfl, hmoved, hw⟩

/-- If `_restore_context` did not raise, every variable of the moved context has a value, if only
its default. -/
theorem isSome_restoreContext (h : restoreContext ne i current moved = (c, none))
    (hx : (moved.lookup x).isSome) : (c.get x).isSome := by
  obtain ⟨v, hv⟩ := Option.isSome_iff_exists.mp hx
  obtain rfl : (restoreContext ne i current moved).1 = c := congrArg Prod.fst h
  have hnone : (restoreContext ne i current moved).2 = none := congrArg Prod.snd h
  rcases lookup_restoreContext_turn ne i current hv with ⟨hkeep, hleft⟩ | ⟨w, -, hw⟩
  · have hturn := hleft hnone
    obtain ⟨cvalue, hmoved⟩ := exists_of_restoreTurn hturn
    obtain ⟨w, hw, -⟩ := (restoreTurn_eq_none_iff hmoved).mp hturn
    rw [Context.get, hkeep, hw]
    rfl
  · rw [Context.get_of_lookup hw]
    rfl

/-- A variable whose values are compared lawfully ends with its moved value, if `_restore_context`
did not raise: it is set to it, or was not set and has it as its default. -/
theorem get_restoreContext_at (hne : ne.LawfulAt x)
    (h : restoreContext ne i current moved = (c, none)) {v : x.Val}
    (hx : moved.lookup x = some v) :
    ∃ cvalue, movedValue i x v = .ok cvalue ∧ c.get x = some cvalue ∧
      (c.lookup x = some cvalue ∨
        c.lookup x = none ∧ current.lookup x = none ∧ x.default = some cvalue) := by
  obtain rfl : (restoreContext ne i current moved).1 = c := congrArg Prod.fst h
  have hnone : (restoreContext ne i current moved).2 = none := congrArg Prod.snd h
  rcases lookup_restoreContext_turn ne i current hx with ⟨hkeep, hleft⟩ | ⟨w, hset, hw⟩
  · -- an equal value is not set again, and need not be
    have hturn := hleft hnone
    obtain ⟨cvalue, hmoved⟩ := exists_of_restoreTurn hturn
    obtain ⟨w, hw, hequal⟩ := (restoreTurn_eq_none_iff hmoved).mp hturn
    rw [hne w cvalue, Except.ok.injEq, decide_eq_false_iff_not, not_not] at hequal
    subst hequal
    refine ⟨w, hmoved, by rw [Context.get, hkeep, hw], ?_⟩
    rw [hkeep]
    cases hlookup : current.lookup x with
    | some w' =>
        rw [hlookup, Option.some_or] at hw
        exact .inl hw
    | none =>
        rw [hlookup, Option.none_or] at hw
        exact .inr ⟨rfl, rfl, hw⟩
  · obtain ⟨cvalue, hmoved⟩ := exists_of_restoreTurn hset
    rw [restoreTurn_eq_some hmoved hset] at hw
    exact ⟨cvalue, hmoved, Context.get_of_lookup hw, .inl hw⟩

/-- Such a variable is set to its moved value, unless it was not set and has it as its default. -/
theorem lookup_restoreContext_at (hne : ne.LawfulAt x)
    (h : restoreContext ne i current moved = (c, none)) {v : x.Val}
    (hx : moved.lookup x = some v)
    (hset : current.lookup x = none → ∀ cvalue, movedValue i x v = .ok cvalue →
      x.default ≠ some cvalue) :
    ∃ cvalue, movedValue i x v = .ok cvalue ∧ c.lookup x = some cvalue := by
  obtain ⟨cvalue, hmoved, -, hlookup | ⟨-, hunset, hdefault⟩⟩ := get_restoreContext_at hne h hx
  · exact ⟨cvalue, hmoved, hlookup⟩
  · exact absurd hdefault (hset hunset cvalue hmoved)

/-- A variable that was not set and has its moved value as its default stays so. -/
theorem lookup_restoreContext_default (hne : ne.LawfulAt x) {v cvalue : x.Val}
    (hx : moved.lookup x = some v) (hmoved : movedValue i x v = .ok cvalue)
    (hunset : current.lookup x = none) (hdefault : x.default = some cvalue) :
    (restoreContext ne i current moved).1.lookup x = none := by
  rcases lookup_restoreContext_turn ne i current hx with ⟨hkeep, -⟩ | ⟨w, hset, -⟩
  · exact hkeep.trans hunset
  · have hequal : ne x cvalue cvalue = .ok false := by
      rw [hne cvalue cvalue]
      simp
    have hleft : contextTurn ne i x (current.lookup x) v = .ok none :=
      (restoreTurn_eq_none_iff hmoved).mpr
        ⟨cvalue, by rw [hunset, Option.none_or, hdefault], hequal⟩
    rw [hleft] at hset
    cases hset

/-- **Restoring is overwriting.** For a lawful comparison every variable of the moved context ends
with its moved value, if `_restore_context` did not raise; it is set to it, unless it was not set
and has it as its default. -/
theorem get_restoreContext (hne : ne.Lawful) (h : restoreContext ne i current moved = (c, none))
    {v : x.Val} (hx : moved.lookup x = some v) :
    ∃ cvalue, movedValue i x v = .ok cvalue ∧ c.get x = some cvalue ∧
      (c.lookup x = some cvalue ∨
        c.lookup x = none ∧ current.lookup x = none ∧ x.default = some cvalue) :=
  get_restoreContext_at (hne x) h hx

/-- The value can be moved, and comparing it with what is there, or with the default, raises nothing
but a `LookupError`. -/
def RestorableVar (ne : Comparison) (i : Nat) (current : Context) (x : ContextVar) (v : x.Val) :
    Prop :=
  ∃ cvalue, movedValue i x v = .ok cvalue ∧
    ∀ w e, current.get x = some w → ne x w cvalue = .error e → e.isLookupError = true

/-- `_restore_context` can move every variable. -/
def Restorable (ne : Comparison) (i : Nat) (current moved : Context) : Prop :=
  ∀ x v, moved.lookup x = some v → RestorableVar ne i current x v

/-- **When a turn of the loop raises.** -/
theorem restorableVar_iff {v : x.Val} : RestorableVar ne i current x v ↔
    ∀ e, contextTurn ne i x (current.lookup x) v ≠ .error e := by
  constructor
  · rintro ⟨cvalue, hmoved, hlookup⟩ e herror
    obtain ⟨w, hw, hne, hnot⟩ := (restoreTurn_eq_error_iff hmoved).mp herror
    rw [hlookup w e hw hne] at hnot
    cases hnot
  · intro h
    cases hmoved : movedValue i x v with
    | error e => exact absurd (restoreTurn_eq_error hmoved) (h e)
    | ok cvalue =>
        refine ⟨cvalue, hmoved, fun w e hw hne => ?_⟩
        by_contra hnot
        rw [Bool.not_eq_true] at hnot
        exact h e ((restoreTurn_eq_error_iff hmoved).mpr ⟨w, hw, hne, hnot⟩)

/-- For a lawful comparison a turn of the loop raises only where re-homing the value does. -/
theorem RestorableVar.of_lawful (hne : ne.Lawful) (c : Context) {v cvalue : x.Val}
    (hmoved : movedValue i x v = .ok cvalue) : RestorableVar ne i c x v := by
  refine ⟨cvalue, hmoved, fun w e _ hraise => ?_⟩
  rw [hne x w cvalue] at hraise
  cases hraise

/-- **When restoring raises.** The loop runs to its end exactly where every turn of it can move its
variable, from the context as it was before the loop. -/
theorem restoreContext_none_iff :
    (restoreContext ne i current moved).2 = none ↔ Restorable ne i current moved := by
  unfold restoreContext
  rw [restoreEntries_eq_run, Overlay.run_none_iff moved.nodupKeys]
  constructor
  · exact fun h x v hx => restorableVar_iff.mpr (h ⟨x, v⟩ (AList.mem_lookup_iff.mp hx))
  · exact fun h entry hmem =>
      restorableVar_iff.mp (h entry.1 entry.2 (AList.mem_lookup_iff.mpr hmem))

/-- **Restoring succeeds** for a lawful comparison wherever each moved value can be re-homed. -/
theorem restoreContext_ok (hne : ne.Lawful) (current moved : Context)
    (hmoved : ∀ x v, moved.lookup x = some v → ∃ cvalue, movedValue i x v = .ok cvalue) :
    ∃ c, restoreContext ne i current moved = (c, none) := by
  have hrestorable : Restorable ne i current moved := fun x v hx =>
    have ⟨_, hcvalue⟩ := hmoved x v hx
    .of_lawful hne current hcvalue
  exact ⟨_, Prod.ext rfl (restoreContext_none_iff.mpr hrestorable)⟩

end Restoring

end Asgiref
