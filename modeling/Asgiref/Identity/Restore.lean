import Asgiref.Context

/-! # `_restore_context`, object by object

Two objects can be equal and yet not the same, or the same and yet unequal. Here a value is known by
the object that it is; how objects compare is up to their classes, and may raise. The file models:

* **`Objects`** — `==` and `!=` of the objects, and the objects that `_rehome` makes.
* **`Value`**, **`Storage`**, **`Context`** — the values of context variables, and contexts.
* **`ne`** — `!=` of two values: the one of tuples and dicts goes through their items.
* **`get`** — `cvar.get()`, with the default of a variable that is not set.
* **`rehome`**, **`restoreContext`** — `_rehome`, and `_restore_context`, whose loop takes the turns
  of `restoreTurn`. -/

namespace Asgiref

namespace Identity

/-- An object, known by its identity. -/
abbrev Ref := Nat

/-- What a context variable of other code holds: a tuple with its items, or any other object. -/
inductive Value
  | tuple (ref : Ref) (items : List Ref)
  | other (ref : Ref)
  deriving DecidableEq, Repr

/-- The objects of a program, seen from the current thread. -/
structure Objects where
  /-- `v == w`, and the truth of its result. -/
  eq : Ref → Ref → Except PyError Bool
  /-- `v != w`, and the truth of its result. -/
  ne : Ref → Ref → Except PyError Bool
  /-- What `get_ident()` returns, as a number and as an object. -/
  ident : Nat
  identObject : Ref
  /-- The tuple that `_rehome` makes in the turn of a variable. -/
  rehomed : ContextVar → Ref
  /-- The object that a variable of other code was given as its `default=`, if it was given one. -/
  default : String → VarId → Option Value

/-- The object that a value is. -/
def Value.ref : Value → Ref
  | .tuple ref _ | .other ref => ref

/-- A dict with its entries, which are never changed: `Local` copies a dict to write to it. -/
structure DictObject where
  ref : Ref
  entries : AList fun _ : String => Ref

/-- The `(thread_id, data)` pair of a `Local`. -/
structure Storage where
  owner : Nat
  data : DictObject

/-- The values of a variable. -/
abbrev Val : ContextVar → Type
  | .user .. => Value
  | .cvar _ => Storage
  | .critical .. => DictObject

/-- `contextvars.Context`. -/
abbrev Context := AList Val

/-! ## Comparing -/

variable (o : Objects)

/-- How tuples and dicts compare their items: an object is taken for equal to itself. -/
def sameItem (v w : Ref) : Except PyError Bool := if v = w then .ok true else o.eq v w

/-- `!=` of two tuples: the first items that are not equal decide, or the lengths. -/
def tupleNe : List Ref → List Ref → Except PyError Bool
  | v :: vs, w :: ws =>
      match sameItem o v w with
      | .ok true => tupleNe vs ws
      | .ok false => .ok true
      | .error e => .error e
  | [], [] => .ok false
  | _, _ => .ok true

/-- These entries are in the dict, with equal values. -/
def entriesEq (d : DictObject) : List (Sigma fun _ : String => Ref) → Except PyError Bool
  | [] => .ok true
  | entry :: rest =>
      match d.entries.lookup entry.1 with
      | none => .ok false
      | some w =>
          match sameItem o w entry.2 with
          | .ok true => entriesEq d rest
          | r => r

/-- `==` of two dicts. -/
def dictEq (d d' : DictObject) : Except PyError Bool :=
  if d.entries.entries.length = d'.entries.entries.length then
    entriesEq o d' d.entries.entries
  else .ok false

/-- `!=` of two values of a variable. The pairs of a `Local` are tuples of an int and a dict. -/
def ne : (x : ContextVar) → Val x → Val x → Except PyError Bool
  | .user .., .tuple _ items, .tuple _ items' => tupleNe o items items'
  | .user .., v, w => o.ne v.ref w.ref
  | .cvar _, s, s' =>
      if s.owner = s'.owner then
        if s.data.ref = s'.data.ref then .ok false else (dictEq o s.data s'.data).map not
      else .ok true
  | .critical .., d, d' => (dictEq o d d').map not

/-! ## `_restore_context` -/

/-- `_rehome`, where `_restore_context` calls it: on the pair of a `Local`, and on a tuple that a
variable of other code holds under the same name. -/
def rehome : (x : ContextVar) → Val x → Except PyError (Val x)
  | .cvar _, s => .ok ⟨o.ident, s.data⟩
  | .critical .., d => .ok d
  | .user name id, .tuple ref items =>
      if name = cvarName then
        match items[1]? with
        | some item => .ok (.tuple (o.rehomed (.user name id)) [o.identObject, item])
        | none => .error .indexError
      else .ok (.tuple ref items)
  | .user .., .other ref => .ok (.other ref)

/-- The `default=` of a variable. asgiref makes all of its own without one. -/
def varDefault : (x : ContextVar) → Option (Val x)
  | .user name id => o.default name id
  | .cvar _ | .critical .. => none

/-- `cvar.get()`: the object that is set, or else the default; `none` where it raises
`LookupError`. -/
def get (c : Context) (x : ContextVar) : Option (Val x) := (c.lookup x).or (varDefault o x)

/-- A turn of the loop. -/
abbrev turn : Overlay.Turn Val PyError := restoreTurn (varDefault o) (rehome o) (ne o)

/-- `_restore_context`: the context that it leaves, and the exception that it raises. -/
def restoreContext (current moved : Context) : Context × Option PyError :=
  Overlay.run (turn o) current moved.entries

end Identity

end Asgiref
