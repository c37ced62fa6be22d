import Asgiref.CopyOnWrite.Specification
import Asgiref.Lib.Simulation

/-! # `Local` with dicts on the heap

The dicts in which `Local` keeps its data are objects: a context holds references to them, so that
copying a context and re-homing a variable share them. Nothing is locked, so what other threads do
may come between any two of the atomic operations of which an accessor consists.

* **`Ref`**, **`Vars`** — the `(thread_id, data)` pair with a reference, and the variables of a
  context.
* **`Op`** — where a thread stands in `__getattr__`, `__setattr__` or `__delattr__`.
* **`proceed`** — its next atomic operation: looking up, copying or changing a dict, or
  `ContextVar.set`.
* **`restore`** — `_restore_context`, with `!=` as the negation of equality of dicts.
* **`machine`**, **`event`** — the machine, and what its steps return or raise. -/

namespace Asgiref.CopyOnWrite

/-- The `(thread_id, data)` pair of a `Local`; the dict is at an address. -/
structure Ref where
  owner : Nat
  data : Nat
  deriving DecidableEq

/-- The variables of a context that back non-thread-critical `Local`s. -/
abbrev Vars := AList fun _ : Nat => Ref

/-- Where a thread stands in an accessor. -/
inductive Op
  | idle
  /-- `self._cvar.get(None)` has returned `storage`. -/
  | getattr (l : Nat) (key : String) (storage : Option Ref)
  | setattr (l : Nat) (key : String) (value : Obj) (storage : Option Ref)
  /-- `data` is the copy, or a new dict. -/
  | setCopied (l : Nat) (key : String) (value : Obj) (data : Nat)
  /-- `data[key] = value` is done. -/
  | setWritten (l : Nat) (key : String) (value : Obj) (data : Nat)
  | delattr (l : Nat) (key : String) (storage : Option Ref)
  | delCopied (l : Nat) (key : String) (data : Nat)
  /-- `del data[key]` is done. -/
  | delErased (l : Nat) (key : String) (data : Nat)
  deriving DecidableEq

/-- The dict that an accessor has made and not set yet. -/
def Op.unpublished : Op → Option Nat
  | .setCopied _ _ _ data | .setWritten _ _ _ data | .delCopied _ _ data | .delErased _ _ data =>
      some data
  | .idle | .getattr .. | .setattr .. | .delattr .. => none

/-- All dicts, contexts and threads. -/
structure State where
  heap : Nat → Dict
  /-- The address of the next new dict. -/
  next : Nat
  context : Nat → Option Vars
  entered : Entered
  op : Nat → Op

/-- Nothing has been made yet. -/
def init : State := ⟨fun _ => ∅, 0, fun _ => none, .init, fun _ => .idle⟩

namespace State

/-- The context that thread `t` is in, and its variables. -/
def current (s : State) (t : Nat) : Option (Nat × Vars) :=
  match s.entered.stack t with
  | [] => none
  | c :: _ => (s.context c).map fun vars => (c, vars)

def setOp (s : State) (t : Nat) (op : Op) : State :=
  { s with op := Function.update s.op t op }

def setContext (s : State) (c : Nat) (vars : Vars) : State :=
  { s with context := Function.update s.context c (some vars) }

def setDict (s : State) (data : Nat) (d : Dict) : State :=
  { s with heap := Function.update s.heap data d }

/-- A new dict, at the address `s.next`. -/
def alloc (s : State) (d : Dict) : State :=
  { s with heap := Function.update s.heap s.next d, next := s.next + 1 }

end State

/-- `storage is not None and storage[0] == ident`, and then the dict. -/
def ownedData (t : Nat) : Option Ref → Option Nat
  | some ⟨owner, data⟩ => if owner = t then some data else none
  | none => none

/-- The call of an accessor of `l` by thread `t`, up to `self._cvar.get(None)`. -/
def call (t l : Nat) (op : Option Ref → Op) (s : State) : Option State :=
  match s.op t, s.current t with
  | .idle, some (_, vars) => some (s.setOp t (op (vars.lookup l)))
  | _, _ => none

/-- `self._cvar.set((ident, data))`, the end of an accessor. -/
def publish (t l data : Nat) (s : State) : Option State :=
  match s.current t with
  | none => none
  | some (c, vars) => some ((s.setContext c (vars.insert l ⟨t, data⟩)).setOp t .idle)

/-- The next atomic operation of thread `t` in its accessor, with what the accessor returns or
raises if it ends there. -/
def proceed (t : Nat) (s : State) : Option (State × Option Event) :=
  match s.op t with
  | .idle => none
  | .getattr l key storage =>
      let result := match (ownedData t storage).bind fun data => (s.heap data).lookup key with
        | some o => .ok o
        | none => .error (.attributeError key)
      some (s.setOp t .idle, some (.getattr t l key result))
  | .setattr l key value storage =>
      let data := match ownedData t storage with
        | some data => s.heap data
        | none => ∅
      some ((s.alloc data).setOp t (.setCopied l key value s.next), none)
  | .setCopied l key value data =>
      some ((s.setDict data ((s.heap data).insert key value)).setOp t
        (.setWritten l key value data), none)
  | .setWritten l key value data =>
      (publish t l data s).map (·, some (.setattr t l key value))
  | .delattr l key storage =>
      match (ownedData t storage).filter fun data => key ∈ s.heap data with
      | some data => some ((s.alloc (s.heap data)).setOp t (.delCopied l key s.next), none)
      | none => some (s.setOp t .idle, some (.delattr t l key (.error (.attributeError key))))
  | .delCopied l key data =>
      if key ∈ s.heap data then
        some ((s.setDict data ((s.heap data).erase key)).setOp t (.delErased l key data), none)
      -- `KeyError`
      else some (s.setOp t .idle, some (.delattr t l key (.error .lookupError)))
  | .delErased l key data =>
      (publish t l data s).map (·, some (.delattr t l key (.ok ())))

/-- `==` of two pairs: the owners are, and the dicts have the same items. -/
def Ref.eq (heap : Nat → Dict) (v w : Ref) : Bool :=
  v.owner = w.owner ∧ (heap v.data).entries.Perm (heap w.data).entries

/-- One turn of the loop of `_restore_context`, on thread `t`. -/
def restoreVar (heap : Nat → Dict) (t : Nat) (own : Vars) (l : Nat) (ref : Ref) : Vars :=
  -- `_rehome`: a new tuple around the same dict
  let cvalue : Ref := ⟨t, ref.data⟩
  match own.lookup l with
  | some v => if !(v.eq heap cvalue) then own.insert l cvalue else own
  | none => own.insert l cvalue

/-- The loop of `_restore_context`. -/
def restoreVars (heap : Nat → Dict) (t : Nat) (own : Vars) : List (Sigma fun _ : Nat => Ref) → Vars
  | [] => own
  | entry :: rest => restoreVars heap t (restoreVar heap t own entry.1 entry.2) rest

/-- `_restore_context` on context `c`, by thread `t`. -/
def restore (t c : Nat) (s : State) : Option State :=
  match s.op t, s.current t, s.context c with
  | .idle, some (own, vars), some moved =>
      some (s.setContext own (restoreVars s.heap t vars moved.entries))
  | _, _, _ => none

/-- A new context: an empty one, or a copy of another, which has the same references. -/
def create (c : Nat) (source : Option Nat) (s : State) : Option State :=
  match s.context c, source with
  | some _, _ => none
  | none, none => some (s.setContext c ∅)
  | none, some c' => (s.context c').map (s.setContext c)

/-- The start of `Context.run`: "cannot enter context: it is already entered". -/
def enter (t c : Nat) (s : State) : Option (State × Option Event) :=
  match s.op t, s.context c with
  | .idle, some _ =>
      if s.entered.isEntered c then some (s, some (.enter t c false))
      else some ({ s with entered := s.entered.enter t c }, some (.enter t c true))
  | _, _ => none

/-- The end of `Context.run`. -/
def leave (t : Nat) (s : State) : Option State :=
  match s.op t, s.entered.stack t with
  | .idle, c :: _ => some { s with entered := s.entered.leave t c }
  | _, _ => none

/-- What the threads do. -/
inductive Action
  | create (c : Nat) (source : Option Nat)
  | enter (t c : Nat)
  | leave (t : Nat)
  | getattr (t l : Nat) (key : String)
  | setattr (t l : Nat) (key : String) (value : Obj)
  | delattr (t l : Nat) (key : String)
  /-- The next atomic operation of an accessor. -/
  | proceed (t : Nat)
  | restore (t c : Nat)
  deriving DecidableEq

/-- One action, and the operation that it ends. -/
def act (s : State) : Action → Option (State × Option Event)
  | .create c source => (create c source s).map (·, some (.create c source))
  | .enter t c => enter t c s
  | .leave t => (leave t s).map (·, some (.leave t))
  | .getattr t l key => (call t l (.getattr l key) s).map (·, none)
  | .setattr t l key value => (call t l (.setattr l key value) s).map (·, none)
  | .delattr t l key => (call t l (.delattr l key) s).map (·, none)
  | .proceed t => proceed t s
  | .restore t c => (restore t c s).map (·, some (.restore t c))

/-- The machine of all threads. -/
def machine : Machine State Action := ⟨fun s a => (act s a).map Prod.fst⟩

/-- The operation that an action ends, with what it returns or raises. -/
def event (s : State) (a : Action) : Option Event := (act s a).bind Prod.snd

/-- The thread that takes an action. -/
def Action.thread : Action → Option Nat
  | .create .. => none
  | .enter t _ | .leave t | .getattr t .. | .setattr t .. | .delattr t .. | .proceed t
  | .restore t _ => some t

end Asgiref.CopyOnWrite
