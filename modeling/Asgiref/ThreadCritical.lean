import Asgiref.Local

/-! # `Local` with `thread_critical`

A thread-critical `Local` keeps its data on each thread apart. Sync code works on the attributes of
a `threading.local`; async code works on a dict in a context variable that the thread has made for
this `Local`. -/

namespace Asgiref

namespace ThreadCritical

/-- The attributes of `self._storage`, a `threading.local`, on one thread. -/
abbrev ThreadStorage := Dict

/-- `__getattr__` on a thread with no running loop. -/
def getattrSync (storage : ThreadStorage) (key : String) : Except PyError Obj :=
  match storage.lookup key with
  | some o => .ok o
  | none => .error (.attributeError key)

/-- `self._data.get({})` of the `_CVar` on thread `t`. -/
def data (c : Context) (l t : Nat) : Dict := (c.lookup (ContextVar.critical l t)).getD ∅

/-- `_CVar.__getattr__`. -/
def getattrAsync (c : Context) (l t : Nat) (key : String) : Except PyError Obj :=
  match (data c l t).lookup key with
  | some o => .ok o
  | none => .error (.attributeError key)

/-- `_CVar.__setattr__`: a changed copy of the dict is set. -/
def setattrAsync (c : Context) (l t : Nat) (key : String) (value : Obj) : Context :=
  c.insert (ContextVar.critical l t) ((data c l t).insert key value)

end ThreadCritical

end Asgiref
