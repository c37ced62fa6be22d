import Asgiref.Local

/-! # Programs of nested frames

What a frame of user code does, seen from asgiref: it works on context variables and `Local`s, and
it calls frames of the other kind across a bridge. What it does next may depend on everything it has
read, so a program is a tree whose branches are indexed by the answers.

* **`Op`** — one operation on the current context, and **`Op.apply`**, what it answers and leaves.
* **`Prog`** — the frames: a `sync` one calls an `async` child with `async_to_sync` (or starts a
  loop of its own with `asyncio.run`), an `async` one awaits a `sync` child with `sync_to_async` (or
  a task).
* **`Prog.inline`** — the same program run inline: every bridge call is a plain call in the one
  context of the one thread. -/

namespace Asgiref

/-- The two kinds of frame. -/
inductive Side
  | sync
  | async
  deriving DecidableEq, Repr

/-- What a call gives its caller: a value, or an exception. -/
abbrev Result := Except PyError Obj

/-- The answer to an operation. -/
inductive Reply
  /-- What a context variable is read with, or `none` where that raises `LookupError`. -/
  | var (v : Option Value)
  /-- The value of an attribute, or the exception raised. -/
  | result (r : Result)
  deriving DecidableEq

/-- An operation of a frame on its context. -/
inductive Op
  /-- `cvar.get()` or `cvar.get(fallback)`. -/
  | getVar (name : String) (id : VarId) (fallback : Option Value)
  | setVar (name : String) (id : VarId) (v : Value)
  /-- Reset a variable with the token of this number among those the frame made. -/
  | resetVar (token : Nat)
  | getattr (l : Nat) (key : String)
  | setattr (l : Nat) (key : String) (value : Obj)
  | delattr (l : Nat) (key : String)

/-- A token of `ContextVar.set`: the variable and the value it had. -/
structure Token where
  name : String
  id : VarId
  oldValue : Option Value

/-- The context a frame runs in, and the tokens it made, oldest first; a used one is `none`. -/
structure Scope where
  context : Context
  tokens : List (Option Token)

/-- Carry out an operation on the thread with this ident. -/
def Op.apply (getIdent : Nat) (s : Scope) : Op → Reply × Scope
  -- a fallback goes before the variable's own default
  | .getVar name id fallback =>
      (.var ((s.context.lookup (ContextVar.user name id)).or (fallback.or id.default)), s)
  | .setVar name id v =>
      (.result (.ok .none), {
        context := s.context.insert (ContextVar.user name id) v
        tokens := s.tokens ++ [some ⟨name, id, s.context.lookup (ContextVar.user name id)⟩] })
  | .resetVar n =>
      match s.tokens[n]? with
      | some (some token) =>
          (.result (.ok .none), {
            context := s.context.reset (ContextVar.user token.name token.id) token.oldValue
            tokens := s.tokens.set n none })
      | _ => (.result (.error (.runtimeError "Token has already been used once")), s)
  | .getattr l key => (.result (Local.getattr getIdent s.context l key), s)
  | .setattr l key value =>
      (.result (.ok .none), { s with context := Local.setattr getIdent s.context l key value })
  | .delattr l key =>
      match Local.delattr getIdent s.context l key with
      | .ok c => (.result (.ok .none), { s with context := c })
      | .error e => (.result (.error e), s)

/-- Programs of a frame. -/
inductive Prog : Side → Type
  /-- The frame returns or raises. -/
  | finish {side : Side} (r : Result) : Prog side
  | op {side : Side} (o : Op) (next : Reply → Prog side) : Prog side
  /-- `async_to_sync(awaitable, force_new_loop=...)()`. -/
  | asyncToSync (forceNewLoop : Bool) (awaitable : Prog .async) (next : Result → Prog .sync) :
      Prog .sync
  /-- `asyncio.run(main)`. -/
  | asyncioRun (main : Prog .async) (next : Result → Prog .sync) : Prog .sync
  /-- `await sync_to_async(func, thread_sensitive=..., context=...)()`. -/
  | syncToAsync (threadSensitive : Bool) (context : Option Context) (func : Prog .sync)
      (next : Result → Prog .async) : Prog .async
  /-- `await asyncio.create_task(coro)`: the task runs in a copy of the frame's context. -/
  | task (coro : Prog .async) (next : Result → Prog .async) : Prog .async

/-- How the run of a frame's program ends: its result, its last scope, and the answers to all
operations, in order, over all frames below. -/
structure Ending where
  result : Result
  scope : Scope
  replies : List Reply

/-- The ending of a run that began with these answers. -/
def Ending.after (e : Ending) (replies : List Reply) : Ending :=
  { e with replies := replies ++ e.replies }

namespace Prog

/-- Every operation of the program satisfies `P`, whatever the answers are. -/
def AllOps (P : Op → Prop) : {side : Side} → Prog side → Prop
  | _, .finish _ => True
  | _, .op o next => P o ∧ ∀ reply, (next reply).AllOps P
  | _, .asyncToSync _ child next => child.AllOps P ∧ ∀ r, (next r).AllOps P
  | _, .asyncioRun child next => child.AllOps P ∧ ∀ r, (next r).AllOps P
  | _, .syncToAsync _ _ child next => child.AllOps P ∧ ∀ r, (next r).AllOps P
  | _, .task child next => child.AllOps P ∧ ∀ r, (next r).AllOps P

/-- The program crosses threads by the two bridges only, and leaves the context to them. -/
def Bridged : {side : Side} → Prog side → Prop
  | _, .finish _ => True
  | _, .op _ next => ∀ reply, (next reply).Bridged
  | _, .asyncToSync _ child next => child.Bridged ∧ ∀ r, (next r).Bridged
  | _, .asyncioRun _ _ => False
  | _, .syncToAsync _ context child next =>
      context = none ∧ child.Bridged ∧ ∀ r, (next r).Bridged
  | _, .task child next => child.Bridged ∧ ∀ r, (next r).Bridged

/-- Run a program inline in one context, on the thread with this ident. A child frame makes its own
tokens. -/
def inline (getIdent : Nat) : {side : Side} → Prog side → Scope → Ending
  | _, .finish r, s => ⟨r, s, []⟩
  | _, .op o next, s =>
      let (reply, s') := o.apply getIdent s
      (inline getIdent (next reply) s').after [reply]
  | _, .asyncToSync _ child next, s =>
      let e := inline getIdent child ⟨s.context, []⟩
      (inline getIdent (next e.result) ⟨e.scope.context, s.tokens⟩).after e.replies
  | _, .syncToAsync _ _ child next, s =>
      let e := inline getIdent child ⟨s.context, []⟩
      (inline getIdent (next e.result) ⟨e.scope.context, s.tokens⟩).after e.replies
  -- a task and the main task of a nested loop run in a copy of the context
  | _, .asyncioRun child next, s =>
      let e := inline getIdent child ⟨s.context, []⟩
      (inline getIdent (next e.result) s).after e.replies
  | _, .task child next, s =>
      let e := inline getIdent child ⟨s.context, []⟩
      (inline getIdent (next e.result) s).after e.replies

end Prog

end Asgiref
