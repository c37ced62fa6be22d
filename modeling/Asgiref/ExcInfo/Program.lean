import Asgiref.Lib.Traced
import Asgiref.Bridge.Program

/-! # The handled exception, across the bridges

What `sys.exc_info()` gives a frame is the exception of the innermost `except` block around it, in
its own code or in that of its callers. A frame across a bridge has other callers: a loop, or a
thread that runs it as an item of an executor. So the bridges take the exception along, and raise it
again around the awaitable or the function.

* **`Prog`** — frames that raise, catch, ask `sys.exc_info()`, and call each other across a bridge.
* **`Prog.inline`** — the program run with plain calls instead.
* **`mainWrap`** and **`threadHandler`** — what the child across a bridge handles;
  **`Prog.bridged`** is the run with these.
* **`Prog.Carries`** — the condition on the exceptions that cross, told by the inline run.

The loops themselves were started where nothing was handled. An exception crosses as the same
object, so `StopIteration`, which futures replace, and those that stop a loop are not among these;
nor are those whose truth test raises. -/

namespace Asgiref.ExcInfo

/-- Programs of a frame. -/
inductive Prog (Exc α : Type) : Side → Type
  /-- The frame, or a block of it, ends: with a value, or raising. -/
  | finish {side : Side} (r : Except Exc α) : Prog Exc α side
  /-- `sys.exc_info()[1]`. -/
  | excInfo {side : Side} (next : Option Exc → Prog Exc α side) : Prog Exc α side
  /-- `try: body`, `except BaseException as e: handler(e)`. -/
  | tryExcept {side : Side} (body : Prog Exc α side) (handler : Exc → Prog Exc α side)
      (next : α → Prog Exc α side) : Prog Exc α side
  /-- `async_to_sync(awaitable)()`. -/
  | asyncToSync (awaitable : Prog Exc α .async) (next : α → Prog Exc α .sync) : Prog Exc α .sync
  /-- `await sync_to_async(func, thread_sensitive=...)()`. -/
  | syncToAsync (threadSensitive : Bool) (func : Prog Exc α .sync)
      (next : α → Prog Exc α .async) : Prog Exc α .async
  /-- `await asyncio.create_task(coro)`. -/
  | task (coro : Prog Exc α .async) (next : α → Prog Exc α .async) : Prog Exc α .async

/-- The run of a frame: it shows what each frame below it finds handled when it starts, and all
answers of `sys.exc_info()`. -/
abbrev Run (Exc α : Type) := Traced Exc (Option Exc) α

variable {Exc α : Type} {side : Side}

namespace Prog

/-- Run a program with plain calls, in a frame that handles this exception. A task handles nothing
when it starts. -/
def inline : {side : Side} → Prog Exc α side → Option Exc → Run Exc α
  | _, .finish r, _ => ⟨r, []⟩
  | _, .excInfo next, handled => (inline (next handled) handled).after [handled]
  | _, .tryExcept body handler next, handled =>
      ((inline body handled).handle fun e => inline (handler e) (some e)).bind fun v =>
        inline (next v) handled
  | _, .asyncToSync awaitable next, handled =>
      ((inline awaitable handled).after [handled]).bind fun v => inline (next v) handled
  | _, .syncToAsync _ func next, handled =>
      ((inline func handled).after [handled]).bind fun v => inline (next v) handled
  | _, .task coro next, handled =>
      ((inline coro none).after [none]).bind fun v => inline (next v) handled

end Prog

/-! ## Across the bridges -/

section
variable (truthy : Exc → Bool)

/-- `if exc_info[1]:`, the child runs in an `except` block around `raise exc_info[1]`; otherwise it
handles what its thread does. -/
def populated (excInfo ambient : Option Exc) : Option Exc :=
  match excInfo with
  | some e => if truthy e then some e else ambient
  | none => ambient

/-- `AsyncToSync.main_wrap` runs as a task of a loop, which handles nothing. -/
def mainWrap (excInfo : Option Exc) : Option Exc := populated truthy excInfo none

/-- `SyncToAsync.thread_handler` runs as an item of an executor. -/
def threadHandler (excInfo ambient : Option Exc) : Option Exc := populated truthy excInfo ambient

/-- What the thread handles on which a function runs: a thread-sensitive one runs on that of the
innermost sync frame above, if there is one; this frame waits in `run_until_future`, and handles
`parked`. Workers of their own handle nothing. -/
def ambient (threadSensitive : Bool) (parked : Option Exc) : Option Exc :=
  if threadSensitive then parked else none

/-- Run a program across the bridges, in a frame that handles this exception; for an async frame,
`parked` is what the innermost sync frame above it handles, if there is one. -/
def Prog.bridged : {side : Side} → Prog Exc α side → (parked handled : Option Exc) → Run Exc α
  | _, .finish r, _, _ => ⟨r, []⟩
  | _, .excInfo next, parked, handled => (bridged (next handled) parked handled).after [handled]
  | _, .tryExcept body handler next, parked, handled =>
      ((bridged body parked handled).handle fun e => bridged (handler e) parked (some e)).bind
        fun v => bridged (next v) parked handled
  | _, .asyncToSync awaitable next, parked, handled =>
      ((bridged awaitable handled (mainWrap truthy handled)).after [mainWrap truthy handled]).bind
        fun v => bridged (next v) parked handled
  | _, .syncToAsync threadSensitive func next, parked, handled =>
      let child := threadHandler truthy handled (ambient threadSensitive parked)
      ((bridged func none child).after [child]).bind fun v => bridged (next v) parked handled
  | _, .task coro next, parked, handled =>
      ((bridged coro parked none).after [none]).bind fun v => bridged (next v) parked handled

/-! ## What crosses -/

/-- The child handles what its caller does: the exception is true, or its thread handles the same
one; and where there is none, its thread handles none. -/
def Carried (handled ambient : Option Exc) : Prop :=
  (∃ e, handled = some e ∧ truthy e = true) ∨ handled = ambient

/-- Every exception that is taken across a bridge in the inline run is carried. -/
def Prog.Carries : {side : Side} → Prog Exc α side → (parked handled : Option Exc) → Prop
  | _, .finish _, _, _ => True
  | _, .excInfo next, parked, handled => (next handled).Carries parked handled
  | _, .tryExcept body handler next, parked, handled =>
      (body.Carries parked handled ∧
        ∀ e, (body.inline handled).result = .error e → (handler e).Carries parked (some e)) ∧
      ∀ v, ((body.inline handled).handle fun e => (handler e).inline (some e)).result = .ok v →
        (next v).Carries parked handled
  | _, .asyncToSync awaitable next, parked, handled =>
      (Carried truthy handled none ∧ awaitable.Carries handled handled) ∧
      ∀ v, (awaitable.inline handled).result = .ok v → (next v).Carries parked handled
  | _, .syncToAsync threadSensitive func next, parked, handled =>
      (Carried truthy handled (ambient threadSensitive parked) ∧ func.Carries none handled) ∧
      ∀ v, (func.inline handled).result = .ok v → (next v).Carries parked handled
  | _, .task coro next, parked, handled =>
      coro.Carries parked none ∧
      ∀ v, (coro.inline none).result = .ok v → (next v).Carries parked handled

end

/-- The program starts no tasks. -/
def Prog.TaskFree : {side : Side} → Prog Exc α side → Prop
  | _, .finish _ => True
  | _, .excInfo next => ∀ handled, (next handled).TaskFree
  | _, .tryExcept body handler next =>
      body.TaskFree ∧ (∀ e, (handler e).TaskFree) ∧ ∀ v, (next v).TaskFree
  | _, .asyncToSync awaitable next => awaitable.TaskFree ∧ ∀ v, (next v).TaskFree
  | _, .syncToAsync _ func next => func.TaskFree ∧ ∀ v, (next v).TaskFree
  | _, .task _ _ => False

end Asgiref.ExcInfo
