import Asgiref.Lib.Machine
import Asgiref.Local

/-! # Threads, contexts and `Local`s of a process

Threads come and go, and their idents may be used again. Each runs in a context: an empty one, a
copy of the context of the thread that started it, or one that it was given; and it may enter
further ones. A context is run in by one thread at a time, but it outlives the thread, and anyone
may copy it.

* **`State`** — the threads with their idents and the contexts they are in, and the contexts.
* **`Action`**, **`machine`** — threads that start, run in contexts, use attributes of `Local`s, and
  exit, in any order; **`step_inv`** says what a step asks and does. -/

namespace Asgiref.Process

open Local

abbrev ThreadId := Nat
abbrev ContextId := Nat

/-- The process. Threads and contexts are numbered in the order in which they were made. -/
structure State where
  ident : ThreadId → Nat
  /-- The contexts that a thread is in, the current one first; none before it starts and after it
  exits. -/
  entered : ThreadId → List ContextId
  context : ContextId → Context
  nextThread : ThreadId
  nextContext : ContextId
  /-- Every attribute that was ever set: by which thread, of which `Local`. -/
  written : List (ThreadId × Nat × String × Obj)

/-- A process with its main thread, in an empty context. -/
def init (ident : Nat) : State where
  ident _ := ident
  entered t := if t = 0 then [0] else []
  context _ := ∅
  nextThread := 1
  nextContext := 1
  written := []

/-- In which context a thread starts. -/
inductive Start
  | empty
  /-- In a copy of the current context of the thread that starts it. -/
  | inherit
  /-- In this context. -/
  | entering (c : ContextId)

/-- What threads do. -/
inductive Action
  | start (parent : ThreadId) (ident : Nat) (how : Start)
  | exit (t : ThreadId)
  /-- A context is copied; `copy_context` copies the current one. -/
  | copy (c : ContextId)
  /-- `Context.run` begins. -/
  | enter (t : ThreadId) (c : ContextId)
  /-- `Context.run` ends. -/
  | leave (t : ThreadId)
  | setattr (t : ThreadId) (l : Nat) (key : String) (value : Obj)
  | delattr (t : ThreadId) (l : Nat) (key : String)

namespace State

variable (s : State)

/-- No living thread has the ident. -/
def unused (ident : Nat) : Bool :=
  (List.range s.nextThread).all fun t => (s.entered t).isEmpty || s.ident t != ident

/-- The context exists, and no thread is in it. -/
def free (c : ContextId) : Bool :=
  decide (c < s.nextContext) && (List.range s.nextThread).all fun t => decide (c ∉ s.entered t)

/-- A new context. -/
def newContext (x : Context) : State :=
  { s with
    context := Function.update s.context s.nextContext x
    nextContext := s.nextContext + 1 }

/-- A new thread, in this context. -/
def startIn (ident : Nat) (c : ContextId) : State :=
  { s with
    ident := Function.update s.ident s.nextThread ident
    entered := Function.update s.entered s.nextThread [c]
    nextThread := s.nextThread + 1 }

/-- The thread is in these contexts. -/
def setEntered (t : ThreadId) (cs : List ContextId) : State :=
  { s with entered := Function.update s.entered t cs }

/-- The context has changed. -/
def setContext (c : ContextId) (x : Context) : State :=
  { s with context := Function.update s.context c x }

end State

/-- The process. An action that would raise is not one of its steps: it changes nothing. -/
def machine : Machine State Action where
  step s
    | .start parent ident how =>
        match s.entered parent with
        | [] => none
        | c :: _ =>
            -- the ident of a thread that has exited may be given again
            if s.unused ident then
              match how with
              | .empty => some ((s.newContext ∅).startIn ident s.nextContext)
              | .inherit => some ((s.newContext (s.context c)).startIn ident s.nextContext)
              | .entering d => if s.free d then some (s.startIn ident d) else none
            else none
    | .exit t =>
        match s.entered t with
        | [_] => some (s.setEntered t [])
        | _ => none
    | .copy c => if c < s.nextContext then some (s.newContext (s.context c)) else none
    | .enter t c =>
        match s.entered t with
        | [] => none
        | d :: rest => if s.free c then some (s.setEntered t (c :: d :: rest)) else none
    | .leave t =>
        match s.entered t with
        | _ :: d :: rest => some (s.setEntered t (d :: rest))
        | _ => none
    | .setattr t l key value =>
        match s.entered t with
        | [] => none
        | c :: _ =>
            some { s.setContext c (Local.setattr (s.ident t) (s.context c) l key value) with
              written := (t, l, key, value) :: s.written }
    | .delattr t l key =>
        match s.entered t with
        | [] => none
        | c :: _ =>
            match Local.delattr (s.ident t) (s.context c) l key with
            | .ok x => some (s.setContext c x)
            | .error _ => none

/-- What each action asks of the state, and what it does. -/
inductive Steps (s : State) : Action → State → Prop
  | startEmpty (parent : ThreadId) (ident : Nat) {c : ContextId} {rest : List ContextId}
      (hparent : s.entered parent = c :: rest) :
      Steps s (.start parent ident .empty) ((s.newContext ∅).startIn ident s.nextContext)
  | startInherit (parent : ThreadId) (ident : Nat) {c : ContextId} {rest : List ContextId}
      (hparent : s.entered parent = c :: rest) :
      Steps s (.start parent ident .inherit)
        ((s.newContext (s.context c)).startIn ident s.nextContext)
  | startEntering (parent : ThreadId) (ident : Nat) (d : ContextId) (hfree : s.free d = true) :
      Steps s (.start parent ident (.entering d)) (s.startIn ident d)
  | exit {t : ThreadId} {c : ContextId} (hentered : s.entered t = [c]) :
      Steps s (.exit t) (s.setEntered t [])
  | copy (c : ContextId) : Steps s (.copy c) (s.newContext (s.context c))
  | enter {t : ThreadId} {c d : ContextId} {rest : List ContextId}
      (hentered : s.entered t = d :: rest) (hfree : s.free c = true) :
      Steps s (.enter t c) (s.setEntered t (c :: d :: rest))
  | leave {t : ThreadId} {c d : ContextId} {rest : List ContextId}
      (hentered : s.entered t = c :: d :: rest) :
      Steps s (.leave t) (s.setEntered t (d :: rest))
  | setattr {t : ThreadId} (l : Nat) (key : String) (value : Obj) {c : ContextId}
      {rest : List ContextId} (hentered : s.entered t = c :: rest) :
      Steps s (.setattr t l key value)
        { s.setContext c (Local.setattr (s.ident t) (s.context c) l key value) with
          written := (t, l, key, value) :: s.written }
  | delattr {t : ThreadId} (l : Nat) (key : String) {c : ContextId} {rest : List ContextId}
      {x : Context} (hentered : s.entered t = c :: rest)
      (hdel : Local.delattr (s.ident t) (s.context c) l key = .ok x) :
      Steps s (.delattr t l key) (s.setContext c x)

theorem step_inv {s s' : State} {a : Action} (hstep : machine.step s a = some s') :
    Steps s a s' := by
  cases a with
  | start parent ident how =>
      simp only [machine] at hstep
      split at hstep
      · cases hstep
      · rename_i c rest hparent
        split at hstep
        · cases how with
          | empty =>
              cases hstep
              exact .startEmpty parent ident hparent
          | inherit =>
              cases hstep
              exact .startInherit parent ident hparent
          | entering d =>
              simp only at hstep
              split at hstep
              · rename_i hfree
                cases hstep
                exact .startEntering parent ident d hfree
              · cases hstep
        · cases hstep
  | exit t =>
      simp only [machine] at hstep
      split at hstep
      · rename_i c hentered
        cases hstep
        exact .exit hentered
      · cases hstep
  | copy c =>
      simp only [machine] at hstep
      split at hstep
      · cases hstep
        exact .copy c
      · cases hstep
  | enter t c =>
      simp only [machine] at hstep
      split at hstep
      · cases hstep
      · rename_i d rest hentered
        split at hstep
        · rename_i hfree
          cases hstep
          exact .enter hentered hfree
        · cases hstep
  | leave t =>
      simp only [machine] at hstep
      split at hstep
      · rename_i c d rest hentered
        cases hstep
        exact .leave hentered
      · cases hstep
  | setattr t l key value =>
      simp only [machine] at hstep
      split at hstep
      · cases hstep
      · rename_i c rest hentered
        cases hstep
        exact .setattr l key value hentered
  | delattr t l key =>
      simp only [machine] at hstep
      split at hstep
      · cases hstep
      · rename_i c rest hentered
        split at hstep
        · rename_i x hdel
          cases hstep
          exact .delattr l key hentered hdel
        · cases hstep

end Asgiref.Process
