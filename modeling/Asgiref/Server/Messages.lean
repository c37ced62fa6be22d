import Asgiref.Lib.Sessions
import Asgiref.Lib.Simulation
import Asgiref.Server.Table

/-! # The messages for the applications

A handler asks for the instance of a scope id, is given its input queue, and puts its message there
before it suspends. So a message goes to whatever instance is in the table, which may be one that
has ended and that the checker has not come to yet.

* **`Traffic`** — the server with the contents of the input queues, and **`traffic`**, its machine.
* **`Newest`** — the entry of a scope id is the instance that was made last for it.
* **`routed`** — the messages for a scope id are split among its instances, in order: none is
  doubled, reordered or given to the instance of another scope id.
* **`receivable_iff`** — a message that is put for an instance that has ended is lost. -/

namespace Asgiref.StatelessServer

open Sessions (sessions newest puts takes)

variable {κ Scope M : Type} [DecidableEq κ] {maxApplications : Nat}

/-- The server and what is in its input queues. -/
structure Traffic (κ Scope M : Type) where
  server : State κ Scope
  queues : Nat → List M

namespace Traffic

/-- A new server. -/
def init : Traffic κ Scope M := ⟨StatelessServer.init, fun _ => []⟩

/-- What happens. -/
inductive Action (κ Scope M : Type)
  /-- Anything that the server does without looking at messages. -/
  | manage (a : StatelessServer.Action κ Scope)
  /-- `input_queue.put_nowait(message)`, by a handler that was just given the queue of this scope
  id. -/
  | put (scopeId : κ) (message : M)
  /-- `await receive()` gives the application its next message. -/
  | receive (task : Nat)

/-- The scope id that a step starts a task for. -/
def starts (maxApplications : Nat) (s : State κ Scope) (a : StatelessServer.Action κ Scope) :
    Option κ :=
  ((machine maxApplications).step s a).bind fun s' => s'.started[s.started.length]?

/-- What a step shows. -/
def event (maxApplications : Nat) (s : Traffic κ Scope M) :
    Action κ Scope M → Option (Sessions.Event κ M)
  | .manage a => (starts maxApplications s.server a).map .opened
  | .put scopeId message => some (.put scopeId message)
  | .receive task => (s.queues task).head?.map (.take task)

end Traffic

/-- The server, its handlers and its applications. -/
def traffic (κ Scope M : Type) [DecidableEq κ] (maxApplications : Nat) :
    Machine (Traffic κ Scope M) (Traffic.Action κ Scope M) where
  step s
    | .manage a => ((machine maxApplications).step s.server a).map fun server => { s with server }
    | .put scopeId message =>
        (s.server.applicationInstances.lookup scopeId).map fun details =>
          { s with
            queues := Function.update s.queues details.inputQueue
              (s.queues details.inputQueue ++ [message]) }
    | .receive task =>
        if task < s.server.started.length ∧ s.server.outcome task = none then
          match s.queues task with
          | _ :: rest => some { s with queues := Function.update s.queues task rest }
          | [] => none
        else none

variable {s s' : Traffic κ Scope M} {as : List (Traffic.Action κ Scope M)}
  {es : List (Sessions.Event κ M)}

/-! ## The entry of a scope id -/

/-- The entry of a scope id has the task that was started last for it. -/
def Newest (s : State κ Scope) : Prop :=
  ∀ k d, s.applicationInstances.lookup k = some d → newest s.started k = some d.future

theorem Newest.step {s s' : State κ Scope} (h : Newest s) (hstep : TableStep s s') : Newest s' := by
  cases hstep with
  | kept hkept =>
      intro k d hd
      rw [hkept.started]
      exact h k d (hkept.lookup hd)
  | registered s₁ k scope now hkept hs' =>
      subst hs'
      have hstarted : (register s₁ k scope now).started = s.started ++ [k] := by
        rw [← hkept.started]
        rfl
      intro k' d hd
      rw [hstarted]
      rw [lookup_register] at hd
      split at hd
      · rename_i hk
        cases hd
        subst hk
        rw [hkept.started]
        refine Sessions.newest_of List.getElem?_concat_length fun j hj => ?_
        have hlt := (List.getElem?_eq_some_iff.mp hj).1
        rw [List.length_append, List.length_singleton] at hlt
        exact Nat.le_of_lt_succ hlt
      · rename_i hk
        have hk' : ¬ k = k' := fun h => hk h.symm
        unfold newest
        rw [Sessions.sessions_concat, if_neg hk', List.append_nil]
        exact h k' d (hkept.lookup hd)

/-- What is kept up between the server and the sessions. -/
structure Routes (s : Traffic κ Scope M) (t : Sessions.State κ M) : Prop where
  owned : Owned s.server
  newest : Newest s.server
  owners : t.owners = s.server.started
  queues : t.queues = s.queues

/-- A step starts a task exactly if it shows that. -/
theorem starts_of_table {s s' : State κ Scope} {a : Action κ Scope}
    (hs : (machine maxApplications).step s a = some s') :
    s'.started = s.started ++ (Traffic.starts maxApplications s a).toList := by
  unfold Traffic.starts
  rw [hs, Option.bind_some]
  cases step_table hs with
  | kept hkept => simp [hkept.started]
  | registered s₁ k scope now hkept hs' =>
      subst hs'
      have hstarted : (register s₁ k scope now).started = s.started ++ [k] := by
        rw [← hkept.started]
        rfl
      simp [hstarted]

/-- **The server refines the sessions.** The instances of a scope id are its sessions. -/
theorem traffic_simulates (maxApplications : Nat) :
    (traffic κ Scope M maxApplications).Simulates (Traffic.event maxApplications) Machine.Any
      (Sessions.machine κ M) Routes := by
  intro s t a s' hroutes _ hs
  obtain ⟨howned, hnewest, howners, hqueues⟩ := hroutes
  cases a with
  | manage a =>
      obtain ⟨server, hserver, rfl⟩ := Option.map_eq_some_iff.mp hs
      have htable := step_table hserver
      have hstarted := starts_of_table hserver
      unfold Traffic.event
      simp only
      cases hstarts : Traffic.starts maxApplications s.server a with
      | none =>
          rw [hstarts] at hstarted
          refine ⟨howned.step htable, hnewest.step htable, howners.trans ?_, hqueues⟩
          exact (hstarted.trans (List.append_nil _)).symm
      | some k =>
          rw [hstarts] at hstarted
          refine ⟨_, rfl, howned.step htable, hnewest.step htable, ?_, hqueues⟩
          show t.owners ++ [k] = server.started
          rw [howners, hstarted]
          rfl
  | put k m =>
      obtain ⟨d, hd, rfl⟩ := Option.map_eq_some_iff.mp hs
      have hput : (Sessions.machine κ M).step t (.put k m) =
          some { t with
            queues := Function.update t.queues d.future (t.queues d.future ++ [m]) } := by
        show (newest t.owners k).map _ = _
        rw [howners, hnewest k d hd]
        rfl
      refine ⟨_, hput, howned, hnewest, howners, ?_⟩
      show Function.update t.queues d.future _ = Function.update s.queues d.inputQueue _
      rw [hqueues, howned.queue k d hd]
  | receive i =>
      unfold traffic at hs
      simp only at hs
      split at hs
      · split at hs
        · rename_i m rest hqueue
          cases hs
          unfold Traffic.event
          simp only [hqueue, List.head?_cons, Option.map_some]
          have htake : (Sessions.machine κ M).step t (.take i m) =
              some { t with queues := Function.update t.queues i (t.queues i).tail } := by
            unfold Sessions.machine
            simp only
            rw [hqueues, hqueue]
            exact if_pos rfl
          refine ⟨_, htake, howned, hnewest, howners, ?_⟩
          show Function.update t.queues i _ = Function.update s.queues i _
          rw [hqueues, hqueue]
          rfl
        · cases hs
      · cases hs

/-- **Routing.** In every run the messages that handlers have put for a scope id are, in this order,
those that its first instance has received, then those that this left in its queue, then those of
its second instance, and so on. New ones go to the last instance, if it is still in the table. -/
theorem routed
    (h : (traffic κ Scope M maxApplications).Shows (Traffic.event maxApplications) Machine.Any
      .init as es s) :
    (∀ k, puts k es =
        (sessions s.server.started k).flatMap fun task => takes task es ++ s.queues task) ∧
      ∀ k d, s.server.applicationInstances.lookup k = some d →
        newest s.server.started k = some d.inputQueue := by
  have hinit : Routes (.init : Traffic κ Scope M) Sessions.init :=
    ⟨owned_init, nofun, rfl, rfl⟩
  obtain ⟨t, hrun, hroutes⟩ := (traffic_simulates maxApplications).run hinit h
  constructor
  · intro k
    rw [Sessions.split hrun k, hroutes.owners, hroutes.queues]
  · intro k d hd
    rw [hroutes.owned.queue k d hd]
    exact hroutes.newest k d hd

/-- Two messages for a scope id. Its instance ends after the first one, and is replaced. -/
def replaced : List (Traffic.Action Nat Unit Nat) :=
  [.manage (.getOrCreate 7 () 0 none), .put 7 10, .receive 0, .put 7 11,
    .manage (.finish 0 .result), .manage .wake, .manage (.getOrCreate 7 () 1 none), .put 7 12,
    .receive 1]

/-- The second message stays with the first instance. -/
theorem routed_replaced : ∃ es s,
    (traffic Nat Unit Nat 5).Shows (Traffic.event 5) Machine.Any .init replaced es s ∧
    puts 7 es = [10, 11, 12] ∧ takes 0 es = [10] ∧ s.queues 0 = [11] ∧ takes 1 es = [12] ∧
    puts 7 es =
      (sessions s.server.started 7).flatMap fun task => takes task es ++ s.queues task := by
  have h : (traffic Nat Unit Nat 5).Shows (Traffic.event 5) Machine.Any .init replaced _ _ :=
    Machine.observe_shows rfl
  exact ⟨_, _, h, rfl, rfl, rfl, rfl, (routed h).1 7⟩

/-! ## Messages for an instance that has ended -/

/-- A task that is done stays done. -/
theorem outcome_step {s s' : State κ Scope} {a : Action κ Scope} {i : Nat} {o : Outcome}
    (ho : s.outcome i = some o) (hs : (machine maxApplications).step s a = some s') :
    s'.outcome i = some o := by
  have hgetD : ∀ {result : Option (State κ Scope)}, (∀ s₁, result = some s₁ → Reclaimed s s₁) →
      (result.getD s).outcome i = some o := by
    intro result hreclaimed
    rw [(reclaimed_getD hreclaimed).outcome]
    exact ho
  cases step_inv hs with
  | getOrCreate k scope now raised =>
      unfold getOrCreateApplicationInstance
      have hevict := (reclaimed_evict maxApplications s.size s).outcome
      cases s.applicationInstances.lookup k with
      | some d => exact ho
      | none =>
          cases raised with
          | some e => exact (congrFun hevict i).trans ho
          | none => exact (congrFun hevict i).trans ho
  | delete k => exact hgetD fun _ => .of_delete
  | deleteOldest => exact hgetD fun _ => .of_deleteOldest
  | finish task outcome hstarted hrunning =>
      have hne : i ≠ task := by
        rintro rfl
        rw [hrunning] at ho
        cases ho
      exact (Function.update_of_ne hne _ _).trans ho
  | wake => exact (congrFun (walk_tasks s.items s).2.1 i).trans ho
  | resume => exact (congrFun (walk_tasks _ (discard s _)).2.1 i).trans ho
  | fail e => exact ho

/-- Every entry has a task and a queue of its own, whatever goes through the queues. -/
theorem owned_traffic
    (h : (traffic κ Scope M maxApplications).Run Machine.Any .init as s) : Owned s.server := by
  refine h.invariant (I := fun s => Owned s.server) owned_init fun s₁ a s₂ howned _ hs => ?_
  cases a with
  | manage a =>
      obtain ⟨server, hserver, rfl⟩ := Option.map_eq_some_iff.mp hs
      exact howned.step (step_table hserver)
  | put k m =>
      obtain ⟨d, -, rfl⟩ := Option.map_eq_some_iff.mp hs
      exact howned
  | receive task =>
      unfold traffic at hs
      simp only at hs
      split at hs
      · split at hs
        · cases hs
          exact howned
        · cases hs
      · cases hs

/-- The queue of an instance that has ended only grows. -/
theorem queue_step {a : Traffic.Action κ Scope M} {i : Nat} {o : Outcome}
    (ho : s.server.outcome i = some o)
    (hs : (traffic κ Scope M maxApplications).step s a = some s') :
    s'.server.outcome i = some o ∧ s.queues i <+: s'.queues i := by
  cases a with
  | manage a =>
      obtain ⟨server, hserver, rfl⟩ := Option.map_eq_some_iff.mp hs
      exact ⟨outcome_step ho hserver, List.prefix_rfl⟩
  | put k m =>
      obtain ⟨d, -, rfl⟩ := Option.map_eq_some_iff.mp hs
      refine ⟨ho, ?_⟩
      show s.queues i <+: Function.update s.queues d.inputQueue _ i
      by_cases hi : i = d.inputQueue
      · subst hi
        rw [Function.update_self]
        exact List.prefix_append _ _
      · exact ⟨[], (List.append_nil _).trans (Function.update_of_ne hi _ _).symm⟩
  | receive task =>
      unfold traffic at hs
      simp only at hs
      split at hs
      · rename_i hrunning
        have hne : i ≠ task := by
          rintro rfl
          rw [hrunning.2] at ho
          cases ho
        split at hs
        · cases hs
          exact ⟨ho, [], (List.append_nil _).trans (Function.update_of_ne hne _ _).symm⟩
        · cases hs
      · cases hs

/-- An instance that is not done can receive all that is in its queue. -/
theorem drain {i : Nat} {queue : List M} (hstarted : i < s.server.started.length)
    (hrunning : s.server.outcome i = none) (hqueue : s.queues i = queue) :
    ∃ as s', (traffic κ Scope M maxApplications).Run Machine.Any s as s' ∧ s'.queues i = [] := by
  induction queue generalizing s with
  | nil => exact ⟨[], s, .nil, hqueue⟩
  | cons m rest ih =>
      have hs : (traffic κ Scope M maxApplications).step s (.receive i) =
          some { s with queues := Function.update s.queues i rest } := by
        unfold traffic
        simp only
        rw [if_pos ⟨hstarted, hrunning⟩, hqueue]
      have hrest : Function.update s.queues i rest i = rest := Function.update_self ..
      obtain ⟨as, s', hrun, hempty⟩ :=
        ih (s := { s with queues := Function.update s.queues i rest }) hstarted hrunning hrest
      exact ⟨_, s', (Machine.Run.single trivial hs).append hrun, hempty⟩

/-- **Dead letters.** An instance that has ended stays in the table until the checker comes to it,
and handlers are given its queue. A message that is put for a scope id can still be received, in
some run from there, exactly if the instance has not ended. -/
theorem receivable_iff {k : κ} {d : Details Scope} {m : M}
    (hreach : (traffic κ Scope M maxApplications).Run Machine.Any .init as s)
    (hd : s.server.applicationInstances.lookup k = some d)
    (hput : (traffic κ Scope M maxApplications).step s (.put k m) = some s') :
    (∃ bs s'', (traffic κ Scope M maxApplications).Run Machine.Any s' bs s'' ∧
      s''.queues d.inputQueue = []) ↔ s.server.outcome d.future = none := by
  have howned := owned_traffic hreach
  have hqueue := howned.queue k d hd
  have hstarted := howned.lt hd
  obtain ⟨d', hd', rfl⟩ := Option.map_eq_some_iff.mp hput
  obtain rfl : d = d' := Option.some.inj (hd.symm.trans hd')
  constructor
  · rintro ⟨bs, s'', hrun, hempty⟩
    by_contra hended
    obtain ⟨o, ho⟩ := Option.ne_none_iff_exists'.mp hended
    -- the message never leaves the queue
    have hkept : s''.server.outcome d.future = some o ∧
        s.queues d.inputQueue ++ [m] <+: s''.queues d.inputQueue := by
      refine hrun.invariant (I := fun s' => s'.server.outcome d.future = some o ∧
        s.queues d.inputQueue ++ [m] <+: s'.queues d.inputQueue) ⟨ho, ?_⟩
        fun s₁ a s₂ hkept _ hs => ?_
      · have hself : Function.update s.queues d.inputQueue (s.queues d.inputQueue ++ [m])
            d.inputQueue = s.queues d.inputQueue ++ [m] := Function.update_self ..
        exact ⟨[], (List.append_nil _).trans hself.symm⟩
      · rw [hqueue] at hkept ⊢
        obtain ⟨ho', hgrows⟩ := queue_step hkept.1 hs
        exact ⟨ho', hkept.2.trans hgrows⟩
    rw [hempty] at hkept
    exact List.append_ne_nil_of_right_ne_nil _ (List.cons_ne_nil m [])
      (List.prefix_nil.mp hkept.2)
  · intro hrunning
    rw [hqueue]
    exact drain hstarted hrunning rfl

/-- A message comes when the instance has ended. -/
theorem receivable_iff_ended : ∃ s s',
    (traffic Nat Unit Nat 5).Run Machine.Any .init (replaced.take 5) s ∧
    s.server.applicationInstances.lookup 7 = some ⟨0, 0, ()⟩ ∧
    (traffic Nat Unit Nat 5).step s (.put 7 12) = some s' ∧
    ((∃ bs s'', (traffic Nat Unit Nat 5).Run Machine.Any s' bs s'' ∧ s''.queues 0 = []) ↔
      s.server.outcome 0 = none) := by
  have hrun : (traffic Nat Unit Nat 5).Run Machine.Any .init (replaced.take 5 ++ [.put 7 12]) _ :=
    Machine.exec_run rfl
  obtain ⟨s, hbefore, -, hput⟩ := hrun.snoc_inv
  obtain rfl := hbefore.unique (Machine.exec_run rfl)
  exact ⟨_, _, hbefore, rfl, hput, receivable_iff (d := ⟨0, 0, ()⟩) hbefore rfl hput⟩

end Asgiref.StatelessServer
