import Asgiref.SensitiveContext.Machine

/-! # What holds of the executors

* **`PoolStep`** — what a step does to the pool, with **`step_pool`**.
* **`Pool.Inv`** — an executor has the calls of its object that have not ended; one that an exit
  waits for is not found by calls any more, and is idle when it has been joined.
* **`Waits`** — what a task waits for has not ended.
* **`sound_run`** — both hold in every run. -/

namespace Asgiref.SensitiveContext

variable {p p' : Pool} {s s' : State} {a : Action} {as : List Action}

/-! ## Tables -/

section
variable {α : Type} {f : Nat → Option α} {i j : Nat} {v w : α}

/-- What a table has after an entry was set. -/
theorem update_eq_some_iff : Function.update f i (some v) j = some w ↔
    j = i ∧ w = v ∨ j ≠ i ∧ f j = some w := by
  by_cases h : j = i
  · subst h
    rw [Function.update_self, Option.some.injEq]
    tauto
  · rw [Function.update_of_ne h]
    tauto

/-- What a table has after an entry was removed. -/
theorem update_none_eq_some_iff : Function.update f i none j = some w ↔ j ≠ i ∧ f j = some w := by
  by_cases h : j = i
  · subst h
    rw [Function.update_self]
    simp
  · rw [Function.update_of_ne h]
    tauto

end

/-! ## The steps of the pool -/

/-- What a step does to the pool. -/
inductive PoolStep (p : Pool) : Pool → Prop
  | same : PoolStep p p
  | submit {t o : Nat} {p' : Pool} (h : p.submit t o = some p') : PoolStep p p'
  | retire (t o : Nat) : PoolStep p (p.retire t o)
  | take {e : Nat} {worker : Worker Nat} (h : (p.executor e).take = some worker) :
      PoolStep p (p.setExecutor e worker)
  | park {c : Nat} {call : Call} (h : p.call c = some call) (parked : Bool) :
      PoolStep p (p.setCall c { call with parked := parked })
  | finish {c : Nat} {call : Call} (h : p.call c = some call)
      (hrunning : (p.executor call.executor).running = some c) :
      PoolStep p ((p.setExecutor call.executor (p.executor call.executor).finish).setCall c
        { call with done := true })
  | shutdown {x : Nat} {exit : Exit} (h : p.exit x = some exit) :
      PoolStep p (p.setExecutor exit.executor (p.executor exit.executor).close)
  | await {x : Nat} {exit : Exit} (await : Await) (thread : Bool) (h : p.exit x = some exit)
      (hidle : await = .joined ∨ await = .returned → (p.executor exit.executor).items = [] ∨
        exit.await = .joined)
      (hawait : await ≠ .joining) :
      PoolStep p (p.setExit x { exit with await := await, thread := thread })

/-- The worker of its executor runs the call. -/
theorem running_eq {c : Nat} {call : Call} (h : s.running c = some call) :
    s.pool.call c = some call ∧ (s.pool.executor call.executor).running = some c := by
  obtain ⟨hcall, hrunning⟩ := Option.filter_eq_some_iff.mp h
  exact ⟨hcall, by simpa using hrunning⟩

/-- What each step does to the pool. -/
theorem step_pool (hs : machine.step s a = some s') : PoolStep s.pool s'.pool := by
  cases a with
  | spawn t =>
      simp only [machine, Option.ite_none_right_eq_some, Option.some.injEq] at hs
      obtain ⟨-, rfl⟩ := hs
      exact .same
  | enter t =>
      simp only [machine, Option.ite_none_right_eq_some, Option.some.injEq] at hs
      obtain ⟨-, rfl⟩ := hs
      unfold aenter
      cases s.var t with
      | some o => exact .same
      | none => exact .same
  | exit t =>
      simp only [machine, Option.ite_none_right_eq_some] at hs
      obtain ⟨-, hs⟩ := hs
      unfold aexit at hs
      split at hs
      · cases hs
      · rename_i o rest _
        simp only at hs
        split at hs
        · cases hs
          exact .retire t o
        · cases hs
          exact .same
  | call t =>
      simp only [machine, Option.ite_none_right_eq_some] at hs
      obtain ⟨-, hs⟩ := hs
      obtain ⟨o, -, hs⟩ := Option.bind_eq_some_iff.mp hs
      obtain ⟨pool, hpool, rfl⟩ := Option.map_eq_some_iff.mp hs
      exact .submit hpool
  | take e =>
      obtain ⟨worker, hworker, rfl⟩ := Option.map_eq_some_iff.mp hs
      exact .take hworker
  | park c =>
      obtain ⟨call, hrunning, hs⟩ := Option.bind_eq_some_iff.mp hs
      split at hs
      · cases hs
      · cases hs
        exact .park (running_eq hrunning).1 true
  | serve c =>
      obtain ⟨call, hrunning, hs⟩ := Option.bind_eq_some_iff.mp hs
      split at hs
      · cases hs
        exact .park (running_eq hrunning).1 false
      · cases hs
  | finish c =>
      obtain ⟨call, hrunning, hs⟩ := Option.bind_eq_some_iff.mp hs
      split at hs
      · cases hs
      · cases hs
        exact .finish (running_eq hrunning).1 (running_eq hrunning).2
  | shutdown x =>
      obtain ⟨exit, hexit, hs⟩ := Option.bind_eq_some_iff.mp hs
      split at hs
      · cases hs
      · cases hs
        exact .shutdown hexit
  | join x =>
      obtain ⟨exit, hexit, hs⟩ := Option.bind_eq_some_iff.mp hs
      split at hs
      · rename_i hended
        cases hs
        refine .await _ false hexit (fun _ => .inl hended.2.2) ?_
        split
        · simp
        · assumption
      · cases hs
  | resume x =>
      obtain ⟨exit, hexit, hs⟩ := Option.bind_eq_some_iff.mp hs
      split at hs
      · rename_i hawait
        cases hs
        exact .await _ exit.thread hexit (fun _ => .inr hawait) (by simp)
      · cases hs
  | cancel x =>
      obtain ⟨exit, hexit, hs⟩ := Option.bind_eq_some_iff.mp hs
      split at hs
      · cases hs
        exact .await _ exit.thread hexit (by simp) (by simp)
      · cases hs
        exact .await _ exit.thread hexit (by simp) (by simp)
      · cases hs

/-! ## The invariant of the pool -/

namespace Pool

/-- What holds of the pool. -/
structure Inv (p : Pool) : Prop where
  call_lt : ∀ c call, p.call c = some call → c < p.calls ∧ call.executor < p.made
  mapped_lt : ∀ o e, p.contextToThreadExecutor o = some e → e < p.made
  exit_lt : ∀ x exit, p.exit x = some exit → x < p.exits ∧ exit.executor < p.made
  unmade : ∀ e, p.made ≤ e → p.executor e = .new Nat
  /-- An executor has the calls that have not ended. -/
  items : ∀ e c, c ∈ (p.executor e).items ↔
    ∃ call, p.call c = some call ∧ call.executor = e ∧ call.done = false
  nodup : ∀ e, (p.executor e).items.Nodup
  mapped_once : ∀ o o' e, p.contextToThreadExecutor o = some e →
    p.contextToThreadExecutor o' = some e → o = o'
  /-- Calls do not find an executor that an exit has taken. -/
  retired : ∀ x exit, p.exit x = some exit → ∀ o, p.contextToThreadExecutor o ≠ some exit.executor
  shutdown : ∀ e, (p.executor e).shutdown = true → ∃ x exit, p.exit x = some exit ∧
    exit.executor = e
  /-- A call is in the executor of its object, or in one that an exit of this object has taken. -/
  owner : ∀ c call, p.call c = some call →
    p.contextToThreadExecutor call.object = some call.executor ∨
      ∃ x exit, p.exit x = some exit ∧ exit.executor = call.executor ∧ exit.object = call.object
  /-- An executor that has been joined is idle. -/
  joined : ∀ x exit, p.exit x = some exit → exit.await = .joined ∨ exit.await = .returned →
    (p.executor exit.executor).items = []
  /-- An executor is taken once. -/
  taken_once : ∀ x x' exit exit', p.exit x = some exit → p.exit x' = some exit' →
    exit.executor = exit'.executor → x = x'
  thread : ∀ x exit, p.exit x = some exit → exit.await = .joining → exit.thread = true

theorem inv_init : Pool.init.Inv where
  call_lt c call h := by cases h
  mapped_lt o e h := by cases h
  exit_lt x exit h := by cases h
  unmade e _ := rfl
  items e c := by simp [Pool.init]
  nodup e := by simp [Pool.init]
  mapped_once o o' e h := by cases h
  retired x exit h := by cases h
  shutdown e h := by cases h
  owner c call h := by cases h
  joined x exit h := by cases h
  taken_once x x' exit exit' h := by cases h
  thread x exit h := by cases h

/-- A new executor leaves the calls and the exits. -/
theorem executorOf_same (p : Pool) (o : Nat) : (p.executorOf o).2.call = p.call ∧
    (p.executorOf o).2.calls = p.calls ∧ (p.executorOf o).2.exit = p.exit := by
  unfold Pool.executorOf
  cases p.contextToThreadExecutor o with
  | some e => exact ⟨rfl, rfl, rfl⟩
  | none => exact ⟨rfl, rfl, rfl⟩

/-- An executor that is found or made. -/
theorem Inv.executorOf (h : p.Inv) (o : Nat) : (p.executorOf o).2.Inv ∧
    (p.executorOf o).2.contextToThreadExecutor o = some (p.executorOf o).1 := by
  unfold Pool.executorOf
  cases hmap : p.contextToThreadExecutor o with
  | some e => exact ⟨h, hmap⟩
  | none =>
      refine ⟨?_, Function.update_self ..⟩
      constructor
      · intro c call hcall
        exact ⟨(h.call_lt c call hcall).1, Nat.lt_succ_of_lt (h.call_lt c call hcall).2⟩
      · intro o' e he
        show e < p.made + 1
        rcases update_eq_some_iff.mp he with ⟨-, rfl⟩ | ⟨-, he'⟩
        · omega
        · have hlt := h.mapped_lt o' e he'
          omega
      · intro x exit hexit
        exact ⟨(h.exit_lt x exit hexit).1, Nat.lt_succ_of_lt (h.exit_lt x exit hexit).2⟩
      · intro e he
        exact h.unmade e (Nat.le_of_succ_le he)
      · exact h.items
      · exact h.nodup
      · intro o₁ o₂ e h₁ h₂
        rcases update_eq_some_iff.mp h₁ with ⟨rfl, rfl⟩ | ⟨-, h₁'⟩
        · rcases update_eq_some_iff.mp h₂ with ⟨rfl, -⟩ | ⟨-, h₂'⟩
          · rfl
          · exact absurd (h.mapped_lt o₂ _ h₂') (Nat.lt_irrefl _)
        · rcases update_eq_some_iff.mp h₂ with ⟨-, rfl⟩ | ⟨-, h₂'⟩
          · exact absurd (h.mapped_lt o₁ _ h₁') (Nat.lt_irrefl _)
          · exact h.mapped_once o₁ o₂ e h₁' h₂'
      · intro x exit hexit o' ho'
        rcases update_eq_some_iff.mp ho' with ⟨-, heq⟩ | ⟨-, ho''⟩
        · have hlt := (h.exit_lt x exit hexit).2
          omega
        · exact h.retired x exit hexit o' ho''
      · exact h.shutdown
      · intro c call hcall
        rcases h.owner c call hcall with hfound | htaken
        · have hne : call.object ≠ o := by
            rintro rfl
            rw [hmap] at hfound
            cases hfound
          exact .inl ((Function.update_of_ne hne _ _).trans hfound)
        · exact .inr htaken
      · exact h.joined
      · exact h.taken_once
      · exact h.thread

/-- A worker that takes a call is there. -/
theorem Inv.lt_of_take {e : Nat} {worker : Worker Nat} (h : p.Inv)
    (htake : (p.executor e).take = some worker) : e < p.made := by
  by_contra hnot
  rw [h.unmade e (Nat.not_lt.mp hnot)] at htake
  cases htake

/-- A call that is run is not done. -/
theorem Inv.not_done {c : Nat} {call : Call} (h : p.Inv) (hc : p.call c = some call)
    (hrunning : (p.executor call.executor).running = some c) : call.done = false := by
  obtain ⟨call', hc', -, hdone⟩ := (h.items _ c).mp (Worker.mem_items hrunning)
  rw [hc] at hc'
  cases hc'
  exact hdone

/-- A worker that keeps its items. -/
theorem Inv.setExecutor (h : p.Inv) {e : Nat} {worker : Worker Nat} (he : e < p.made)
    (hitems : worker.items = (p.executor e).items)
    (hshutdown : worker.shutdown = true → ∃ x exit, p.exit x = some exit ∧ exit.executor = e) :
    (p.setExecutor e worker).Inv := by
  have hall : ∀ e', ((p.setExecutor e worker).executor e').items = (p.executor e').items := by
    intro e'
    show (Function.update p.executor e worker e').items = _
    by_cases he' : e' = e
    · subst he'
      rw [Function.update_self, hitems]
    · rw [Function.update_of_ne he']
  constructor
  · exact h.call_lt
  · exact h.mapped_lt
  · exact h.exit_lt
  · intro e' he'
    have hne : e' ≠ e := by
      rintro rfl
      exact absurd he (Nat.not_lt.mpr he')
    exact (Function.update_of_ne hne _ _).trans (h.unmade e' he')
  · intro e' c
    rw [hall]
    exact h.items e' c
  · intro e'
    rw [hall]
    exact h.nodup e'
  · exact h.mapped_once
  · exact h.retired
  · intro e' he'
    by_cases hne : e' = e
    · subst hne
      refine hshutdown ?_
      rwa [show (p.setExecutor e' worker).executor e' = worker from Function.update_self ..] at he'
    · refine h.shutdown e' ?_
      rwa [show (p.setExecutor e worker).executor e' = p.executor e' from
        Function.update_of_ne hne _ _] at he'
  · exact h.owner
  · intro x exit hexit hawait
    rw [hall]
    exact h.joined x exit hexit hawait
  · exact h.taken_once
  · exact h.thread

/-- A submitted call is a new one, in the executor of its object. -/
theorem submit_spec {t o : Nat} (h : p.submit t o = some p') :
    ∃ worker, ((p.executorOf o).2.executor (p.executorOf o).1).submit (p.executorOf o).2.calls =
        some worker ∧
      p' = { ((p.executorOf o).2.setExecutor (p.executorOf o).1 worker).setCall
          (p.executorOf o).2.calls ⟨t, o, (p.executorOf o).1, false, false⟩ with
        calls := (p.executorOf o).2.calls + 1 } := by
  obtain ⟨worker, hworker, rfl⟩ := Option.map_eq_some_iff.mp h
  exact ⟨worker, hworker, rfl⟩

/-- A call that has been submitted, in its executor. -/
theorem Inv.submit {t o : Nat} (h : p.Inv) (hsubmit : p.submit t o = some p') : p'.Inv := by
  obtain ⟨hinv, hmapped⟩ := h.executorOf o
  obtain ⟨worker, hworker, rfl⟩ := submit_spec hsubmit
  generalize (p.executorOf o).1 = e at hworker hmapped
  generalize (p.executorOf o).2 = q at hworker hmapped hinv
  obtain ⟨hitems, hshutdown, -⟩ := Worker.items_submit hworker
  have hfresh : ∀ call, q.call q.calls ≠ some call := by
    intro call hcall
    have hlt := (hinv.call_lt _ call hcall).1
    omega
  have hcall : ∀ c call, Function.update q.call q.calls (some ⟨t, o, e, false, false⟩) c =
      some call ↔ c = q.calls ∧ call = ⟨t, o, e, false, false⟩ ∨ q.call c = some call := by
    intro c call
    rw [update_eq_some_iff]
    refine or_congr_right (and_iff_right_of_imp fun hold => ?_)
    rintro rfl
    exact hfresh call hold
  have hexecutor : ∀ e', (Function.update q.executor e worker e').items =
      (q.executor e').items ++ if e' = e then [q.calls] else [] := by
    intro e'
    by_cases he' : e' = e
    · subst he'
      rw [Function.update_self, hitems, if_pos rfl]
    · rw [Function.update_of_ne he', if_neg he', List.append_nil]
  constructor
  · intro c call hc
    show c < q.calls + 1 ∧ call.executor < q.made
    rcases (hcall c call).mp hc with ⟨rfl, rfl⟩ | hold
    · exact ⟨by omega, hinv.mapped_lt o e hmapped⟩
    · have hlt := hinv.call_lt c call hold
      exact ⟨by omega, hlt.2⟩
  · exact hinv.mapped_lt
  · exact hinv.exit_lt
  · intro e' he'
    have hne : e' ≠ e := by
      rintro rfl
      exact absurd (hinv.mapped_lt o e' hmapped) (Nat.not_lt.mpr he')
    exact (Function.update_of_ne hne _ _).trans (hinv.unmade e' he')
  · intro e' c
    show c ∈ (Function.update q.executor e worker e').items ↔ _
    rw [hexecutor, List.mem_append, hinv.items e' c]
    constructor
    · rintro (⟨call, hold, hrest⟩ | hnew)
      · exact ⟨call, (hcall c call).mpr (.inr hold), hrest⟩
      · split at hnew
        · rename_i he'
          obtain rfl := List.mem_singleton.mp hnew
          exact ⟨_, (hcall _ _).mpr (.inl ⟨rfl, rfl⟩), he'.symm, rfl⟩
        · cases hnew
    · rintro ⟨call, hc, he', hdone⟩
      rcases (hcall c call).mp hc with ⟨rfl, rfl⟩ | hold
      · refine .inr ?_
        rw [if_pos he'.symm]
        exact List.mem_cons_self
      · exact .inl ⟨call, hold, he', hdone⟩
  · intro e'
    show (Function.update q.executor e worker e').items.Nodup
    rw [hexecutor]
    split
    · refine List.nodup_append.mpr ⟨hinv.nodup e', List.nodup_singleton _, ?_⟩
      rintro c hc c' hc' rfl
      obtain rfl := List.mem_singleton.mp hc'
      obtain ⟨call, hold, -⟩ := (hinv.items e' _).mp hc
      exact hfresh call hold
    · rw [List.append_nil]
      exact hinv.nodup e'
  · exact hinv.mapped_once
  · exact hinv.retired
  · intro e' he'
    change (Function.update q.executor e worker e').shutdown = true at he'
    refine hinv.shutdown e' ?_
    by_cases hne : e' = e
    · subst hne
      rwa [Function.update_self, hshutdown] at he'
    · rwa [Function.update_of_ne hne] at he'
  · intro c call hc
    rcases (hcall c call).mp hc with ⟨rfl, rfl⟩ | hold
    · exact .inl hmapped
    · exact hinv.owner c call hold
  · intro x exit hexit hawait
    have hne : exit.executor ≠ e := fun heq =>
      hinv.retired x exit hexit o (hmapped.trans (congrArg some heq.symm))
    show (Function.update q.executor e worker exit.executor).items = []
    rw [Function.update_of_ne hne]
    exact hinv.joined x exit hexit hawait
  · exact hinv.taken_once
  · exact hinv.thread

/-- An exit takes the executor of its object. -/
theorem Inv.retire (h : p.Inv) (t o : Nat) : (p.retire t o).Inv := by
  unfold Pool.retire
  cases hmap : p.contextToThreadExecutor o with
  | none => exact h
  | some e =>
      have hfresh : ∀ exit, p.exit p.exits ≠ some exit := fun exit hexit =>
        absurd (h.exit_lt _ exit hexit).1 (Nat.lt_irrefl _)
      have hexit : ∀ x exit, Function.update p.exit p.exits (some ⟨t, o, e, .joining, true⟩) x =
          some exit → x = p.exits ∧ exit = ⟨t, o, e, .joining, true⟩ ∨ p.exit x = some exit := by
        intro x exit hx
        exact (update_eq_some_iff.mp hx).imp_right And.right
      have hold : ∀ x exit, p.exit x = some exit →
          Function.update p.exit p.exits (some ⟨t, o, e, .joining, true⟩) x = some exit := by
        intro x exit hx
        refine update_eq_some_iff.mpr (.inr ⟨?_, hx⟩)
        rintro rfl
        exact hfresh exit hx
      constructor
      · exact h.call_lt
      · intro o' e' he'
        exact h.mapped_lt o' e' (update_none_eq_some_iff.mp he').2
      · intro x exit hx
        show x < p.exits + 1 ∧ exit.executor < p.made
        rcases hexit x exit hx with ⟨rfl, rfl⟩ | hx'
        · exact ⟨Nat.lt_succ_self _, h.mapped_lt o e hmap⟩
        · exact ⟨Nat.lt_succ_of_lt (h.exit_lt x exit hx').1, (h.exit_lt x exit hx').2⟩
      · exact h.unmade
      · exact h.items
      · exact h.nodup
      · intro o₁ o₂ e' h₁ h₂
        exact h.mapped_once o₁ o₂ e' (update_none_eq_some_iff.mp h₁).2
          (update_none_eq_some_iff.mp h₂).2
      · intro x exit hx o' ho'
        obtain ⟨hne, ho''⟩ := update_none_eq_some_iff.mp ho'
        rcases hexit x exit hx with ⟨rfl, rfl⟩ | hx'
        · exact hne (h.mapped_once o' o e ho'' hmap)
        · exact h.retired x exit hx' o' ho''
      · intro e' he'
        obtain ⟨x, exit, hx, hexecutor⟩ := h.shutdown e' he'
        exact ⟨x, exit, hold x exit hx, hexecutor⟩
      · intro c call hcall
        rcases h.owner c call hcall with hfound | ⟨x, exit, hx, hrest⟩
        · by_cases ho : call.object = o
          · rw [ho, hmap] at hfound
            refine .inr ⟨p.exits, _, Function.update_self .., Option.some.inj hfound, ho.symm⟩
          · exact .inl ((Function.update_of_ne ho _ _).trans hfound)
        · exact .inr ⟨x, exit, hold x exit hx, hrest⟩
      · intro x exit hx hawait
        rcases hexit x exit hx with ⟨rfl, rfl⟩ | hx'
        · rcases hawait with hawait | hawait <;> cases hawait
        · exact h.joined x exit hx' hawait
      · intro x x' exit exit' hx hx' heq
        rcases hexit x exit hx with ⟨rfl, rfl⟩ | hx₁
        · rcases hexit x' exit' hx' with ⟨rfl, rfl⟩ | hx₁'
          · rfl
          · exact absurd (hmap.trans (congrArg some heq)) (h.retired x' exit' hx₁' o)
        · rcases hexit x' exit' hx' with ⟨rfl, rfl⟩ | hx₁'
          · exact absurd (hmap.trans (congrArg some heq.symm)) (h.retired x exit hx₁ o)
          · exact h.taken_once x x' exit exit' hx₁ hx₁' heq
      · intro x exit hx hawait
        rcases hexit x exit hx with ⟨rfl, rfl⟩ | hx'
        · rfl
        · exact h.thread x exit hx' hawait

/-- A call parks, or goes on. -/
theorem Inv.park {c : Nat} {call : Call} (h : p.Inv) (hc : p.call c = some call) (parked : Bool) :
    (p.setCall c { call with parked := parked }).Inv := by
  have hcall : ∀ c' call', (p.setCall c { call with parked := parked }).call c' = some call' →
      ∃ old, p.call c' = some old ∧ old.executor = call'.executor ∧ old.object = call'.object ∧
        old.done = call'.done := by
    intro c' call' hc'
    rcases update_eq_some_iff.mp hc' with ⟨rfl, rfl⟩ | ⟨-, hold⟩
    · exact ⟨call, hc, rfl, rfl, rfl⟩
    · exact ⟨call', hold, rfl, rfl, rfl⟩
  have hback : ∀ c' old, p.call c' = some old →
      ∃ call', (p.setCall c { call with parked := parked }).call c' = some call' ∧
        call'.executor = old.executor ∧ call'.done = old.done := by
    intro c' old hold
    by_cases hne : c' = c
    · subst hne
      rw [hc] at hold
      cases hold
      exact ⟨_, Function.update_self .., rfl, rfl⟩
    · exact ⟨old, (Function.update_of_ne hne _ _).trans hold, rfl, rfl⟩
  constructor
  · intro c' call' hc'
    obtain ⟨old, hold, hexecutor, -⟩ := hcall c' call' hc'
    rw [← hexecutor]
    exact h.call_lt c' old hold
  · exact h.mapped_lt
  · exact h.exit_lt
  · exact h.unmade
  · intro e c'
    refine (h.items e c').trans ⟨?_, ?_⟩
    · rintro ⟨old, hold, he, hdone⟩
      obtain ⟨call', hc', he', hdone'⟩ := hback c' old hold
      exact ⟨call', hc', he'.trans he, hdone'.trans hdone⟩
    · rintro ⟨call', hc', he, hdone⟩
      obtain ⟨old, hold, he', -, hdone'⟩ := hcall c' call' hc'
      exact ⟨old, hold, he'.trans he, hdone'.trans hdone⟩
  · exact h.nodup
  · exact h.mapped_once
  · exact h.retired
  · exact h.shutdown
  · intro c' call' hc'
    obtain ⟨old, hold, he, ho, -⟩ := hcall c' call' hc'
    rw [← he, ← ho]
    exact h.owner c' old hold
  · exact h.joined
  · exact h.taken_once
  · exact h.thread

/-- A call ends. -/
theorem Inv.finish {c : Nat} {call : Call} (h : p.Inv) (hc : p.call c = some call)
    (hrunning : (p.executor call.executor).running = some c) :
    ((p.setExecutor call.executor (p.executor call.executor).finish).setCall c
      { call with done := true }).Inv := by
  have hitems := Worker.items_finish hrunning
  have hnodup := h.nodup call.executor
  rw [hitems, List.nodup_cons] at hnodup
  have hexecutor : ∀ e, (Function.update p.executor call.executor
      (p.executor call.executor).finish e).items = (p.executor e).items.erase c := by
    intro e
    by_cases he : e = call.executor
    · subst he
      rw [Function.update_self, hitems, List.erase_cons_head]
    · have hnot : c ∉ (p.executor e).items := by
        intro hmem
        obtain ⟨call', hc', he', -⟩ := (h.items e c).mp hmem
        rw [hc] at hc'
        cases hc'
        exact he he'.symm
      rw [Function.update_of_ne he, List.erase_of_not_mem hnot]
  constructor
  · intro c' call' hc'
    rcases update_eq_some_iff.mp hc' with ⟨rfl, rfl⟩ | ⟨-, hold⟩
    · exact h.call_lt _ call hc
    · exact h.call_lt c' call' hold
  · exact h.mapped_lt
  · exact h.exit_lt
  · intro e he
    have hne : e ≠ call.executor := by
      rintro rfl
      exact absurd (h.call_lt c call hc).2 (Nat.not_lt.mpr he)
    exact (Function.update_of_ne hne _ _).trans (h.unmade e he)
  · intro e c'
    show c' ∈ (Function.update p.executor call.executor _ e).items ↔ _
    rw [hexecutor, (h.nodup e).mem_erase_iff, h.items e c']
    constructor
    · rintro ⟨hne, call', hold, hrest⟩
      exact ⟨call', update_eq_some_iff.mpr (.inr ⟨hne, hold⟩), hrest⟩
    · rintro ⟨call', hc', he, hdone⟩
      rcases update_eq_some_iff.mp hc' with ⟨-, rfl⟩ | ⟨hne, hold⟩
      · cases hdone
      · exact ⟨hne, call', hold, he, hdone⟩
  · intro e
    show (Function.update p.executor call.executor _ e).items.Nodup
    rw [hexecutor]
    exact (h.nodup e).erase c
  · exact h.mapped_once
  · exact h.retired
  · intro e he
    change (Function.update p.executor call.executor _ e).shutdown = true at he
    refine h.shutdown e ?_
    by_cases hne : e = call.executor
    · subst hne
      rwa [Function.update_self] at he
    · rwa [Function.update_of_ne hne] at he
  · intro c' call' hc'
    rcases update_eq_some_iff.mp hc' with ⟨rfl, rfl⟩ | ⟨-, hold⟩
    · exact h.owner _ call hc
    · exact h.owner c' call' hold
  · intro x exit hexit hawait
    show (Function.update p.executor call.executor _ exit.executor).items = []
    rw [hexecutor, h.joined x exit hexit hawait, List.erase_nil]
  · exact h.taken_once
  · exact h.thread

/-- An exit goes on. -/
theorem Inv.await {x : Nat} {exit exit' : Exit} (h : p.Inv) (hx : p.exit x = some exit)
    (hexecutor : exit'.executor = exit.executor) (hobject : exit'.object = exit.object)
    (hidle : exit'.await = .joined ∨ exit'.await = .returned →
      (p.executor exit.executor).items = [])
    (hawait : exit'.await ≠ .joining) : (p.setExit x exit').Inv := by
  have hexit : ∀ x' new, (p.setExit x exit').exit x' = some new →
      ∃ old, p.exit x' = some old ∧ old.executor = new.executor ∧ old.object = new.object ∧
        (new = old ∨ x' = x ∧ new = exit') := by
    intro x' new hx'
    rcases update_eq_some_iff.mp hx' with ⟨rfl, rfl⟩ | ⟨-, hold⟩
    · exact ⟨exit, hx, hexecutor.symm, hobject.symm, .inr ⟨rfl, rfl⟩⟩
    · exact ⟨new, hold, rfl, rfl, .inl rfl⟩
  have hback : ∀ x' old, p.exit x' = some old → ∃ new, (p.setExit x exit').exit x' = some new ∧
      new.executor = old.executor ∧ new.object = old.object := by
    intro x' old hold
    by_cases hne : x' = x
    · subst hne
      rw [hx] at hold
      cases hold
      exact ⟨exit', Function.update_self .., hexecutor, hobject⟩
    · exact ⟨old, (Function.update_of_ne hne _ _).trans hold, rfl, rfl⟩
  constructor
  · exact h.call_lt
  · exact h.mapped_lt
  · intro x' new hx'
    obtain ⟨old, hold, he, -⟩ := hexit x' new hx'
    rw [← he]
    exact h.exit_lt x' old hold
  · exact h.unmade
  · exact h.items
  · exact h.nodup
  · exact h.mapped_once
  · intro x' new hx'
    obtain ⟨old, hold, he, -⟩ := hexit x' new hx'
    rw [← he]
    exact h.retired x' old hold
  · intro e he
    obtain ⟨x', old, hold, rfl⟩ := h.shutdown e he
    obtain ⟨new, hx', he', -⟩ := hback x' old hold
    exact ⟨x', new, hx', he'⟩
  · intro c call hcall
    rcases h.owner c call hcall with hfound | ⟨x', old, hold, he, ho⟩
    · exact .inl hfound
    · obtain ⟨new, hx', he', ho'⟩ := hback x' old hold
      exact .inr ⟨x', new, hx', he'.trans he, ho'.trans ho⟩
  · intro x' new hx' hended
    obtain ⟨old, hold, he, -, rfl | ⟨-, rfl⟩⟩ := hexit x' new hx'
    · exact h.joined x' new hold hended
    · show (p.executor new.executor).items = []
      rw [hexecutor]
      exact hidle hended
  · intro x₁ x₂ new₁ new₂ h₁ h₂ heq
    obtain ⟨old₁, hold₁, he₁, -⟩ := hexit x₁ new₁ h₁
    obtain ⟨old₂, hold₂, he₂, -⟩ := hexit x₂ new₂ h₂
    exact h.taken_once x₁ x₂ old₁ old₂ hold₁ hold₂ (he₁.trans (heq.trans he₂.symm))
  · intro x' new hx' hjoining
    obtain ⟨old, hold, -, -, rfl | ⟨-, rfl⟩⟩ := hexit x' new hx'
    · exact h.thread x' new hold hjoining
    · exact absurd hjoining hawait

theorem Inv.step (h : p.Inv) (hstep : PoolStep p p') : p'.Inv := by
  cases hstep with
  | same => exact h
  | submit hsubmit => exact h.submit hsubmit
  | retire t o => exact h.retire t o
  | @take e worker htake =>
      obtain ⟨hitems, hshutdown, -⟩ := Worker.items_take htake
      refine h.setExecutor (h.lt_of_take htake) hitems fun hdown => h.shutdown e ?_
      rwa [hshutdown] at hdown
  | park hc parked => exact h.park hc parked
  | finish hc hrunning => exact h.finish hc hrunning
  | @shutdown x exit hx =>
      exact h.setExecutor (h.exit_lt x exit hx).2 (Worker.items_close _) fun _ =>
        ⟨x, exit, hx, rfl⟩
  | @await x exit await thread hx hidle hawait =>
      refine h.await hx rfl rfl (fun hended => ?_) hawait
      rcases hidle hended with hempty | hjoined
      · exact hempty
      · exact h.joined x exit hx (.inl hjoined)

end Pool

/-! ## The invariant of the tasks -/

/-- What task `t` waits for is its own, and has not ended. -/
def Pool.Awaits (p : Pool) (t : Nat) : Point → Prop
  | .ready => True
  | .calling c => ∃ call, p.call c = some call ∧ call.task = t ∧ call.done = false
  | .exiting x => ∃ exit, p.exit x = some exit ∧ exit.task = t ∧
      (exit.await = .joining ∨ exit.await = .joined)

/-- What each task waits for has not ended. -/
def Waits (s : State) : Prop := ∀ t, s.pool.Awaits t (s.point t)

/-- What task `t` waits for goes on. -/
theorem Pool.Awaits.keep {t : Nat} {point : Point} (h : p.Awaits t point)
    (hcall : ∀ c call, p.call c = some call → call.task = t → call.done = false →
      ∃ call', p'.call c = some call' ∧ call'.task = t ∧ call'.done = false)
    (hexit : ∀ x exit, p.exit x = some exit → exit.task = t →
      exit.await = .joining ∨ exit.await = .joined →
      ∃ exit', p'.exit x = some exit' ∧ exit'.task = t ∧
        (exit'.await = .joining ∨ exit'.await = .joined)) :
    p'.Awaits t point := by
  cases point with
  | ready => trivial
  | calling c =>
      obtain ⟨call, hc, htask, hdone⟩ := h
      exact hcall c call hc htask hdone
  | exiting x =>
      obtain ⟨exit, hx, htask, hawait⟩ := h
      exact hexit x exit hx htask hawait

/-- A call of another task changes, or a new one is there. -/
theorem Pool.Awaits.setCall {t c : Nat} {new : Call} {point : Point} (h : p.Awaits t point)
    (hold : ∀ call, p.call c = some call → call.task ≠ t) :
    (p.setCall c new).Awaits t point := by
  refine h.keep (fun c' call hc' htask hdone => ?_) fun _ exit hx htask hawait =>
    ⟨exit, hx, htask, hawait⟩
  have hne : c' ≠ c := by
    rintro rfl
    exact hold call hc' htask
  exact ⟨call, (Function.update_of_ne hne _ _).trans hc', htask, hdone⟩

/-- An exit of another task changes, or a new one is there. -/
theorem Pool.Awaits.setExit {t x : Nat} {new : Exit} {point : Point} (h : p.Awaits t point)
    (hold : ∀ exit, p.exit x = some exit → exit.task ≠ t) :
    (p.setExit x new).Awaits t point := by
  refine h.keep (fun _ call hc htask hdone => ⟨call, hc, htask, hdone⟩)
    fun x' exit hx' htask hawait => ?_
  have hne : x' ≠ x := by
    rintro rfl
    exact hold exit hx' htask
  exact ⟨exit, (Function.update_of_ne hne _ _).trans hx', htask, hawait⟩

namespace Waits

/-- Task `t` gets to another point. -/
theorem move {t : Nat} {point : Point} {pool : Pool}
    (hothers : ∀ t', t' ≠ t → pool.Awaits t' (s.point t')) (hpoint : pool.Awaits t point) :
    Waits { s with pool := pool, point := Function.update s.point t point } := by
  intro t'
  show pool.Awaits t' (Function.update s.point t point t')
  by_cases ht : t' = t
  · subst ht
    rwa [Function.update_self]
  · rw [Function.update_of_ne ht]
    exact hothers t' ht

/-- A function calls `async_to_sync`, or that call ends. -/
theorem park {c : Nat} {call : Call} (h : Waits s) (hc : s.pool.call c = some call)
    (parked : Bool) :
    Waits { s with pool := s.pool.setCall c { call with parked := parked } } := by
  intro t
  refine (h t).keep (fun c' call' hc' htask hdone => ?_) fun _ exit hx htask hawait =>
    ⟨exit, hx, htask, hawait⟩
  by_cases hne : c' = c
  · subst hne
    rw [hc] at hc'
    cases hc'
    exact ⟨_, Function.update_self .., htask, hdone⟩
  · exact ⟨call', (Function.update_of_ne hne _ _).trans hc', htask, hdone⟩

/-- The thread of an exit ends. -/
theorem join {x : Nat} {exit : Exit} (h : Waits s) (hx : s.pool.exit x = some exit) :
    Waits { s with
      pool := s.pool.setExit x { exit with
        thread := false
        await := if exit.await = .joining then .joined else exit.await } } := by
  intro t
  refine (h t).keep (fun _ call hc htask hdone => ⟨call, hc, htask, hdone⟩)
    fun x' exit' hx' htask hawait => ?_
  by_cases hne : x' = x
  · subst hne
    rw [hx] at hx'
    cases hx'
    refine ⟨_, Function.update_self .., htask, .inr ?_⟩
    rcases hawait with hawait | hawait
    · exact if_pos hawait
    · rw [hawait]
      rfl
  · exact ⟨exit', (Function.update_of_ne hne _ _).trans hx', htask, hawait⟩

/-- The task of an exit goes on. -/
theorem resume {x : Nat} {exit exit' : Exit} (h : Waits s) (hx : s.pool.exit x = some exit) :
    Waits { s with
      pool := s.pool.setExit x exit'
      point := Function.update s.point exit.task .ready } := by
  refine move (fun t' ht' => (h t').setExit fun old hold => ?_) trivial
  rw [hx] at hold
  cases hold
  exact ht'.symm

/-- The task of a call goes on. -/
theorem finish {c : Nat} {call call' : Call} {e : Nat} {worker : Worker Nat} (h : Waits s)
    (hc : s.pool.call c = some call) :
    Waits { s with
      pool := (s.pool.setExecutor e worker).setCall c call'
      point := Function.update s.point call.task .ready } := by
  refine move (fun t' ht' => Pool.Awaits.setCall (h t') fun old hold => ?_) trivial
  change s.pool.call c = some old at hold
  rw [hc] at hold
  cases hold
  exact ht'.symm

/-- A task waits for its new call. -/
theorem submit {t o : Nat} {pool : Pool} (h : Waits s) (hpool : s.pool.Inv)
    (hsubmit : s.pool.submit t o = some pool) :
    Waits { s with pool := pool, point := Function.update s.point t (.calling s.pool.calls) } := by
  obtain ⟨worker, -, rfl⟩ := Pool.submit_spec hsubmit
  obtain ⟨hcall, hcalls, hexit⟩ := s.pool.executorOf_same o
  refine move (fun t' _ => (h t').keep (fun c call hc htask hdone => ?_)
    fun x exit hx htask hawait => ?_) ?_
  · have hne : c ≠ (s.pool.executorOf o).2.calls := by
      have hlt := (hpool.call_lt c call hc).1
      omega
    refine ⟨call, (Function.update_of_ne hne _ _).trans ?_, htask, hdone⟩
    show (s.pool.executorOf o).2.call c = some call
    rwa [hcall]
  · refine ⟨exit, ?_, htask, hawait⟩
    show (s.pool.executorOf o).2.exit x = some exit
    rwa [hexit]
  · refine ⟨⟨t, o, (s.pool.executorOf o).1, false, false⟩, ?_, rfl, rfl⟩
    rw [← hcalls]
    exact Function.update_self ..

/-- A task waits for its new exit, if that found an executor. -/
theorem retire {t o : Nat} (h : Waits s) (hpool : s.pool.Inv) :
    Waits { s with
      pool := s.pool.retire t o
      point :=
        if (s.pool.contextToThreadExecutor o).isSome then
          Function.update s.point t (.exiting s.pool.exits)
        else s.point } := by
  unfold Pool.retire
  cases hmap : s.pool.contextToThreadExecutor o with
  | none => exact h
  | some e =>
      refine move (fun t' _ => Pool.Awaits.setExit (h t') fun exit hx => ?_) ?_
      · exact absurd (hpool.exit_lt _ exit hx).1 (Nat.lt_irrefl _)
      · exact ⟨_, Function.update_self .., rfl, .inl rfl⟩

theorem step (h : Waits s) (hpool : s.pool.Inv) (hs : machine.step s a = some s') : Waits s' := by
  cases a with
  | spawn t =>
      simp only [machine, Option.ite_none_right_eq_some, Option.some.injEq] at hs
      obtain ⟨-, rfl⟩ := hs
      exact h
  | enter t =>
      simp only [machine, Option.ite_none_right_eq_some, Option.some.injEq] at hs
      obtain ⟨-, rfl⟩ := hs
      unfold aenter
      cases s.var t with
      | some o => exact h
      | none => exact h
  | exit t =>
      simp only [machine, Option.ite_none_right_eq_some] at hs
      obtain ⟨-, hs⟩ := hs
      unfold aexit at hs
      split at hs
      · cases hs
      · simp only at hs
        split at hs
        · cases hs
          exact h.retire hpool
        · cases hs
          exact h
  | call t =>
      simp only [machine, Option.ite_none_right_eq_some] at hs
      obtain ⟨-, hs⟩ := hs
      obtain ⟨o, -, hs⟩ := Option.bind_eq_some_iff.mp hs
      obtain ⟨pool, hsubmit, rfl⟩ := Option.map_eq_some_iff.mp hs
      exact h.submit hpool hsubmit
  | take e =>
      obtain ⟨worker, -, rfl⟩ := Option.map_eq_some_iff.mp hs
      exact h
  | park c =>
      obtain ⟨call, hrunning, hs⟩ := Option.bind_eq_some_iff.mp hs
      split at hs
      · cases hs
      · cases hs
        exact h.park (running_eq hrunning).1 true
  | serve c =>
      obtain ⟨call, hrunning, hs⟩ := Option.bind_eq_some_iff.mp hs
      split at hs
      · cases hs
        exact h.park (running_eq hrunning).1 false
      · cases hs
  | finish c =>
      obtain ⟨call, hrunning, hs⟩ := Option.bind_eq_some_iff.mp hs
      split at hs
      · cases hs
      · cases hs
        exact h.finish (running_eq hrunning).1
  | shutdown x =>
      obtain ⟨exit, -, hs⟩ := Option.bind_eq_some_iff.mp hs
      split at hs
      · cases hs
      · cases hs
        exact h
  | join x =>
      obtain ⟨exit, hexit, hs⟩ := Option.bind_eq_some_iff.mp hs
      split at hs
      · cases hs
        exact h.join hexit
      · cases hs
  | resume x =>
      obtain ⟨exit, hexit, hs⟩ := Option.bind_eq_some_iff.mp hs
      split at hs
      · cases hs
        exact h.resume hexit
      · cases hs
  | cancel x =>
      obtain ⟨exit, hexit, hs⟩ := Option.bind_eq_some_iff.mp hs
      split at hs
      · cases hs
        exact h.resume hexit
      · cases hs
        exact h.resume hexit
      · cases hs

end Waits

/-! ## In every run -/

/-- What holds in every run. -/
structure Sound (s : State) : Prop where
  pool : s.pool.Inv
  waits : Waits s

theorem Sound.step (h : Sound s) (hs : machine.step s a = some s') : Sound s' :=
  ⟨h.pool.step (step_pool hs), h.waits.step h.pool hs⟩

theorem sound_run {G : State → Action → Prop} (h : machine.Run G init as s) : Sound s :=
  h.invariant ⟨Pool.inv_init, fun t => show init.pool.Awaits t .ready from trivial⟩
    fun _ _ _ hinv _ hs => hinv.step hs

end Asgiref.SensitiveContext
