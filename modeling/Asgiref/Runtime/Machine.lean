import Mathlib.Data.Option.Basic
import Asgiref.Lib.Machine
import Asgiref.Runtime.Tasks

/-! # The machine of threads, loops and tasks

* **`Action`**, **`machine`** — all steps of all threads, tasks and loops, which interleave freely.
* **`Step`** — what each action needs and does, with **`step_inv`**. Every theorem about the machine
  starts from it. -/

namespace Asgiref

namespace Runtime

/-- The steps of threads, tasks and loops. -/
inductive Action
  | call (t : ThreadId) (forceNewLoop : Bool)
  | leave (t : ThreadId)
  | take (t : ThreadId)
  | ret (t : ThreadId) (r : Result)
  | work (t : ThreadId) (context : Context)
  | spawnThreadsafe (t : ThreadId) (l : LoopId)
  | startLoop (context : Context)
  | create (k : TaskId)
  | startTask (k : TaskId)
  | taskWork (k : TaskId) (context : Context)
  | spawn (k : TaskId) (custom : Option Context)
  | awaitTask (k k' : TaskId)
  | resumeTask (k : TaskId)
  | finish (k : TaskId) (r : Result) (mustCancel : Bool)
  | syncToAsync (k : TaskId) (threadSensitive : Bool) (custom : Option Context)
  | settle (x : ItemId)
  | complete (x : ItemId)
  | cancel (k : TaskId)
  | deliver (x : ItemId)
  | resumeItem (x : ItemId)
  | dropItem (x : ItemId)
  | closeGenerator (l : LoopId) (c : CallId) (context : Context)
  | closeLoop (l : LoopId) (c : CallId)
  | toggleLoop (l : LoopId)

/-- The machine. -/
def machine (env : Env) : Machine State Action where
  step s
    | .call t forceNewLoop => call env t forceNewLoop s
    | .leave t => leave env t s
    | .take t => take env t s
    | .ret t r => ret t r s
    | .work t context => work t context s
    | .spawnThreadsafe t l => spawnThreadsafe t l s
    | .startLoop context => startLoop context s
    | .create k => create k s
    | .startTask k => startTask env k s
    | .taskWork k context => taskWork k context s
    | .spawn k custom => spawn k custom s
    | .awaitTask k k' => awaitTask k k' s
    | .resumeTask k => resumeTask k s
    | .finish k r mustCancel => finish k r mustCancel s
    | .syncToAsync k threadSensitive custom => syncToAsync env k threadSensitive custom s
    | .settle x => settle x s
    | .complete x => complete env x s
    | .cancel k => cancel k s
    | .deliver x => deliver env x s
    | .resumeItem x => resumeItem env x s
    | .dropItem x => dropItem x s
    | .closeGenerator l c context => closeGenerator l c context s
    | .closeLoop l c => closeLoop l c s
    | .toggleLoop l => toggleLoop l s

/-- What each action needs, and the state that it leads to. -/
inductive Step (env : Env) (s : State) : Action → State → Prop
  | callParent (t : ThreadId) (frame : SyncFrame) (rest : List SyncFrame) (force : Bool)
      (l : LoopId) : s.stack t = frame :: rest → frame.call = none →
      parentLoop env force t s = some l →
      Step env s (.call t force) (callParent env t frame rest force l s)
  | callNewLoop (t : ThreadId) (frame : SyncFrame) (rest : List SyncFrame) (force : Bool) :
      s.stack t = frame :: rest → frame.call = none → parentLoop env force t s = none →
      Step env s (.call t force) (callNewLoop env t frame rest force s)
  | leave (t : ThreadId) (frame : SyncFrame) (rest : List SyncFrame) (c : CallId) :
      s.stack t = frame :: rest → frame.call = some c → s.broken c = true → s.workItems c = [] →
      Step env s (.leave t) (unpark env t frame rest c s)
  | takeCancelled (t : ThreadId) (x : ItemId) (q : ThreadId → List ItemId)
      (q' : CallId → List ItemId) : dequeue t s = some (x, q, q') → s.phase x ≠ .queued →
      Step env s (.take t) (setQueues q q' s)
  | take (t : ThreadId) (x : ItemId) (q : ThreadId → List ItemId) (q' : CallId → List ItemId)
      (context : Context) : dequeue t s = some (x, q, q') → s.phase x = .queued →
      restoreContext env.ne (env.getIdent t) (s.itemContext x) (s.itemContext x)
        = (context, none) →
      Step env s (.take t) (enterItem env t x context (setQueues q q' s))
  | takeRaising (t : ThreadId) (x : ItemId) (q : ThreadId → List ItemId)
      (q' : CallId → List ItemId) (context : Context) (e : PyError) :
      dequeue t s = some (x, q, q') → s.phase x = .queued →
      restoreContext env.ne (env.getIdent t) (s.itemContext x) (s.itemContext x)
        = (context, some e) →
      Step env s (.take t) (failItem env t x context e (setQueues q q' s))
  | ret (t : ThreadId) (frame : SyncFrame) (rest : List SyncFrame) (x : ItemId) (r : Result) :
      s.stack t = frame :: rest → frame.item = some x → frame.call = none →
      Step env s (.ret t r) (returnItem t rest x r s)
  | work (t : ThreadId) (frame : SyncFrame) (rest : List SyncFrame) (context : Context) :
      s.stack t = frame :: rest → frame.call = none →
      Local.storage context executors = Local.storage (s.frameContext t frame) executors →
      Step env s (.work t context) { s with
        itemContext := setItemContext frame context s
        baseContext := setBaseContext t frame context s }
  | spawnThreadsafe (t : ThreadId) (frame : SyncFrame) (rest : List SyncFrame) (l : LoopId) :
      s.stack t = frame :: rest → frame.call = none → l < s.nextLoop →
      Step env s (.spawnThreadsafe t l)
        (addTask ⟨l, none, none⟩ .queued (s.frameContext t frame) s)
  | startLoop (context : Context) : Step env s (.startLoop context)
      { addTask ⟨s.nextLoop, none, none⟩ .running context s with
        loop := Function.update s.loop s.nextLoop ⟨s.nextThread, none⟩
        loopRunning := Function.update s.loopRunning s.nextLoop true
        nextThread := s.nextThread + 1
        nextLoop := s.nextLoop + 1 }
  | create (k : TaskId) : s.status k = .queued → s.live k = true →
      Step env s (.create k) (setStatus k (.created false) s)
  | startCancelled (k : TaskId) : s.live k = true → s.status k = .created true →
      Step env s (.startTask k) (setStatus k (.done true) s)
  | startMain (k : TaskId) (c : CallId) (context : Context) : s.live k = true →
      s.status k = .created false → (s.task k).call = some c →
      restoreContext env.ne (env.getIdent (s.taskThread k)) (s.context k) (s.captured c)
        = (context, none) →
      Step env s (.startTask k) (startMain k c context s)
  | failMain (k : TaskId) (c : CallId) (context : Context) (e : PyError) : s.live k = true →
      s.status k = .created false → (s.task k).call = some c →
      restoreContext env.ne (env.getIdent (s.taskThread k)) (s.context k) (s.captured c)
        = (context, some e) →
      Step env s (.startTask k) (failMain k context s)
  | startTask (k : TaskId) : s.live k = true → s.status k = .created false →
      (s.task k).call = none → Step env s (.startTask k) (setStatus k .running s)
  | taskWork (k : TaskId) (context : Context) : s.status k = .running → s.live k = true →
      Local.storage context executors = Local.storage (s.context k) executors →
      Step env s (.taskWork k context) { s with context := Function.update s.context k context }
  | spawn (k : TaskId) (custom : Option Context) : s.status k = .running → s.live k = true →
      Step env s (.spawn k custom)
        (addTask ⟨(s.task k).loop, none, (s.task k).spawnedBelow⟩ (.created false)
          (custom.getD (s.context k)) s)
  | awaitTask (k k' : TaskId) : s.status k = .running → s.live k = true → k' < s.nextTask →
      Step env s (.awaitTask k k') (setStatus k (.awaitingTask k') s)
  | resumeTask (k k' : TaskId) : s.status k = .awaitingTask k' → s.live k = true →
      Step env s (.resumeTask k) (setStatus k .running s)
  | finishMain (k : TaskId) (c : CallId) (r : Result) (mustCancel : Bool) :
      s.status k = .running → s.live k = true → (s.task k).call = some c →
      Step env s (.finish k r mustCancel) (finishMain k c r mustCancel s)
  | finishTask (k : TaskId) (r : Result) (mustCancel : Bool) : s.status k = .running →
      s.live k = true → (s.task k).call = none →
      Step env s (.finish k r mustCancel) (setStatus k (.done mustCancel) s)
  | syncRaising (k : TaskId) (b : Bool) (custom : Option Context) :
      s.status k = .running → s.live k = true → Step env s (.syncToAsync k b custom) s
  | syncToAsync (k : TaskId) (b : Bool) (custom : Option Context) (selection : Selection)
      (executor : ExecutorRef) : s.status k = .running → s.live k = true →
      selectExecutor env b k s = some selection →
      submit (s.taskThread k) s selection.executor = some executor →
      Step env s (.syncToAsync k b custom)
        (addWorker b selection (awaitItem k executor custom selection.context s))
  | settle (x : ItemId) (r : Result) : s.phase x = .returned r → s.execCoro x = .pending →
      Step env s (.settle x) { s with execCoro := Function.update s.execCoro x (.done r) }
  | complete (x : ItemId) (r : Result) : s.live (s.item x).task = true →
      s.await x = .shielded ∨ s.await x = .awaitingExec → (s.execCoro x).result = some r →
      Step env s (.complete x) (endItem env x r s)
  | cancel (k : TaskId) : Step env s (.cancel k) (cancelTask k s)
  | passOn (x : ItemId) (k : TaskId) (rest : List TaskId) : s.await x = .interrupted →
      s.live (s.item x).task = true → s.tasks x = k :: rest →
      (s.task k).loop = (s.item x).loop →
      Step env s (.deliver x) (setDelivered x k (cancelTask k s))
  | passOnOther (x : ItemId) (k : TaskId) (rest : List TaskId) : s.await x = .interrupted →
      s.live (s.item x).task = true → s.tasks x = k :: rest →
      (s.task k).loop ≠ (s.item x).loop →
      Step env s (.deliver x)
        (endItem env x (.error otherLoop) (setDelivered x k (cancelTask k s)))
  | deliverDone (x : ItemId) : s.await x = .interrupted → s.live (s.item x).task = true →
      s.tasks x = [] → (s.execCoro x).result.isSome = true →
      Step env s (.deliver x) (endItem env x (.error .cancelledError) s)
  | deliverAbandon (x : ItemId) : s.await x = .interrupted → s.live (s.item x).task = true →
      s.tasks x = [] → Step env s (.deliver x) (abandon x s)
  | resumeDone (x : ItemId) (k : TaskId) (b : Bool) : s.await x = .awaitingTask k →
      s.status k = .done b → s.live (s.item x).task = true →
      (s.execCoro x).result.isSome = true →
      Step env s (.resumeItem x) (endItem env x (.error .cancelledError) s)
  | resumeAbandon (x : ItemId) (k : TaskId) : s.await x = .awaitingTask k →
      s.status k = .done true → s.live (s.item x).task = true →
      Step env s (.resumeItem x) (abandon x s)
  | resumeAwait (x : ItemId) (k : TaskId) : s.await x = .awaitingTask k →
      s.status k = .done false → s.live (s.item x).task = true →
      (s.execCoro x).result.isSome = false →
      Step env s (.resumeItem x) { s with await := Function.update s.await x .awaitingExec }
  | dropItem (x : ItemId) : s.execCoro x = .cancelled → s.phase x = .queued →
      Step env s (.dropItem x) { s with phase := Function.update s.phase x .cancelled }
  | closeGenerator (l : LoopId) (c : CallId) (context : Context) : s.shuttingDown l c →
      Step env s (.closeGenerator l c context)
        (addTask ⟨l, none, none⟩ (.created false) context s)
  | closeLoop (l : LoopId) (c : CallId) : s.shuttingDown l c →
      Step env s (.closeLoop l c) { s with
        loopRunning := Function.update s.loopRunning l false
        broken := Function.update s.broken c true }
  | toggleLoop (l : LoopId) : l < s.nextLoop → (s.loop l).call = none →
      Step env s (.toggleLoop l)
        { s with loopRunning := Function.update s.loopRunning l (!s.loopRunning l) }

variable {env : Env} {s s' : State}

/-! ## What a step can do -/

theorem call_inv {t : ThreadId} {force : Bool} (h : call env t force s = some s') :
    Step env s (.call t force) s' := by
  unfold call at h
  split at h
  · cases h
  · rename_i frame rest hstack
    split at h
    · rename_i hcall
      split at h
      · rename_i l hparent
        cases h
        exact .callParent t frame rest force l hstack hcall hparent
      · rename_i hparent
        cases h
        exact .callNewLoop t frame rest force hstack hcall hparent
    · cases h

theorem leave_inv {t : ThreadId} (h : leave env t s = some s') : Step env s (.leave t) s' := by
  unfold leave at h
  split at h
  · cases h
  · rename_i frame rest hstack
    split at h
    · rename_i c hcall
      split at h
      · rename_i hguard
        cases h
        exact .leave t frame rest c hstack hcall hguard.1 hguard.2
      · cases h
    · cases h

theorem take_inv {t : ThreadId} (h : take env t s = some s') : Step env s (.take t) s' := by
  unfold take at h
  split at h
  · rename_i x q q' hdequeue
    split at h
    · rename_i hqueued
      unfold threadHandler at h
      split at h
      · rename_i context hrestore
        cases h
        exact .take t x q q' context hdequeue hqueued hrestore
      · rename_i context e hrestore
        cases h
        exact .takeRaising t x q q' context e hdequeue hqueued hrestore
    · rename_i hnot
      cases h
      exact .takeCancelled t x q q' hdequeue hnot
  · cases h

theorem ret_inv {t : ThreadId} {r : Result} (h : ret t r s = some s') :
    Step env s (.ret t r) s' := by
  unfold ret at h
  split at h
  · cases h
  · rename_i frame rest hstack
    split at h
    · rename_i x hitem hcall
      cases h
      exact .ret t frame rest x r hstack hitem hcall
    · cases h

theorem work_inv {t : ThreadId} {context : Context} (h : work t context s = some s') :
    Step env s (.work t context) s' := by
  unfold work at h
  split at h
  · cases h
  · rename_i frame rest hstack
    split at h
    · rename_i hguard
      cases h
      exact .work t frame rest context hstack hguard.1 hguard.2
    · cases h

theorem spawnThreadsafe_inv {t : ThreadId} {l : LoopId} (h : spawnThreadsafe t l s = some s') :
    Step env s (.spawnThreadsafe t l) s' := by
  unfold spawnThreadsafe at h
  split at h
  · cases h
  · rename_i frame rest hstack
    split at h
    · rename_i hguard
      cases h
      exact .spawnThreadsafe t frame rest l hstack hguard.1 hguard.2
    · cases h

theorem startTask_inv {k : TaskId} (h : startTask env k s = some s') :
    Step env s (.startTask k) s' := by
  unfold startTask at h
  split at h
  · rename_i hlive
    split at h
    · rename_i hstatus
      cases h
      exact .startCancelled k hlive hstatus
    · rename_i hstatus
      split at h
      · rename_i c hcall
        split at h
        · rename_i context hrestore
          cases h
          exact .startMain k c context hlive hstatus hcall hrestore
        · rename_i context e hrestore
          cases h
          exact .failMain k c context e hlive hstatus hcall hrestore
      · rename_i hcall
        cases h
        exact .startTask k hlive hstatus hcall
    · cases h
  · cases h

theorem finish_inv {k : TaskId} {r : Result} {b : Bool} (h : finish k r b s = some s') :
    Step env s (.finish k r b) s' := by
  unfold finish at h
  split at h
  · rename_i hguard
    split at h
    · rename_i c hcall
      cases h
      exact .finishMain k c r b hguard.1 hguard.2 hcall
    · rename_i hcall
      cases h
      exact .finishTask k r b hguard.1 hguard.2 hcall
  · cases h

theorem resumeTask_inv {k : TaskId} (h : resumeTask k s = some s') :
    Step env s (.resumeTask k) s' := by
  unfold resumeTask at h
  split at h
  · rename_i k' hstatus
    split at h
    · rename_i hguard
      cases h
      exact .resumeTask k k' hstatus hguard.2
    · cases h
  · cases h

theorem syncToAsync_inv {k : TaskId} {b : Bool} {custom : Option Context}
    (h : syncToAsync env k b custom s = some s') : Step env s (.syncToAsync k b custom) s' := by
  unfold syncToAsync at h
  split at h
  · rename_i hguard
    split at h
    · cases h
      exact .syncRaising k b custom hguard.1 hguard.2
    · rename_i selection hselect
      split at h
      · cases h
        exact .syncRaising k b custom hguard.1 hguard.2
      · rename_i executor hsubmit
        cases h
        exact .syncToAsync k b custom selection executor hguard.1 hguard.2 hselect hsubmit
  · cases h

theorem settle_inv {x : ItemId} (h : settle x s = some s') : Step env s (.settle x) s' := by
  unfold settle at h
  split at h
  · rename_i r hphase hpending
    split at h
    · cases h
      exact .settle x r hphase hpending
    · cases h
  · cases h

theorem complete_inv {x : ItemId} (h : complete env x s = some s') :
    Step env s (.complete x) s' := by
  unfold complete at h
  split at h
  · rename_i hguard
    split at h
    · rename_i r hresult
      cases h
      exact .complete x r hguard.1 hguard.2 hresult
    · cases h
  · cases h

theorem deliver_inv {x : ItemId} (h : deliver env x s = some s') : Step env s (.deliver x) s' := by
  unfold deliver at h
  split at h
  · rename_i hguard
    split at h
    · rename_i k rest htasks
      cases h
      by_cases hloop : (s.task k).loop = (s.item x).loop
      · rw [passOn, if_pos hloop]
        exact .passOn x k rest hguard.1 hguard.2 htasks hloop
      · rw [passOn, if_neg hloop]
        exact .passOnOther x k rest hguard.1 hguard.2 htasks hloop
    · rename_i htasks
      split at h
      · rename_i hresult
        cases h
        exact .deliverDone x hguard.1 hguard.2 htasks hresult
      · cases h
        exact .deliverAbandon x hguard.1 hguard.2 htasks
  · cases h

theorem resumeItem_inv {x : ItemId} (h : resumeItem env x s = some s') :
    Step env s (.resumeItem x) s' := by
  unfold resumeItem at h
  split at h
  · rename_i k hawait
    split at h
    · rename_i b hstatus
      split at h
      · rename_i hlive
        split at h
        · rename_i hresult
          cases h
          exact .resumeDone x k b hawait hstatus hlive hresult
        · rename_i hresult
          split at h
          · rename_i hb
            cases h
            subst hb
            exact .resumeAbandon x k hawait hstatus hlive
          · rename_i hb
            cases h
            rw [Bool.not_eq_true] at hb hresult
            subst hb
            exact .resumeAwait x k hawait hstatus hlive hresult
      · cases h
    · cases h
  · cases h

/-- A step that is taken under a condition. -/
theorem ite_some_inv {α : Type} {p : Prop} [Decidable p] {a b : α}
    (h : (if p then some a else none) = some b) : p ∧ a = b := by
  by_cases hp : p
  · rw [if_pos hp] at h
    exact ⟨hp, Option.some.inj h⟩
  · rw [if_neg hp] at h
    cases h

/-- **What a step can do.** -/
theorem step_inv {a : Action} (h : (machine env).step s a = some s') : Step env s a s' := by
  cases a with
  | call t force => exact call_inv h
  | leave t => exact leave_inv h
  | take t => exact take_inv h
  | ret t r => exact ret_inv h
  | work t context => exact work_inv h
  | spawnThreadsafe t l => exact spawnThreadsafe_inv h
  | startLoop context =>
      cases h
      exact .startLoop context
  | create k =>
      obtain ⟨hguard, rfl⟩ := ite_some_inv h
      exact .create k hguard.1 hguard.2
  | startTask k => exact startTask_inv h
  | taskWork k context =>
      obtain ⟨hguard, rfl⟩ := ite_some_inv h
      exact .taskWork k context hguard.1 hguard.2.1 hguard.2.2
  | spawn k custom =>
      obtain ⟨hguard, rfl⟩ := ite_some_inv h
      exact .spawn k custom hguard.1 hguard.2
  | awaitTask k k' =>
      obtain ⟨hguard, rfl⟩ := ite_some_inv h
      exact .awaitTask k k' hguard.1 hguard.2.1 hguard.2.2.1
  | resumeTask k => exact resumeTask_inv h
  | finish k r mustCancel => exact finish_inv h
  | syncToAsync k b custom => exact syncToAsync_inv h
  | settle x => exact settle_inv h
  | complete x => exact complete_inv h
  | cancel k =>
      cases h
      exact .cancel k
  | deliver x => exact deliver_inv h
  | resumeItem x => exact resumeItem_inv h
  | dropItem x =>
      obtain ⟨hguard, rfl⟩ := ite_some_inv h
      exact .dropItem x hguard.1 hguard.2
  | closeGenerator l c context =>
      obtain ⟨hshutting, rfl⟩ := ite_some_inv h
      exact .closeGenerator l c context hshutting
  | closeLoop l c =>
      obtain ⟨hshutting, rfl⟩ := ite_some_inv h
      exact .closeLoop l c hshutting
  | toggleLoop l =>
      obtain ⟨hguard, rfl⟩ := ite_some_inv h
      exact .toggleLoop l hguard.1 hguard.2

end Runtime

end Asgiref
