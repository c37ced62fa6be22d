import Asgiref.CopyOnWrite.Machine

/-! # Copy-on-write storage refines independent maps

* **`Published`** — a dict that some context refers to; **`Op.unpublished`** is the one that a
  thread has to itself.
* **`Inv`** — what always holds: an accessor under way stands by the context it has looked at,
  which no other thread can enter, and the dict it works on is nobody else's.
* **`simulates`** — the machine with shared dicts shows nothing but runs of the specification.
* **`refinement`** — the result, with the two reasons for it: published dicts are never changed,
  and an operation changes what its own context holds and nothing else. -/

namespace Asgiref.CopyOnWrite

/-- What the variables of a context stand for, with these dicts. -/
def pairsOf (heap : Nat → Dict) (vars : Vars) : Pairs := fun l =>
  (vars.lookup l).map fun ref => (ref.owner, fun key => (heap ref.data).lookup key)

/-- The state of the specification that a state stands for. -/
def abs (s : State) : Spec := ⟨fun c => (s.context c).map (pairsOf s.heap), s.entered⟩

/-- Some context refers to the dict. -/
def Published (s : State) (a : Nat) : Prop :=
  ∃ c vars l ref, s.context c = some vars ∧ vars.lookup l = some ref ∧ ref.data = a

/-- What holds of thread `t` in an accessor: what it has looked up is still in its context, and the
dict it has made is what the pair there makes of it. -/
def OpInv (s : State) (t : Nat) : Op → Prop
  | .idle => True
  | .getattr l _ storage | .setattr l _ _ storage | .delattr l _ storage =>
      ∃ c vars, s.current t = some (c, vars) ∧ vars.lookup l = storage
  | .setCopied l _ _ data =>
      ∃ c vars, s.current t = some (c, vars) ∧
        ∀ k, (s.heap data).lookup k = Pair.visible t (pairsOf s.heap vars l) k
  | .setWritten l key value data =>
      ∃ c vars, s.current t = some (c, vars) ∧
        ∀ k, (s.heap data).lookup k = (Pair.write t (pairsOf s.heap vars l) key value).2 k
  | .delCopied l key data =>
      ∃ c vars, s.current t = some (c, vars) ∧ key ∈ s.heap data ∧
        ∀ k, (s.heap data).lookup k = Pair.visible t (pairsOf s.heap vars l) k
  | .delErased l key data =>
      ∃ c vars pair, s.current t = some (c, vars) ∧
        Pair.delete t (pairsOf s.heap vars l) key = .ok pair ∧
          ∀ k, (s.heap data).lookup k = pair.2 k

/-- What holds of the state. -/
structure Inv (s : State) : Prop where
  exclusive : s.entered.Exclusive
  made : ∀ t c, c ∈ s.entered.stack t → (s.context c).isSome
  allocated : ∀ a, Published s a → a < s.next
  op : ∀ t, OpInv s t (s.op t)
  unpublished : ∀ t a, (s.op t).unpublished = some a → a < s.next ∧ ¬ Published s a ∧
    ∀ t', (s.op t').unpublished = some a → t' = t

theorem inv_init : Inv init where
  exclusive := Entered.exclusive_init
  made t c h := by cases h
  allocated := by
    rintro a ⟨c, vars, l, ref, hc, -⟩
    cases hc
  op t := trivial
  unpublished t a h := by cases h

variable {s s' : State} {t : Nat}

/-! ## What dicts that no context refers to cannot change -/

theorem context_of_current {c : Nat} {vars : Vars} (h : s.current t = some (c, vars)) :
    (∃ rest, s.entered.stack t = c :: rest) ∧ s.context c = some vars := by
  unfold State.current at h
  cases hstack : s.entered.stack t with
  | nil => rw [hstack] at h; cases h
  | cons c' rest =>
      rw [hstack] at h
      cases hcontext : s.context c' with
      | none => simp [hcontext] at h
      | some vars' =>
          simp only [hcontext, Option.map_some, Option.some.injEq, Prod.mk.injEq] at h
          obtain ⟨rfl, rfl⟩ := h
          exact ⟨⟨rest, rfl⟩, hcontext⟩

/-- Where a thread is depends on its own stack and context only. -/
theorem current_congr (hstack : s'.entered.stack t = s.entered.stack t)
    (hcontext : ∀ c ∈ s.entered.stack t, s'.context c = s.context c) :
    s'.current t = s.current t := by
  unfold State.current
  rw [hstack]
  cases hs : s.entered.stack t with
  | nil => rfl
  | cons c rest => simp [hcontext c (by rw [hs]; exact List.mem_cons_self)]

/-- What variables stand for depends on the dicts they refer to only. -/
theorem pairsOf_congr {heap heap' : Nat → Dict} {vars : Vars}
    (h : ∀ l ref, vars.lookup l = some ref → heap' ref.data = heap ref.data) :
    pairsOf heap' vars = pairsOf heap vars := by
  funext l
  unfold pairsOf
  cases hl : vars.lookup l with
  | none => rfl
  | some ref => simp [h l ref hl]

/-- What a context stands for depends on published dicts only. -/
theorem pairsOf_of_published {heap' : Nat → Dict}
    (hheap : ∀ a, Published s a → heap' a = s.heap a) {c : Nat} {vars : Vars}
    (hc : s.context c = some vars) : pairsOf heap' vars = pairsOf s.heap vars :=
  pairsOf_congr fun l ref hl => hheap _ ⟨c, vars, l, ref, hc, hl, rfl⟩

theorem abs_congr (hentered : s'.entered = s.entered) (hcontext : s'.context = s.context)
    (hheap : ∀ a, Published s a → s'.heap a = s.heap a) : abs s' = abs s := by
  unfold abs
  rw [hentered, hcontext]
  congr 1
  funext c
  cases hc : s.context c with
  | none => rfl
  | some vars => simp [pairsOf_of_published hheap hc]

/-- A step of another thread leaves an accessor as it stands. -/
theorem OpInv.frame {op : Op} (h : OpInv s t op) (hcurrent : s'.current t = s.current t)
    (hheap : ∀ a, Published s a ∨ op.unpublished = some a → s'.heap a = s.heap a) :
    OpInv s' t op := by
  have hpairs : ∀ {c vars}, s.current t = some (c, vars) →
      pairsOf s'.heap vars = pairsOf s.heap vars := fun hc =>
    pairsOf_of_published (fun a ha => hheap a (.inl ha)) (context_of_current hc).2
  cases op with
  | idle => trivial
  | getattr l key storage | setattr l key value storage | delattr l key storage =>
      unfold OpInv
      rw [hcurrent]
      exact h
  | setCopied l key value data | setWritten l key value data =>
      obtain ⟨c, vars, hc, hdata⟩ := h
      refine ⟨c, vars, hcurrent.trans hc, ?_⟩
      rw [hheap data (.inr rfl), hpairs hc]
      exact hdata
  | delCopied l key data =>
      obtain ⟨c, vars, hc, hmem, hdata⟩ := h
      refine ⟨c, vars, hcurrent.trans hc, ?_⟩
      rw [hheap data (.inr rfl), hpairs hc]
      exact ⟨hmem, hdata⟩
  | delErased l key data =>
      obtain ⟨c, vars, pair, hc, hpair, hdata⟩ := h
      refine ⟨c, vars, pair, hcurrent.trans hc, ?_⟩
      rw [hheap data (.inr rfl), hpairs hc]
      exact ⟨hpair, hdata⟩

/-- What thread `t` may do in a step: it publishes nothing but the dict that it has to itself, and
changes no other dict that is known to anyone. -/
structure ThreadStep (s : State) (t : Nat) (s' : State) : Prop where
  others : ∀ t', t' ≠ t → s'.op t' = s.op t' ∧ s'.current t' = s.current t'
  heap : ∀ a, a < s.next → (s.op t).unpublished ≠ some a → s'.heap a = s.heap a
  next : s.next ≤ s'.next
  published : ∀ a, Published s' a → Published s a ∨ (s.op t).unpublished = some a
  unpublished : ∀ a, (s'.op t).unpublished = some a →
    ((s.op t).unpublished = some a ∨ a = s.next ∧ s.next < s'.next) ∧ ¬ Published s' a

/-- **One step keeps the invariant** where thread `t` itself does. -/
theorem Inv.threadStep (h : Inv s) (hstep : ThreadStep s t s') (hexclusive : s'.entered.Exclusive)
    (hmade : ∀ t c, c ∈ s'.entered.stack t → (s'.context c).isSome)
    (hop : OpInv s' t (s'.op t)) : Inv s' where
  exclusive := hexclusive
  made := hmade
  allocated a ha := by
    have hlt : a < s.next := by
      rcases hstep.published a ha with hold | hmine
      · exact h.allocated a hold
      · exact (h.unpublished t a hmine).1
    have hnext := hstep.next
    omega
  op t' := by
    by_cases ht : t' = t
    · subst ht
      exact hop
    · obtain ⟨hsame, hcurrent⟩ := hstep.others t' ht
      rw [hsame]
      refine (h.op t').frame hcurrent fun a ha => ?_
      -- neither a published dict nor one of `t'` is the one that `t` has to itself
      rcases ha with hpublished | htheirs
      · exact hstep.heap a (h.allocated a hpublished) fun hmine =>
          (h.unpublished t a hmine).2.1 hpublished
      · exact hstep.heap a (h.unpublished t' a htheirs).1 fun hmine =>
          ht ((h.unpublished t a hmine).2.2 t' htheirs)
  unpublished t' a ha := by
    have hnext := hstep.next
    by_cases ht : t' = t
    · subst ht
      obtain ⟨hold | ⟨rfl, hlt⟩, hnot⟩ := hstep.unpublished a ha
      · obtain ⟨hlt, -, hunique⟩ := h.unpublished t' a hold
        refine ⟨by omega, hnot, fun t'' ht'' => ?_⟩
        by_contra hne
        rw [(hstep.others t'' hne).1] at ht''
        exact hne (hunique t'' ht'')
      · refine ⟨hlt, hnot, fun t'' ht'' => ?_⟩
        by_contra hne
        rw [(hstep.others t'' hne).1] at ht''
        exact absurd (h.unpublished t'' _ ht'').1 (Nat.lt_irrefl _)
    · rw [(hstep.others t' ht).1] at ha
      obtain ⟨hlt, hnot, hunique⟩ := h.unpublished t' a ha
      refine ⟨by omega, fun hpublished => ?_, fun t'' ht'' => ?_⟩
      · rcases hstep.published a hpublished with hold | hmine
        · exact hnot hold
        · exact ht (hunique t hmine).symm
      · by_cases hne : t'' = t
        · subst hne
          rcases (hstep.unpublished a ht'').1 with hmine | ⟨rfl, -⟩
          · exact hunique t'' hmine
          · exact absurd hlt (Nat.lt_irrefl _)
        · rw [(hstep.others t'' hne).1] at ht''
          exact hunique t'' ht''

/-! ## The parts of a step -/

@[simp] theorem setOp_op_self (s : State) (t : Nat) (op : Op) : (s.setOp t op).op t = op :=
  Function.update_self ..

theorem setOp_op_ne {t' : Nat} (s : State) (op : Op) (h : t' ≠ t) :
    (s.setOp t op).op t' = s.op t' :=
  Function.update_of_ne h ..

/-- What is published depends on the contexts only. -/
theorem Published.congr (hcontext : s'.context = s.context) {a : Nat} (h : Published s' a) :
    Published s a := by
  unfold Published at h
  rwa [hcontext] at h

/-- A step of thread `t` that leaves contexts and stacks alone. -/
theorem ThreadStep.of_context (h : Inv s) (hothers : ∀ t', t' ≠ t → s'.op t' = s.op t')
    (hcontext : s'.context = s.context) (hentered : s'.entered = s.entered)
    (hheap : ∀ a, a < s.next → (s.op t).unpublished ≠ some a → s'.heap a = s.heap a)
    (hnext : s.next ≤ s'.next)
    (hunpublished : ∀ a, (s'.op t).unpublished = some a →
      (s.op t).unpublished = some a ∨ a = s.next ∧ s.next < s'.next) : ThreadStep s t s' where
  others t' ht := by
    exact ⟨hothers t' ht, current_congr (by rw [hentered]) fun c _ => by rw [hcontext]⟩
  heap := hheap
  next := hnext
  published a ha := .inl (ha.congr hcontext)
  unpublished a ha := by
    refine ⟨hunpublished a ha, fun hpublished => ?_⟩
    have hold := hpublished.congr hcontext
    rcases hunpublished a ha with hmine | ⟨rfl, -⟩
    · exact (h.unpublished t a hmine).2.1 hold
    · exact absurd (h.allocated _ hold) (Nat.lt_irrefl _)

/-- Such a step shows nothing in the specification. -/
theorem ThreadStep.abs_eq (hstep : ThreadStep s t s') (h : Inv s)
    (hcontext : s'.context = s.context) (hentered : s'.entered = s.entered) : abs s' = abs s :=
  abs_congr hentered hcontext fun a ha => hstep.heap a (h.allocated a ha) fun hmine =>
    (h.unpublished t a hmine).2.1 ha

/-- What a step of the specification has to answer. -/
def Answers (s s' : State) : Option Event → Prop
  | none => abs s' = abs s
  | some e => (abs s).step e = some (abs s')

/-- What one action does. -/
structure ActSpec (s s' : State) (e : Option Event) : Prop where
  inv : Inv s'
  threadStep : ∃ t, ThreadStep s t s'
  answers : Answers s s' e

/-- An action of thread `t` that leaves contexts and stacks alone, and ends no operation that
changes the pairs. -/
theorem ActSpec.of_context (h : Inv s) (hstep : ThreadStep s t s')
    (hcontext : s'.context = s.context) (hentered : s'.entered = s.entered)
    (hop : OpInv s' t (s'.op t)) {e : Option Event}
    (hanswer : ∀ e', e = some e' → (abs s).step e' = some (abs s)) : ActSpec s s' e where
  inv := h.threadStep hstep (by rw [hentered]; exact h.exclusive)
    (by rw [hentered, hcontext]; exact h.made) hop
  threadStep := ⟨t, hstep⟩
  answers := by
    have habs := hstep.abs_eq h hcontext hentered
    cases e with
    | none => exact habs
    | some e' =>
        unfold Answers
        rw [habs]
        exact hanswer e' rfl

theorem abs_current (s : State) (t : Nat) :
    (abs s).current t = (s.current t).map fun (c, vars) => (c, pairsOf s.heap vars) := by
  unfold Spec.current State.current abs
  cases s.entered.stack t with
  | nil => rfl
  | cons c rest => cases hc : s.context c <;> simp [hc]

/-- The call of an accessor. -/
theorem ActSpec.call (h : Inv s) {l : Nat} {op : Option Ref → Op}
    (hunpublished : ∀ storage, (op storage).unpublished = none)
    (hop : ∀ c vars, s.current t = some (c, vars) →
      OpInv (s.setOp t (op (vars.lookup l))) t (op (vars.lookup l)))
    (hcall : call t l op s = some s') : ActSpec s s' none := by
  unfold CopyOnWrite.call at hcall
  split at hcall
  · rename_i c vars hidle hcurrent
    cases hcall
    have hstep : ThreadStep s t (s.setOp t (op (vars.lookup l))) :=
      .of_context h (fun t' ht => setOp_op_ne s _ ht) rfl rfl (fun _ _ _ => rfl) (Nat.le_refl _)
        (by simp [hunpublished])
    exact .of_context h hstep rfl rfl (by simpa using hop c vars hcurrent)
      (fun e' he => by cases he)
  · cases hcall

/-! ## What the dicts stand for -/

/-- What thread `t` sees of a `Local`, looked up as the accessors do. -/
theorem visible_pairsOf (heap : Nat → Dict) (vars : Vars) (t l : Nat) (key : String) :
    Pair.visible t (pairsOf heap vars l) key =
      (ownedData t (vars.lookup l)).bind fun data => (heap data).lookup key := by
  unfold pairsOf
  cases vars.lookup l with
  | none => rfl
  | some ref =>
      obtain ⟨owner, data⟩ := ref
      by_cases howner : owner = t
      · simp [Pair.visible, ownedData, howner]
      · simp [Pair.visible, ownedData, howner]

/-- Setting one variable sets one pair. -/
theorem pairsOf_insert (heap : Nat → Dict) (vars : Vars) (l : Nat) (ref : Ref) :
    pairsOf heap (vars.insert l ref) =
      Function.update (pairsOf heap vars) l
        (some (ref.owner, fun key => (heap ref.data).lookup key)) := by
  funext l'
  by_cases hl : l' = l
  · subst hl
    simp [pairsOf]
  · simp [pairsOf, hl]

theorem abs_setContext (s : State) (c : Nat) (vars : Vars) :
    abs (s.setContext c vars) = (abs s).setContext c (pairsOf s.heap vars) := by
  unfold abs State.setContext Spec.setContext
  congr 1
  funext c'
  by_cases hc : c' = c
  · subst hc
    simp
  · simp [hc]

@[simp] theorem abs_setOp (s : State) (t : Nat) (op : Op) : abs (s.setOp t op) = abs s := rfl

/-- A published dict stays out of what is unpublished. -/
theorem Published.of_current {c : Nat} {vars : Vars} {l : Nat} {ref : Ref}
    (hcurrent : s.current t = some (c, vars)) (hl : vars.lookup l = some ref) :
    Published s ref.data :=
  ⟨c, vars, l, ref, (context_of_current hcurrent).2, hl, rfl⟩

/-- Thread `t` changes the variables of its own context, and ends its operation. -/
theorem ActSpec.of_own (h : Inv s) {c : Nat} {vars vars' : Vars}
    (hcurrent : s.current t = some (c, vars))
    (hrefs : ∀ l ref, vars'.lookup l = some ref →
      Published s ref.data ∨ (s.op t).unpublished = some ref.data) {e : Event}
    (hanswer : (abs s).step e = some ((abs s).setContext c (pairsOf s.heap vars'))) :
    ActSpec s ((s.setContext c vars').setOp t .idle) (some e) := by
  obtain ⟨⟨rest, hstack⟩, hcontext⟩ := context_of_current hcurrent
  have hpublished : ∀ a, Published ((s.setContext c vars').setOp t .idle) a →
      Published s a ∨ (s.op t).unpublished = some a := by
    rintro a ⟨c', vars'', l, ref, hc', hl, rfl⟩
    change Function.update s.context c (some vars') c' = some vars'' at hc'
    rw [Function.update_apply] at hc'
    split at hc'
    · cases hc'
      exact hrefs l ref hl
    · exact .inl ⟨c', vars'', l, ref, hc', hl, rfl⟩
  have hstep : ThreadStep s t ((s.setContext c vars').setOp t .idle) := by
    refine ⟨fun t' ht => ⟨setOp_op_ne _ _ ht, ?_⟩, fun _ _ _ => rfl, Nat.le_refl _, hpublished, ?_⟩
    · -- no other thread is in this context
      refine current_congr rfl fun c' hc' => Function.update_of_ne ?_ ..
      rintro rfl
      exact ht (h.exclusive.thread t' t c' hc' (by rw [hstack]; exact List.mem_cons_self))
    · intro a ha
      simp [Op.unpublished] at ha
  refine ⟨h.threadStep hstep h.exclusive ?_ (by rw [setOp_op_self]; trivial), ⟨t, hstep⟩, ?_⟩
  · intro t' c' hmem
    change (Function.update s.context c (some vars') c').isSome
    rw [Function.update_apply]
    split
    · rfl
    · exact h.made t' c' hmem
  · change (abs s).step e = some _
    rw [hanswer, abs_setOp, abs_setContext]

/-- `ContextVar.set` at the end of an accessor. -/
theorem ActSpec.publish (h : Inv s) {c l data : Nat} {vars : Vars}
    (hcurrent : s.current t = some (c, vars)) (hmine : (s.op t).unpublished = some data) {e : Event}
    (hanswer : (abs s).step e = some ((abs s).setPair c (pairsOf s.heap vars) l
      (t, fun key => (s.heap data).lookup key))) :
    ActSpec s ((s.setContext c (vars.insert l ⟨t, data⟩)).setOp t .idle) (some e) := by
  refine .of_own h hcurrent (fun l' ref hl' => ?_) ?_
  · by_cases hl : l' = l
    · subst hl
      rw [AList.lookup_insert] at hl'
      cases hl'
      exact .inr hmine
    · rw [AList.lookup_insert_ne hl] at hl'
      exact .inl (.of_current hcurrent hl')
  · rw [hanswer, pairsOf_insert]
    rfl

/-- An action that is refused changes nothing. -/
theorem ActSpec.refused (h : Inv s) {e : Event} (hanswer : (abs s).step e = some (abs s)) :
    ActSpec s s (some e) where
  inv := h
  threadStep := ⟨0, fun _ _ => ⟨rfl, rfl⟩, fun _ _ _ => rfl, Nat.le_refl _, fun _ => .inl,
    fun a ha => ⟨.inl ha, (h.unpublished 0 a ha).2.1⟩⟩
  answers := hanswer

/-- An accessor ends and has changed nothing. -/
theorem ActSpec.ended (h : Inv s) {e : Event} (hanswer : (abs s).step e = some (abs s)) :
    ActSpec s (s.setOp t .idle) (some e) := by
  have hstep : ThreadStep s t (s.setOp t .idle) :=
    .of_context h (fun t' ht => setOp_op_ne s _ ht) rfl rfl (fun _ _ _ => rfl) (Nat.le_refl _)
      (by simp [Op.unpublished])
  refine .of_context h hstep rfl rfl (by rw [setOp_op_self]; trivial) fun e' he => ?_
  cases he
  exact hanswer

/-- An accessor makes a dict. -/
theorem ActSpec.alloc (h : Inv s) {d : Dict} {op : Op} (hunpublished : op.unpublished = some s.next)
    (hop : OpInv ((s.alloc d).setOp t op) t op) : ActSpec s ((s.alloc d).setOp t op) none := by
  have hstep : ThreadStep s t ((s.alloc d).setOp t op) := by
    refine .of_context h (fun t' ht => setOp_op_ne _ _ ht) rfl rfl (fun a ha _ => ?_)
      (Nat.le_succ _) fun a ha => ?_
    · exact Function.update_of_ne (Nat.ne_of_lt ha) ..
    · rw [setOp_op_self, hunpublished] at ha
      exact .inr ⟨(Option.some.inj ha).symm, Nat.lt_succ_self _⟩
  exact .of_context h hstep rfl rfl (by rwa [setOp_op_self]) (fun e' he => by cases he)

/-- An accessor changes the dict that it has made. -/
theorem ActSpec.setDict (h : Inv s) {data : Nat} {d : Dict} {op : Op}
    (hmine : (s.op t).unpublished = some data) (hunpublished : op.unpublished = some data)
    (hop : OpInv ((s.setDict data d).setOp t op) t op) :
    ActSpec s ((s.setDict data d).setOp t op) none := by
  have hstep : ThreadStep s t ((s.setDict data d).setOp t op) := by
    refine .of_context h (fun t' ht => setOp_op_ne _ _ ht) rfl rfl (fun a _ hnot => ?_)
      (Nat.le_refl _) fun a ha => ?_
    · exact Function.update_of_ne (fun heq : a = data => hnot (by rw [heq, hmine])) ..
    · rw [setOp_op_self, hunpublished] at ha
      exact .inl (ha ▸ hmine)
  exact .of_context h hstep rfl rfl (by rwa [setOp_op_self]) (fun e' he => by cases he)

/-- A dict that `t` is about to make or has to itself is not one that its context refers to. -/
theorem pairsOf_update (h : Inv s) {c data : Nat} {vars : Vars} {d : Dict}
    (hcurrent : s.current t = some (c, vars))
    (hdata : data = s.next ∨ (s.op t).unpublished = some data) :
    pairsOf (Function.update s.heap data d) vars = pairsOf s.heap vars := by
  refine pairsOf_of_published (fun a ha => Function.update_of_ne (fun heq => ?_) ..)
    (context_of_current hcurrent).2
  subst heq
  rcases hdata with rfl | hmine
  · exact absurd (h.allocated _ ha) (Nat.lt_irrefl _)
  · exact (h.unpublished t a hmine).2.1 ha

/-! ## The accessors, step by step -/

/-- The next atomic operation of an accessor. -/
theorem ActSpec.proceed (h : Inv s) {e : Option Event} (hproceed : proceed t s = some (s', e)) :
    ActSpec s s' e := by
  have hop := h.op t
  unfold CopyOnWrite.proceed at hproceed
  cases hcase : s.op t with
  | idle =>
      rw [hcase] at hproceed
      cases hproceed
  | getattr l key storage =>
      rw [hcase] at hproceed hop
      obtain ⟨c, vars, hcurrent, rfl⟩ := hop
      cases hproceed
      refine .ended h ?_
      -- what is looked up in the dict is what the pair shows
      simp only [Spec.step, abs_current, hcurrent, Option.map_some, Pair.read, visible_pairsOf]
      rw [if_pos]
      cases (ownedData t (vars.lookup l)).bind fun data => (s.heap data).lookup key <;> simp
  | setattr l key value storage =>
      rw [hcase] at hproceed hop
      obtain ⟨c, vars, hcurrent, rfl⟩ := hop
      cases hproceed
      refine .alloc h rfl ⟨c, vars, hcurrent, fun k => ?_⟩
      change (Function.update s.heap s.next _ s.next).lookup k =
        Pair.visible t (pairsOf (Function.update s.heap s.next _) vars l) k
      rw [pairsOf_update h hcurrent (.inl rfl), Function.update_self, visible_pairsOf]
      cases ownedData t (vars.lookup l) with
      | none => rfl
      | some data => rfl
  | setCopied l key value data =>
      rw [hcase] at hproceed hop
      obtain ⟨c, vars, hcurrent, hdata⟩ := hop
      cases hproceed
      have hmine : (s.op t).unpublished = some data := by rw [hcase]; rfl
      refine .setDict h hmine rfl ⟨c, vars, hcurrent, fun k => ?_⟩
      change (Function.update s.heap data _ data).lookup k =
        (Pair.write t (pairsOf (Function.update s.heap data _) vars l) key value).2 k
      rw [pairsOf_update h hcurrent (.inr hmine), Function.update_self]
      by_cases hk : k = key
      · subst hk
        simp [Pair.write]
      · simp [Pair.write, hk, hdata]
  | setWritten l key value data =>
      rw [hcase] at hproceed hop
      obtain ⟨c, vars, hcurrent, hdata⟩ := hop
      have hmine : (s.op t).unpublished = some data := by rw [hcase]; rfl
      simp only [CopyOnWrite.publish, hcurrent, Option.map_some] at hproceed
      cases hproceed
      refine .publish h hcurrent hmine ?_
      simp only [Spec.step, abs_current, hcurrent, Option.map_some]
      congr 2
      exact Prod.ext rfl (funext fun k => (hdata k).symm)
  | delattr l key storage =>
      rw [hcase] at hproceed hop
      obtain ⟨c, vars, hcurrent, rfl⟩ := hop
      simp only at hproceed
      cases howned : (ownedData t (vars.lookup l)).filter fun data => key ∈ s.heap data with
      | some data =>
          rw [howned] at hproceed
          cases hproceed
          obtain ⟨hdata, hmem⟩ := Option.filter_eq_some_iff.mp howned
          refine .alloc h rfl ⟨c, vars, hcurrent, ?_, fun k => ?_⟩
          · change key ∈ Function.update s.heap s.next _ s.next
            rw [Function.update_self]
            simpa using hmem
          · change (Function.update s.heap s.next _ s.next).lookup k =
              Pair.visible t (pairsOf (Function.update s.heap s.next _) vars l) k
            rw [pairsOf_update h hcurrent (.inl rfl), Function.update_self, visible_pairsOf, hdata]
            rfl
      | none =>
          rw [howned] at hproceed
          cases hproceed
          refine .ended h ?_
          have hunset : Pair.visible t (pairsOf s.heap vars l) key = none := by
            rw [visible_pairsOf]
            cases hdata : ownedData t (vars.lookup l) with
            | none => rfl
            | some data =>
                rw [hdata] at howned
                have hnot : key ∉ s.heap data := by simpa using howned
                exact AList.lookup_eq_none.mpr hnot
          simp [Spec.step, abs_current, hcurrent, Pair.delete, hunset]
  | delCopied l key data =>
      rw [hcase] at hproceed hop
      obtain ⟨c, vars, hcurrent, hmem, hdata⟩ := hop
      simp only [if_pos hmem] at hproceed
      cases hproceed
      have hmine : (s.op t).unpublished = some data := by rw [hcase]; rfl
      obtain ⟨o, hkey⟩ := Option.isSome_iff_exists.mp (AList.lookup_isSome.mpr hmem)
      refine .setDict h hmine rfl
        ⟨c, vars, (t, Function.update (Pair.visible t (pairsOf s.heap vars l)) key none), hcurrent,
          ?_, fun k => ?_⟩
      · change Pair.delete t (pairsOf (Function.update s.heap data _) vars l) key = _
        rw [pairsOf_update h hcurrent (.inr hmine), Pair.delete, ← hdata key, hkey]
      · change (Function.update s.heap data _ data).lookup k = _
        rw [Function.update_self]
        by_cases hk : k = key
        · subst hk
          simp
        · simp [hk, hdata]
  | delErased l key data =>
      rw [hcase] at hproceed hop
      obtain ⟨c, vars, pair, hcurrent, hpair, hdata⟩ := hop
      have hmine : (s.op t).unpublished = some data := by rw [hcase]; rfl
      simp only [CopyOnWrite.publish, hcurrent, Option.map_some] at hproceed
      cases hproceed
      refine .publish h hcurrent hmine ?_
      simp only [Spec.step, abs_current, hcurrent, Option.map_some, hpair]
      congr 2
      refine Prod.ext ?_ (funext fun k => (hdata k).symm)
      unfold Pair.delete at hpair
      split at hpair <;> cases hpair
      rfl

/-! ## `_restore_context` -/

/-- A turn of the loop makes the thread the owner of the pair, whether it sets the variable or finds
it equal already. -/
theorem pairsOf_restoreVar (heap : Nat → Dict) (t : Nat) (own : Vars) (l : Nat) (ref : Ref) :
    pairsOf heap (restoreVar heap t own l ref) =
      Function.update (pairsOf heap own) l (some (t, fun key => (heap ref.data).lookup key)) := by
  unfold restoreVar
  split
  · rename_i v hv
    dsimp only
    split
    · exact pairsOf_insert ..
    · rename_i heq
      simp only [Bool.not_eq_true', Bool.not_eq_false, Ref.eq, decide_eq_true_eq] at heq
      obtain ⟨howner, hperm⟩ := heq
      rw [eq_comm, Function.update_eq_self_iff]
      unfold pairsOf
      rw [hv, Option.map_some, howner]
      congr 2
      funext key
      exact (AList.perm_lookup hperm).symm
  · exact pairsOf_insert ..

/-- The loop makes the thread the owner of all pairs of its entries. -/
theorem pairsOf_restoreVars (heap : Nat → Dict) (t : Nat) (own : Vars)
    {entries : List (Sigma fun _ : Nat => Ref)} (hnodup : entries.NodupKeys) (l : Nat) :
    pairsOf heap (restoreVars heap t own entries) l = match entries.dlookup l with
      | some ref => some (t, fun key => (heap ref.data).lookup key)
      | none => pairsOf heap own l := by
  induction entries generalizing own with
  | nil => rfl
  | cons entry rest ih =>
      obtain ⟨l', ref⟩ := entry
      obtain ⟨hnot, hrest⟩ := List.nodupKeys_cons.mp hnodup
      unfold restoreVars
      rw [ih _ hrest, pairsOf_restoreVar]
      by_cases hl : l = l'
      · subst hl
        -- no later entry is of the same variable
        rw [List.dlookup_eq_none.mpr hnot, List.dlookup_cons_eq]
        simp
      · rw [List.dlookup_cons_ne _ _ hl, Function.update_of_ne hl]

/-- The loop sets references that the context or the moved one had before. -/
theorem restoreVars_refs {heap : Nat → Dict} {own : Vars} {P : Nat → Prop}
    {entries : List (Sigma fun _ : Nat => Ref)}
    (hown : ∀ l ref, own.lookup l = some ref → P ref.data)
    (hentries : ∀ entry ∈ entries, P entry.2.data) {l : Nat} {ref : Ref}
    (hl : (restoreVars heap t own entries).lookup l = some ref) : P ref.data := by
  induction entries generalizing own with
  | nil => exact hown l ref hl
  | cons entry rest ih =>
      refine ih (fun l' ref' hl' => ?_) (fun e he => hentries e (List.mem_cons_of_mem _ he)) hl
      have hinsert : ∀ {l' ref'}, (own.insert entry.1 ⟨t, entry.2.data⟩).lookup l' = some ref' →
          P ref'.data := by
        intro l' ref' hl'
        by_cases heq : l' = entry.1
        · subst heq
          rw [AList.lookup_insert] at hl'
          cases hl'
          exact hentries entry List.mem_cons_self
        · rw [AList.lookup_insert_ne heq] at hl'
          exact hown l' ref' hl'
      unfold restoreVar at hl'
      split at hl'
      · dsimp only at hl'
        split at hl'
        · exact hinsert hl'
        · exact hown l' ref' hl'
      · exact hinsert hl'

theorem ActSpec.restore (h : Inv s) {c : Nat} (hrestore : restore t c s = some s') :
    ActSpec s s' (some (.restore t c)) := by
  unfold CopyOnWrite.restore at hrestore
  split at hrestore
  · rename_i own vars moved hidle hcurrent hmoved
    cases hrestore
    have hsame : ∀ s₁ : State, s₁.op t = .idle → s₁.setOp t .idle = s₁ := fun s₁ hop => by
      unfold State.setOp
      rw [← hop, Function.update_eq_self]
    rw [← hsame (s.setContext own (restoreVars s.heap t vars moved.entries)) hidle]
    refine .of_own h hcurrent (fun l ref hl => .inl ?_) ?_
    · refine restoreVars_refs (P := Published s) (fun l ref => .of_current hcurrent) ?_ hl
      intro entry hmem
      exact ⟨c, moved, entry.1, entry.2, hmoved, AList.mem_lookup_iff.mpr hmem, rfl⟩
    · have hanswer : pairsOf s.heap (restoreVars s.heap t vars moved.entries) =
          move t (pairsOf s.heap moved) (pairsOf s.heap vars) := by
        funext l
        rw [pairsOf_restoreVars _ _ _ moved.nodupKeys]
        change (match moved.lookup l with
          | some ref => some (t, fun key => (s.heap ref.data).lookup key)
          | none => pairsOf s.heap vars l) = _
        unfold move
        cases hlookup : moved.lookup l with
        | none => simp [pairsOf, hlookup]
        | some ref => simp [pairsOf, hlookup]
      have hcontext : (abs s).context c = some (pairsOf s.heap moved) := by
        simp [abs, hmoved]
      simp only [Spec.step, abs_current, hcurrent, Option.map_some, hcontext, hanswer]
  · cases hrestore

/-! ## Contexts and threads -/

/-- A new context, with references that are published already. -/
theorem ActSpec.setContext (h : Inv s) {c : Nat} {vars : Vars} (hnew : s.context c = none)
    (hrefs : ∀ l ref, vars.lookup l = some ref → Published s ref.data) {e : Event}
    (hanswer : (abs s).step e = some ((abs s).setContext c (pairsOf s.heap vars))) :
    ActSpec s (s.setContext c vars) (some e) := by
  have hpublished : ∀ a, Published (s.setContext c vars) a → Published s a := by
    rintro a ⟨c', vars', l, ref, hc', hl, rfl⟩
    change Function.update s.context c (some vars) c' = some vars' at hc'
    rw [Function.update_apply] at hc'
    split at hc'
    · cases hc'
      exact hrefs l ref hl
    · exact ⟨c', vars', l, ref, hc', hl, rfl⟩
  have hcurrent : ∀ t, (s.setContext c vars).current t = s.current t := by
    -- nobody is in a context that has not been made
    refine fun t => current_congr rfl fun c' hc' => Function.update_of_ne ?_ ..
    rintro rfl
    have hmade := h.made t c' hc'
    rw [hnew] at hmade
    cases hmade
  have hstep : ThreadStep s 0 (s.setContext c vars) := by
    refine ⟨fun t' _ => ⟨rfl, hcurrent t'⟩, fun _ _ _ => rfl, Nat.le_refl _,
      fun a ha => .inl (hpublished a ha), fun a ha => ⟨.inl ha, fun hold => ?_⟩⟩
    exact (h.unpublished 0 a ha).2.1 (hpublished a hold)
  refine ⟨h.threadStep hstep h.exclusive ?_ ((h.op 0).frame (hcurrent 0) fun _ _ => rfl),
    ⟨0, hstep⟩, ?_⟩
  · intro t' c' hmem
    change (Function.update s.context c (some vars) c').isSome
    rw [Function.update_apply]
    split
    · rfl
    · exact h.made t' c' hmem
  · change (abs s).step e = some _
    rw [hanswer, abs_setContext]

theorem ActSpec.create (h : Inv s) {c : Nat} {source : Option Nat}
    (hcreate : create c source s = some s') : ActSpec s s' (some (.create c source)) := by
  unfold CopyOnWrite.create at hcreate
  split at hcreate
  · cases hcreate
  · rename_i hnew
    cases hcreate
    refine .setContext h hnew (fun l ref hl => by cases hl) ?_
    have hnewSpec : (abs s).context c = none := by simp [abs, hnew]
    simp only [Spec.step, hnewSpec]
    rfl
  · rename_i c' hnew
    obtain ⟨vars, hvars, rfl⟩ := Option.map_eq_some_iff.mp hcreate
    refine .setContext h hnew (fun l ref hl => ⟨c', vars, l, ref, hvars, hl, rfl⟩) ?_
    have hnewSpec : (abs s).context c = none := by simp [abs, hnew]
    have hsource : (abs s).context c' = some (pairsOf s.heap vars) := by simp [abs, hvars]
    simp only [Spec.step, hnewSpec, hsource, Option.map_some]

/-- Thread `t`, in no accessor, enters or leaves a context. -/
theorem ActSpec.setEntered (h : Inv s) {entered : Entered} (hidle : s.op t = .idle)
    (hstack : ∀ t', t' ≠ t → entered.stack t' = s.entered.stack t')
    (hexclusive : entered.Exclusive)
    (hmade : ∀ t c, c ∈ entered.stack t → (s.context c).isSome) {e : Event}
    (hanswer : (abs s).step e = some { abs s with entered := entered }) :
    ActSpec s { s with entered := entered } (some e) := by
  have hstep : ThreadStep s t { s with entered := entered } := by
    refine ⟨fun t' ht => ⟨rfl, ?_⟩, fun _ _ _ => rfl, Nat.le_refl _, fun a ha => .inl ha, ?_⟩
    · exact current_congr (hstack t' ht) fun c _ => rfl
    · intro a ha
      have hnone : (s.op t).unpublished = none := by rw [hidle]; rfl
      rw [show ({ s with entered := entered } : State).op t = s.op t from rfl, hnone] at ha
      cases ha
  refine ⟨h.threadStep hstep hexclusive hmade ?_, ⟨t, hstep⟩, hanswer⟩
  rw [show ({ s with entered := entered } : State).op t = s.op t from rfl, hidle]
  trivial

theorem ActSpec.enter (h : Inv s) {c : Nat} {e : Option Event}
    (henter : enter t c s = some (s', e)) : ActSpec s s' e := by
  unfold CopyOnWrite.enter at henter
  split at henter
  · rename_i vars hidle hc
    have hcontext : ((abs s).context c).isSome := by simp [abs, hc]
    split at henter
    · rename_i hentered
      cases henter
      have hflag : (abs s).entered.isEntered c = true := hentered
      refine .refused h ?_
      simp only [Spec.step, hcontext, hflag]
      rfl
    · rename_i hentered
      cases henter
      have hfalse : s.entered.isEntered c = false := by simpa using hentered
      refine .setEntered h hidle (fun t' ht => Function.update_of_ne ht ..)
        (h.exclusive.enter t hfalse) ?_ ?_
      · intro t' c' hmem
        rcases Entered.mem_stack_enter.mp hmem with ⟨-, rfl⟩ | hold
        · rw [hc]
          rfl
        · exact h.made t' c' hold
      · have hflag : (abs s).entered.isEntered c = false := hfalse
        simp only [Spec.step, hcontext, hflag]
        rfl
  · cases henter

theorem ActSpec.leave (h : Inv s) (hleave : leave t s = some s') :
    ActSpec s s' (some (.leave t)) := by
  unfold CopyOnWrite.leave at hleave
  split at hleave
  · rename_i c rest hidle hstack
    cases hleave
    refine .setEntered h hidle (fun t' ht => Function.update_of_ne ht ..)
      (h.exclusive.leave hstack) ?_ ?_
    · intro t' c' hmem
      refine h.made t' c' ?_
      simp only [Entered.leave, Function.update_apply] at hmem
      split at hmem
      · rename_i ht
        rw [ht]
        exact List.mem_of_mem_tail hmem
      · exact hmem
    · have hstackSpec : (abs s).entered.stack t = c :: rest := hstack
      simp only [Spec.step, hstackSpec]
      rfl
  · cases hleave

/-! ## The refinement -/

/-- **What one action does.** -/
theorem act_spec (h : Inv s) {a : Action} {e : Option Event} (hact : act s a = some (s', e)) :
    ActSpec s s' e := by
  cases a with
  | create c source =>
      obtain ⟨s₁, hcreate, heq⟩ := Option.map_eq_some_iff.mp hact
      cases heq
      exact .create h hcreate
  | enter t c => exact .enter h hact
  | leave t =>
      obtain ⟨s₁, hleave, heq⟩ := Option.map_eq_some_iff.mp hact
      cases heq
      exact .leave h hleave
  | getattr t l key =>
      obtain ⟨s₁, hcall, heq⟩ := Option.map_eq_some_iff.mp hact
      cases heq
      refine .call h (fun _ => rfl) ?_ hcall
      exact fun c vars hcurrent => ⟨c, vars, hcurrent, rfl⟩
  | setattr t l key value =>
      obtain ⟨s₁, hcall, heq⟩ := Option.map_eq_some_iff.mp hact
      cases heq
      refine .call h (fun _ => rfl) ?_ hcall
      exact fun c vars hcurrent => ⟨c, vars, hcurrent, rfl⟩
  | delattr t l key =>
      obtain ⟨s₁, hcall, heq⟩ := Option.map_eq_some_iff.mp hact
      cases heq
      refine .call h (fun _ => rfl) ?_ hcall
      exact fun c vars hcurrent => ⟨c, vars, hcurrent, rfl⟩
  | proceed t => exact .proceed h hact
  | restore t c =>
      obtain ⟨s₁, hrestore, heq⟩ := Option.map_eq_some_iff.mp hact
      cases heq
      exact .restore h hrestore

/-- A step of the machine is an action with what it shows. -/
theorem step_inv {a : Action} (hstep : machine.step s a = some s') :
    act s a = some (s', event s a) := by
  obtain ⟨⟨s₁, e⟩, hact, rfl⟩ := Option.map_eq_some_iff.mp hstep
  simp [event, hact]

/-- **Simulation.** -/
theorem simulates :
    machine.Simulates event Machine.Any specification fun s σ => Inv s ∧ σ = abs s := by
  rintro s _ a s' ⟨hinv, rfl⟩ - hstep
  obtain ⟨hinv', -, hanswers⟩ := act_spec hinv (step_inv hstep)
  cases hevent : event s a with
  | none =>
      rw [hevent] at hanswers
      exact ⟨hinv', hanswers.symm⟩
  | some e =>
      rw [hevent] at hanswers
      exact ⟨abs s', hanswers, hinv', rfl⟩

/-- The invariant holds in every state of every run. -/
theorem Inv.run {as : List Action} (h : machine.Run Machine.Any init as s) : Inv s :=
  h.invariant inv_init fun _ _ _ hinv _ hstep => (act_spec hinv (step_inv hstep)).inv

end Asgiref.CopyOnWrite
