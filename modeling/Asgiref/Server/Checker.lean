import Asgiref.Server.Table

/-! # One pass of the application checker

A pass takes a snapshot of the table and comes to its instances one after the other. It is suspended
in `application_exception` for each that has failed, and meanwhile handlers and applications go on.

* **`visits`** — the instances that a stretch of the loop comes to, with what their futures are
  then.
* **`Pass`** — a pass with its suspensions, and all that it has come to so far.
* **`Survives`** — what a pass should do: raise nothing, hand each failure over exactly once, and
  leave none of the instances in the table that were done when it came to them.
* **`survives_iff`** — the passes that do. -/

namespace Asgiref.StatelessServer

variable {κ Scope : Type*}

/-- An instance of the snapshot, and what its future was when the pass came to it. -/
abbrev Visit (κ Scope : Type*) := Item κ Scope × Option Outcome

/-- What a stretch of the loop comes to, up to a suspension or an exception. -/
def visits (outcome : Nat → Option Outcome) : List (Item κ Scope) → List (Visit κ Scope)
  | [] => []
  | item :: rest =>
      match outcome item.2.future with
      | some (.exception e) => [(item, some (.exception e))]
      | some (.raisingException e raised) => [(item, some (.raisingException e raised))]
      | some .cancelled => [(item, some .cancelled)]
      | o => (item, o) :: visits outcome rest

/-- The tasks of the instances that were found done with an exception. -/
def failed (vs : List (Visit κ Scope)) : List Nat :=
  vs.filterMap fun v =>
    match v.2 with
    | some (.exception _) | some (.falseException _) | some (.raisingException ..) =>
        some v.1.2.future
    | _ => none

/-- Looking at the future raises, and ends the checker. -/
def ends : Option Outcome → Bool
  | some .cancelled | some (.raisingException ..) => true
  | _ => false

/-- `if exception` does not take the exception for one. -/
def misjudged : Option Outcome → Bool
  | some (.falseException _) | some (.raisingException ..) => true
  | _ => false

/-- What the checker can deal with: a future that is pending, has a result, or has an exception that
is true as a condition. -/
def manageable : Option Outcome → Bool
  | none | some .result | some (.exception _) => true
  | some (.falseException _) | some (.raisingException ..) | some .cancelled => false

/-- The tasks whose exceptions are handed over: those that are true as a condition. -/
def handed (vs : List (Visit κ Scope)) : List Nat :=
  vs.filterMap fun v =>
    match v.2 with
    | some (.exception _) => some v.1.2.future
    | _ => none

theorem manageable_iff (o : Option Outcome) :
    manageable o = true ↔ ends o = false ∧ misjudged o = false := by
  rcases o with _ | (_ | _ | _ | _ | _) <;> simp [manageable, ends, misjudged]

/-- The checker itself takes the action, or `application_exception` that it has called. -/
def Action.ofChecker : Action κ Scope → Prop
  | .wake | .resume | .fail _ => True
  | _ => False

/-- Where the pass stands in its snapshot. -/
def Stands (items : List (Item κ Scope)) (vs : List (Visit κ Scope)) : Checker κ Scope → Prop
  | .sleeping => vs.map Prod.fst = items ∧ ∀ v ∈ vs, ends v.2 = false
  | .handling _ rest => vs.map Prod.fst ++ rest = items ∧ ∀ v ∈ vs, ends v.2 = false
  | .ended _ => ∃ v ∈ vs, ends v.2 = true

/-- A stretch goes on from where the pass stood. -/
theorem Stands.append {all items : List (Item κ Scope)} {ws vs : List (Visit κ Scope)}
    {checker : Checker κ Scope} (hbefore : ws.map Prod.fst ++ items = all)
    (hplain : ∀ v ∈ ws, ends v.2 = false) (h : Stands items vs checker) :
    Stands all (ws ++ vs) checker := by
  have hboth : (∀ v ∈ vs, ends v.2 = false) → ∀ v ∈ ws ++ vs, ends v.2 = false := fun hvs v hv =>
    (List.mem_append.mp hv).elim (hplain v) (hvs v)
  cases checker with
  | sleeping =>
      obtain ⟨hitems, hvs⟩ := h
      exact ⟨by rw [List.map_append, hitems, hbefore], hboth hvs⟩
  | handling k rest =>
      obtain ⟨hitems, hvs⟩ := h
      exact ⟨by rw [List.map_append, List.append_assoc, hitems, hbefore], hboth hvs⟩
  | ended e =>
      obtain ⟨v, hv, hends⟩ := h
      exact ⟨v, List.mem_append_right _ hv, hends⟩

variable [DecidableEq κ]

/-- **A pass.** It has begun in `s₀` and has come to `vs` so far; `application_exception` has not
raised. -/
inductive Pass (maxApplications : Nat) (s₀ : State κ Scope) :
    List (Visit κ Scope) → State κ Scope → Prop
  | wake (hchecker : s₀.checker = .sleeping) :
      Pass maxApplications s₀ (visits s₀.outcome s₀.items) (walk s₀.items s₀)
  | other {vs : List (Visit κ Scope)} {s s' : State κ Scope} {a : Action κ Scope}
      (hpass : Pass maxApplications s₀ vs s) (ha : ¬ a.ofChecker)
      (hstep : (machine maxApplications).step s a = some s') : Pass maxApplications s₀ vs s'
  | resume {vs : List (Visit κ Scope)} {s : State κ Scope} {k : κ} {rest : List (Item κ Scope)}
      (hpass : Pass maxApplications s₀ vs s) (hchecker : s.checker = .handling k rest) :
      Pass maxApplications s₀ (vs ++ visits s.outcome rest) (walk rest (discard s k))

/-- The task has no entry in the table. -/
def Gone (s : State κ Scope) (task : Nat) : Prop :=
  ∀ k d, s.applicationInstances.lookup k = some d → d.future ≠ task

/-- What a pass should do. -/
structure Survives (s₀ : State κ Scope) (vs : List (Visit κ Scope)) (s : State κ Scope) : Prop where
  alive : ∀ e, s.checker ≠ .ended e
  reported : s.reported = s₀.reported ++ failed vs
  once : (failed vs).Nodup
  /-- At its end it has come to the whole snapshot. -/
  complete : s.checker = .sleeping → vs.map Prod.fst = s₀.items
  removed : s.checker = .sleeping → ∀ v ∈ vs, v.2.isSome → Gone s v.1.2.future

variable {s₀ s s' : State κ Scope} {vs : List (Visit κ Scope)} {maxApplications : Nat}

/-! ## One stretch of the loop -/

/-- How a stretch of the loop ends, and what it has come to. -/
inductive Walked : List (Item κ Scope) → List (Visit κ Scope) → Checker κ Scope → Prop
  | sleeping : Walked [] [] .sleeping
  | exception (item : Item κ Scope) (rest : List (Item κ Scope)) (e : PyError) :
      Walked (item :: rest) [(item, some (.exception e))] (.handling item.1 rest)
  | ended (item : Item κ Scope) (rest : List (Item κ Scope)) (o : Option Outcome) (e : PyError)
      (hends : ends o = true) : Walked (item :: rest) [(item, o)] (.ended e)
  | step {item : Item κ Scope} {rest : List (Item κ Scope)} {o : Option Outcome}
      {vs : List (Visit κ Scope)} {checker : Checker κ Scope}
      (hexception : ∀ e, o ≠ some (.exception e)) (hends : ends o = false)
      (h : Walked rest vs checker) : Walked (item :: rest) ((item, o) :: vs) checker

theorem walked (items : List (Item κ Scope)) (s : State κ Scope) :
    Walked items (visits s.outcome items) (walk items s).checker := by
  induction items generalizing s with
  | nil => exact .sleeping
  | cons item rest ih =>
      unfold walk visits
      cases houtcome : s.outcome item.2.future with
      | none => exact .step (by simp) rfl (ih s)
      | some o =>
          cases o with
          | result | falseException e => exact .step (by simp) rfl (ih (discard s item.1))
          | exception e => exact .exception item rest e
          | raisingException e raised => exact .ended item rest _ raised rfl
          | cancelled => exact .ended item rest _ .cancelledError rfl

/-- The exceptions that a stretch hands over. -/
theorem walk_reported (items : List (Item κ Scope)) (s : State κ Scope) :
    (walk items s).reported = s.reported ++ handed (visits s.outcome items) := by
  induction items generalizing s with
  | nil => simp [walk, visits, handed]
  | cons item rest ih =>
      unfold walk visits
      cases houtcome : s.outcome item.2.future with
      | none => exact ih s
      | some o =>
          cases o with
          | result | falseException e => exact ih (discard s item.1)
          | exception e => rfl
          | raisingException e raised => simp [handed]
          | cancelled => simp [handed]

/-- A stretch removes the entries of those that it finds done, but for one that it stops at. -/
theorem walk_removed {items : List (Item κ Scope)} {v : Visit κ Scope}
    (hv : v ∈ visits s.outcome items) (hdone : v.2.isSome) (hends : ends v.2 = false) :
    (∃ rest, (walk items s).checker = .handling v.1.1 rest) ∨
      (walk items s).applicationInstances.lookup v.1.1 = none := by
  induction items generalizing s with
  | nil => cases hv
  | cons item rest ih =>
      unfold walk
      unfold visits at hv
      cases houtcome : s.outcome item.2.future with
      | none =>
          rw [houtcome] at hv
          rcases List.mem_cons.mp hv with rfl | hv
          · cases hdone
          · exact ih hv
      | some o =>
          rw [houtcome] at hv
          cases o with
          | result | falseException e =>
              rcases List.mem_cons.mp hv with rfl | hv
              · right
                show (walk rest (discard s item.1)).applicationInstances.lookup item.1 = none
                rw [lookup_walk, lookup_discard, if_pos rfl, ite_self]
              · exact ih (s := discard s item.1) hv
          | exception e =>
              obtain rfl := List.mem_singleton.mp hv
              exact .inl ⟨rest, rfl⟩
          | raisingException e raised =>
              obtain rfl := List.mem_singleton.mp hv
              cases hends
          | cancelled =>
              obtain rfl := List.mem_singleton.mp hv
              cases hends

omit [DecidableEq κ] in
/-- A stretch comes to instances of its list only. -/
theorem Walked.mem {items : List (Item κ Scope)} {checker : Checker κ Scope}
    (h : Walked items vs checker) {v : Visit κ Scope} (hv : v ∈ vs) : v.1 ∈ items := by
  induction h with
  | sleeping => cases hv
  | exception item rest e =>
      obtain rfl := List.mem_singleton.mp hv
      exact List.mem_cons_self
  | ended item rest o e hends =>
      obtain rfl := List.mem_singleton.mp hv
      exact List.mem_cons_self
  | step _ _ _ ih =>
      rcases List.mem_cons.mp hv with rfl | hv
      · exact List.mem_cons_self
      · exact List.mem_cons_of_mem _ (ih hv)

omit [DecidableEq κ] in
theorem Walked.stands {items : List (Item κ Scope)} {checker : Checker κ Scope}
    (h : Walked items vs checker) : Stands items vs checker := by
  induction h with
  | sleeping => exact ⟨rfl, by simp⟩
  | exception item rest e => exact ⟨rfl, by simp [ends]⟩
  | ended item rest o e hends => exact ⟨_, List.mem_singleton_self _, hends⟩
  | @step item rest o vs checker _ hends _ ih =>
      show Stands (item :: rest) ([(item, o)] ++ vs) checker
      exact Stands.append rfl (by simpa using hends) ih

/-! ## What others do meanwhile -/

/-- A deletion leaves the checker alone. -/
theorem checker_of_delete {k : κ} (h : deleteApplicationInstance s k = some s') :
    s'.checker = s.checker ∧ s'.reported = s.reported := by
  obtain ⟨d, -, rfl⟩ := Option.map_eq_some_iff.mp h
  exact ⟨rfl, rfl⟩

theorem checker_of_deleteOldest (h : deleteOldestApplicationInstance s = some s') :
    s'.checker = s.checker ∧ s'.reported = s.reported := by
  obtain ⟨item, -, hdelete⟩ := Option.bind_eq_some_iff.mp h
  exact checker_of_delete hdelete

theorem checker_evict (maxApplications n : Nat) (s : State κ Scope) :
    (evict maxApplications n s).checker = s.checker ∧
      (evict maxApplications n s).reported = s.reported := by
  induction n generalizing s with
  | zero => exact ⟨rfl, rfl⟩
  | succ n ih =>
      unfold evict
      split
      · split
        · rename_i s' hdelete
          obtain ⟨hchecker, hreported⟩ := checker_of_deleteOldest hdelete
          rw [← hchecker, ← hreported]
          exact ih s'
        · exact ⟨rfl, rfl⟩
      · exact ⟨rfl, rfl⟩

/-- Handlers and applications leave the checker alone. -/
theorem step_checker {a : Action κ Scope} (ha : ¬ a.ofChecker)
    (hstep : (machine maxApplications).step s a = some s') :
    s'.checker = s.checker ∧ s'.reported = s.reported := by
  have hgetD : ∀ {o : Option (State κ Scope)},
      (∀ s₁, o = some s₁ → s₁.checker = s.checker ∧ s₁.reported = s.reported) →
      (o.getD s).checker = s.checker ∧ (o.getD s).reported = s.reported :=
    getD_of (P := fun s₁ => s₁.checker = s.checker ∧ s₁.reported = s.reported) ⟨rfl, rfl⟩
  cases step_inv hstep with
  | getOrCreate k scope now raised =>
      unfold getOrCreateApplicationInstance
      have hevict := checker_evict maxApplications s.size s
      cases s.applicationInstances.lookup k with
      | some details => exact ⟨rfl, rfl⟩
      | none =>
          cases raised with
          | some e => exact hevict
          | none => exact hevict
  | delete k => exact hgetD fun _ => checker_of_delete
  | deleteOldest => exact hgetD fun _ => checker_of_deleteOldest
  | finish task outcome => exact ⟨rfl, rfl⟩
  | wake | resume | fail e => exact absurd trivial ha

/-! ## The whole pass -/

/-- A task whose scope id is not in the table has no entry. -/
theorem Owned.gone (h : Owned s) {task : Nat} {k : κ} (htask : s.started[task]? = some k)
    (hnone : s.applicationInstances.lookup k = none) : Gone s task := by
  rintro k' d hd rfl
  rw [h.task k' d hd] at htask
  cases htask
  rw [hd] at hnone
  cases hnone

/-- Entries that go do not come back. -/
theorem Gone.step {task : Nat} (h : Gone s task) (hlt : task < s.started.length)
    (hstep : TableStep s s') : Gone s' task := by
  intro k d hd
  rcases hstep.lookup hd with hold | hnew
  · exact h k d hold
  · omega

/-- What holds of a pass. -/
structure PassInv (s₀ : State κ Scope) (vs : List (Visit κ Scope)) (s : State κ Scope) : Prop where
  owned : Owned s
  started : s₀.started <+: s.started
  mem : ∀ v ∈ vs, v.1 ∈ s₀.items
  stands : Stands s₀.items vs s.checker
  reported : s.reported = s₀.reported ++ handed vs
  removed : ∀ v ∈ vs, v.2.isSome → ends v.2 = false →
    (∃ rest, s.checker = .handling v.1.1 rest) ∨ Gone s v.1.2.future

/-- The task of an instance of the snapshot, later on. -/
theorem PassInv.task (h : PassInv s₀ vs s) (howned : Owned s₀) {item : Item κ Scope}
    (hitem : item ∈ s₀.items) : s.started[item.2.future]? = some item.1 := by
  obtain ⟨hlt, htask⟩ := List.getElem?_eq_some_iff.mp
    (howned.task item.1 item.2 (mem_items.mp hitem))
  rw [List.prefix_iff_getElem?.mp h.started _ hlt, htask]

theorem Pass.inv (howned : Owned s₀) (h : Pass maxApplications s₀ vs s) : PassInv s₀ vs s := by
  induction h with
  | wake hchecker =>
      have howned' := howned.kept (kept_walk s₀.items s₀)
      have hstarted : (walk s₀.items s₀).started = s₀.started := (walk_tasks s₀.items s₀).1
      have hwalked := walked s₀.items s₀
      refine ⟨howned', ⟨[], by rw [List.append_nil, hstarted]⟩, fun _ => hwalked.mem,
        hwalked.stands, walk_reported s₀.items s₀, fun v hv hdone hends => ?_⟩
      refine (walk_removed hv hdone hends).imp id fun hnone => howned'.gone ?_ hnone
      rw [hstarted]
      exact howned.task v.1.1 v.1.2 (mem_items.mp (hwalked.mem hv))
  | @other vs s s' a _ ha hstep ih =>
      obtain ⟨hchecker, hreported⟩ := step_checker ha hstep
      have htable := step_table hstep
      refine ⟨ih.owned.step htable, ih.started.trans htable.started, ih.mem,
        by rw [hchecker]; exact ih.stands, by rw [hreported]; exact ih.reported,
        fun v hv hdone hends => ?_⟩
      rw [hchecker]
      refine (ih.removed v hv hdone hends).imp id fun hgone => hgone.step ?_ htable
      exact (List.getElem?_eq_some_iff.mp (ih.task howned (ih.mem v hv))).1
  | @resume vs s k rest _ hchecker ih =>
      have hstands := ih.stands
      rw [hchecker] at hstands
      obtain ⟨hitems, hplain⟩ := hstands
      have hkept : Kept s (walk rest (discard s k)) := (kept_discard s k).trans (kept_walk rest _)
      have howned' := ih.owned.kept hkept
      have hwalked := walked rest (discard s k)
      have hmem : ∀ v ∈ vs ++ visits s.outcome rest, v.1 ∈ s₀.items := by
        intro v hv
        rcases List.mem_append.mp hv with hv | hv
        · exact ih.mem v hv
        · rw [← hitems]
          exact List.mem_append_right _ (hwalked.mem hv)
      have htask : ∀ v ∈ vs ++ visits s.outcome rest,
          (walk rest (discard s k)).started[v.1.2.future]? = some v.1.1 := by
        intro v hv
        rw [hkept.started]
        exact ih.task howned (hmem v hv)
      refine ⟨howned', by rw [hkept.started]; exact ih.started, hmem,
        Stands.append hitems hplain hwalked.stands, ?_, ?_⟩
      · rw [walk_reported]
        show s.reported ++ handed (visits s.outcome rest) = _
        rw [ih.reported, handed, handed, handed, List.filterMap_append, List.append_assoc]
      · intro v hv hdone hends
        rcases List.mem_append.mp hv with hold | hnew
        · right
          rcases ih.removed v hold hdone hends with ⟨rest', hhandling⟩ | hgone
          · -- the entry that the checker came for goes now
            rw [hchecker] at hhandling
            cases hhandling
            refine howned'.gone (htask v hv) ?_
            rw [lookup_walk, lookup_discard, if_pos rfl, ite_self]
          · exact fun k' d hd => hgone k' d (hkept.lookup hd)
        · exact (walk_removed (s := discard s k) hnew hdone hends).imp id
            fun hnone => howned'.gone (htask v hv) hnone

/-! ## Which passes survive -/

omit [DecidableEq κ] in
/-- What is handed over are the failures, unless one is not taken for an exception. -/
theorem handed_eq_failed_iff (vs : List (Visit κ Scope)) :
    handed vs = failed vs ↔ ∀ v ∈ vs, misjudged v.2 = false := by
  have hlength : ∀ ws : List (Visit κ Scope), (handed ws).length ≤ (failed ws).length := by
    intro ws
    induction ws with
    | nil => exact Nat.le_refl _
    | cons w ws ih =>
        obtain ⟨item, o⟩ := w
        rcases o with _ | (_ | e | e | ⟨e, raised⟩ | _)
        · exact ih
        · exact ih
        · exact Nat.succ_le_succ ih
        · exact Nat.le_succ_of_le ih
        · exact Nat.le_succ_of_le ih
        · exact ih
  induction vs with
  | nil => simp [handed, failed]
  | cons v vs ih =>
      obtain ⟨item, o⟩ := v
      have hle := hlength vs
      -- one more failure than is handed over
      have hmore : ∀ task, handed vs ≠ task :: failed vs := fun task heq => by
        rw [heq, List.length_cons] at hle
        omega
      rcases o with _ | (_ | e | e | ⟨e, raised⟩ | _)
      · simpa [handed, failed, misjudged] using ih
      · simpa [handed, failed, misjudged] using ih
      · simpa [handed, failed, misjudged] using ih
      · exact iff_of_false (hmore item.2.future) fun hall => by cases hall _ List.mem_cons_self
      · exact iff_of_false (hmore item.2.future) fun hall => by cases hall _ List.mem_cons_self
      · simpa [handed, failed, misjudged] using ih

omit [DecidableEq κ] in
/-- The failures are among the tasks that the pass has come to. -/
theorem failed_sublist (vs : List (Visit κ Scope)) :
    (failed vs).Sublist (vs.map fun v => v.1.2.future) := by
  induction vs with
  | nil => exact .slnil
  | cons v vs ih =>
      obtain ⟨item, o⟩ := v
      rcases o with _ | (_ | _ | _ | _ | _)
      · exact .cons _ ih
      · exact .cons _ ih
      · exact .cons_cons _ ih
      · exact .cons_cons _ ih
      · exact .cons_cons _ ih
      · exact .cons _ ih

/-- No two instances of a snapshot share a task. -/
theorem Owned.nodup_items (h : Owned s) : (s.items.map fun item => item.2.future).Nodup := by
  refine List.Nodup.map_on (fun x hx y hy hfuture => ?_) ?_
  · have hkey := h.unique (mem_items.mp hx) (mem_items.mp hy) hfuture
    obtain ⟨k, d⟩ := x
    obtain ⟨k', d'⟩ := y
    obtain rfl : k = k' := hkey
    have hd := mem_items.mp hx
    rw [mem_items.mp hy] at hd
    cases hd
    rfl
  · exact List.nodup_reverse.mpr s.applicationInstances.nodupKeys.nodup

/-- **When the checker survives.** A pass from any reachable state raises nothing, hands over each
failure once and removes what it finds done, exactly as long as it comes to no cancelled future,
and to no exception that is false, or raises, as a condition. -/
theorem survives_iff {as : List (Action κ Scope)}
    (h₀ : (machine maxApplications).Run Machine.Any init as s₀)
    (h : Pass maxApplications s₀ vs s) :
    Survives s₀ vs s ↔ ∀ v ∈ vs, manageable v.2 = true := by
  have howned := Owned.run h₀
  have hinv := h.inv howned
  have hstands := hinv.stands
  constructor
  · intro hsurvives v hv
    rw [manageable_iff]
    constructor
    · cases hchecker : s.checker with
      | sleeping =>
          rw [hchecker] at hstands
          exact hstands.2 v hv
      | handling k rest =>
          rw [hchecker] at hstands
          exact hstands.2 v hv
      | ended e => exact absurd hchecker (hsurvives.alive e)
    · have hreported := hsurvives.reported
      rw [hinv.reported, List.append_cancel_left_eq, handed_eq_failed_iff] at hreported
      exact hreported v hv
  · intro hgood
    have hends : ∀ v ∈ vs, ends v.2 = false := fun v hv => ((manageable_iff _).mp (hgood v hv)).1
    have hjudged : ∀ v ∈ vs, misjudged v.2 = false :=
      fun v hv => ((manageable_iff _).mp (hgood v hv)).2
    have halive : ∀ e, s.checker ≠ .ended e := by
      intro e hchecker
      rw [hchecker] at hstands
      obtain ⟨v, hv, hraises⟩ := hstands
      rw [hends v hv] at hraises
      cases hraises
    have hprefix : vs.map Prod.fst <+: s₀.items := by
      cases hchecker : s.checker with
      | sleeping =>
          rw [hchecker] at hstands
          exact ⟨[], by rw [List.append_nil, hstands.1]⟩
      | handling k rest =>
          rw [hchecker] at hstands
          exact ⟨rest, hstands.1⟩
      | ended e => exact absurd hchecker (halive e)
    refine ⟨halive, ?_, ?_, ?_, ?_⟩
    · rw [hinv.reported, (handed_eq_failed_iff vs).mpr hjudged]
    · have hsub := List.Sublist.map (fun item => item.2.future) (List.IsPrefix.sublist hprefix)
      rw [List.map_map] at hsub
      exact ((failed_sublist vs).trans hsub).nodup howned.nodup_items
    · intro hchecker
      rw [hchecker] at hstands
      exact hstands.1
    · intro hchecker v hv hdone
      refine (hinv.removed v hv hdone (hends v hv)).resolve_left ?_
      rintro ⟨rest, hhandling⟩
      rw [hchecker] at hhandling
      cases hhandling

/-- One application has failed and another has finished. -/
def twoDone : List (Action Nat Unit) :=
  [.getOrCreate 0 () 0 none, .getOrCreate 1 () 1 none, .finish 0 (.exception (.other 0)),
    .finish 1 .result]

/-- The server after these actions. -/
def after (as : List (Action Nat Unit)) : State Nat Unit := ((machine 10).exec init as).getD init

/-- The failure was handed over, and both entries are gone. -/
theorem survives_iff_twoDone :
    Survives (after twoDone)
        [(⟨0, ⟨0, 0, ()⟩⟩, some (.exception (.other 0))), (⟨1, ⟨1, 1, ()⟩⟩, some .result)]
        (after (twoDone ++ [.wake, .resume])) ∧
      (after (twoDone ++ [.wake, .resume])).reported = [0] ∧
      (after (twoDone ++ [.wake, .resume])).items = [] := by
  have hrun : (machine 10).Run Machine.Any init twoDone (after twoDone) := Machine.exec_run rfl
  have hchecker : (walk (after twoDone).items (after twoDone)).checker =
      .handling 0 [⟨1, ⟨1, 1, ()⟩⟩] := rfl
  exact ⟨(survives_iff hrun (.resume (.wake rfl) hchecker)).mpr (by decide), rfl, rfl⟩

/-- One application has ended like this. -/
def oneEnded (o : Outcome) : List (Action Nat Unit) := [.getOrCreate 0 () 0 none, .finish 0 o]

/-- An application that cancels itself ends the checker; so does an exception that cannot be taken
as a condition; and one that is false is not handed over. -/
theorem cancelled_not_survives :
    (∃ vs, Pass 10 (after (oneEnded .cancelled)) vs (after (oneEnded .cancelled ++ [.wake])) ∧
      ¬ Survives (after (oneEnded .cancelled)) vs (after (oneEnded .cancelled ++ [.wake]))) ∧
    (∃ vs, Pass 10 (after (oneEnded (.raisingException (.other 0) (.other 1)))) vs
        (after (oneEnded (.raisingException (.other 0) (.other 1)) ++ [.wake])) ∧
      ¬ Survives (after (oneEnded (.raisingException (.other 0) (.other 1)))) vs
        (after (oneEnded (.raisingException (.other 0) (.other 1)) ++ [.wake]))) ∧
    ∃ vs, Pass 10 (after (oneEnded (.falseException (.other 0)))) vs
        (after (oneEnded (.falseException (.other 0)) ++ [.wake])) ∧
      ¬ Survives (after (oneEnded (.falseException (.other 0)))) vs
        (after (oneEnded (.falseException (.other 0)) ++ [.wake])) := by
  refine ⟨⟨_, .wake rfl, fun h => h.alive .cancelledError rfl⟩,
    ⟨_, .wake rfl, fun h => h.alive (.other 1) rfl⟩, ⟨_, .wake rfl, fun h => ?_⟩⟩
  have hreported : ([] : List Nat) = [0] := h.reported
  cases hreported

end Asgiref.StatelessServer
