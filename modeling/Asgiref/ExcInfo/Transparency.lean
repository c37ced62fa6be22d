import Asgiref.ExcInfo.Program

/-! # Bridging is transparent to the handled exception

* **`exact_run`** — by induction on the program: where all exceptions are carried, the bridged run
  and the inline one show the same, and otherwise they depart.
* **`shows_iff`** — the exact condition.
* **`shows_same`** — true exceptions are all carried, if there are no tasks. -/

namespace Asgiref.ExcInfo

variable {Exc α : Type} {side : Side} {truthy : Exc → Bool}

/-- What the child handles is what its caller does, exactly if it is carried. -/
theorem populated_eq_iff {handled ambient : Option Exc} :
    handled = populated truthy handled ambient ↔ Carried truthy handled ambient := by
  unfold populated Carried
  cases handled with
  | none => simp
  | some e =>
      by_cases htruthy : truthy e = true
      · simp [htruthy]
      · simp [htruthy]

namespace Prog

/-- A child frame whose caller handles `handled`, across a bridge to a thread that handles
`ambient`. -/
theorem exact_child {G : Prop} {handled : Option Exc} {run : Run Exc α} (truthy : Exc → Bool)
    (ambient : Option Exc) (run' : Option Exc → Run Exc α) (h : Traced.Exact G run (run' handled)) :
    Traced.Exact (Carried truthy handled ambient ∧ G) (run.after [handled])
      ((run' (populated truthy handled ambient)).after [populated truthy handled ambient]) := by
  rw [← populated_eq_iff]
  exact .cons fun heq => heq ▸ h

theorem exact_run (p : Prog Exc α side) (parked handled : Option Exc) :
    Traced.Exact (p.Carries truthy parked handled) (p.inline handled)
      (p.bridged truthy parked handled) := by
  induction p generalizing parked handled with
  | finish r => exact .refl _
  | excInfo next ih => exact (ih handled parked handled).after [handled]
  | tryExcept body handler next ihbody ihhandler ihnext =>
      exact ((ihbody parked handled).handle fun e _ => ihhandler e parked (some e)).bind
        fun v _ => ihnext v parked handled
  | asyncToSync awaitable next ihawaitable ihnext =>
      have hchild := exact_child truthy none (awaitable.bridged truthy handled)
        (ihawaitable handled handled)
      exact hchild.bind fun v _ => ihnext v parked handled
  | syncToAsync threadSensitive func next ihfunc ihnext =>
      have hchild := exact_child truthy (ambient threadSensitive parked)
        (func.bridged truthy none) (ihfunc none handled)
      exact hchild.bind fun v _ => ihnext v parked handled
  | task coro next ihcoro ihnext =>
      exact ((ihcoro parked none).after [none]).bind fun v _ => ihnext v parked handled

end Prog

/-- **Transparency, exactly.** Across the bridges, every frame finds the exception handled that it
would find inline, and the program ends as it would, exactly if all exceptions that cross are
carried. -/
theorem shows_iff (p : Prog Exc α side) (parked handled : Option Exc) :
    p.bridged truthy parked handled = p.inline handled ↔ p.Carries truthy parked handled :=
  eq_comm.trans (p.exact_run parked handled).eq_iff

/-! ## True exceptions -/

/-- A true exception is carried; where there is none, the thread has to handle none. -/
theorem carried_of_truthy (htruthy : ∀ e, truthy e = true) {handled ambient : Option Exc}
    (h : handled = none → ambient = none) : Carried truthy handled ambient := by
  cases handled with
  | none => exact .inr (h rfl).symm
  | some e => exact .inl ⟨e, rfl, htruthy e⟩

/-- An async frame handles something as long as the sync frame above it does. -/
theorem Prog.carries_of_truthy (htruthy : ∀ e, truthy e = true) (p : Prog Exc α side)
    (hp : p.TaskFree) {parked handled : Option Exc} (h : handled = none → parked = none) :
    p.Carries truthy parked handled := by
  induction p generalizing parked handled with
  | finish r => trivial
  | excInfo next ih => exact ih handled (hp handled) h
  | tryExcept body handler next ihbody ihhandler ihnext =>
      obtain ⟨hbody, hhandler, hnext⟩ := hp
      refine ⟨⟨ihbody hbody h, fun e _ => ?_⟩, fun v _ => ihnext v (hnext v) h⟩
      apply ihhandler e (hhandler e)
      intro hnone
      cases hnone
  | asyncToSync awaitable next ihawaitable ihnext =>
      obtain ⟨hawaitable, hnext⟩ := hp
      refine ⟨⟨carried_of_truthy htruthy fun _ => rfl, ?_⟩, fun v _ => ihnext v (hnext v) h⟩
      exact ihawaitable hawaitable id
  | syncToAsync threadSensitive func next ihfunc ihnext =>
      obtain ⟨hfunc, hnext⟩ := hp
      refine ⟨⟨carried_of_truthy htruthy fun hnone => ?_, ?_⟩, fun v _ => ihnext v (hnext v) h⟩
      · unfold ambient
        split
        · exact h hnone
        · rfl
      · exact ihfunc hfunc fun _ => rfl
  | task coro next => cases hp

/-- **Transparency.** Where all exceptions are true, a program without tasks does not notice the
bridges. -/
theorem shows_same (htruthy : ∀ e, truthy e = true) (p : Prog Exc α side) (hp : p.TaskFree)
    (handled : Option Exc) : p.bridged truthy none handled = p.inline handled :=
  (p.exact_run none handled).eq_iff.mpr (p.carries_of_truthy htruthy hp fun _ => rfl) |>.symm

/-- A function asks for the exception that a sync frame handles two bridges above. -/
def nested : Prog Nat Nat .sync :=
  .tryExcept (.finish (.error 7))
    (fun _ => .asyncToSync
      (.syncToAsync true (.excInfo fun handled => .finish (.ok (handled.getD 0)))
        fun v => .finish (.ok v))
      fun v => .finish (.ok v))
    fun v => .finish (.ok v)

theorem shows_same_nested : nested.bridged (fun _ => true) none none = nested.inline none ∧
    (nested.inline none).trace = [some 7, some 7, some 7] :=
  ⟨shows_same (fun _ => rfl) nested (by simp [nested, Prog.TaskFree]) none, rfl⟩

/-- The same, in a task. -/
def nestedTask : Prog Nat Nat .sync :=
  .tryExcept (.finish (.error 7))
    (fun _ => .asyncToSync
      (.task (.syncToAsync true (.excInfo fun handled => .finish (.ok (handled.getD 0)))
        fun v => .finish (.ok v)) fun v => .finish (.ok v))
      fun v => .finish (.ok v))
    fun v => .finish (.ok v)

-- the function runs on the thread of the sync frame, and finds what that handles
example : (nestedTask.inline none).trace = [some 7, none, none, none] ∧
    (nestedTask.bridged (fun _ => true) none none).trace = [some 7, none, some 7, some 7] :=
  ⟨rfl, rfl⟩

end Asgiref.ExcInfo
