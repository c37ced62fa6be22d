import Asgiref.Identity.Restore

/-! # What the objects stand for

Elsewhere a context holds what its objects are worth, since nothing there depends on which of two
equal objects it is. This file connects the two: where comparisons tell no more than what the
objects are worth, `_restore_context` on objects leaves what `_restore_context` leaves there.

* **`standsFor`**, **`worth`** — what a value is worth, and what a context is.
* **`restoreTurn_simulates`**, **`restoreContext_standsFor`** — a turn of the loop, and the loop. -/

namespace Asgiref

namespace Identity

variable (value : Ref → Obj)

/-- What a value is worth, if an object is worth this. -/
def standsFor : (x : ContextVar) → Val x → x.Val
  | .user .., .tuple _ items => .tuple (items.map value)
  | .user .., .other ref => .obj (value ref)
  | .cvar _, s => ⟨s.owner, Overlay.mapValues (fun _ => value) s.data.entries⟩
  | .critical .., d => Overlay.mapValues (fun _ => value) d.entries

/-- What a context is worth. -/
def worth : Context → Asgiref.Context := Overlay.mapValues (standsFor value)

/-- Turns do the same to what stands for the values, if re-homing and comparing do. -/
theorem restoreTurn_simulates {β γ : ContextVar → Type} {f : (x : ContextVar) → β x → γ x}
    {default : (x : ContextVar) → Option (β x)} {default' : (x : ContextVar) → Option (γ x)}
    {rehome : (x : ContextVar) → β x → Except PyError (β x)}
    {rehome' : (x : ContextVar) → γ x → Except PyError (γ x)}
    {ne : (x : ContextVar) → β x → β x → Except PyError Bool}
    {ne' : (x : ContextVar) → γ x → γ x → Except PyError Bool}
    (hdefault : ∀ x, default' x = (default x).map (f x))
    (hrehome : ∀ x v, rehome' x (f x v) = (rehome x v).map (f x))
    (hne : ∀ x w v, ne' x (f x w) (f x v) = ne x w v) :
    Overlay.Simulates f (restoreTurn default rehome ne) (restoreTurn default' rehome' ne') := by
  intro x there v
  unfold restoreTurn
  rw [hrehome, hdefault, ← Option.map_or]
  cases rehome x v with
  | error e => rfl
  | ok cvalue =>
      cases there.or (default x) with
      | none => rfl
      | some w =>
          simp only [Except.map, Option.map_some, hne]
          cases ne x w cvalue with
          | ok b => cases b <;> rfl
          | error e => cases he : e.isLookupError <;> simp only [he, if_true] <;> rfl

variable {o : Objects} {value}

/-- What is moved is worth what is moved of what it is worth. -/
theorem movedValue_standsFor (hident : value o.identObject = .int o.ident) (x : ContextVar)
    (v : Val x) :
    movedValue o.ident x (standsFor value x v) = (rehome o x v).map (standsFor value x) := by
  cases x with
  | cvar l => rfl
  | critical l t => rfl
  | user name id =>
      cases v with
      | other ref => rfl
      | tuple ref items =>
          unfold standsFor movedValue rehome
          by_cases hname : name = cvarName
          · simp only [hname, if_true, rehomeTuple, List.getElem?_map]
            cases items[1]? with
            | none => rfl
            | some item => simp [Except.map, hident]
          · simp only [hname, if_false]
            rfl

/-- **Restoring objects restores what they are worth**, and raises the same. -/
theorem restoreContext_standsFor {ne' : Comparison} (hident : value o.identObject = .int o.ident)
    (hdefault : ∀ name id, id.default = (o.default name id).map (standsFor value (.user name id)))
    (hne : ∀ x w v, ne' x (standsFor value x w) (standsFor value x v) = ne o x w v)
    (current moved : Context) :
    (Asgiref.restoreContext ne' o.ident (worth value current) (worth value moved)).2 =
        (restoreContext o current moved).2 ∧
      ∀ x, (Asgiref.restoreContext ne' o.ident (worth value current) (worth value moved)).1.lookup x
        = ((restoreContext o current moved).1.lookup x).map (standsFor value x) := by
  unfold Asgiref.restoreContext
  rw [restoreEntries_eq_run]
  have hdefault' : ∀ x, ContextVar.default x = (varDefault o x).map (standsFor value x) := by
    intro x
    cases x with
    | user name id => exact hdefault name id
    | cvar l => rfl
    | critical l t => rfl
  exact Overlay.run_mapValues
    (restoreTurn_simulates hdefault' (movedValue_standsFor hident) hne) current
    (Overlay.lookup_mapValues (standsFor value) current) moved.entries

end Identity

end Asgiref
