import Asgiref.Identity.Restore

/-! # Restoring and plain copying

Plain copying sets every variable of the moved context to the object that it has there, and the
storage of a `Local` to its dict, owned by the current thread. `_restore_context` sets a variable
only where the object that is there, or that is its default, is unequal to the new one.

* **`plainValue`**, **`plainCopy`**, **`AgreesWithPlainCopy`** — plain copying, and a result that is
  the same, object by object.
* **`CopiesPlainly`**, **`agreesWithPlainCopy_iff`** — a turn that does what plain copying does; the
  result is the same where every turn is such a one.
* **`Restored`**, **`restored`** — what `_restore_context` leaves, and when it is plain copying,
  where no variable of other code holds what looks like the storage of a `Local`.
* **`copiesPlainly_foreign_iff`** — when a turn copies what looks like one. -/

namespace Asgiref

namespace Identity

variable (o : Objects)

/-- What plain copying sets a variable to. -/
def plainValue : (x : ContextVar) → Val x → Val x
  | .user .., v => v
  | .cvar _, s => ⟨o.ident, s.data⟩
  | .critical .., d => d

/-- Plain copying. -/
def plainCopy (current moved : Context) : Context :=
  moved.entries.foldl (fun c entry => c.insert entry.1 (plainValue o entry.1 entry.2)) current

/-- Nothing is raised, and every variable has the object that plain copying gives it. -/
def AgreesWithPlainCopy (current moved : Context) (result : Context × Option PyError) : Prop :=
  result.2 = none ∧ ∀ x, result.1.lookup x = (plainCopy o current moved).lookup x

/-- A turn of plain copying. -/
def plainTurn : Overlay.Turn Val PyError := fun x _ v => .ok (some (plainValue o x v))

/-- Plain copying is a loop whose turns set every variable. -/
theorem run_plainTurn (entries : List (Sigma Val)) (c : Context) :
    Overlay.run (plainTurn o) c entries =
      (entries.foldl (fun c entry => c.insert entry.1 (plainValue o entry.1 entry.2)) c, none) := by
  induction entries generalizing c with
  | nil => rfl
  | cons entry rest ih => exact (Overlay.run_cons_set rfl).trans (ih _)

/-- What plain copying gives: the variables of the moved context are set, the others unchanged. -/
theorem lookup_plainCopy (current moved : Context) (x : ContextVar) :
    (plainCopy o current moved).lookup x =
      ((moved.lookup x).map (plainValue o x)).or (current.lookup x) := by
  have hrun := run_plainTurn o moved.entries current
  rw [show plainCopy o current moved = _ from (congrArg Prod.fst hrun).symm]
  cases hx : moved.lookup x with
  | none =>
      rw [AList.lookup_eq_none] at hx
      exact Overlay.lookup_run_notMem _ _ hx
  | some v =>
      rcases Overlay.lookup_run (plainTurn o) current moved.nodupKeys
        (AList.mem_lookup_iff.mp hx) with ⟨-, hleft⟩ | ⟨w, hset, hlookup⟩
      · cases hleft (congrArg Prod.snd hrun)
      · cases hset
        exact hlookup

/-! ## Turn by turn -/

/-- The turn of a variable does what plain copying does. -/
def CopiesPlainly (current : Context) (x : ContextVar) (v : Val x) : Prop :=
  ∃ r, turn o x (current.lookup x) v = .ok r ∧
    r.or (current.lookup x) = some (plainValue o x v)

/-- **The result is that of plain copying** where each turn does what plain copying does. -/
theorem agreesWithPlainCopy_iff (current moved : Context) :
    AgreesWithPlainCopy o current moved (restoreContext o current moved) ↔
      ∀ x v, moved.lookup x = some v → CopiesPlainly o current x v := by
  have hnodup := moved.nodupKeys
  have hplain : ∀ x v, moved.lookup x = some v →
      (plainCopy o current moved).lookup x = some (plainValue o x v) := by
    intro x v hx
    rw [lookup_plainCopy, hx]
    rfl
  unfold AgreesWithPlainCopy restoreContext
  constructor
  · rintro ⟨hnone, hlookup⟩ x v hx
    have hmem := AList.mem_lookup_iff.mp hx
    have hagree := (hlookup x).trans (hplain x v hx)
    rcases Overlay.lookup_run (turn o) current hnodup hmem with
      ⟨hkeep, hleft⟩ | ⟨w, hset, hw⟩
    · exact ⟨none, hleft hnone, hkeep.symm.trans hagree⟩
    · exact ⟨some w, hset, hw.symm.trans hagree⟩
  · intro h
    have hnone : (Overlay.run (turn o) current moved.entries).2 = none := by
      refine (Overlay.run_none_iff hnodup).mpr fun entry hmem e herror => ?_
      obtain ⟨r, hr, -⟩ := h entry.1 entry.2 (AList.mem_lookup_iff.mpr hmem)
      rw [hr] at herror
      cases herror
    refine ⟨hnone, fun x => ?_⟩
    cases hx : moved.lookup x with
    | none =>
        rw [lookup_plainCopy, hx]
        rw [AList.lookup_eq_none] at hx
        exact Overlay.lookup_run_notMem _ _ hx
    | some v =>
        rw [hplain x v hx]
        obtain ⟨r, hr, hcopied⟩ := h x v hx
        rcases Overlay.lookup_run (turn o) current hnodup
          (AList.mem_lookup_iff.mp hx) with ⟨hkeep, hleft⟩ | ⟨w, hset, hw⟩
        · rw [hleft hnone] at hr
          cases hr
          exact hkeep.trans hcopied
        · rw [hset] at hr
          cases hr
          exact hw.trans hcopied

/-! ## What is restored -/

/-- The variable moves to this value, and has this one now, be it its default. -/
def Meet (current moved : Context) (x : ContextVar) (v w : Val x) : Prop :=
  moved.lookup x = some v ∧ get o current x = some w

/-- No variable of other code holds a tuple under the name of the variables of `Local`s. -/
def NoForeignTuple (moved : Context) : Prop :=
  ∀ name id ref items, moved.lookup (.user name id) = some (.tuple ref items) → name ≠ cvarName

/-- What `_restore_context` leaves. -/
structure Restored (current moved : Context) (result : Context × Option PyError) : Prop where
  /-- Variables absent from the moved context are unchanged. -/
  absent : ∀ x, moved.lookup x = none → result.1.lookup x = current.lookup x
  /-- A variable stays as it is where its object, or, if it is not set, its default is found not
  unequal to the new object, ... -/
  kept : ∀ x v w, Meet o current moved x v w → ne o x w (plainValue o x v) = .ok false →
    result.1.lookup x = current.lookup x
  /-- ... and has the new one otherwise, or where it was not set and has no default. -/
  replaced : result.2 = none → ∀ x v, moved.lookup x = some v →
    (∀ w, get o current x = some w → ne o x w (plainValue o x v) ≠ .ok false) →
    result.1.lookup x = some (plainValue o x v)
  /-- Nothing else ends up in a variable, even where an exception has ended the loop early. -/
  untouched : ∀ x v, moved.lookup x = some v →
    result.1.lookup x = current.lookup x ∨ result.1.lookup x = some (plainValue o x v)
  /-- An exception is one that a comparison has raised, other than a `LookupError`. -/
  raises : ∀ e, result.2 = some e →
    ∃ x v w, Meet o current moved x v w ∧ ne o x w (plainValue o x v) = .error e
  returns : result.2 = none ↔ ∀ x v w e, Meet o current moved x v w →
    ne o x w (plainValue o x v) = .error e → e.isLookupError = true
  /-- It is plain copying exactly if, besides, no variable is found not unequal that does not have
  the new object set. -/
  plain : AgreesWithPlainCopy o current moved result ↔ ∀ x v w, Meet o current moved x v w →
    (ne o x w (plainValue o x v) = .ok false → current.lookup x = some (plainValue o x v)) ∧
      ∀ e, ne o x w (plainValue o x v) = .error e → e.isLookupError = true

variable {o} {current moved : Context}

/-- What is moved is what plain copying sets the variable to. -/
theorem NoForeignTuple.rehome_eq (h : NoForeignTuple moved) {x : ContextVar} {v : Val x}
    (hx : moved.lookup x = some v) : rehome o x v = .ok (plainValue o x v) := by
  cases x with
  | cvar l => rfl
  | critical l t => rfl
  | user name id =>
      cases v with
      | other ref => rfl
      | tuple ref items =>
          have hname := h name id ref items hx
          simp only [rehome, hname, if_false, plainValue]

/-- A turn does what plain copying does exactly if the object that it leaves is the new one. -/
theorem copiesPlainly_iff {x : ContextVar} {v : Val x}
    (hrehome : rehome o x v = .ok (plainValue o x v)) :
    CopiesPlainly o current x v ↔ ∀ w, get o current x = some w →
      (ne o x w (plainValue o x v) = .ok false → current.lookup x = some (plainValue o x v)) ∧
        ∀ e, ne o x w (plainValue o x v) = .error e → e.isLookupError = true := by
  constructor
  · rintro ⟨r, hr, hcopied⟩ w hw
    constructor
    · intro hne
      have hleft : turn o x (current.lookup x) v = .ok none :=
        (restoreTurn_eq_none_iff hrehome).mpr ⟨w, hw, hne⟩
      rw [hleft] at hr
      cases hr
      exact hcopied
    · intro e hne
      by_contra hnot
      rw [Bool.not_eq_true] at hnot
      have herror : turn o x (current.lookup x) v = .error e :=
        (restoreTurn_eq_error_iff hrehome).mpr ⟨w, hw, hne, hnot⟩
      rw [herror] at hr
      cases hr
  · intro h
    unfold CopiesPlainly
    cases hturn : turn o x (current.lookup x) v with
    | error e =>
        obtain ⟨w, hw, hne, hnot⟩ := (restoreTurn_eq_error_iff hrehome).mp hturn
        rw [(h w hw).2 e hne] at hnot
        cases hnot
    | ok r =>
        refine ⟨r, rfl, ?_⟩
        cases r with
        | none =>
            obtain ⟨w, hw, hne⟩ := (restoreTurn_eq_none_iff hrehome).mp hturn
            exact (h w hw).1 hne
        | some w =>
            rw [restoreTurn_eq_some hrehome hturn]
            rfl

/-- A variable of the moved context has what its turn sets, or else what it had, ... -/
theorem NoForeignTuple.lookup_restoreContext (h : NoForeignTuple moved) {x : ContextVar} {v : Val x}
    (hx : moved.lookup x = some v) :
    (restoreContext o current moved).1.lookup x = current.lookup x ∧
        ((restoreContext o current moved).2 = none →
          ∃ w, get o current x = some w ∧ ne o x w (plainValue o x v) = .ok false) ∨
      (restoreContext o current moved).1.lookup x = some (plainValue o x v) ∧
        ∀ w, get o current x = some w → ne o x w (plainValue o x v) ≠ .ok false := by
  have hrehome := h.rehome_eq (o := o) hx
  rcases Overlay.lookup_run (turn o) current moved.nodupKeys
    (AList.mem_lookup_iff.mp hx) with ⟨hkeep, hleft⟩ | ⟨w, hset, hw⟩
  · exact .inl ⟨hkeep, fun hnone => (restoreTurn_eq_none_iff hrehome).mp (hleft hnone)⟩
  · rw [restoreTurn_eq_some hrehome hset] at hw
    refine .inr ⟨hw, fun w' hw' hne => ?_⟩
    have hleft : turn o x (current.lookup x) v = .ok none :=
      (restoreTurn_eq_none_iff hrehome).mpr ⟨w', hw', hne⟩
    rw [hleft] at hset
    cases hset

/-- ... and what is raised is an exception of a comparison that is not a `LookupError`. -/
theorem NoForeignTuple.exists_of_restoreContext (h : NoForeignTuple moved) {e : PyError}
    (he : (restoreContext o current moved).2 = some e) : ∃ x v w, Meet o current moved x v w ∧
      ne o x w (plainValue o x v) = .error e ∧ e.isLookupError = false := by
  obtain ⟨⟨x, v⟩, hmem, herror⟩ := Overlay.exists_of_run moved.nodupKeys he
  have hx := AList.mem_lookup_iff.mpr hmem
  obtain ⟨w, hw, hne, hnot⟩ := (restoreTurn_eq_error_iff (h.rehome_eq hx)).mp herror
  exact ⟨x, v, w, ⟨hx, hw⟩, hne, hnot⟩

/-- **What `_restore_context` leaves**, where no variable of other code holds what it takes for the
storage of a `Local`. -/
theorem restored (hforeign : NoForeignTuple moved) :
    Restored o current moved (restoreContext o current moved) := by
  refine ⟨fun x hx => ?_, fun x v w hmeet hne => ?_, fun hnone x v hx hne => ?_, fun x v hx => ?_,
    fun e he => ?_, ⟨fun hnone x v w e hmeet hne => ?_, fun h => ?_⟩, ?_⟩
  · rw [AList.lookup_eq_none] at hx
    exact Overlay.lookup_run_notMem _ _ hx
  · rcases hforeign.lookup_restoreContext hmeet.1 with ⟨hkeep, -⟩ | ⟨-, hset⟩
    · exact hkeep
    · exact absurd hne (hset w hmeet.2)
  · rcases hforeign.lookup_restoreContext hx with ⟨-, hleft⟩ | ⟨hset, -⟩
    · obtain ⟨w, hw, hfalse⟩ := hleft hnone
      exact absurd hfalse (hne w hw)
    · exact hset
  · exact (hforeign.lookup_restoreContext hx).imp And.left And.left
  · obtain ⟨x, v, w, hmeet, hne, -⟩ := hforeign.exists_of_restoreContext he
    exact ⟨x, v, w, hmeet, hne⟩
  · have hok := (Overlay.run_none_iff moved.nodupKeys).mp hnone ⟨x, v⟩
      (AList.mem_lookup_iff.mp hmeet.1) e
    by_contra hnot
    rw [Bool.not_eq_true] at hnot
    exact hok ((restoreTurn_eq_error_iff (hforeign.rehome_eq hmeet.1)).mpr
      ⟨w, hmeet.2, hne, hnot⟩)
  · cases he : (restoreContext o current moved).2 with
    | none => rfl
    | some e =>
        obtain ⟨x, v, w, hmeet, hne, hnot⟩ := hforeign.exists_of_restoreContext he
        rw [h x v w e hmeet hne] at hnot
        cases hnot
  · rw [agreesWithPlainCopy_iff]
    constructor
    · exact fun h x v w hmeet =>
        (copiesPlainly_iff (hforeign.rehome_eq hmeet.1)).mp (h x v hmeet.1) w hmeet.2
    · exact fun h x v hx =>
        (copiesPlainly_iff (hforeign.rehome_eq hx)).mpr fun w hw => h x v w ⟨hx, hw⟩

/-- The object of a default. -/
def defaultObject : Asgiref.Value → Value
  | .obj (.int n) => .other n
  | _ => .other 0

/-- Objects that are equal in pairs; comparing object 13 with another raises. -/
def paired : Objects where
  eq v w := .ok (v / 2 = w / 2)
  ne v w := if v = 13 then .error (.other 0) else .ok (v / 2 ≠ w / 2)
  ident := 7
  identObject := 70
  rehomed _ := 71
  default _ id := id.default.map defaultObject

/-- A variable of other code without a default. -/
def bareVar (name : String) : ContextVar := .user name ⟨0, none⟩

/-- One with this object as its default. -/
def defaultVar (n : Nat) : ContextVar := .user "d" ⟨0, some (.obj (.int n))⟩

/-- A context with variables of other code, one of them with object 10 as its default, and the
storage of a `Local` of thread 5. -/
def fourVariables : Context where
  entries := [⟨bareVar "a", .other 11⟩, ⟨.cvar 0, ⟨5, 30, ∅⟩⟩, ⟨bareVar "b", .tuple 40 [8, 9]⟩,
    ⟨defaultVar 10, .other 11⟩]
  nodupKeys := by simp [List.nodupKeys_cons, bareVar, defaultVar]

/-- The first and the last variable stay as they are, since 10 equals 11. -/
theorem restored_fourVariables :
    Restored paired (AList.singleton (bareVar "a") (.other 10)) fourVariables
        (restoreContext paired (AList.singleton (bareVar "a") (.other 10)) fourVariables) ∧
      (restoreContext paired (AList.singleton (bareVar "a") (.other 10)) fourVariables).1.lookup
        (bareVar "b") = some (.tuple 40 [8, 9]) ∧
      (restoreContext paired (AList.singleton (bareVar "a") (.other 10)) fourVariables).1.lookup
        (defaultVar 10) = none := by
  refine ⟨restored fun name id ref items hx => ?_, rfl, rfl⟩
  have hmem := AList.mem_lookup_iff.mp hx
  simp only [fourVariables, List.mem_cons, List.not_mem_nil, or_false] at hmem
  rcases hmem with hmem | hmem | hmem | hmem
  · cases hmem
  · cases hmem
  · cases hmem
    decide
  · cases hmem

/-- An equal object is kept, also one that is a default only; an exception of a comparison is
raised, also of one with a default; and a tuple that a variable of other code holds under the name
of the `Local`s' is replaced. -/
theorem not_agreesWithPlainCopy :
    ¬ AgreesWithPlainCopy paired (AList.singleton (bareVar "a") (.other 10))
        (AList.singleton (bareVar "a") (.other 11))
        (restoreContext paired (AList.singleton (bareVar "a") (.other 10))
          (AList.singleton (bareVar "a") (.other 11))) ∧
      ¬ AgreesWithPlainCopy paired ∅ (AList.singleton (defaultVar 10) (.other 11))
        (restoreContext paired ∅ (AList.singleton (defaultVar 10) (.other 11))) ∧
      ¬ AgreesWithPlainCopy paired (AList.singleton (bareVar "a") (.other 13))
        (AList.singleton (bareVar "a") (.other 11))
        (restoreContext paired (AList.singleton (bareVar "a") (.other 13))
          (AList.singleton (bareVar "a") (.other 11))) ∧
      ¬ AgreesWithPlainCopy paired ∅ (AList.singleton (defaultVar 13) (.other 11))
        (restoreContext paired ∅ (AList.singleton (defaultVar 13) (.other 11))) ∧
      ¬ AgreesWithPlainCopy paired ∅ (AList.singleton (bareVar "asgiref.local") (.tuple 40 [8, 9]))
        (restoreContext paired ∅
          (AList.singleton (bareVar "asgiref.local") (.tuple 40 [8, 9]))) := by
  refine ⟨fun h => ?_, fun h => ?_, fun h => ?_, fun h => ?_, fun h => ?_⟩
  · have hkept : some (Value.other 10) = some (.other 11) := h.2 (bareVar "a")
    cases hkept
  · have hunset : (none : Option Value) = some (.other 11) := h.2 (defaultVar 10)
    cases hunset
  · have hraised : some (PyError.other 0) = none := h.1
    cases hraised
  · have hraised : some (PyError.other 0) = none := h.1
    cases hraised
  · have hreplaced : some (Value.tuple 71 [70, 9]) = some (.tuple 40 [8, 9]) :=
      h.2 (bareVar "asgiref.local")
    cases hreplaced

/-! ## What looks like the storage of a `Local` -/

/-- A tuple is found not unequal to its re-homed copy where it is a pair whose first item equals the
thread's ident. -/
theorem tupleNe_rehomed_iff {first second : Ref} {rest : List Ref} :
    tupleNe o (first :: second :: rest) [o.identObject, second] = .ok false ↔
      rest = [] ∧ sameItem o first o.identObject = .ok true := by
  have hsame : sameItem o second second = .ok true := if_pos rfl
  unfold tupleNe
  cases hfirst : sameItem o first o.identObject with
  | error e => simp
  | ok b =>
      cases b with
      | false => simp
      | true =>
          unfold tupleNe
          simp only [hsame]
          cases rest <;> simp [tupleNe]

/-- **A tuple of other code under that name** is copied only where the variable holds it already,
and it is a pair whose first item equals the thread's ident. -/
theorem copiesPlainly_foreign_iff {id : VarId} {ref : Ref} {items : List Ref}
    (hnew : o.rehomed (.user cvarName id) ≠ ref) :
    CopiesPlainly o current (.user cvarName id) (.tuple ref items) ↔
      current.lookup (.user cvarName id) = some (.tuple ref items) ∧
        ∃ first second, items = [first, second] ∧ sameItem o first o.identObject = .ok true := by
  match items with
  | [] | [_] =>
      -- `storage[1]` raises
      constructor
      · rintro ⟨r, hr, -⟩
        cases hr
      · rintro ⟨-, _, _, hitems, -⟩
        cases hitems
  | first :: second :: rest =>
      have hrehome : rehome o (.user cvarName id) (.tuple ref (first :: second :: rest)) =
          .ok (.tuple (o.rehomed (.user cvarName id)) [o.identObject, second]) := by
        simp [rehome]
      constructor
      · rintro ⟨r, hr, hcopied⟩
        cases r with
        | some w =>
            -- the copy is another tuple
            rw [restoreTurn_eq_some hrehome hr] at hcopied
            cases hcopied
            exact absurd rfl hnew
        | none =>
            obtain ⟨w, hw, hne⟩ := (restoreTurn_eq_none_iff hrehome).mp hr
            have hheld : current.lookup (.user cvarName id) =
              some (.tuple ref (first :: second :: rest)) := hcopied
            rw [hheld, Option.some_or] at hw
            cases hw
            obtain ⟨rfl, hfirst⟩ := tupleNe_rehomed_iff.mp hne
            exact ⟨hheld, first, second, rfl, hfirst⟩
      · rintro ⟨hw, _, _, hitems, hfirst⟩
        cases hitems
        refine ⟨none, (restoreTurn_eq_none_iff hrehome).mpr ⟨.tuple ref [first, second], ?_, ?_⟩,
          hw⟩
        · rw [hw, Option.some_or]
        · exact tupleNe_rehomed_iff.mpr ⟨rfl, hfirst⟩

end Identity

end Asgiref
