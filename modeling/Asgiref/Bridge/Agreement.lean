import Asgiref.Bridge.World

/-! # Two contexts that show the same

A bridged frame and the inline frame it is compared with hold different contexts: the storage of
every `Local` belongs to another thread, and asgiref's own entries are in one of them only. This
file says what they have in common, and that operations and crossings keep it.

* **`Agree`** — the two contexts show their threads the same variables and the same `Local` data,
  asgiref's own apart.
* **`ScopeAgree`** — so do the two scopes, and their tokens can only undo what the frame did: a
  variable that was set when the frame began stays set.
* **`Op.apply_agree`** — an operation gives both frames the same answer and keeps the agreement. -/

namespace Asgiref

open Local

/-- The operation is not on `deadlock_context` or `AsyncToSync.executors`. -/
def Op.OwnFree : Op → Prop
  | .getVar name id _ | .setVar name id _ => ContextVar.user name id ≠ deadlockContext
  | .resetVar _ => True
  | .getattr l _ | .setattr l _ _ | .delattr l _ => l ≠ executors

instance : DecidablePred Op.OwnFree
  | .getVar name id _ | .setVar name id _ =>
      inferInstanceAs (Decidable (ContextVar.user name id ≠ deadlockContext))
  | .resetVar _ => inferInstanceAs (Decidable True)
  | .getattr l _ | .setattr l _ _ | .delattr l _ => inferInstanceAs (Decidable (l ≠ executors))

/-- A thread with ident `i` sees in `c` what one with ident `i₀` sees in `d`. -/
structure Agree (i : Nat) (c : Context) (i₀ : Nat) (d : Context) : Prop where
  owned : OwnedBy i c
  owned₀ : OwnedBy i₀ d
  user : ∀ name id, ContextVar.user name id ≠ deadlockContext →
    c.lookup (ContextVar.user name id) = d.lookup (ContextVar.user name id)
  data : ∀ l, l ≠ executors → (storage c l).map Storage.data = (storage d l).map Storage.data

namespace Agree

variable {i j i₀ : Nat} {c d : Context}

theorem view (h : Agree i c i₀ d) {l : Nat} (hl : l ≠ executors) :
    Local.view i c l = Local.view i₀ d l := by
  rw [h.owned.view, h.owned₀.view, h.data l hl]

/-- A crossing keeps the agreement. -/
theorem moved {src : Context} (h : Agree j src i₀ d) (hm : Moved i src c) : Agree i c i₀ d where
  owned := hm.ownedBy
  owned₀ := h.owned₀
  user name id hne := by rw [hm.user, h.user name id hne]
  data l hl := by
    rw [hm.storage, Option.map_map, ← h.data l hl]
    rfl

/-- asgiref's own `Local` may change on one side. -/
theorem setattr_executors (h : Agree i c i₀ d) (value : Obj) :
    Agree i (Local.setattr i c executors "current" value) i₀ d where
  owned := h.owned.setStorage _ _
  owned₀ := h.owned₀
  user name id hne := by rw [setattr_eq, lookup_setStorage_user, h.user name id hne]
  data l hl := by rw [setattr_eq, storage_setStorage_ne _ _ hl, h.data l hl]

/-- So may `deadlock_context`. -/
theorem setDeadlock (h : Agree i c i₀ d) (b : Bool) : Agree i (setDeadlock c b) i₀ d where
  owned l s hs := h.owned l s (by rwa [Asgiref.setDeadlock, storage_insert_user] at hs)
  owned₀ := h.owned₀
  user name id hne := by
    rw [Asgiref.setDeadlock, AList.lookup_insert_ne hne, h.user name id hne]
  data l hl := by rw [Asgiref.setDeadlock, storage_insert_user, h.data l hl]

/-- Both contexts set a variable to the same value. -/
theorem insert (h : Agree i c i₀ d) (name : String) (id : VarId) (v : Value) :
    Agree i (c.insert (ContextVar.user name id) v) i₀ (d.insert (ContextVar.user name id) v) where
  owned l s hs := h.owned l s (by rwa [storage_insert_user] at hs)
  owned₀ l s hs := h.owned₀ l s (by rwa [storage_insert_user] at hs)
  user name' id' hne := by
    by_cases hx : ContextVar.user name' id' = ContextVar.user name id
    · cases hx
      rw [AList.lookup_insert, AList.lookup_insert]
    · rw [AList.lookup_insert_ne hx, AList.lookup_insert_ne hx, h.user name' id' hne]
  data l hl := by rw [storage_insert_user, storage_insert_user, h.data l hl]

/-- Both contexts get back the same old value of a variable. -/
theorem reset (h : Agree i c i₀ d) (name : String) (id : VarId) (old : Option Value) :
    Agree i (c.reset (ContextVar.user name id) old) i₀ (d.reset (ContextVar.user name id) old) := by
  cases old with
  | some v => exact h.insert name id v
  | none =>
      refine ⟨?_, ?_, ?_, ?_⟩
      · intro l s hs
        rw [storage_reset_user] at hs
        exact h.owned l s hs
      · intro l s hs
        rw [storage_reset_user] at hs
        exact h.owned₀ l s hs
      · intro name' id' hne
        by_cases hx : ContextVar.user name' id' = ContextVar.user name id
        · cases hx
          rw [Context.lookup_reset_self, Context.lookup_reset_self]
        · rw [Context.lookup_reset_ne c none hx, Context.lookup_reset_ne d none hx,
            h.user name' id' hne]
      · intro l hl
        rw [storage_reset_user, storage_reset_user, h.data l hl]

/-- Both threads store the same data in a `Local`. -/
theorem setStorage (h : Agree i c i₀ d) (l : Nat) (data : Dict) :
    Agree i (Local.setStorage c l ⟨i, data⟩) i₀ (Local.setStorage d l ⟨i₀, data⟩) where
  owned := h.owned.setStorage l data
  owned₀ := h.owned₀.setStorage l data
  user name id hne := by
    rw [lookup_setStorage_user, lookup_setStorage_user, h.user name id hne]
  data l' hl' := by
    by_cases hl : l' = l
    · subst hl
      rw [storage_setStorage_self, storage_setStorage_self]
      rfl
    · rw [storage_setStorage_ne _ _ hl, storage_setStorage_ne _ _ hl, h.data l' hl']

end Agree

/-! ## Scopes -/

/-- A token that may be used without harm in a frame that began with the variables `D` set. -/
structure TokenSafe (D : ContextVar → Prop) (token : Token) : Prop where
  own : ContextVar.user token.name token.id ≠ deadlockContext
  unset : token.oldValue = none → ¬ D (.user token.name token.id)

/-- The scopes of a bridged and an inline frame that began with the variables `D` set. -/
structure ScopeAgree (D : ContextVar → Prop) (i : Nat) (sc : Scope) (i₀ : Nat) (s : Scope) :
    Prop where
  agree : Agree i sc.context i₀ s.context
  tokens : sc.tokens = s.tokens
  safe : ∀ token, some token ∈ sc.tokens → TokenSafe D token
  domain : ∀ x, D x → (sc.context.lookup x).isSome

/-- What an operation that leaves asgiref's own variables alone keeps of them. -/
structure KeepsOwn (i : Nat) (c c' : Context) : Prop where
  current : currentExecutor i c' = currentExecutor i c
  deadlock : deadlockFlag c' = deadlockFlag c

theorem KeepsOwn.refl (i : Nat) (c : Context) : KeepsOwn i c c := ⟨rfl, rfl⟩

/-- The current executor depends on the storage of one `Local`. -/
theorem currentExecutor_congr {i j : Nat} {c d : Context}
    (h : view i c executors = view j d executors) :
    currentExecutor i c = currentExecutor j d := by
  unfold currentExecutor
  rw [getattr_congr h]

theorem KeepsOwn.of_eq {i : Nat} {c c' : Context}
    (hstorage : storage c' executors = storage c executors)
    (hdeadlock : c'.lookup deadlockContext = c.lookup deadlockContext) : KeepsOwn i c c' where
  current := currentExecutor_congr (view_congr hstorage i)
  deadlock := by
    unfold deadlockFlag
    rw [show c'.lookup (ContextVar.user "deadlock_context" ⟨0, none⟩)
      = c.lookup (ContextVar.user "deadlock_context" ⟨0, none⟩) from hdeadlock]

/-- A crossing leaves `deadlock_context` as it is. -/
theorem Moved.deadlockFlag {i : Nat} {moved c : Context} (h : Moved i moved c) :
    deadlockFlag c = Asgiref.deadlockFlag moved := by
  unfold Asgiref.deadlockFlag
  rw [show c.lookup deadlockContext = moved.lookup deadlockContext from h.user _ _]

/-- A crossing shows the new thread the executor that the old one saw. -/
theorem Moved.currentExecutor {i j : Nat} {moved c : Context} (h : Moved i moved c)
    (howned : OwnedBy j moved) : currentExecutor i c = Asgiref.currentExecutor j moved :=
  currentExecutor_congr (h.view howned executors)

theorem deadlockFlag_setattr (i : Nat) (c : Context) (o : Obj) :
    deadlockFlag (Local.setattr i c executors "current" o) = deadlockFlag c := by
  unfold deadlockFlag
  rw [setattr_eq, lookup_setStorage_user]

@[simp] theorem deadlockFlag_setDeadlock (c : Context) (b : Bool) :
    deadlockFlag (setDeadlock c b) = b := by
  unfold deadlockFlag setDeadlock
  rw [AList.lookup_insert]
  rfl

theorem currentExecutor_setDeadlock (i : Nat) (c : Context) (b : Bool) :
    currentExecutor i (setDeadlock c b) = currentExecutor i c :=
  currentExecutor_congr (view_congr (storage_insert_user ..) i)

theorem KeepsOwn.setStorage {i l : Nat} {c : Context} (hl : l ≠ executors) (s : Storage) :
    KeepsOwn i c (Local.setStorage c l s) :=
  .of_eq (storage_setStorage_ne c s hl.symm) (lookup_setStorage_user c l s _ _)

variable {D : ContextVar → Prop} {i i₀ : Nat} {sc s : Scope}

/-- **Operations agree.** An operation answers the same in both frames, and keeps their agreement
and asgiref's own variables. -/
theorem Op.apply_agree (h : ScopeAgree D i sc i₀ s) {o : Op} (hown : o.OwnFree) :
    (o.apply i sc).1 = (o.apply i₀ s).1 ∧
      ScopeAgree D i (o.apply i sc).2 i₀ (o.apply i₀ s).2 ∧
      KeepsOwn i sc.context (o.apply i sc).2.context := by
  cases o with
  | getVar name id fallback =>
      have hlookup := h.agree.user name id hown
      exact ⟨by simp only [Op.apply, hlookup], h, .refl i _⟩
  | setVar name id v =>
      have hlookup := h.agree.user name id hown
      refine ⟨rfl, ⟨h.agree.insert name id v, ?_, ?_, ?_⟩, ?_⟩
      · simp only [Op.apply, h.tokens, hlookup]
      · intro token hmem
        rcases List.mem_append.mp hmem with hmem | hmem
        · exact h.safe token hmem
        · obtain rfl := Option.some.inj (List.mem_singleton.mp hmem)
          refine ⟨hown, fun hnone hD => ?_⟩
          -- the new token cannot unset the variable if it was set when the frame began
          have hunset : sc.context.lookup (ContextVar.user name id) = none := hnone
          have hset : (sc.context.lookup (ContextVar.user name id)).isSome := h.domain _ hD
          rw [hunset] at hset
          cases hset
      · exact fun x hD => Covers.insert _ (.user name id) _ x (h.domain x hD)
      · exact .of_eq (storage_insert_user _ name id v _) (AList.lookup_insert_ne hown.symm)
  | resetVar n =>
      simp only [Op.apply, ← h.tokens]
      cases htoken : sc.tokens[n]? with
      | none => exact ⟨rfl, h, .refl i _⟩
      | some entry =>
          cases entry with
          | none => exact ⟨rfl, h, .refl i _⟩
          | some token =>
              have htok := h.safe token (List.mem_of_getElem? htoken)
              refine ⟨rfl, ⟨h.agree.reset _ _ _, ?_, ?_, ?_⟩, ?_⟩
              · simp [h.tokens]
              · intro token' hmem
                rcases List.mem_or_eq_of_mem_set hmem with hmem | hmem
                · exact h.safe token' hmem
                · cases hmem
              · intro x hD
                -- the variable that is reset stays set if it was set when the frame began
                by_cases hx : x = ContextVar.user token.name token.id
                · subst hx
                  rw [Context.lookup_reset_self]
                  cases hold : token.oldValue with
                  | none => exact absurd hD (htok.unset hold)
                  | some w => rfl
                · rw [Context.lookup_reset_ne _ _ hx]
                  exact h.domain x hD
              · exact .of_eq (storage_reset_user _ _ _ _ _)
                  (Context.lookup_reset_ne _ _ htok.own.symm)
  | getattr l key =>
      have hread := getattr_congr (h.agree.view hown) key
      exact ⟨by simp only [Op.apply, hread], h, .refl i _⟩
  | setattr l key value =>
      have hview := h.agree.view hown
      refine ⟨rfl, ⟨?_, h.tokens, h.safe, ?_⟩, ?_⟩
      · simp only [Op.apply, setattr_eq, ← hview]
        exact h.agree.setStorage l _
      · exact fun x hD => Covers.insert _ (.cvar l) _ x (h.domain x hD)
      · exact .setStorage hown _
  | delattr l key =>
      have hview := h.agree.view hown
      simp only [Op.apply, delattr_eq, ← hview]
      by_cases hkey : key ∈ Local.view i sc.context l
      · simp only [if_pos hkey]
        exact ⟨trivial, ⟨h.agree.setStorage l _, h.tokens, h.safe,
          fun x hD => Covers.insert _ (.cvar l) _ x (h.domain x hD)⟩, .setStorage hown _⟩
      · simp only [if_neg hkey]
        exact ⟨trivial, h, .refl i _⟩

end Asgiref
