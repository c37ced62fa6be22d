import Asgiref.Wsgi.Grammar
import Mathlib.Order.Bounds.Defs

/-! # Clamping the body

If all calls before the first chunk return normally, the length that the loop clamps to is the one
that the last of them declares.

* **`flatten_cut`** — the chunks that are sent make up the first bytes of the body.
* **`Advance`** — the least positive number of chunks whose total length reaches a bound, or all
  chunks; **`advance_cut`** — so many does the loop take.
* **`clamped`** — both, for whole runs. -/

namespace Asgiref.Wsgi

variable {i : Interpreter} {self : Instance} {app : App}

/-! ## Cutting to a natural length -/

/-- Within the length, the chunk that is sent is what still fits. -/
theorem clamp_natCast {n bytesSent : Nat} (h : bytesSent ≤ n) (output : Bytes) :
    clamp (some (n : Int)) bytesSent output = output.take (n - bytesSent) := by
  show (if (n : Int) - bytesSent < output.length then sliceTo output (n - bytesSent)
    else output) = _
  have hallowed : (n : Int) - bytesSent = ((n - bytesSent : Nat) : Int) := by omega
  rw [hallowed]
  unfold sliceTo
  by_cases hlong : ((n - bytesSent : Nat) : Int) < output.length
  · rw [if_pos hlong, if_pos (Int.natCast_nonneg _), Int.toNat_natCast]
  · rw [if_neg hlong, List.take_of_length_le (by omega)]

/-- The number of bytes sent stays within the length. -/
theorem bytesSent_le {n bytesSent : Nat} (h : bytesSent ≤ n) (output : Bytes) :
    bytesSent + (output.take (n - bytesSent)).length ≤ n := by
  rw [List.length_take]
  omega

/-- **The bytes that are sent**: as many of the chunks' as still fit. -/
theorem flatten_cut {n bytesSent : Nat} (h : bytesSent ≤ n) (chunks : List Bytes) :
    (cut (some (n : Int)) bytesSent chunks).1.flatten = chunks.flatten.take (n - bytesSent) := by
  induction chunks generalizing bytesSent with
  | nil => simp [cut]
  | cons output rest ih =>
      unfold cut
      rw [clamp_natCast h, List.flatten_cons, List.take_append]
      by_cases hstop : some ((bytesSent + (output.take (n - bytesSent)).length : Nat) : Int) =
          some (n : Int)
      · -- enough was sent: nothing of the rest fits
        have hfull : bytesSent + (output.take (n - bytesSent)).length = n := by
          exact_mod_cast Option.some.inj hstop
        rw [List.length_take] at hfull
        have hnone : n - bytesSent - output.length = 0 := by omega
        simp only [if_pos hstop, List.flatten_singleton, hnone, List.take_zero, List.append_nil]
      · have hopen : bytesSent + (output.take (n - bytesSent)).length ≠ n := fun heq =>
          hstop (by rw [heq])
        have hle := bytesSent_le h output
        have hwhole : (output.take (n - bytesSent)).length = output.length := by
          rw [List.length_take] at hopen ⊢
          omega
        simp only [if_neg hstop, List.flatten_cons]
        rw [ih hle, hwhole]
        congr 2
        omega

/-! ## How far the iterable is advanced -/

/-- The least positive number of chunks whose total length reaches the bound, or the number of all
chunks if none does. -/
def Advance (bound : Nat) (chunks : List Bytes) (k : Nat) : Prop :=
  IsLeast {k | 1 ≤ k ∧ k ≤ chunks.length ∧ bound ≤ (chunks.take k).flatten.length} k ∨
    (∀ j, 1 ≤ j → j ≤ chunks.length → (chunks.take j).flatten.length < bound) ∧ k = chunks.length

/-- One chunk is enough. -/
theorem Advance.one {bound : Nat} {output : Bytes} (h : bound ≤ output.length)
    (rest : List Bytes) : Advance bound (output :: rest) 1 := by
  refine .inl ⟨⟨Nat.le_refl 1, by simp, by simpa using h⟩, ?_⟩
  rintro k ⟨hk, -, -⟩
  exact hk

/-- One chunk is not enough. -/
theorem Advance.succ {bound : Nat} {output : Bytes} (h : output.length < bound)
    {rest : List Bytes} {k : Nat} (hrest : Advance (bound - output.length) rest k) :
    Advance bound (output :: rest) (k + 1) := by
  have htotal : ∀ j, ((output :: rest).take (j + 1)).flatten.length =
      output.length + (rest.take j).flatten.length := by
    intro j
    rw [List.take_succ_cons, List.flatten_cons, List.length_append]
  rcases hrest with ⟨⟨hpos, hle, hreach⟩, hleast⟩ | ⟨hnone, rfl⟩
  · refine .inl ⟨⟨by omega, by simpa using hle, by rw [htotal]; omega⟩, ?_⟩
    rintro j ⟨hj, hjle, hjreach⟩
    obtain ⟨j, rfl⟩ : ∃ j', j = j' + 1 := ⟨j - 1, by omega⟩
    rw [htotal] at hjreach
    rw [List.length_cons] at hjle
    -- the first chunk alone does not reach the bound
    have hj1 : 1 ≤ j := by
      by_contra hzero
      obtain rfl : j = 0 := by omega
      simp at hjreach
      omega
    have hkj := hleast ⟨hj1, by omega, by omega⟩
    omega
  · refine .inr ⟨fun j hj hjle => ?_, by simp⟩
    obtain ⟨j, rfl⟩ : ∃ j', j = j' + 1 := ⟨j - 1, by omega⟩
    rw [htotal]
    rw [List.length_cons] at hjle
    by_cases hzero : j = 0
    · subst hzero
      simpa using h
    · have hlt := hnone j (by omega) (by omega)
      omega

/-- **How many chunks the loop takes.** -/
theorem advance_cut {n bytesSent : Nat} (h : bytesSent ≤ n) (chunks : List Bytes) :
    Advance (n - bytesSent) chunks (cut (some (n : Int)) bytesSent chunks).1.length := by
  induction chunks generalizing bytesSent with
  | nil =>
      refine .inr ⟨fun j hj hjle => ?_, rfl⟩
      rw [List.length_nil] at hjle
      omega
  | cons output rest ih =>
      unfold cut
      rw [clamp_natCast h]
      by_cases hstop : some ((bytesSent + (output.take (n - bytesSent)).length : Nat) : Int) =
          some (n : Int)
      · have hfull : bytesSent + (output.take (n - bytesSent)).length = n := by
          exact_mod_cast Option.some.inj hstop
        rw [List.length_take] at hfull
        simp only [if_pos hstop]
        exact .one (by omega) rest
      · have hopen : bytesSent + (output.take (n - bytesSent)).length ≠ n := fun heq =>
          hstop (by rw [heq])
        have hrest := ih (bytesSent_le h output)
        rw [List.length_take] at hopen
        have hlength : (output.take (n - bytesSent)).length = output.length := by
          rw [List.length_take]
          omega
        simp only [if_neg hstop, List.length_cons]
        rw [hlength] at hrest ⊢
        rw [show n - (bytesSent + output.length) = n - bytesSent - output.length by omega] at hrest
        exact .succ (by omega) hrest

/-- Without a length all chunks are sent as they are. -/
theorem cut_none (bytesSent : Nat) (chunks : List Bytes) :
    cut none bytesSent chunks = (chunks, false) := by
  induction chunks generalizing bytesSent with
  | nil => rfl
  | cons output rest ih =>
      unfold cut
      simp only [ih]
      rfl

/-! ## Whole runs -/

/-- If all calls return, the length in the end is that of the last one, or was there before. -/
theorem responseContentLength_opening {s₁ : Instance} (h : app.opening i self = .ok s₁)
    (hcalls : ∀ p ∈ app.callsBefore i self, p.2.isOk = true) :
    (app.lastReturned i self = none ∧ s₁ = self) ∨
      ∃ call, app.lastReturned i self = some call ∧
        s₁.responseContentLength = declared i call := by
  induction app generalizing self with
  | stop =>
      cases h
      exact .inl ⟨rfl, rfl⟩
  | raise e => cases h
  | yield output next =>
      cases h
      exact .inl ⟨rfl, rfl⟩
  | startResponse call next ih =>
      rw [App.callsBefore, List.forall_mem_cons] at hcalls
      obtain ⟨hok, hrest⟩ := hcalls
      rw [lastReturned_startResponse, if_pos hok]
      refine .inr ?_
      rcases ih _ h hrest with ⟨hnone, rfl⟩ | ⟨call', hlast, hlength⟩
      · rw [hnone, Option.none_or]
        exact ⟨call, rfl, (startResponse_ok hok).2.2⟩
      · rw [hlast]
        exact ⟨call', rfl, hlength⟩

/-- What clamping to a length means: the bytes that are sent, and the number of chunks taken. -/
def Clamped (length : Option Nat) (chunks : List Bytes) (r : Response) : Prop :=
  match length with
  | none => (bodies r.sent).flatten = chunks.flatten ∧ r.advanced = chunks.length
  | some n => (bodies r.sent).flatten = chunks.flatten.take n ∧ Advance n chunks r.advanced

/-- Sending the chunks as they are cut is clamping. -/
theorem Clamped.of_cut {length : Option Nat} {chunks : List Bytes} {r : Response}
    (hbodies : bodies r.sent = (cut (length.map Int.ofNat) 0 chunks).1)
    (hadvanced : r.advanced = (cut (length.map Int.ofNat) 0 chunks).1.length) :
    Clamped length chunks r := by
  cases length with
  | none =>
      rw [Option.map_none, cut_none] at hbodies hadvanced
      exact ⟨congrArg List.flatten hbodies, hadvanced⟩
  | some n =>
      constructor
      · rw [hbodies]
        exact flatten_cut (Nat.zero_le n) chunks
      · rw [hadvanced]
        exact advance_cut (Nat.zero_le n) chunks

/-- **The body is clamped.** If all calls before the first chunk return normally, and the last of
them declares no length or a natural one, the bytes that are sent are those of all chunks, or the
first so many of them; and the iterable is advanced for all chunks, or for the least positive number
of chunks whose total length reaches the declared one. -/
theorem clamped {Environ : Type*} (i : Interpreter) (environ : Environ)
    (application : Environ → App) {call : Call} {length : Option Nat}
    (hcalls : ∀ p ∈ (application environ).callsBefore i .new, p.2.isOk = true)
    (hlast : (application environ).lastReturned i .new = some call)
    (hlength : declared i call = length.map Int.ofNat) :
    Clamped length ((application environ).chunks i .new)
      (runWsgiApp i (.ok environ) application .new) := by
  show Clamped length _ (loop i (application environ) .new 0)
  generalize application environ = app at hcalls hlast ⊢
  cases described (i := i) app (show Instance.new.responseStarted = false from rfl) with
  | raising e _ hchunks hsent hadvanced _ =>
      rw [hchunks]
      exact .of_cut (by rw [hsent]; rfl) hadvanced
  | unanswered s₁ hopening hstart _ _ =>
      rcases responseStart_opening hopening with ⟨hnone, -⟩ | ⟨call', -, hsome, hbuilt⟩
      · rw [hnone] at hlast
        cases hlast
      · rw [← hbuilt, hstart] at hsome
        cases hsome
  | answered s₁ message hopening _ hsent hadvanced _ =>
      have hs₁ : s₁.responseContentLength = length.map Int.ofNat := by
        rcases responseContentLength_opening hopening hcalls with ⟨hnone, -⟩ | ⟨call', hlast', heq⟩
        · rw [hnone] at hlast
          cases hlast
        · rw [hlast] at hlast'
          cases hlast'
          rw [heq, hlength]
      rw [hs₁] at hsent hadvanced
      exact .of_cut (by rw [hsent, bodies_answer]) hadvanced

/-- Five bytes are declared, and the second of three chunks goes beyond them. -/
def threeChunks : App :=
  .startResponse (callWith "5" none) fun _ =>
    .yield [1, 2, 3] <| .yield [4, 5, 6] <| .yield [7] .stop

theorem clamped_threeChunks :
    Clamped (some 5) [[1, 2, 3], [4, 5, 6], [7]]
      (runWsgiApp .ascii (.ok ()) (fun _ => threeChunks) .new) :=
  clamped .ascii () (fun _ => threeChunks) (by decide) (show _ = some (callWith "5" none) from rfl)
    rfl

end Asgiref.Wsgi
