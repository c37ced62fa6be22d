import Asgiref.Lib.Machine
import Asgiref.Wsgi.Response
import Mathlib.Data.List.TakeWhile

/-! # `start_response`

A call sets `response_content_length` and `response_start` one after the other, and between the two
`int` may refuse a header.

* **`Reaches`** — the calls that get as far as their Content-Length headers, with the start message
  that they would set; the others change nothing (`startResponse_refused`).
* **`startResponse_of_reaches`** — what the calls do that get so far, with **`left`**, the length
  that the headers leave.
* **`Agreement`** — the length is that of the headers in the start message.
* **`agreement_iff`** — it holds all along, and calls that raise change nothing, for exactly those
  runs whose calls all are `Careful`. -/

namespace Asgiref.Wsgi

/-! ## The headers that declare the length -/

section Headers

variable (i : Interpreter)

/-- The values of the Content-Length headers. -/
def lengths (headers : List (Str × Str)) : List Str :=
  headers.filterMap fun h => if i.lowered h.1 = contentLengthName then some h.2 else none

/-- The length that the headers leave: that of the last one before the first that `int` refuses. -/
def left (headers : List (Str × Str)) : Option Int :=
  ((lengths i headers).takeWhile fun value => (i.int value).isSome).getLast?.bind i.int

/-- The value of the last Content-Length header of a start message. -/
def contentLength (headers : List (Bytes × Bytes)) : Option Str :=
  (headers.filterMap fun h =>
    if decodeAscii h.1 = contentLengthName then some (decodeAscii h.2) else none).getLast?

variable {i}

theorem lengths_cons (name value : Str) (rest : List (Str × Str)) :
    lengths i ((name, value) :: rest) =
      if i.lowered name = contentLengthName then value :: lengths i rest else lengths i rest := by
  unfold lengths
  by_cases hname : i.lowered name = contentLengthName
  · simp [hname]
  · simp [hname]

/-- The last of the values that `int` takes, in front of others. -/
theorem lastInt_cons {value : Str} {k : Int} (hint : i.int value = some k) (values : List Str) :
    ((value :: values).takeWhile fun v => (i.int v).isSome).getLast?.bind i.int =
      ((values.takeWhile fun v => (i.int v).isSome).getLast?.bind i.int).or (some k) := by
  rw [List.takeWhile_cons, if_pos (by rw [hint]; rfl), List.getLast?_cons]
  cases hlast : (values.takeWhile fun v => (i.int v).isSome).getLast? with
  | none => exact hint
  | some v =>
      have htaken := List.mem_takeWhile_imp (List.mem_of_getLast? hlast)
      obtain ⟨m, hm⟩ := Option.isSome_iff_exists.mp htaken
      show i.int v = (i.int v).or (some k)
      rw [hm]
      rfl

/-- The loop ends early at a header that `int` refuses. -/
theorem readLengths_snd (n : Option Int) (headers : List (Str × Str)) :
    (readLengths i n headers).2 = none ↔ ∀ value ∈ lengths i headers, (i.int value).isSome := by
  induction headers generalizing n with
  | nil => simp [readLengths, lengths]
  | cons h rest ih =>
      obtain ⟨name, value⟩ := h
      unfold readLengths
      rw [lengths_cons]
      by_cases hname : i.lowered name = contentLengthName
      · rw [if_pos hname, if_pos hname, List.forall_mem_cons]
        cases hint : i.int value with
        | none => simp
        | some k => simp [ih]
      · rw [if_neg hname, if_neg hname, ih]

/-- What the loop leaves, or what it found if there is no header to read. -/
theorem readLengths_fst (n : Option Int) (headers : List (Str × Str)) :
    (readLengths i n headers).1 = (left i headers).or n := by
  induction headers generalizing n with
  | nil => rfl
  | cons h rest ih =>
      obtain ⟨name, value⟩ := h
      unfold readLengths left
      rw [lengths_cons]
      by_cases hname : i.lowered name = contentLengthName
      · rw [if_pos hname, if_pos hname]
        cases hint : i.int value with
        | none => simp [hint]
        | some k =>
            rw [lastInt_cons hint, Option.or_assoc]
            exact ih (some k)
      · rw [if_neg hname, if_neg hname]
        exact ih n

/-- If `int` takes all of them, the last one stays. -/
theorem left_of_forall {headers : List (Str × Str)}
    (h : ∀ value ∈ lengths i headers, (i.int value).isSome) :
    left i headers = (lengths i headers).getLast?.bind i.int := by
  unfold left
  rw [List.takeWhile_eq_self_iff.mpr h]

/-- The start message declares the lengths of the headers that it was built from. -/
theorem contentLength_encode {headers : List (Str × Str)} {hs : List (Bytes × Bytes)}
    (h : encodeHeaders i headers = some hs) : contentLength hs = (lengths i headers).getLast? := by
  unfold contentLength
  congr 1
  induction headers generalizing hs with
  | nil =>
      cases h
      rfl
  | cons header rest ih =>
      obtain ⟨name, value⟩ := header
      unfold encodeHeaders at h
      split at h
      · rename_i n v hs' hn hv hrest
        cases h
        have htail := ih hrest
        simp only [lengths, List.filterMap_cons, decodeAscii_encodeAscii hn,
          decodeAscii_encodeAscii hv] at htail ⊢
        rw [htail]
      · cases h

end Headers

/-! ## One call -/

section OneCall

variable (i : Interpreter)

/-- The call gets as far as its Content-Length headers, with the start message that it would set. -/
structure Reaches (s : Instance) (call : Call) (message : Start) : Prop where
  started : s.responseStarted = false
  allowed : (s.responseStart.isSome && call.excInfo.isNone) = false
  status : statusCode i call.status = .ok message.status
  headers : encodeHeaders i call.responseHeaders = some message.headers

variable {i} {self : Instance} {call : Call}

/-- A call that does not get so far raises, and changes nothing. -/
theorem startResponse_refused (h : ∀ message, ¬ Reaches i self call message) :
    ∃ e, startResponse i self call = (self, .error e) := by
  unfold startResponse
  split
  · exact ⟨_, rfl⟩
  · rename_i hstarted
    split
    · exact ⟨_, rfl⟩
    · rename_i hallowed
      cases hstatus : statusCode i call.status with
      | error e => exact ⟨_, rfl⟩
      | ok status =>
          cases hheaders : encodeHeaders i call.responseHeaders with
          | none => exact ⟨_, rfl⟩
          | some headers =>
              refine absurd ?_ (h ⟨status, headers⟩)
              rw [Bool.not_eq_true] at hstarted hallowed
              exact ⟨hstarted, hallowed, hstatus, hheaders⟩

/-- A call that gets so far sets the length that its headers leave, and the start message if `int`
takes all of them. -/
theorem startResponse_of_reaches {message : Start} (h : Reaches i self call message) :
    (∃ e, (¬ ∀ value ∈ lengths i call.responseHeaders, (i.int value).isSome) ∧
        startResponse i self call =
          ({ self with responseContentLength := left i call.responseHeaders }, .error e)) ∨
      (∀ value ∈ lengths i call.responseHeaders, (i.int value).isSome) ∧
        startResponse i self call = ({ self with
          responseContentLength := left i call.responseHeaders
          responseStart := some message }, .ok ()) := by
  have hfst := readLengths_fst (i := i) none call.responseHeaders
  have hsnd := readLengths_snd (i := i) none call.responseHeaders
  rw [Option.or_none] at hfst
  unfold startResponse
  rw [if_neg (by rw [h.started]; decide), if_neg (by rw [h.allowed]; decide), h.status, h.headers]
  cases hread : readLengths i none call.responseHeaders with
  | mk length raised =>
      rw [hread] at hfst hsnd
      subst hfst
      cases raised with
      | none => exact .inr ⟨hsnd.mp rfl, rfl⟩
      | some e =>
          refine .inl ⟨e, fun hall => ?_, rfl⟩
          have hnone := hsnd.mpr hall
          cases hnone

end OneCall

/-! ## Agreement along runs -/

section Runs

variable (i : Interpreter)

/-- The length is that of the last Content-Length header of the start message, a natural number, or
`None` if there is no such header. -/
def Agreement (self : Instance) : Prop :=
  ∀ message, self.responseStart = some message →
    (contentLength message.headers = none → self.responseContentLength = none) ∧
      ∀ value, contentLength message.headers = some value →
        ∃ n : Nat, self.responseContentLength = some (n : Int) ∧ i.int value = some (n : Int)

/-- What can happen to the instance: a call, or the start of the response. -/
inductive Action
  | call (call : Call)
  | begin

/-- The instance of one request. -/
def machine : Machine Instance Action where
  step self
    | .call call => some (startResponse i self call).1
    | .begin => some (sendStart self).1

/-- A call that raises changes neither the start message nor the length. -/
def RaisingKeeps (self : Instance) (a : Action) (self' : Instance) : Prop :=
  ∀ call e, a = .call call → (startResponse i self call).2 = .error e →
    self'.responseStart = self.responseStart ∧
      self'.responseContentLength = self.responseContentLength

/-- A call that gets as far as its Content-Length headers has only integers there, the last of them
not negative; or else those before the first that `int` refuses leave the length as it is. -/
def Careful (self : Instance) : Action → Prop
  | .begin => True
  | .call call => ∀ message, Reaches i self call message →
      ((∀ value ∈ lengths i call.responseHeaders, (i.int value).isSome) →
        ∀ n, left i call.responseHeaders = some n → 0 ≤ n) ∧
      ((¬ ∀ value ∈ lengths i call.responseHeaders, (i.int value).isSome) →
        left i call.responseHeaders = self.responseContentLength)

variable {i} {self self' : Instance}

/-- A start message with its own length agrees with it exactly if the length is not negative. -/
theorem agreement_iff_nonneg {call : Call} {message : Start}
    (hheaders : encodeHeaders i call.responseHeaders = some message.headers)
    (hall : ∀ value ∈ lengths i call.responseHeaders, (i.int value).isSome) (started : Bool) :
    Agreement i ⟨started, left i call.responseHeaders, some message⟩ ↔
      ∀ n, left i call.responseHeaders = some n → 0 ≤ n := by
  have hleft := left_of_forall hall
  have hlength := contentLength_encode hheaders
  constructor
  · intro hagree n hn
    obtain ⟨-, hsome⟩ := hagree message rfl
    rw [hleft, ← hlength] at hn
    obtain ⟨value, hvalue, hint⟩ := Option.bind_eq_some_iff.mp hn
    obtain ⟨m, -, hm⟩ := hsome value hvalue
    rw [hint] at hm
    cases hm
    exact Int.natCast_nonneg m
  · intro hnonneg message' hmessage
    cases hmessage
    refine ⟨fun hnone => ?_, fun value hvalue => ?_⟩
    · show left i call.responseHeaders = none
      rw [hleft, ← hlength, hnone]
      rfl
    · rw [hlength] at hvalue
      obtain ⟨n, hn⟩ := Option.isSome_iff_exists.mp (hall value (List.mem_of_getLast? hvalue))
      have hl : left i call.responseHeaders = some n := by
        rw [hleft, hvalue]
        exact hn
      have hcast : ((n.toNat : Nat) : Int) = n := Int.toNat_of_nonneg (hnonneg n hl)
      exact ⟨n.toNat, by rw [hcast]; exact hl, by rw [hcast]; exact hn⟩

/-- **One step.** From an instance in agreement a step keeps the agreement, and does not change
anything if it raises, exactly if it is careful. -/
theorem careful_iff (hagree : Agreement i self) {a : Action}
    (hstep : (machine i).step self a = some self') :
    Agreement i self' ∧ RaisingKeeps i self a self' ↔ Careful i self a := by
  cases a with
  | begin =>
      cases hstep
      refine iff_of_true ⟨?_, fun call e ha => by cases ha⟩ trivial
      unfold sendStart
      split
      · exact hagree
      · exact hagree
  | call call =>
      cases hstep
      by_cases hreach : ∃ message, Reaches i self call message
      · obtain ⟨message, hreach⟩ := hreach
        have honly : ∀ message', Reaches i self call message' → message' = message := by
          intro message' hreach'
          have hstatus := hreach'.status.symm.trans hreach.status
          have hheaders := hreach'.headers.symm.trans hreach.headers
          cases message
          cases message'
          cases hstatus
          cases hheaders
          rfl
        rcases startResponse_of_reaches hreach with ⟨e, hnot, hresult⟩ | ⟨hall, hresult⟩
        · -- `int` refuses a header, and the length is that of the headers before it
          have hcareful : Careful i self (.call call) ↔
              left i call.responseHeaders = self.responseContentLength :=
            ⟨fun h => (h message hreach).2 hnot,
              fun h _ _ => ⟨fun hall => absurd hall hnot, fun _ => h⟩⟩
          rw [hcareful, hresult]
          constructor
          · rintro ⟨-, hkeep⟩
            exact (hkeep call e rfl (by rw [hresult])).2
          · intro hleft
            refine ⟨?_, fun _ _ _ _ => ⟨rfl, hleft⟩⟩
            rw [hleft]
            exact hagree
        · -- the call returns, and its start message comes with its own length
          have hcareful : Careful i self (.call call) ↔
              ∀ n, left i call.responseHeaders = some n → 0 ≤ n :=
            ⟨fun h => (h message hreach).1 hall,
              fun h _ _ => ⟨fun _ => h, fun hnot => absurd hall hnot⟩⟩
          rw [hcareful, hresult, ← agreement_iff_nonneg hreach.headers hall self.responseStarted]
          refine and_iff_left fun call' e ha he => ?_
          cases ha
          rw [hresult] at he
          cases he
      · have hnone : ∀ message, ¬ Reaches i self call message :=
          fun message h => hreach ⟨message, h⟩
        obtain ⟨e, hresult⟩ := startResponse_refused hnone
        rw [hresult]
        exact iff_of_true ⟨hagree, fun _ _ _ _ => ⟨rfl, rfl⟩⟩
          fun message h => absurd h (hnone message)

/-- **When the length and the headers agree.** In every state of a run the length is that of the
headers in the start message, and every call that raises leaves both as they were, if and only if
every call of the run is careful. -/
theorem agreement_iff {as : List Action} (h : (machine i).Run Machine.Any .new as self) :
    (machine i).Always (Agreement i) .new as ∧ (machine i).Along (RaisingKeeps i) .new as ↔
      (machine i).Run (Careful i) .new as self := by
  have hnew : Agreement i .new := fun message hmessage => by cases hmessage
  exact h.along_iff (J := fun _ => True) (fun _ _ _ => trivial) hnew
    fun _ _ _ _ hagree hstep => careful_iff hagree hstep

/-- A call with one Content-Length header. -/
def callWith (length : String) (excInfo : Option (Option Error)) : Call :=
  ⟨"200 OK".toList, [("Content-Length".toList, length.toList)], excInfo⟩

/-- A call that declares five bytes is careful. -/
theorem agreement_iff_oneCall :
    ∃ self, (machine .ascii).exec .new [.call (callWith "5" none)] = some self ∧
      self.responseContentLength = some 5 ∧
      (machine .ascii).Always (Agreement .ascii) .new [.call (callWith "5" none)] ∧
      (machine .ascii).Along (RaisingKeeps .ascii) .new [.call (callWith "5" none)] := by
  have hleft : left .ascii (callWith "5" none).responseHeaders = some 5 := rfl
  have hall : ∀ value ∈ lengths .ascii (callWith "5" none).responseHeaders,
      (Interpreter.ascii.int value).isSome := by decide
  have hcareful : Careful .ascii .new (.call (callWith "5" none)) := by
    refine fun _ _ => ⟨fun _ n hn => ?_, fun hnot => absurd hall hnot⟩
    rw [hleft] at hn
    cases hn
    decide
  have hrun : (machine .ascii).Run (Careful .ascii) .new [.call (callWith "5" none)] _ :=
    .single hcareful rfl
  exact ⟨_, rfl, rfl, (agreement_iff (Machine.exec_run rfl)).mpr hrun⟩

/-- A call that declares five bytes, and one, with `exc_info`, whose length `int` refuses. -/
def refusedSecond : List Action :=
  [.call (callWith "5" none), .call (callWith "x" (some (some (.other 0))))]

/-- The start message declares five bytes, and there is no length. And a single call with a negative
length is accepted. -/
theorem refusedSecond_not_agreement :
    (∃ self, (machine .ascii).exec .new refusedSecond = some self ∧
      self.responseContentLength = none ∧ ¬ Agreement .ascii self) ∧
    ∃ self, (machine .ascii).exec .new [.call (callWith "-5" none)] = some self ∧
      self.responseContentLength = some (-5) ∧ ¬ Agreement .ascii self := by
  refine ⟨⟨_, rfl, rfl, fun h => ?_⟩, ⟨_, rfl, rfl, fun h => ?_⟩⟩
  · obtain ⟨n, hn, -⟩ := (h _ rfl).2 "5".toList (by decide)
    cases hn
  · obtain ⟨n, hn, -⟩ := (h _ rfl).2 "-5".toList (by decide)
    cases hn

end Runs

end Asgiref.Wsgi
