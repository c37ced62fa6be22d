import Asgiref.Wsgi.Response

/-! # Sends that raise

`sync_send` may raise, for one because the client has gone. Nothing in `run_wsgi_app` catches that.

* **`Send`** — which sends raise, and **`Send.all`** — messages that are sent one after the other.
* **`loopWith`**, **`runWsgiAppWith`** — the loop and the function, with such a `sync_send`.
* **`chunksFor`** — how far the iterable was advanced where a message was not sent.
* **`cut_off`** — a send that raises cuts the response off, and changes nothing of what was sent
  before. -/

namespace Asgiref.Wsgi

variable (i : Interpreter)

/-- What `sync_send` raises, if anything, for a message after these ones. -/
abbrev Send := List Message → Message → Option Error

/-- Some messages are sent one after the other, until one raises: those that were sent, and the
exception. -/
def Send.all (send : Send) : List Message → List Message → List Message × Option Error
  | _, [] => ([], none)
  | before, message :: rest =>
      match send before message with
      | some e => ([], some e)
      | none =>
          let (sent, raised) := send.all (before ++ [message]) rest
          (message :: sent, raised)

/-! ## The function -/

/-- After the loop: the connection is closed. -/
def closeWith (send : Send) (self : Instance) (before : List Message) : Response :=
  match (sendStart self).2 with
  | .error e => ⟨[], (sendStart self).1, 0, some e⟩
  | .ok messages =>
      let (sent, raised) := send.all before (messages ++ [.body none none])
      ⟨sent, (sendStart self).1, 0, raised⟩

/-- The loop over the iterable, and what comes after it; these messages were sent before. -/
def loopWith (send : Send) : App → Instance → Nat → List Message → Response
  | .stop, self, _, before => closeWith send self before
  | .raise e, self, _, _ => ⟨[], self, 0, some e⟩
  | .startResponse call next, self, bytesSent, before =>
      loopWith send (next (startResponse i self call).2) (startResponse i self call).1 bytesSent
        before
  | .yield output next, self, bytesSent, before =>
      match (sendStart self).2 with
      | .error e => ⟨[], (sendStart self).1, 1, some e⟩
      | .ok messages =>
          let output' := clamp self.responseContentLength bytesSent output
          match send.all before (messages ++ [.body (some output') (some true)]) with
          | (sent, some e) => ⟨sent, (sendStart self).1, 1, some e⟩
          | (sent, none) =>
              let bytesSent' := bytesSent + output'.length
              let rest :=
                if some (bytesSent' : Int) = self.responseContentLength then
                  closeWith send (sendStart self).1 (before ++ sent)
                else loopWith send next (sendStart self).1 bytesSent' (before ++ sent)
              { rest with sent := sent ++ rest.sent, advanced := rest.advanced + 1 }

/-- `run_wsgi_app`. -/
def runWsgiAppWith {Environ : Type*} (send : Send) (environ : Except Error Environ)
    (application : Environ → App) (self : Instance) : Response :=
  match environ with
  | .ok environ => loopWith i send (application environ) self 0 []
  | .error e =>
      if e.isValueError then
        let (sent, raised) := send.all []
          [.start ⟨400, [("content-type".toUTF8.toList, "text/plain".toUTF8.toList)]⟩,
            .body (some "Bad Request: Too many duplicate headers".toUTF8.toList) none]
        ⟨sent, self, 0, raised⟩
      else ⟨[], self, 0, some e⟩

/-! ## A response that is cut off -/

/-- The message of a chunk. -/
def Message.isChunk : Message → Bool
  | .body _ (some true) => true
  | .body .. | .start _ => false

/-- The message that starts the response. -/
def Message.isStart : Message → Bool
  | .start _ => true
  | .body .. => false

/-- The number of chunks that the iterable was advanced for where only the first `n` of these
messages were sent: the chunks that were sent, and one more if the next message is of a chunk, or is
the start message that goes before one. -/
def chunksFor (messages : List Message) (n : Nat) : Nat :=
  (messages.take n).countP Message.isChunk +
    if ((messages.drop n).dropWhile Message.isStart).head?.any Message.isChunk then 1 else 0

/-- A response that is cut off at its first send that raises, if there is one. -/
structure CutOff (send : Send) (before : List Message) (whole cut : Response) : Prop where
  sent : cut.sent = (send.all before whole.sent).1
  raised : cut.raised = (send.all before whole.sent).2.or whole.raised
  advanced : (send.all before whole.sent).2 ≠ none →
    cut.advanced = chunksFor whole.sent cut.sent.length
  advanced_le : cut.advanced ≤ whole.advanced
  unharmed : (send.all before whole.sent).2 = none → cut = whole

variable {i} {send : Send} {before : List Message}

theorem all_cons (m : Message) (rest : List Message) :
    send.all before (m :: rest) =
      match send before m with
      | some e => ([], some e)
      | none => (m :: (send.all (before ++ [m]) rest).1, (send.all (before ++ [m]) rest).2) := rfl

/-- What comes after some messages is sent if they were. -/
theorem all_append (xs ys : List Message) :
    send.all before (xs ++ ys) =
      match send.all before xs with
      | (sent, some e) => (sent, some e)
      | (sent, none) =>
          (sent ++ (send.all (before ++ sent) ys).1, (send.all (before ++ sent) ys).2) := by
  induction xs generalizing before with
  | nil =>
      show _ = ([] ++ (send.all (before ++ []) ys).1, (send.all (before ++ []) ys).2)
      rw [List.append_nil]
      rfl
  | cons m xs ih =>
      rw [List.cons_append, all_cons, all_cons]
      cases send before m with
      | some e => rfl
      | none =>
          simp only
          rw [ih]
          cases hall : send.all (before ++ [m]) xs with
          | mk sent raised =>
              cases raised with
              | some e => rfl
              | none =>
                  have hbefore : before ++ [m] ++ sent = before ++ m :: sent := by simp
                  simp only [hbefore, List.cons_append]

/-- Messages that were all sent. -/
theorem all_fst {messages : List Message} (h : (send.all before messages).2 = none) :
    (send.all before messages).1 = messages := by
  induction messages generalizing before with
  | nil => rfl
  | cons m messages ih =>
      rw [all_cons] at h ⊢
      cases hsend : send before m with
      | some e =>
          rw [hsend] at h
          cases h
      | none =>
          rw [hsend] at h
          simp only at h ⊢
          rw [ih h]

/-- Messages of which one was not sent. -/
theorem all_take {messages : List Message} (h : (send.all before messages).2 ≠ none) :
    ∃ n < messages.length, (send.all before messages).1 = messages.take n := by
  induction messages generalizing before with
  | nil => exact absurd rfl h
  | cons m messages ih =>
      rw [all_cons] at h ⊢
      cases hsend : send before m with
      | some e => exact ⟨0, Nat.succ_pos _, rfl⟩
      | none =>
          rw [hsend] at h
          obtain ⟨n, hn, htake⟩ := ih h
          exact ⟨n + 1, Nat.succ_lt_succ hn, by rw [List.take_succ_cons, ← htake]⟩

/-- The chunks of messages that were all sent, and of those after them. -/
theorem chunksFor_append (xs ys : List Message) (n : Nat) :
    chunksFor (xs ++ ys) (xs.length + n) = xs.countP Message.isChunk + chunksFor ys n := by
  rw [chunksFor, chunksFor, List.take_length_add_append, List.drop_length_add_append,
    List.countP_append, Nat.add_assoc]

/-- There are none in the messages that close a response. -/
theorem chunksFor_closing {messages : List Message} (h : ∀ m ∈ messages, m.isChunk = false)
    (n : Nat) : chunksFor messages n = 0 := by
  have hsent : (messages.take n).countP Message.isChunk = 0 :=
    List.countP_eq_zero.mpr fun m hm => by simp [h m (List.mem_of_mem_take hm)]
  rw [chunksFor, hsent, Nat.zero_add]
  refine if_neg fun hany => ?_
  obtain ⟨m, hm, hchunk⟩ := (Option.any_eq_true _ _).mp hany
  have hmem := (List.dropWhile_sublist _).subset (List.mem_of_head? hm)
  rw [h m (List.mem_of_mem_drop hmem)] at hchunk
  cases hchunk

/-- The messages of one turn of the loop: that of the chunk, and the start message before it if the
response had not started. -/
inductive Turn : List Message → Prop
  | chunk (output : Bytes) : Turn [.body (some output) (some true)]
  | started (message : Start) (output : Bytes) :
      Turn [.start message, .body (some output) (some true)]

/-- A turn has one chunk. -/
theorem Turn.countP {messages : List Message} (h : Turn messages) :
    messages.countP Message.isChunk = 1 := by
  cases h with
  | chunk output => rfl
  | started message output => rfl

/-- The iterable was advanced for it, whichever of its messages was not sent. -/
theorem Turn.chunksFor {messages : List Message} (h : Turn messages) (rest : List Message) {n : Nat}
    (hn : n < messages.length) : chunksFor (messages ++ rest) n = 1 := by
  cases h with
  | chunk output =>
      obtain rfl : n = 0 := Nat.lt_one_iff.mp hn
      rfl
  | started message output =>
      rcases n with _ | _ | n
      · rfl
      · rfl
      · exact absurd hn (by simp)

/-- What starts the response is its start message, or nothing if it has started. -/
theorem sendStart_messages {self : Instance} {messages : List Message}
    (h : (sendStart self).2 = .ok messages) :
    messages = [] ∨ ∃ message, messages = [.start message] := by
  unfold sendStart at h
  split at h
  · cases h
    exact .inl rfl
  · cases hstart : self.responseStart with
    | none => simp [hstart] at h
    | some message => exact .inr ⟨message, by simpa [hstart] using h.symm⟩

/-- The messages that go with a chunk. -/
theorem turn_of_sendStart {self : Instance} {messages : List Message}
    (h : (sendStart self).2 = .ok messages) (output : Bytes) :
    Turn (messages ++ [.body (some output) (some true)]) := by
  rcases sendStart_messages h with rfl | ⟨message, rfl⟩
  · exact .chunk output
  · exact .started message output

/-- A response that sends nothing. -/
theorem CutOff.of_silent {r : Response} (h : r.sent = []) : CutOff send before r r where
  sent := by rw [h]; rfl
  raised := by rw [h]; rfl
  advanced hraised := absurd (by rw [h]; rfl) hraised
  advanced_le := Nat.le_refl _
  unharmed _ := rfl

/-- A response that only sends, and no chunks. -/
theorem CutOff.of_sent {messages : List Message} (h : ∀ m ∈ messages, m.isChunk = false)
    (self : Instance) :
    CutOff send before ⟨messages, self, 0, none⟩
      ⟨(send.all before messages).1, self, 0, (send.all before messages).2⟩ where
  sent := rfl
  raised := (Option.or_none).symm
  advanced _ := (chunksFor_closing h _).symm
  advanced_le := Nat.le_refl _
  unharmed h := by
    simp only at h ⊢
    rw [all_fst h, h]

theorem cutOff_close (self : Instance) :
    CutOff send before (close self) (closeWith send self before) := by
  unfold close closeWith
  cases hstart : (sendStart self).2 with
  | error e => exact .of_silent rfl
  | ok messages =>
      refine .of_sent ?_ _
      rcases sendStart_messages hstart with rfl | ⟨message, rfl⟩
      · simp [Message.isChunk]
      · simp [Message.isChunk]

/-- Some messages are sent, and then the rest of the response. -/
theorem CutOff.send_rest {whole cut : Response} {messages : List Message} (hturn : Turn messages)
    (hsent : (send.all before messages).2 = none)
    (h : CutOff send (before ++ messages) whole cut) :
    CutOff send before
      { whole with sent := messages ++ whole.sent, advanced := whole.advanced + 1 }
      { cut with sent := messages ++ cut.sent, advanced := cut.advanced + 1 } := by
  have hall : send.all before (messages ++ whole.sent) =
      (messages ++ (send.all (before ++ messages) whole.sent).1,
        (send.all (before ++ messages) whole.sent).2) := by
    have hpair : send.all before messages = (messages, none) := Prod.ext (all_fst hsent) hsent
    rw [all_append, hpair]
  constructor
  · rw [hall, h.sent]
  · rw [hall]
    exact h.raised
  · intro hraised
    rw [hall] at hraised
    show cut.advanced + 1 = chunksFor (messages ++ whole.sent) (messages ++ cut.sent).length
    rw [List.length_append, chunksFor_append, hturn.countP, h.advanced hraised, Nat.add_comm]
  · exact Nat.succ_le_succ h.advanced_le
  · intro hnone
    rw [hall] at hnone
    rw [h.unharmed hnone]

/-- One of these messages is not sent. -/
theorem CutOff.stop_here {whole : Response} {messages : List Message} (hturn : Turn messages)
    {e : Error} (hraised : (send.all before messages).2 = some e) (self : Instance) :
    CutOff send before
      { whole with sent := messages ++ whole.sent, advanced := whole.advanced + 1 }
      ⟨(send.all before messages).1, self, 1, some e⟩ := by
  have hall : send.all before (messages ++ whole.sent) =
      ((send.all before messages).1, some e) := by
    have hpair : send.all before messages = ((send.all before messages).1, some e) :=
      Prod.ext rfl hraised
    rw [all_append, hpair]
  constructor
  · rw [hall]
  · rw [hall]
    rfl
  · intro _
    have hstopped : (send.all before messages).2 ≠ none := by
      rw [hraised]
      exact Option.some_ne_none e
    obtain ⟨n, hn, htake⟩ := all_take hstopped
    show 1 = chunksFor (messages ++ whole.sent) (send.all before messages).1.length
    rw [htake, List.length_take_of_le (Nat.le_of_lt hn), hturn.chunksFor _ hn]
  · exact Nat.succ_le_succ (Nat.zero_le _)
  · intro hnone
    rw [hall] at hnone
    cases hnone

/-- The induction is on the application. -/
theorem cutOff_loop (app : App) (self : Instance) (bytesSent : Nat) (before : List Message) :
    CutOff send before (loop i app self bytesSent) (loopWith i send app self bytesSent before) := by
  induction app generalizing self bytesSent before with
  | stop => exact cutOff_close self
  | raise e => exact .of_silent rfl
  | startResponse call next ih =>
      unfold loop loopWith
      exact ih _ _ _ _
  | yield output next ih =>
      unfold loop loopWith
      cases hstart : (sendStart self).2 with
      | error e => exact .of_silent rfl
      | ok messages =>
          simp only
          generalize clamp self.responseContentLength bytesSent output = output'
          have hturn := turn_of_sendStart hstart output'
          have hcons : ∀ rest, messages ++ Message.body (some output') (some true) :: rest =
              (messages ++ [.body (some output') (some true)]) ++ rest := fun rest => by simp
          rw [hcons]
          generalize messages ++ [Message.body (some output') (some true)] = messages' at hturn ⊢
          cases hall : send.all before messages' with
          | mk sent raised =>
              have hfst : (send.all before messages').1 = sent := by rw [hall]
              have hsnd : (send.all before messages').2 = raised := by rw [hall]
              cases raised with
              | some e =>
                  rw [← hfst]
                  exact .stop_here hturn hsnd _
              | none =>
                  obtain rfl : messages' = sent := by rw [← hfst, all_fst hsnd]
                  refine .send_rest hturn hsnd ?_
                  by_cases hdone : some ((bytesSent + output'.length : Nat) : Int) =
                      self.responseContentLength
                  · rw [if_pos hdone, if_pos hdone]
                    exact cutOff_close _
                  · rw [if_neg hdone, if_neg hdone]
                    exact ih _ _ _

/-- **A send that raises cuts the response off.** Up to the first send that raises, everything goes
as if none did; that exception is what `run_wsgi_app` raises, and the iterable was advanced for the
chunks that were sent, and for the one that this message is for, if it is for one. If no send
raises, the response is the whole one. -/
theorem cut_off {Environ : Type*} (send : Send) (environ : Except Error Environ)
    (application : Environ → App) (self : Instance) :
    CutOff send [] (runWsgiApp i environ application self)
      (runWsgiAppWith i send environ application self) := by
  cases environ with
  | ok environ => exact cutOff_loop _ _ _ _
  | error e =>
      unfold runWsgiApp runWsgiAppWith
      simp only
      by_cases he : e.isValueError = true
      · rw [if_pos he, if_pos he]
        exact .of_sent (by simp [Message.isChunk]) _
      · rw [if_neg he, if_neg he]
        exact .of_silent rfl

end Asgiref.Wsgi
