import Asgiref.Wsgi.StartResponse

/-! # What `run_wsgi_app` sends, in one formula

The loop and the application take turns. Their run comes down to four things that can be read off
the application: the instance when its first chunk (or its end) comes, its chunks, and how it ends.

* **`cut`** — the chunks as they are sent for a declared length, and whether the loop stops early.
* **`answer`** — the messages of a response with this start message, length, chunks and ending.
* **`described`** — each run sends nothing and raises, or sends such an answer. -/

namespace Asgiref.Wsgi

variable {i : Interpreter} {self : Instance} {app : App}

/-- The body messages of the loop. -/
def bodyMessages (bodies : List Bytes) : List Message :=
  bodies.map fun body => .body (some body) (some true)

/-- The message that ends a response. -/
def lastMessage : Message := .body none none

/-- The chunks as they are sent after so many bytes, and whether the loop is left because enough
data was sent. -/
def cut (contentLength : Option Int) : Nat → List Bytes → List Bytes × Bool
  | _, [] => ([], false)
  | bytesSent, output :: rest =>
      let output' := clamp contentLength bytesSent output
      if some ((bytesSent + output'.length : Nat) : Int) = contentLength then ([output'], true)
      else
        (output' :: (cut contentLength (bytesSent + output'.length) rest).1,
          (cut contentLength (bytesSent + output'.length) rest).2)

/-- The last message is sent if the loop is left early or the application ends without raising. -/
def closing (cut : List Bytes × Bool) (ending : Option Error) : List Message :=
  if cut.2 || ending.isNone then [lastMessage] else []

/-- A response with this start message, length, chunks and ending. -/
def answer (message : Start) (contentLength : Option Int) (chunks : List Bytes)
    (ending : Option Error) : List Message :=
  .start message ::
    (bodyMessages (cut contentLength 0 chunks).1 ++ closing (cut contentLength 0 chunks) ending)

/-! ## After the start message -/

/-- Once the response has started, every call raises and changes nothing. -/
theorem startResponse_of_started (h : self.responseStarted = true) (call : Call) :
    startResponse i self call = (self, .error (reraise call.excInfo)) := by
  unfold startResponse
  rw [if_pos h]

/-- A call does not start the response. -/
theorem responseStarted_startResponse (self : Instance) (call : Call) :
    (startResponse i self call).1.responseStarted = self.responseStarted := by
  by_cases hreach : ∃ message, Reaches i self call message
  · obtain ⟨message, hreach⟩ := hreach
    rcases startResponse_of_reaches hreach with ⟨e, -, hresult⟩ | ⟨-, hresult⟩
    · rw [hresult]
    · rw [hresult]
  · obtain ⟨e, hresult⟩ := startResponse_refused fun message h => hreach ⟨message, h⟩
    rw [hresult]

theorem sendStart_of_started (h : self.responseStarted = true) :
    sendStart self = (self, .ok []) := by
  unfold sendStart
  rw [if_pos h]

theorem sendStart_fst (h : self.responseStarted = false) :
    (sendStart self).1 = { self with responseStarted := true } := by
  unfold sendStart
  rw [if_neg (by rw [h]; decide)]

theorem sendStart_snd (h : self.responseStarted = false) :
    (sendStart self).2 = match self.responseStart with
      | some message => .ok [.start message]
      | none => .error (.attributeError "response_start") := by
  have hnot : ¬ self.responseStarted = true := by simp [h]
  exact congrArg Prod.snd (if_neg hnot)

/-- **After the start message** the loop sends the chunks as they are cut, and closes. -/
theorem loop_of_started (app : App) (h : self.responseStarted = true) (n : Nat) :
    (loop i app self n).sent =
        bodyMessages (cut self.responseContentLength n (app.chunks i self)).1 ++
          closing (cut self.responseContentLength n (app.chunks i self)) (app.ending i self) ∧
      (loop i app self n).advanced =
        (cut self.responseContentLength n (app.chunks i self)).1.length ∧
      (loop i app self n).raised =
        if (cut self.responseContentLength n (app.chunks i self)).2 then none
        else app.ending i self := by
  induction app generalizing n with
  | stop =>
      unfold loop close
      rw [sendStart_of_started h]
      exact ⟨rfl, rfl, rfl⟩
  | raise e => exact ⟨rfl, rfl, rfl⟩
  | startResponse call next ih =>
      unfold loop App.chunks App.ending
      -- the call raises and changes nothing
      rw [startResponse_of_started h]
      exact ih _ n
  | yield output next ih =>
      unfold loop App.chunks App.ending cut
      rw [sendStart_of_started h]
      obtain ⟨hsent, hadvanced, hraised⟩ :=
        ih (n + (clamp self.responseContentLength n output).length)
      by_cases hstop : some ((n + (clamp self.responseContentLength n output).length : Nat) : Int) =
          self.responseContentLength
      · simp only [if_pos hstop]
        unfold close
        rw [sendStart_of_started h]
        exact ⟨rfl, rfl, rfl⟩
      · simp only [if_neg hstop, List.nil_append]
        refine ⟨?_, ?_, hraised⟩
        · rw [hsent]
          rfl
        · rw [hadvanced]
          rfl

/-! ## The whole run -/

/-- **A run, described**: the application raises before anything is sent; or there is no start
message to send; or an answer is sent. -/
inductive Described (i : Interpreter) (app : App) (s : Instance) (r : Response) : Prop
  | raising (e : Error) (hopening : app.opening i s = .error e) (hchunks : app.chunks i s = [])
      (hsent : r.sent = []) (hadvanced : r.advanced = 0) (hraised : r.raised = some e)
  | unanswered (s₁ : Instance) (hopening : app.opening i s = .ok s₁)
      (hstart : s₁.responseStart = none) (hsent : r.sent = [])
      (hraised : r.raised = some (.attributeError "response_start"))
  | answered (s₁ : Instance) (message : Start) (hopening : app.opening i s = .ok s₁)
      (hstart : s₁.responseStart = some message)
      (hsent : r.sent = answer message s₁.responseContentLength (app.chunks i s) (app.ending i s))
      (hadvanced : r.advanced =
        (cut s₁.responseContentLength 0 (app.chunks i s)).1.length)
      (hraised : r.raised =
        if (cut s₁.responseContentLength 0 (app.chunks i s)).2 then none else app.ending i s)

/-- **Every run is described.** -/
theorem described (app : App) (h : self.responseStarted = false) :
    Described i app self (loop i app self 0) := by
  induction app generalizing self with
  | raise e => exact .raising e rfl rfl rfl rfl rfl
  | startResponse call next ih =>
      have hnot : (startResponse i self call).1.responseStarted = false :=
        (responseStarted_startResponse self call).trans h
      cases ih (startResponse i self call).2 hnot with
      | raising e hopening hchunks hsent hadvanced hraised =>
          exact .raising e hopening hchunks hsent hadvanced hraised
      | unanswered s₁ hopening hstart hsent hraised =>
          exact .unanswered s₁ hopening hstart hsent hraised
      | answered s₁ message hopening hstart hsent hadvanced hraised =>
          exact .answered s₁ message hopening hstart hsent hadvanced hraised
  | stop =>
      have hsend := sendStart_snd h
      cases hstart : self.responseStart with
      | none =>
          rw [hstart] at hsend
          refine .unanswered self rfl hstart ?_ ?_
          · simp [loop, close, hsend]
          · simp [loop, close, hsend]
      | some message =>
          rw [hstart] at hsend
          refine .answered self message rfl hstart ?_ ?_ ?_
          · simp [loop, close, hsend, answer, App.chunks, App.ending, cut, closing, bodyMessages,
              lastMessage]
          · simp [loop, close, hsend, App.chunks, cut]
          · simp [loop, close, hsend, App.chunks, App.ending, cut]
  | yield output next =>
      have hsend := sendStart_snd h
      cases hstart : self.responseStart with
      | none =>
          rw [hstart] at hsend
          refine .unanswered self rfl hstart ?_ ?_
          · simp [loop, hsend]
          · simp [loop, hsend]
      | some message =>
          rw [hstart] at hsend
          -- the first turn of the loop is one of a started response, after the start message
          have hstarted := loop_of_started (i := i) (.yield output next)
            (show ({ self with responseStarted := true } : Instance).responseStarted = true
              from rfl) 0
          have hsame : ({ self with responseStarted := true } : Instance) = (sendStart self).1 :=
            (sendStart_fst h).symm
          obtain ⟨hsent, hadvanced, hraised⟩ := hstarted
          have hchunks : App.chunks i (.yield output next) self =
              App.chunks i (.yield output next) { self with responseStarted := true } := by
            unfold App.chunks
            rw [sendStart_fst h, sendStart_of_started rfl]
          have hending : App.ending i (.yield output next) self =
              App.ending i (.yield output next) { self with responseStarted := true } := by
            unfold App.ending
            rw [sendStart_fst h, sendStart_of_started rfl]
          have hloop : loop i (.yield output next) self 0 =
              { loop i (.yield output next) { self with responseStarted := true } 0 with
                sent := .start message ::
                  (loop i (.yield output next) { self with responseStarted := true } 0).sent } := by
            unfold loop
            rw [hsend, sendStart_fst h, sendStart_of_started rfl]
            rfl
          refine .answered self message rfl hstart ?_ ?_ ?_
          · rw [hloop, hchunks, hending]
            show _ :: _ = _
            rw [hsent]
            rfl
          · rw [hloop, hchunks]
            exact hadvanced
          · rw [hloop, hchunks, hending]
            exact hraised

end Asgiref.Wsgi
