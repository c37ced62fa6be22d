import Asgiref.Wsgi.Description

/-! # The grammar of WSGI responses

Whatever the application does, what `run_wsgi_app` sends is a start message, body messages and a
last one, or breaks off where an exception comes out; and the start message is that of the last
`start_response` call that returned before the first chunk.

The length is another matter. A later call that raises may have changed `response_content_length`
before it raised, and the chunks are then cut to that.

* **`Grammatical`** — the grammar.
* **`App.lastReturned`** — the call that counts, with **`built`**, its start message, and
  **`declared`**, its length.
* **`Determined`** — what is sent is the answer to that call.
* **`Alike`** — two lengths cut the chunks in the same way.
* **`response_grammar`** — the first two always hold, and the third if and only if the length that
  is there when the first chunk comes cuts the chunks like the declared one. -/

namespace Asgiref.Wsgi

variable {i : Interpreter} {self : Instance} {app : App}

/-! ## The grammar -/

/-- A complete response. -/
def Complete (messages : List Message) : Prop :=
  ∃ message bodies, messages = .start message :: (bodyMessages bodies ++ [lastMessage])

/-- What was sent begins a complete response, and is one exactly if nothing was raised. -/
structure Grammatical (r : Response) : Prop where
  begins : ∃ full, Complete full ∧ r.sent <+: full
  complete : Complete r.sent ↔ r.raised = none

/-- The bodies in a list of messages. -/
def bodies (messages : List Message) : List Bytes :=
  messages.filterMap fun
    | .start _ => none
    | .body body _ => body

theorem bodies_answer (message : Start) (contentLength : Option Int) (chunks : List Bytes)
    (ending : Option Error) :
    bodies (answer message contentLength chunks ending) = (cut contentLength 0 chunks).1 := by
  unfold answer
  generalize cut contentLength 0 chunks = c
  have hbodies : ∀ bs : List Bytes, bodies (bodyMessages bs) = bs := by
    intro bs
    induction bs with
    | nil => rfl
    | cons b bs ih => exact congrArg (b :: ·) ih
  have hclosing : bodies (closing c ending) = [] := by
    unfold closing
    split
    · rfl
    · rfl
  show bodies (_ ++ _) = _
  unfold bodies at hbodies hclosing ⊢
  rw [List.filterMap_append, hbodies, hclosing, List.append_nil]

/-- The last message is no body message of the loop. -/
theorem lastMessage_notMem (bs : List Bytes) : lastMessage ∉ bodyMessages bs := by
  simp [lastMessage, bodyMessages]

/-- An answer is complete exactly if it has its last message. -/
theorem complete_answer_iff (message : Start) (contentLength : Option Int) (chunks : List Bytes)
    (ending : Option Error) :
    Complete (answer message contentLength chunks ending) ↔
      ((cut contentLength 0 chunks).2 || ending.isNone) = true := by
  unfold answer closing
  constructor
  · rintro ⟨message', bs, heq⟩
    by_contra hopen
    -- without a last message the answer ends in a body message of the loop
    rw [if_neg hopen, List.append_nil] at heq
    have hmem : lastMessage ∈ bodyMessages (cut contentLength 0 chunks).1 := by
      rw [(List.cons.inj heq).2]
      simp
    exact lastMessage_notMem _ hmem
  · intro hclosed
    rw [if_pos hclosed]
    exact ⟨message, _, rfl⟩

/-- **Every run follows the grammar.** -/
theorem grammatical {s : Instance} (app : App) (h : s.responseStarted = false) :
    Grammatical (loop i app s 0) := by
  have hempty : ∀ r : Response, r.sent = [] → r.raised ≠ none → Grammatical r := by
    intro r hsent hraised
    refine ⟨⟨[.start ⟨0, []⟩, lastMessage], ⟨⟨0, []⟩, [], rfl⟩, ?_⟩, ?_⟩
    · rw [hsent]
      exact List.nil_prefix
    · rw [hsent]
      refine iff_of_false ?_ hraised
      rintro ⟨message, bs, heq⟩
      cases heq
  cases described (i := i) app h with
  | raising e _ _ hsent _ hraised => exact hempty _ hsent (by rw [hraised]; simp)
  | unanswered s₁ _ _ hsent hraised => exact hempty _ hsent (by rw [hraised]; simp)
  | answered s₁ message _ _ hsent _ hraised =>
      have hfull : Complete (.start message ::
          (bodyMessages (cut s₁.responseContentLength 0 (app.chunks i s)).1 ++ [lastMessage])) :=
        ⟨message, _, rfl⟩
      refine ⟨⟨_, hfull, ?_⟩, ?_⟩
      · rw [hsent]
        unfold answer closing
        split
        · exact List.prefix_refl _
        · rw [List.append_nil]
          exact List.prefix_append (Message.start message :: _) [lastMessage]
      · rw [hsent, hraised, complete_answer_iff]
        cases (cut s₁.responseContentLength 0 (app.chunks i s)).2 with
        | true => simp
        | false => simp

/-! ## The call that counts -/

variable (i) in
/-- The start message that a call builds. -/
def built (call : Call) : Option Start :=
  match statusCode i call.status, encodeHeaders i call.responseHeaders with
  | .ok status, some headers => some ⟨status, headers⟩
  | _, _ => none

variable (i) in
/-- The length that a call declares: that of its last Content-Length header. -/
def declared (call : Call) : Option Int := (lengths i call.responseHeaders).getLast?.bind i.int

variable (i) in
/-- The last call that returns normally before the first chunk or the end. -/
def App.lastReturned (app : App) (self : Instance) : Option Call :=
  ((app.callsBefore i self).filterMap fun p => if p.2.isOk then some p.1 else none).getLast?

/-- A call that returns sets its own start message and its own length. -/
theorem startResponse_ok {call : Call} (h : (startResponse i self call).2.isOk = true) :
    (startResponse i self call).1.responseStart = built i call ∧ (built i call).isSome ∧
      (startResponse i self call).1.responseContentLength = declared i call := by
  by_cases hreach : ∃ message, Reaches i self call message
  · obtain ⟨message, hreach⟩ := hreach
    have hbuilt : built i call = some message := by
      unfold built
      rw [hreach.status, hreach.headers]
    rcases startResponse_of_reaches hreach with ⟨e, -, hresult⟩ | ⟨hall, hresult⟩
    · rw [hresult] at h
      cases h
    · rw [hresult, hbuilt]
      exact ⟨rfl, rfl, left_of_forall hall⟩
  · obtain ⟨e, hresult⟩ := startResponse_refused fun message h => hreach ⟨message, h⟩
    rw [hresult] at h
    cases h

/-- A call that raises leaves the start message. -/
theorem startResponse_error {call : Call} (h : (startResponse i self call).2.isOk = false) :
    (startResponse i self call).1.responseStart = self.responseStart := by
  by_cases hreach : ∃ message, Reaches i self call message
  · obtain ⟨message, hreach⟩ := hreach
    rcases startResponse_of_reaches hreach with ⟨e, -, hresult⟩ | ⟨-, hresult⟩
    · rw [hresult]
    · rw [hresult] at h
      cases h
  · obtain ⟨e, hresult⟩ := startResponse_refused fun message h => hreach ⟨message, h⟩
    rw [hresult]

theorem lastReturned_startResponse (call : Call) (next : Except Error Unit → App)
    (self : Instance) :
    (App.startResponse call next).lastReturned i self =
      ((next (startResponse i self call).2).lastReturned i (startResponse i self call).1).or
        (if (startResponse i self call).2.isOk then some call else none) := by
  unfold App.lastReturned
  rw [App.callsBefore, List.filterMap_cons]
  cases (startResponse i self call).2.isOk with
  | false => simp
  | true =>
      simp only [if_true, List.getLast?_cons]
      generalize List.getLast? _ = last
      cases last with
      | none => rfl
      | some call' => rfl

/-- **The start message is that of the call that counts**, or was there before. -/
theorem responseStart_opening {s₁ : Instance} (h : app.opening i self = .ok s₁) :
    (app.lastReturned i self = none ∧ s₁.responseStart = self.responseStart) ∨
      ∃ call, app.lastReturned i self = some call ∧ (built i call).isSome ∧
        s₁.responseStart = built i call := by
  induction app generalizing self with
  | stop =>
      cases h
      exact .inl ⟨rfl, rfl⟩
  | raise e => cases h
  | yield output next =>
      cases h
      exact .inl ⟨rfl, rfl⟩
  | startResponse call next ih =>
      rw [lastReturned_startResponse]
      rcases ih _ h with ⟨hnone, hstart⟩ | ⟨call', hlast, hsome, hstart⟩
      · -- no later call returns, so this one counts if it returns
        rw [hnone, hstart, Option.none_or]
        cases hok : (startResponse i self call).2.isOk with
        | false => exact .inl ⟨rfl, startResponse_error hok⟩
        | true =>
            obtain ⟨hbuilt, hsome, -⟩ := startResponse_ok hok
            exact .inr ⟨call, rfl, hsome, hbuilt⟩
      · rw [hlast]
        exact .inr ⟨call', rfl, hsome, hstart⟩

/-! ## What later calls change -/

/-- Two lengths cut the chunks in the same way. Where the loop stops early matters only if the
application does not end normally. -/
def Alike (length length' : Option Int) (chunks : List Bytes) (ending : Option Error) : Prop :=
  (cut length 0 chunks).1 = (cut length' 0 chunks).1 ∧
    ((cut length 0 chunks).2 = (cut length' 0 chunks).2 ∨ ending = none)

/-- Answers with two lengths are the same exactly if the lengths cut the chunks in the same way. -/
theorem answer_eq_iff (message : Start) (length length' : Option Int) (chunks : List Bytes)
    (ending : Option Error) :
    answer message length chunks ending = answer message length' chunks ending ↔
      Alike length length' chunks ending := by
  have hclosing : ∀ c c' : List Bytes × Bool,
      closing c ending = closing c' ending ↔ c.2 = c'.2 ∨ ending = none := by
    rintro ⟨bs, b⟩ ⟨bs', b'⟩
    unfold closing
    cases ending with
    | none => simp
    | some e => cases b <;> cases b' <;> simp
  unfold Alike
  rw [← hclosing]
  constructor
  · intro heq
    have hbodies := congrArg bodies heq
    rw [bodies_answer, bodies_answer] at hbodies
    unfold answer at heq
    rw [hbodies] at heq
    exact ⟨hbodies, List.append_cancel_left (List.cons.inj heq).2⟩
  · rintro ⟨hbodies, hclose⟩
    unfold answer
    rw [hbodies, hclose]

variable (i) in
/-- Nothing is sent, or what is sent is the answer to the last call that returned normally before
the first chunk, whatever other calls came after it. -/
def Determined (app : App) (r : Response) : Prop :=
  r.sent = [] ∨ ∃ call message, app.lastReturned i .new = some call ∧ built i call = some message ∧
    r.sent = answer message (declared i call) (app.chunks i .new) (app.ending i .new)

/-- **The grammar, the start message, and what later calls change.** For every application: what is
sent follows the grammar; its start message is that of the last call that returned normally before
the first chunk; and no later call changes what is sent, if and only if the length that is there
when the first chunk (or the end) comes cuts the chunks like the one which that call declared. -/
theorem response_grammar {Environ : Type*} (i : Interpreter) (environ : Environ)
    (application : Environ → App) :
    Grammatical (runWsgiApp i (.ok environ) application .new) ∧
      (∀ message, .start message ∈ (runWsgiApp i (.ok environ) application .new).sent →
        ∃ call, (application environ).lastReturned i .new = some call ∧
          built i call = some message) ∧
      (Determined i (application environ) (runWsgiApp i (.ok environ) application .new) ↔
        ∀ s₁ call, (application environ).opening i .new = .ok s₁ →
          (application environ).lastReturned i .new = some call →
          Alike s₁.responseContentLength (declared i call) ((application environ).chunks i .new)
            ((application environ).ending i .new)) := by
  show Grammatical (loop i (application environ) .new 0) ∧
    (∀ message, .start message ∈ (loop i (application environ) .new 0).sent → _) ∧
    (Determined i (application environ) (loop i (application environ) .new 0) ↔ _)
  generalize application environ = app
  refine ⟨grammatical app rfl, ?_⟩
  cases described (i := i) app (show Instance.new.responseStarted = false from rfl) with
  | raising e hopening _ hsent _ _ =>
      rw [hsent]
      refine ⟨fun message hmem => (by cases hmem), iff_of_true (.inl hsent) fun s₁ call hs₁ => ?_⟩
      rw [hopening] at hs₁
      cases hs₁
  | unanswered s₁ hopening hstart hsent _ =>
      rw [hsent]
      refine ⟨fun message hmem => (by cases hmem),
        iff_of_true (.inl hsent) fun s₂ call hs₂ hlast => ?_⟩
      rcases responseStart_opening hopening with ⟨hnone, -⟩ | ⟨call', -, hsome, hbuilt⟩
      · rw [hnone] at hlast
        cases hlast
      · rw [← hbuilt, hstart] at hsome
        cases hsome
  | answered s₁ message hopening hstart hsent _ _ =>
      obtain ⟨call, hlast, hbuilt⟩ : ∃ call, app.lastReturned i .new = some call ∧
          built i call = some message := by
        rcases responseStart_opening hopening with ⟨-, hnone⟩ | ⟨call, hlast, -, hbuilt⟩
        · rw [hstart] at hnone
          cases hnone
        · exact ⟨call, hlast, hbuilt.symm.trans hstart⟩
      constructor
      · intro message' hmem
        rw [hsent] at hmem
        have hmessage : message' = message := by
          simpa [answer, bodyMessages, closing, lastMessage] using hmem
        exact ⟨call, hlast, hmessage ▸ hbuilt⟩
      · constructor
        · rintro (hnil | ⟨call', message', hlast', hbuilt', hsent'⟩) s₂ call₂ hs₂ hlast₂
          · rw [hsent] at hnil
            cases hnil
          · rw [hlast] at hlast' hlast₂
            cases hlast'
            cases hlast₂
            rw [hbuilt] at hbuilt'
            cases hbuilt'
            rw [hopening] at hs₂
            cases hs₂
            rw [hsent] at hsent'
            exact (answer_eq_iff _ _ _ _ _).mp hsent'
        · intro halike
          refine .inr ⟨call, message, hlast, hbuilt, ?_⟩
          rw [hsent]
          exact (answer_eq_iff _ _ _ _ _).mpr (halike s₁ call hopening hlast)

/-- An application that declares five bytes, makes another call whatever the outcome of the first,
and then yields six bytes. -/
def declaresFive (second : Call) : App :=
  .startResponse (callWith "5" none) fun _ => .startResponse second fun _ =>
    .yield [1, 2, 3, 4, 5, 6] .stop

/-- The second call has no `exc_info`, so it is refused at once. -/
theorem response_grammar_declaresFive :
    Grammatical (runWsgiApp .ascii (.ok ()) (fun _ => declaresFive (callWith "6" none)) .new) ∧
      Determined .ascii (declaresFive (callWith "6" none))
        (runWsgiApp .ascii (.ok ()) (fun _ => declaresFive (callWith "6" none)) .new) := by
  obtain ⟨hgrammar, -, hdetermined⟩ :=
    response_grammar .ascii () fun _ => declaresFive (callWith "6" none)
  refine ⟨hgrammar, hdetermined.mpr fun s₁ call hs₁ hlast => ?_⟩
  cases hs₁
  cases hlast
  exact ⟨by decide, .inl (by decide)⟩

/-- The second call raises in `int`, and the application catches it. -/
def raisingSecond : App := declaresFive (callWith "x" (some (some (.other 0))))

/-- All six bytes are sent, under a start message that declares five. -/
theorem raisingSecond_not_determined :
    ¬ Determined .ascii raisingSecond (runWsgiApp .ascii (.ok ()) (fun _ => raisingSecond) .new) ∧
      bodies (runWsgiApp .ascii (.ok ()) (fun _ => raisingSecond) .new).sent =
        [[1, 2, 3, 4, 5, 6]] := by
  refine ⟨?_, by decide⟩
  rintro (hnil | ⟨call, message, hlast, hbuilt, hsent⟩)
  · cases hnil
  · cases hlast
    cases hbuilt
    exact absurd hsent (by decide)

end Asgiref.Wsgi
