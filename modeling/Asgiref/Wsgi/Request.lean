import Asgiref.Wsgi.Mount
import Asgiref.Wsgi.Sending

/-! # A call of the WSGI wrapper

An instance is called with a scope, and gets the body of the request in any number of messages. Only
then does it answer.

* **`readBody`** — the loop that waits for the messages; **`call`** — the instance's `__call__`.
* **`WholeRequest`** — messages that make up a request, and its body.
* **`answered_iff`** — which calls are answered, and with what: a request is answered as if its body
  had come in one message, and messages after it are left where they are.
* **`raised_iff`** — which calls raise before they are. -/

namespace Asgiref.Wsgi

/-! ## The call -/

/-- A message for the application; the keys of the body may be left out. -/
structure Received where
  type : String
  body : Option Bytes
  moreBody : Option Bool
  deriving DecidableEq, Repr

/-- What `await receive()` does. -/
inductive Receive
  | message (message : Received)
  | raises (e : Error)
  deriving DecidableEq, Repr

/-- How the loop over the messages ends: with the whole body, with an exception, or not at all, as
there is no further message yet. It has called `receive` this many times. -/
inductive Reading
  | complete (received : Nat) (body : Bytes)
  | raised (received : Nat) (e : Error)
  | waiting
  deriving DecidableEq, Repr

/-- The loop over the messages, with what has been written to the file. -/
def readBody : List Receive → Nat → Bytes → Reading
  | [], _, _ => .waiting
  | .raises e :: _, received, _ => .raised (received + 1) e
  | .message message :: rest, received, body =>
      if message.type ≠ "http.request" then
        .raised (received + 1)
          (.valueError "WSGI wrapper received a non-HTTP-request message")
      else
        let body := body ++ message.body.getD []
        if message.moreBody = some true then readBody rest (received + 1) body
        else .complete (received + 1) body

/-- How a call ends, if it does. -/
inductive Outcome
  | answered (received : Nat) (response : Response)
  | raised (received : Nat) (e : Error)
  | waiting

/-- `WsgiToAsgiInstance.__call__`, for a scope of this type. Each call of the wrapper makes a new
instance. -/
def call (i : Interpreter) (limit : Option Int) (application : Environ → App) (scopeType : String)
    (scope : Scope) (receive : List Receive) (send : Send) : Outcome :=
  if scopeType ≠ "http" then
    .raised 0 (.valueError "WSGI wrapper received a non-HTTP scope")
  else
    match readBody receive 0 [] with
    | .complete received body =>
        .answered received
          (runWsgiAppWith i send (buildEnviron limit scope body) application .new)
    | .raised received e => .raised received e
    | .waiting => .waiting

/-! ## Requests -/

/-- A message after which there is more to come. -/
def Received.HasMore (m : Received) : Prop := m.type = "http.request" ∧ m.moreBody = some true

/-- The last message of a request. -/
def Received.Last (m : Received) : Prop := m.type = "http.request" ∧ m.moreBody ≠ some true

/-- The body that comes in these messages. -/
def bodyOf (ms : List Received) : Bytes := ms.flatMap fun m => m.body.getD []

/-- These messages are a whole request with this body. -/
def WholeRequest (ms : List Received) (body : Bytes) : Prop :=
  ∃ before last, ms = before ++ [last] ∧ (∀ m ∈ before, m.HasMore) ∧ last.Last ∧ body = bodyOf ms

/-- A message that there is more to come after is read. -/
theorem readBody_cons {m : Received} (hm : m.HasMore) (rest : List Receive) (received : Nat)
    (body : Bytes) :
    readBody (.message m :: rest) received body =
      readBody rest (received + 1) (body ++ m.body.getD []) := by
  obtain ⟨htype, hmore⟩ := hm
  rw [readBody, if_neg (not_not.mpr htype)]
  exact if_pos hmore

/-- Messages that there is more to come after are read, whatever follows. -/
theorem readBody_append {before : List Received} (hbefore : ∀ m ∈ before, m.HasMore)
    (rest : List Receive) (received : Nat) (body : Bytes) :
    readBody (before.map .message ++ rest) received body =
      readBody rest (received + before.length) (body ++ bodyOf before) := by
  induction before generalizing received body with
  | nil => simp [bodyOf]
  | cons m before ih =>
      have hrest := ih (fun m' hm' => hbefore m' (List.mem_cons_of_mem _ hm')) (received + 1)
        (body ++ m.body.getD [])
      rw [List.map_cons, List.cons_append, readBody_cons (hbefore m List.mem_cons_self), hrest]
      have hlength : received + 1 + before.length = received + (m :: before).length := by
        rw [List.length_cons]
        omega
      have hbody : body ++ m.body.getD [] ++ bodyOf before = body ++ bodyOf (m :: before) := by
        simp [bodyOf]
      rw [hlength, hbody]

/-- What comes can be cut after the messages that there is more to come after. -/
theorem exists_hasMore (receive : List Receive) :
    ∃ (before : List Received) (rest : List Receive),
      receive = before.map .message ++ rest ∧ (∀ m ∈ before, m.HasMore) ∧
        ∀ m rest', rest = .message m :: rest' → ¬ m.HasMore := by
  induction receive with
  | nil => exact ⟨[], [], rfl, nofun, nofun⟩
  | cons r receive ih =>
      cases r with
      | raises e => exact ⟨[], .raises e :: receive, rfl, nofun, nofun⟩
      | message m =>
          by_cases hm : m.HasMore
          · obtain ⟨before, rest, rfl, hbefore, hrest⟩ := ih
            refine ⟨m :: before, rest, rfl, ?_, hrest⟩
            intro m' hm'
            rcases List.mem_cons.mp hm' with rfl | hm'
            · exact hm
            · exact hbefore m' hm'
          · refine ⟨[], .message m :: receive, rfl, nofun, ?_⟩
            rintro m' rest' heq
            cases heq
            exact hm

/-- A message that ends the loop. -/
theorem readBody_last {m : Received} (hm : ¬ m.HasMore) (rest : List Receive) (received : Nat)
    (body : Bytes) :
    readBody (.message m :: rest) received body =
      if m.type = "http.request" then .complete (received + 1) (body ++ m.body.getD [])
      else .raised (received + 1)
        (.valueError "WSGI wrapper received a non-HTTP-request message") := by
  unfold readBody
  by_cases htype : m.type = "http.request"
  · have hmore : m.moreBody ≠ some true := fun h => hm ⟨htype, h⟩
    simp [htype, hmore]
  · simp [htype]

/-- **The loop ends with a body** exactly if a whole request comes first. -/
theorem readBody_complete_iff {receive : List Receive} {n : Nat} {body : Bytes} :
    readBody receive 0 [] = .complete n body ↔
      ∃ ms rest, receive = ms.map .message ++ rest ∧ ms.length = n ∧ WholeRequest ms body := by
  constructor
  · intro h
    obtain ⟨before, rest, rfl, hbefore, hrest⟩ := exists_hasMore receive
    rw [readBody_append hbefore] at h
    match rest with
    | [] => cases h
    | .raises e :: rest => cases h
    | .message m :: rest =>
        have hm := hrest m rest rfl
        rw [readBody_last hm] at h
        split at h
        · rename_i htype
          cases h
          refine ⟨before ++ [m], rest, by simp, by simp, before, m, rfl, hbefore, ?_, ?_⟩
          · exact ⟨htype, fun hmore => hm ⟨htype, hmore⟩⟩
          · simp [bodyOf]
        · cases h
  · rintro ⟨ms, rest, rfl, rfl, before, last, rfl, hbefore, hlast, rfl⟩
    have hnot : ¬ last.HasMore := fun h => hlast.2 h.2
    have hcut : (before ++ [last]).map Receive.message ++ rest =
        before.map .message ++ .message last :: rest := by simp
    rw [hcut, readBody_append hbefore, readBody_last hnot, if_pos hlast.1]
    simp [bodyOf]

/-- **The loop raises** exactly if something else comes before the end of the request. -/
theorem readBody_raised_iff {receive : List Receive} {n : Nat} {e : Error} :
    readBody receive 0 [] = .raised n e ↔
      ∃ (before : List Received) (r : Receive) (rest : List Receive),
        receive = before.map .message ++ r :: rest ∧ before.length + 1 = n ∧
        (∀ m ∈ before, m.HasMore) ∧ (r = .raises e ∨
          ∃ m, r = .message m ∧ m.type ≠ "http.request" ∧
            e = .valueError "WSGI wrapper received a non-HTTP-request message") := by
  constructor
  · intro h
    obtain ⟨before, rest, rfl, hbefore, hrest⟩ := exists_hasMore receive
    rw [readBody_append hbefore] at h
    match rest with
    | [] => cases h
    | .raises e' :: rest =>
        cases h
        exact ⟨before, .raises e, rest, rfl, by omega, hbefore, .inl rfl⟩
    | .message m :: rest =>
        rw [readBody_last (hrest m rest rfl)] at h
        split at h
        · cases h
        · rename_i htype
          cases h
          exact ⟨before, .message m, rest, rfl, by omega, hbefore, .inr ⟨m, rfl, htype, rfl⟩⟩
  · rintro ⟨before, r, rest, rfl, rfl, hbefore, rfl | ⟨m, rfl, htype, rfl⟩⟩
    · rw [readBody_append hbefore]
      unfold readBody
      rw [Nat.zero_add]
    · have hnot : ¬ m.HasMore := fun h => htype h.1
      rw [readBody_append hbefore, readBody_last hnot, if_neg htype, Nat.zero_add]

/-! ## Which calls are answered -/

variable {i : Interpreter} {limit : Option Int} {application : Environ → App} {scopeType : String}
  {scope : Scope} {receive : List Receive} {send : Send}

/-- The application reads the body from the environ. -/
theorem environ_input {body : Bytes} {environ : Environ}
    (h : buildEnviron limit scope body = .ok environ) :
    environ.lookup "wsgi.input".toList = some (.input body) := by
  obtain ⟨r, p, hr, hp⟩ := (converts_of_buildEnviron h).strings
  exact lookup_literal h hr hp (by simp [dictLiteral]) (by decide)

/-- **Which calls are answered.** A call is answered exactly if its scope is of type `http` and a
whole request comes first, however its body is cut into messages; it has then received no message
after that. The response is that of `run_wsgi_app` for this body, which is what the application
finds in its environ; there is one if the scope converts, its server is not `None` and its headers
keep the limit. -/
theorem answered_iff {n : Nat} {r : Response} :
    (call i limit application scopeType scope receive send = .answered n r ↔
      scopeType = "http" ∧ ∃ ms rest body, receive = ms.map .message ++ rest ∧ ms.length = n ∧
        WholeRequest ms body ∧
        r = runWsgiAppWith i send (buildEnviron limit scope body) application .new) ∧
      ∀ body, ((∃ environ, buildEnviron limit scope body = .ok environ) ↔
          scope.Converts ∧ scope.server ≠ some none ∧ ¬ Exceeds limit scope.headerList) ∧
        ∀ environ, buildEnviron limit scope body = .ok environ →
          environ.lookup "wsgi.input".toList = some (.input body) := by
  refine ⟨?_, fun body => ⟨buildEnviron_isOk_iff, fun environ h => environ_input h⟩⟩
  unfold call
  by_cases htype : scopeType = "http"
  · rw [if_neg (not_not.mpr htype)]
    constructor
    · intro h
      refine ⟨htype, ?_⟩
      cases hreading : readBody receive 0 [] with
      | complete n' body =>
          rw [hreading] at h
          cases h
          obtain ⟨ms, rest, hreceive, hlength, hwhole⟩ := readBody_complete_iff.mp hreading
          exact ⟨ms, rest, body, hreceive, hlength, hwhole, rfl⟩
      | raised n' e =>
          rw [hreading] at h
          cases h
      | waiting =>
          rw [hreading] at h
          cases h
    · rintro ⟨-, ms, rest, body, hreceive, hlength, hwhole, rfl⟩
      have hreading := readBody_complete_iff.mpr ⟨ms, rest, hreceive, hlength, hwhole⟩
      rw [hreading]
  · rw [if_pos htype]
    exact iff_of_false nofun fun h => htype h.1

/-- **Which calls raise** before they are answered: those with another scope, which receive nothing,
and those to which something else comes before the end of the request. Nothing is sent by them. -/
theorem raised_iff {n : Nat} {e : Error} :
    call i limit application scopeType scope receive send = .raised n e ↔
      scopeType ≠ "http" ∧ n = 0 ∧ e = .valueError "WSGI wrapper received a non-HTTP scope" ∨
      scopeType = "http" ∧ ∃ (before : List Received) (r : Receive) (rest : List Receive),
        receive = before.map .message ++ r :: rest ∧ before.length + 1 = n ∧
        (∀ m ∈ before, m.HasMore) ∧ (r = .raises e ∨
          ∃ m, r = .message m ∧ m.type ≠ "http.request" ∧
            e = .valueError "WSGI wrapper received a non-HTTP-request message") := by
  unfold call
  by_cases htype : scopeType = "http"
  · rw [if_neg (not_not.mpr htype), ← readBody_raised_iff]
    have hscope : ¬ scopeType ≠ "http" := not_not.mpr htype
    cases hreading : readBody receive 0 [] with
    | complete n' body => simp [hscope]
    | raised n' e' => simp [htype]
    | waiting => simp [hscope]
  · rw [if_pos htype]
    have hiff : (Outcome.raised 0 (.valueError "WSGI wrapper received a non-HTTP scope") =
        .raised n e) ↔ n = 0 ∧ e = .valueError "WSGI wrapper received a non-HTTP scope" := by
      rw [Outcome.raised.injEq]
      exact and_congr eq_comm eq_comm
    rw [hiff]
    simp [htype]

end Asgiref.Wsgi
