import Asgiref.Wsgi.Text

/-! # Responses of the WSGI wrapper

`run_wsgi_app` iterates over what the application gives it and sends messages; in between, the
application calls `start_response`, which may raise, and which the application may catch.

* **`Instance`** — the three fields that `start_response` and the loop share.
* **`startResponse`** — the callable, step by step up to where it raises.
* **`App`** — an application, as what it does next: it calls `start_response` and goes on with the
  outcome, it yields a chunk, it ends, or it raises.
* **`loop`** — the loop over the iterable and what comes after it; **`runWsgiApp`** — the function.
  -/

namespace Asgiref.Wsgi

/-- The exceptions of the wrapper and of applications. -/
inductive Error
  /-- A `ValueError` that the wrapper raises. -/
  | valueError (message : String)
  /-- `ValueError` of unpacking the status. -/
  | unpack
  /-- `ValueError` of `int`. -/
  | invalidLiteral (literal : Str)
  | unicodeEncodeError
  | unicodeDecodeError
  /-- `TypeError` of `None[1]`. -/
  | notSubscriptable
  | attributeError (name : String)
  /-- Any other exception. -/
  | other (n : Nat)
  deriving DecidableEq, Repr

/-- Whether `except ValueError` catches the exception. -/
def Error.isValueError : Error → Bool
  | .valueError _ | .unpack | .invalidLiteral _ | .unicodeEncodeError | .unicodeDecodeError => true
  | .notSubscriptable | .attributeError _ | .other _ => false

/-- The arguments of a `start_response` call. Of a tuple `exc_info` only its value matters, which
may be `None`. -/
structure Call where
  status : Str
  responseHeaders : List (Str × Str)
  excInfo : Option (Option Error)
  deriving DecidableEq, Repr

/-- The message `http.response.start`. -/
structure Start where
  status : Int
  headers : List (Bytes × Bytes)
  deriving DecidableEq, Repr

/-- The messages that are sent. The keys of a body message may be left out. -/
inductive Message
  | start (message : Start)
  | body (body : Option Bytes) (moreBody : Option Bool)
  deriving DecidableEq, Repr

/-- The fields of a `WsgiToAsgiInstance` that hold the state of the response. -/
structure Instance where
  responseStarted : Bool
  responseContentLength : Option Int
  responseStart : Option Start
  deriving DecidableEq, Repr

/-- `WsgiToAsgiInstance.__init__`: there is no `response_start` yet. -/
def Instance.new : Instance := ⟨false, none, none⟩

variable (i : Interpreter)

/-! ## `start_response` -/

/-- `raise exc_info[1].with_traceback(exc_info[2])`. -/
def reraise : Option (Option Error) → Error
  | none => .notSubscriptable
  | some none => .attributeError "with_traceback"
  | some (some e) => e

/-- `status_code, _ = status.split(" ", 1)`, and its `int`. -/
def statusCode (status : Str) : Except Error Int :=
  if ' ' ∈ status then
    match i.int (status.takeWhile (· ≠ ' ')) with
    | some code => .ok code
    | none => .error (.invalidLiteral (status.takeWhile (· ≠ ' ')))
  else .error .unpack

/-- The headers, with lower-case names, as bytes; `none` where encoding one of them raises. -/
def encodeHeaders : List (Str × Str) → Option (List (Bytes × Bytes))
  | [] => some []
  | (name, value) :: rest =>
      match encodeAscii (i.lowered name), encodeAscii value, encodeHeaders rest with
      | some n, some v, some hs => some ((n, v) :: hs)
      | _, _, _ => none

/-- The name of the header that declares the length. -/
def contentLengthName : Str := "content-length".toList

/-- The loop over the headers that sets `response_content_length`: what it leaves there, and the
exception that ended it early. -/
def readLengths : Option Int → List (Str × Str) → Option Int × Option Error
  | length, [] => (length, none)
  | length, (name, value) :: rest =>
      if i.lowered name = contentLengthName then
        match i.int value with
        | some n => readLengths (some n) rest
        | none => (length, some (.invalidLiteral value))
      else readLengths length rest

/-- `start_response`: the instance it leaves, and whether it raises. -/
def startResponse (self : Instance) (call : Call) : Instance × Except Error Unit :=
  if self.responseStarted then (self, .error (reraise call.excInfo))
  else if self.responseStart.isSome && call.excInfo.isNone then
    (self, .error
      (.valueError "You cannot call start_response a second time without exc_info"))
  else
    match statusCode i call.status with
    | .error e => (self, .error e)
    | .ok status =>
        match encodeHeaders i call.responseHeaders with
        | none => (self, .error .unicodeEncodeError)
        | some headers =>
            match readLengths i none call.responseHeaders with
            -- `int` raises with `response_content_length` set anew and `response_start` as it was
            | (length, some e) => ({ self with responseContentLength := length }, .error e)
            | (length, none) =>
                ({ self with
                  responseContentLength := length
                  responseStart := some ⟨status, headers⟩ }, .ok ())

/-! ## `run_wsgi_app` -/

/-- What an application does from some point on. -/
inductive App
  /-- The iterable is exhausted. -/
  | stop
  | raise (e : Error)
  | yield (output : Bytes) (next : App)
  | startResponse (call : Call) (next : Except Error Unit → App)

/-- A run of the response: the messages sent, the instance in the end, the number of chunks that the
iterable was advanced for, and the exception that ended it. -/
structure Response where
  sent : List Message
  self : Instance
  advanced : Nat
  raised : Option Error

/-- `response_started` is set, and the start message sent, if that was not done before. -/
def sendStart (self : Instance) : Instance × Except Error (List Message) :=
  if self.responseStarted then (self, .ok [])
  else
    ({ self with responseStarted := true },
      match self.responseStart with
      | some message => .ok [.start message]
      | none => .error (.attributeError "response_start"))

/-- `output[:k]`. -/
def sliceTo (output : Bytes) (k : Int) : Bytes :=
  if 0 ≤ k then output.take k.toNat else output.take (output.length - (-k).toNat)

/-- The chunk that is sent, with this many bytes sent before it. -/
def clamp (contentLength : Option Int) (bytesSent : Nat) (output : Bytes) : Bytes :=
  match contentLength with
  | none => output
  | some n => if n - bytesSent < output.length then sliceTo output (n - bytesSent) else output

/-- After the loop: the connection is closed. -/
def close (self : Instance) : Response :=
  match (sendStart self).2 with
  | .ok messages => ⟨messages ++ [.body none none], (sendStart self).1, 0, none⟩
  | .error e => ⟨[], (sendStart self).1, 0, some e⟩

/-- The loop over the iterable, from where the application is, and what comes after the loop. -/
def loop : App → Instance → Nat → Response
  | .stop, self, _ => close self
  | .raise e, self, _ => ⟨[], self, 0, some e⟩
  | .startResponse call next, self, bytesSent =>
      loop (next (startResponse i self call).2) (startResponse i self call).1 bytesSent
  | .yield output next, self, bytesSent =>
      match (sendStart self).2 with
      | .error e => ⟨[], (sendStart self).1, 1, some e⟩
      | .ok messages =>
          -- no more bytes than the header allows
          let output' := clamp self.responseContentLength bytesSent output
          let bytesSent' := bytesSent + output'.length
          let rest :=
            -- enough data has been sent: the loop is left
            if some (bytesSent' : Int) = self.responseContentLength then close (sendStart self).1
            else loop next (sendStart self).1 bytesSent'
          { rest with
            sent := messages ++ .body (some output') (some true) :: rest.sent
            advanced := rest.advanced + 1 }

/-- `run_wsgi_app`, given what `build_environ` does: the application is called with the environ, and
a `ValueError` is answered with a response of its own. -/
def runWsgiApp {Environ : Type*} (environ : Except Error Environ) (application : Environ → App)
    (self : Instance) : Response :=
  match environ with
  | .ok environ => loop i (application environ) self 0
  | .error e =>
      if e.isValueError then
        ⟨[.start ⟨400, [("content-type".toUTF8.toList, "text/plain".toUTF8.toList)]⟩,
          .body (some "Bad Request: Too many duplicate headers".toUTF8.toList) none], self, 0, none⟩
      else ⟨[], self, 0, some e⟩

/-! ## What the application does

Apart from the loop, an application can be read off as it is: the calls that it makes before its
first chunk, with their outcomes, the chunks that it has to give, and how it ends. -/

/-- The calls made before the first chunk or the end, and whether they raised. -/
def App.callsBefore : App → Instance → List (Call × Except Error Unit)
  | .stop, _ | .raise _, _ | .yield .., _ => []
  | .startResponse call next, self =>
      (call, (Wsgi.startResponse i self call).2) ::
        (next (Wsgi.startResponse i self call).2).callsBefore (Wsgi.startResponse i self call).1

/-- The instance that these calls leave, or the exception that the application raises before it
comes to its first chunk or its end. -/
def App.opening : App → Instance → Except Error Instance
  | .stop, self | .yield .., self => .ok self
  | .raise e, _ => .error e
  | .startResponse call next, self =>
      (next (Wsgi.startResponse i self call).2).opening (Wsgi.startResponse i self call).1

/-- The chunks that the application yields if its iterable is advanced to the end. -/
def App.chunks : App → Instance → List Bytes
  | .stop, _ | .raise _, _ => []
  | .yield output next, self => output :: next.chunks (sendStart self).1
  | .startResponse call next, self =>
      (next (Wsgi.startResponse i self call).2).chunks (Wsgi.startResponse i self call).1

/-- The exception that the application then ends with. -/
def App.ending : App → Instance → Option Error
  | .stop, _ => none
  | .raise e, _ => some e
  | .yield _ next, self => next.ending (sendStart self).1
  | .startResponse call next, self =>
      (next (Wsgi.startResponse i self call).2).ending (Wsgi.startResponse i self call).1

end Asgiref.Wsgi
