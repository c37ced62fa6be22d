import Asgiref.Wsgi.Headers

/-! # The response to too many duplicate headers

`run_wsgi_app` answers each `ValueError` of `build_environ` with one and the same response, and the
headers are not the only thing there that can raise one.

* **`Refuses`** — the response of two messages, without a call of the application.
* **`buildEnviron_valueError_iff`** — when `build_environ` raises a `ValueError`.
* **`refuses_iff`** — when the response means what it says. -/

namespace Asgiref.Wsgi

variable (i : Interpreter) {Env : Type*}

/-- The two messages. -/
def tooManyDuplicateHeaders : List Message :=
  [.start ⟨400, [("content-type".toUTF8.toList, "text/plain".toUTF8.toList)]⟩,
    .body (some "Bad Request: Too many duplicate headers".toUTF8.toList) none]

/-- The answer is these two messages, whatever the application would have done. -/
structure Refuses (environ : Except Error Env) (application : Env → App) : Prop where
  sent : (runWsgiApp i environ application .new).sent = tooManyDuplicateHeaders
  raised : (runWsgiApp i environ application .new).raised = none
  uncalled : ∀ application',
    runWsgiApp i environ application' .new = runWsgiApp i environ application .new

/-- **The response to a `ValueError`**, and to nothing else. -/
theorem refuses_iff_valueError {environ : Except Error Env} {application : Env → App} :
    Refuses i environ application ↔ ∃ e, environ = .error e ∧ e.isValueError := by
  constructor
  · intro h
    cases environ with
    | error e =>
        refine ⟨e, rfl, ?_⟩
        by_contra hnot
        have hsent := h.sent
        rw [runWsgiApp, if_neg hnot] at hsent
        cases hsent
    | ok environ =>
        -- an application that raises at once would send nothing
        have hraise := h.uncalled fun _ => .raise (.other 0)
        have hsent := h.sent
        rw [← hraise] at hsent
        cases hsent
  · rintro ⟨e, rfl, hvalue⟩
    have hrun : ∀ application : Env → App, runWsgiApp i (.error e) application .new =
        ⟨tooManyDuplicateHeaders, .new, 0, none⟩ := fun application => if_pos hvalue
    exact ⟨by rw [hrun], by rw [hrun], fun application' => by rw [hrun, hrun]⟩

variable {limit : Option Int} {scope : Scope} {body : Bytes}

/-- **When `build_environ` raises a `ValueError`**: if the scope does not convert, or if its headers
exceed the limit and it comes to them. -/
theorem buildEnviron_valueError_iff :
    (∃ e, buildEnviron limit scope body = .error e ∧ e.isValueError) ↔
      ¬ scope.Converts ∨ scope.server ≠ some none ∧ Exceeds limit scope.headerList := by
  by_cases hconverts : scope.Converts
  · rw [or_iff_right (not_not.mpr hconverts)]
    by_cases hserver : scope.server = some none
    · refine iff_of_false ?_ fun h => h.1 hserver
      rw [buildEnviron_of_error (baseEnviron_none hconverts hserver)]
      rintro ⟨e, he, hvalue⟩
      cases he
      cases hvalue
    · obtain ⟨base, hbase⟩ := baseEnviron_isOk body hconverts hserver
      rw [buildEnviron_error_iff hbase]
      exact (and_iff_right hserver).symm
  · obtain ⟨e, he, hvalue⟩ := baseEnviron_of_not_converts hconverts body
    exact iff_of_true ⟨e, buildEnviron_of_error he, hvalue⟩ (.inl hconverts)

/-- **When the response means what it says.** A request is answered with it, and its application not
called, exactly because of its headers: if the scope converts or the headers exceed the limit
anyway, and they do not exceed it behind a server that is `None`. -/
theorem refuses_iff (application : Environ → App) :
    (Refuses i (buildEnviron limit scope body) application ↔ Exceeds limit scope.headerList) ↔
      (scope.Converts ∨ Exceeds limit scope.headerList) ∧
        ¬ (scope.Converts ∧ scope.server = some none ∧ Exceeds limit scope.headerList) := by
  rw [refuses_iff_valueError, buildEnviron_valueError_iff]
  tauto

/-- A plain request whose query string is the byte 255. -/
def byteQuery : Scope := { request none [] with queryString := [255] }

/-- It is told that it has too many duplicate headers, and has none at all. -/
theorem byteQuery_not_refuses :
    ¬ (Refuses .ascii (buildEnviron (some 100) byteQuery []) (fun _ => .stop) ↔
      Exceeds (some 100) byteQuery.headerList) := by
  have hnot : ¬ byteQuery.Converts := fun h => absurd (h.query 255 (by decide)) (by decide)
  have hrefuses : Refuses .ascii (buildEnviron (some 100) byteQuery []) fun _ => .stop := by
    rw [refuses_iff_valueError, buildEnviron_valueError_iff]
    exact .inl hnot
  intro hiff
  obtain ⟨n, -, -, header, hmem, -⟩ := hiff.mp hrefuses
  cases hmem

end Asgiref.Wsgi
