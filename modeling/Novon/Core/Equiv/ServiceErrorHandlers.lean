import Novon.Core.Equiv.BaseClient
import Novon.Core.ServiceErrorHandlers

/-!
# The two statuses of an error response

The body of an error response repeats the status that the client's mapping put into the exception,
the response has the one that the handler derives from the exception's class.  They agree for every
class but the base class, which the client raises for a response that is no success and below 400.
-/

namespace Novon.BaseServiceClient

/-- The body names the status of the response, which is one of an error. -/
def SelfConsistent (r : ErrorResponse) : Prop :=
  r.content.statusCode = some r.statusCode ∧ 400 ≤ r.statusCode ∧ r.statusCode ≤ 599

theorem SelfConsistent.of_status {r : ErrorResponse} (status : ℤ) (hr : r.statusCode = status)
    (hbody : r.content.statusCode = some status) (h : 400 ≤ status ∧ status ≤ 599) :
    SelfConsistent r := by
  subst hr
  exact ⟨hbody, h⟩

/-- A response that is an error only for not being a success: 1xx and 3xx. -/
def Unusual : Outcome → Prop
  | .error _ => False
  | .ok response => response.isSuccess = false ∧ response.statusCode < 400

variable {J V : Type} (codec : Codec J V) (client : BaseServiceClient)

theorem not_transient_of_unusual {outcome : Outcome} (h : Unusual outcome) :
    transient codec outcome = false := by
  cases outcome with
  | error exc => exact h.elim
  | ok response =>
    have hlt := h.2
    exact not_transient_of_status codec (by omega)

theorem selfConsistent_mapTransportError (exc : LibraryError) :
    SelfConsistent (serviceCallErrorHandler (mapTransportError client exc)) := by
  unfold mapTransportError
  split
  · exact .of_status 504 rfl rfl (by decide)
  · exact .of_status 502 rfl rfl (by decide)

/-- For a response that is no success, the statuses agree from 400 on. -/
theorem selfConsistent_httpError (status : ℤ) (body : String) :
    SelfConsistent (serviceCallErrorHandler (httpError client status body)) ↔ ¬ status < 400 := by
  unfold httpError
  split
  · next h =>
    exact iff_of_true (.of_status 404 rfl rfl (by decide)) (by omega)
  · split
    · next h =>
      -- a 4xx keeps its status, which is not 0
      have hne : status ≠ 0 := by omega
      have hstatus : (serviceCallErrorHandler (.badRequest (client.serviceName ++ " returned " ++
          toString status) client.serviceName status (some body))).statusCode = status :=
        if_neg hne
      exact iff_of_true (.of_status status hstatus rfl (by omega)) (by omega)
    · split
      · exact iff_of_true (.of_status 502 rfl rfl (by decide)) (by omega)
      · next h₁ h₂ =>
        refine iff_of_false ?_ (by omega)
        rintro ⟨hbody, -, -⟩
        have hbody' : status = 502 := Option.some.inj hbody
        omega

/-- **One attempt**: the statuses agree unless the response is an unusual one. -/
theorem selfConsistent_requestOnce {model : Option TypeHint} {outcome : Outcome}
    {exc : ServiceCallError} (h : requestOnce codec client model outcome = .error (.service exc)) :
    SelfConsistent (serviceCallErrorHandler exc) ↔ ¬ Unusual outcome := by
  cases maps_of_service codec client h with
  | transport h => exact iff_of_true (selfConsistent_mapTransportError client _) id
  | status hs htext =>
    rw [selfConsistent_httpError, Unusual, hs]
    simp
  | unreadable hs hparse hcaught htext =>
    refine iff_of_true (.of_status 502 rfl rfl (by decide)) ?_
    rintro ⟨hno, -⟩
    simp [hs] at hno
  | uncaught hs hparse hcaught =>
    -- what else comes out of reading a body is no service error
    exact absurd rfl ((raised_parseResponse codec hparse).1 exc)

/-- **When error responses are self-consistent.**  If a call fails with a `ServiceCallError`, the
status in the body of the error response is the status of the response, and one from 400 to 599, if
and only if no attempt that the call reaches is answered by a response that is no success and has a
status below 400. -/
theorem error_response_consistent (outcomes : ℕ → Outcome) (method : String)
    (model : Option TypeHint) (exc : ServiceCallError)
    (h : (request codec client (streamSend outcomes) method model 0).1 = .error (.service exc)) :
    SelfConsistent (serviceCallErrorHandler exc) ↔
      ¬ ∃ i < attemptLimit client method,
        (∀ j < i, transient codec (outcomes j) = true) ∧ Unusual (outcomes i) := by
  obtain ⟨i, hi, heq⟩ := request_stream codec client outcomes method model
  rw [heq] at h
  rw [selfConsistent_requestOnce codec client h,
    hi.iff_exists (P := Unusual) fun _ => not_transient_of_unusual codec]

/-- A 404 in the third attempt, after two that failed transiently. -/
theorem error_response_consistent_notFound :
    SelfConsistent
      (serviceCallErrorHandler (.notFound "Resource not found from uc" "uc" (some ""))) :=
  (error_response_consistent Codec.sample ⟨"uc", 3⟩
    (fun k => .ok ⟨if k = 2 then 404 else 503, [], []⟩) "GET" (some (.cls "UserResponse")) _
    rfl).mpr <| by
      rintro ⟨i, hi, -, hno, hlt⟩
      have hstatus : ∀ k, ¬ (if k = 2 then (404 : ℤ) else 503) < 400 := by
        intro k
        split <;> decide
      exact hstatus i hlt

/-- The redirect that the framework answers to a trailing slash is reported as 502 with a 307 in
the body. -/
theorem error_response_redirect :
    (request Codec.sample ⟨"uc", 3⟩ (streamSend fun _ => .ok ⟨307, [], []⟩) "GET"
        (some (.cls "UserResponse")) 0).1 =
      .error (.service (.plain "uc returned 307" "uc" (some 307) (some ""))) ∧
    ¬ SelfConsistent
      (serviceCallErrorHandler (.plain "uc returned 307" "uc" (some 307) (some ""))) := by
  refine ⟨rfl, ?_⟩
  rintro ⟨hbody, -⟩
  exact absurd hbody (by decide)

end Novon.BaseServiceClient
