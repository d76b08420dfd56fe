import Novon.Core.Application
import Novon.Core.Equiv.Context

/-!
# Which responses carry their request id

A response that leaves through `RequestIDMiddleware` carries the id that the request was handled
with.  The framework's answer to an exception that no handler is registered for does not leave
through it, so a response carries the id exactly when there is no such exception
(`correlatable_iff`).
-/

namespace Novon

variable {ε ω β : Type}

namespace ExceptionHandlers

variable (handlers : ExceptionHandlers ε β)

theorem run_handle (x : Handler ε (Runtime ω) (OutboundResponse β)) (s : Runtime ω) :
    (handlers.handle x).run s =
      match x.run s with
      | (.ok response, s') => (.ok response, s')
      | (.error exc, s') =>
        match handlers.registered exc with
        | some response => (.ok response, s')
        | none => (.error exc, s') := by
  rw [handle, Handler.run_bind, Handler.run_attempt]
  rcases x.run s with ⟨exc | response, s'⟩
  · show Handler.run (match handlers.registered exc with
      | some response => pure response
      | none => Handler.raise exc) s' = _
    cases h : handlers.registered exc <;> simp [h]
  · rfl

/-- A handler changes what is answered, not what has happened. -/
theorem snd_run_handle (x : Handler ε (Runtime ω) (OutboundResponse β)) (s : Runtime ω) :
    ((handlers.handle x).run s).2 = (x.run s).2 := by
  rw [run_handle]
  rcases x.run s with ⟨exc | response, final⟩
  · dsimp only
    split <;> rfl
  · rfl

/-- A handler leaves a response as it is. -/
theorem fst_run_handle {x : Handler ε (Runtime ω) (OutboundResponse β)} {s : Runtime ω}
    {response : OutboundResponse β} (h : (x.run s).1 = .ok response) :
    ((handlers.handle x).run s).1 = .ok response := by
  rw [run_handle]
  rcases hrun : x.run s with ⟨exc | response', final⟩
  · rw [hrun] at h
    cases h
  · rw [hrun] at h
    exact h

theorem run_catchAll (x : Handler ε (Runtime ω) (OutboundResponse β)) (s : Runtime ω) :
    (handlers.catchAll x).run s =
      match x.run s with
      | (.ok response, s') => (.ok response, s')
      | (.error exc, s') => (.ok (handlers.serverError exc), s') := by
  rw [catchAll, Handler.run_bind, Handler.run_attempt]
  rcases x.run s with ⟨_ | _, s'⟩ <;> rfl

variable (trust : Bool)
  (endpoint : RequestState → Handler ε (Runtime ω) (OutboundResponse β)) (headers : Headers)

/-- The response to a request, from what the endpoint returns or raises. -/
def respond (requestId : String) : Except ε (OutboundResponse β) → OutboundResponse β
  | .ok response => RequestIDMiddleware.echo requestId response
  | .error exc =>
    match handlers.registered exc with
    | some response => RequestIDMiddleware.echo requestId response
    -- the framework's own answer does not pass the middleware
    | none => handlers.serverError exc

theorem run_serve {requestId : String} {state : RequestState} {s s' : Runtime ω}
    (h : ∀ callNext : RequestState → Handler ε (Runtime ω) (OutboundResponse β),
      (RequestIDMiddleware.dispatch trust callNext headers).run s =
        ((callNext state).run s').map (Except.map (RequestIDMiddleware.echo requestId)) id) :
    (handlers.serve trust endpoint headers).run s =
      (.ok (handlers.respond requestId ((endpoint state).run s').1),
        ((endpoint state).run s').2) := by
  rw [serve, run_catchAll, h, run_handle]
  rcases (endpoint state).run s' with ⟨exc | response, final⟩
  · cases hreg : handlers.registered exc <;> simp [respond, hreg, Except.map]
  · rfl

/-- A response carries the id unless it is to an exception that no handler is registered for. -/
theorem requestId_respond_iff {requestId : String} (outcome : Except ε (OutboundResponse β)) :
    (handlers.respond requestId outcome).headers.get "X-Request-ID" = some requestId ↔
      ∀ exc, outcome = .error exc → (handlers.registered exc).isSome = true := by
  cases outcome with
  | ok response =>
    refine iff_of_true (Headers.get_set_self _ _ _) fun exc hexc => ?_
    cases hexc
  | error exc =>
    cases hreg : handlers.registered exc with
    | none =>
      rw [respond, hreg]
      show (handlers.serverError exc).headers.get "X-Request-ID" = _ ↔ _
      rw [handlers.serverError_requestId]
      refine iff_of_false (by simp) fun h => ?_
      have hsome := h exc rfl
      rw [hreg] at hsome
      cases hsome
    | some response =>
      rw [respond, hreg]
      refine iff_of_true (Headers.get_set_self _ _ _) fun exc' hexc' => ?_
      cases hexc'
      rw [hreg]
      rfl

/-- **Every response is correlatable, except the answer to an exception that no handler is
registered for.**  The middleware stores an id in `request.state`, the contexts that are built from
it forward that id, and the response carries it exactly when what the endpoint raises, if it
raises, has a registered handler. -/
theorem correlatable_iff (s : Runtime ω) :
    ∃ requestId traceId s' response final,
      (RequestIDMiddleware.storedState trust headers : Handler ε (Runtime ω) _).run s =
        (.ok ⟨some requestId, some traceId⟩, s') ∧
      (∀ userId, ∃ ctx, (RequestContext.fromRequest headers ⟨some requestId, some traceId⟩ userId :
          Handler ε (Runtime ω) _).run s' = (.ok ctx, s') ∧
        ctx.toHeaders.get? "X-Request-ID" = some requestId) ∧
      (handlers.serve trust endpoint headers).run s = (.ok response, final) ∧
      (response.headers.get "X-Request-ID" = some requestId ↔
        ∀ exc, ((endpoint ⟨some requestId, some traceId⟩).run s').1 = .error exc →
          (handlers.registered exc).isSome = true) := by
  obtain ⟨requestId, traceId, uuids, hrequestId, htraceId, hstored, hrun⟩ :=
    RequestIDMiddleware.run_dispatch_storedState (ε := ε) (β := β) trust headers s
  refine ⟨requestId, traceId, { s with uuids }, _, _, hstored, fun userId => ?_,
    handlers.run_serve trust endpoint headers hrun, handlers.requestId_respond_iff _⟩
  refine ⟨_, RequestContext.run_fromRequest headers hrequestId.ne_empty htraceId.ne_empty userId _,
    ?_⟩
  rw [(RequestContext.get?_toHeaders _).2.1]
  exact RequestContext.headerValue_of_ne hrequestId.ne_empty

/-- A request whose endpoint raises something unforeseen gets a response without its id. -/
theorem not_correlatable :
    ∃ response final,
      (sample.serve (ω := Unit) false (fun _ => .raise "division by zero")
        [("x-request-id", "edge-1:57f6a2")]).run ⟨.const .one, []⟩ = (.ok response, final) ∧
      (RequestIDMiddleware.storedState (ε := String) (ω := Unit) false
        [("x-request-id", "edge-1:57f6a2")]).run ⟨.const .one, []⟩ =
          (.ok ⟨some "edge-1:57f6a2", some Uuid.one.text⟩, final) ∧
      response.statusCode = 500 ∧ response.headers.get "X-Request-ID" = none :=
  ⟨_, _, rfl, rfl, rfl, rfl⟩

end ExceptionHandlers

end Novon
