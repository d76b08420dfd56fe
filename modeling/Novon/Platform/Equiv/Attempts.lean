import Novon.Bff.Equiv.ErrorBodies
import Novon.Network.Equiv.AtMostOnce
import Novon.Platform.Gateway

/-!
# The attempts of one inbound request

However the downstream services answer, the attempts for one inbound request are copies of one
request, and the response is made of the answer to the attempt that decides the call
(`run_application_decides`).
-/

namespace Novon.Bff

open BaseServiceClient RequestIDMiddleware

variable {J V : Type} (app : App J V) (downstream : Downstream)

/-- What the downstream answers to the attempts of a call that sends `sent`. -/
def answers (sent : Sent) (k : ℕ) : Outcome := downstream (List.replicate (k + 1) sent)

theorem answers_replay (outcomes : ℕ → Outcome) (sent : Sent) :
    answers (replay outcomes) sent = outcomes := by
  funext k
  rw [answers, replay, List.length_replicate, Nat.add_sub_cancel]

theorem attemptLimit_of_idempotent (client : BaseServiceClient) {method : String}
    (h : upper method ∈ idempotentMethods) :
    attemptLimit client method = client.maxRetries.toNat - 1 + 1 := by
  unfold attemptLimit shouldRetry
  by_cases hpos : 0 < client.maxRetries
  · rw [if_pos (by simp [h, hpos])]
    omega
  · rw [if_neg (by simp [hpos])]
    omega

/-- What an endpoint method makes of the outcome that decides its call. -/
def concluded (client : BaseServiceClient) (call : OutboundCall) (outcome : Outcome) :
    Except Fault (Result V) :=
  let result := requestOnce app.codec client call.responseModel outcome
  (if call.expectsNone then result.map fun _ => .none else result).mapError .raised

/-- **A client call** on a runtime in which nothing has been sent. -/
theorem run_invoke_decides (service : Service) (client : BaseServiceClient) (ctx : RequestContext)
    (call : OutboundCall) (uuids : Stream' Uuid) :
    ∃ i, Decides app.codec (attemptLimit client call.method)
        (answers downstream ⟨service, Feign.send app.lib ctx.toHeaders call⟩) i ∧
      (invoke app downstream service client ctx (.ok call)).run ⟨uuids, []⟩ =
        (concluded app client call
          (answers downstream ⟨service, Feign.send app.lib ctx.toHeaders call⟩ i),
          afterSending ⟨uuids, []⟩ ⟨service, Feign.send app.lib ctx.toHeaders call⟩ (i + 1)) := by
  let sent : Sent := ⟨service, Feign.send app.lib ctx.toHeaders call⟩
  -- the `k`-th attempt finds `k` requests sent
  have hsend : ∀ k, send downstream sent (afterSending ⟨uuids, []⟩ sent k) =
      (streamSend (answers downstream sent) k).map id (afterSending ⟨uuids, []⟩ sent) := by
    intro k
    simp [send, afterSending, streamSend, answers, List.replicate_succ']
  have hmap := request_map app.codec client hsend call.method call.responseModel 0
  obtain ⟨i, hdecides, hstream⟩ :=
    request_stream app.codec client (answers downstream sent) call.method call.responseModel
  have hzero : afterSending ⟨uuids, []⟩ sent 0 = ⟨uuids, []⟩ := by simp [afterSending]
  rw [hstream, hzero] at hmap
  refine ⟨i, hdecides, ?_⟩
  have hinvoke : (invoke app downstream service client ctx (.ok call)).run ⟨uuids, []⟩ =
      (request app.codec client (send downstream sent) call.method call.responseModel
        ⟨uuids, []⟩).map (fun result =>
          (if call.expectsNone then result.map fun _ => .none else result).mapError .raised) id :=
    rfl
  rw [hinvoke, hmap]
  rfl

/-- **One inbound request**, from its arrival to its response. -/
theorem run_application_decides {user : String} {request : InboundRequest} {call : BffCall}
    (hcall : route app.framework user request = .call call) (uuids : Stream' Uuid) :
    ∃ headers requestId left i,
      Decides app.codec (attemptsOf app call)
        (answers downstream (sentFor app.lib headers call)) i ∧
      (application app downstream user request).run ⟨uuids, []⟩ =
        (.ok (responseTo app requestId call
            (answers downstream (sentFor app.lib headers call) i)),
          ⟨left, List.replicate (i + 1) (sentFor app.lib headers call)⟩) := by
  obtain ⟨requestId, traceId, left, hrequest, htrace, -, hdispatch⟩ :=
    run_dispatch_storedState (ε := Fault) (β := Body V) false request.headers
      (⟨uuids, []⟩ : Runtime Sent)
  let ctx := contextFor user request requestId traceId
  obtain ⟨i, hdecides, hrun⟩ := run_invoke_decides app downstream (outboundFor call).1
    (clientOf app.clients (outboundFor call).1) ctx (outboundFor call).2 left
  simp only [concluded, outboundFor_responseModel, outboundFor_expectsNone] at hrun
  rw [← sentFor_eq] at hrun hdecides
  refine ⟨ctx.toHeaders, requestId, left, i, hdecides, ?_⟩
  have hnext :
      (callNext app downstream user request ⟨some requestId, some traceId⟩).run ⟨left, []⟩ =
        (handle app downstream ctx call).run ⟨left, []⟩ := by
    rw [callNext, hcall]
    simp only [Handler.run_bind,
      RequestContext.run_fromRequest request.headers hrequest.ne_empty htrace.ne_empty]
    rfl
  rw [application, ExceptionHandlers.run_serve exceptionHandlers false _ _ hdispatch, hnext,
    run_handle_eq, hrun]
  simp [responseTo, conclude, afterSending]

/-- Without a call nothing is sent. -/
theorem run_application_quiet {user : String} {request : InboundRequest}
    {response : OutboundResponse (Body V)}
    (hnext : ∀ state s, (callNext app downstream user request state).run s = (.ok response, s))
    (uuids : Stream' Uuid) :
    ∃ requestId left, (application app downstream user request).run ⟨uuids, []⟩ =
      (.ok (echo requestId response), ⟨left, []⟩) := by
  obtain ⟨requestId, traceId, left, -, -, -, hdispatch⟩ :=
    run_dispatch_storedState (ε := Fault) (β := Body V) false request.headers
      (⟨uuids, []⟩ : Runtime Sent)
  refine ⟨requestId, left, ?_⟩
  rw [application, ExceptionHandlers.run_serve exceptionHandlers false _ _ hdispatch, hnext]
  rfl

end Novon.Bff
