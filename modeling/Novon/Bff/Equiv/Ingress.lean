import Novon.Auth
import Novon.Bff.Application
import Novon.Core.Equiv.Application
import Novon.Core.Equiv.BaseClient
import Novon.Core.Equiv.Context
import Novon.FlowApi.Equiv.Client
import Novon.Http.Equiv.Router
import Novon.UcApi.Equiv.Client

/-!
# What an inbound request can tell the downstream services

All requests that the BFF sends for an inbound request are equal (`sends_eq`), and nothing else goes
into them than the call, the credential, the identity and the two ids that the edge has settled on.
So inbound requests that agree in the first line, the body and the headers `Authorization` and
`X-Request-ID` have the BFF send the same (`ingress_noninterference`).
-/

namespace Novon.Bff

open RequestIDMiddleware RequestContext BaseServiceClient

variable {J V : Type} (app : App J V) (downstream : Downstream)

/-! ### The requests of one call -/

/-- The runtime after `k` requests that are all `sent`. -/
def afterSending (s : Runtime Sent) (sent : Sent) (k : ℕ) : Runtime Sent :=
  { s with events := s.events ++ List.replicate k sent }

/-- **A client call** sends one request, some number of times but at least once. -/
theorem run_invoke (service : Service) (client : BaseServiceClient) (ctx : RequestContext)
    (call : OutboundCall) (s : Runtime Sent) :
    ∃ k, ((invoke app downstream service client ctx (.ok call)).run s).2 =
      afterSending s ⟨service, Feign.send app.lib ctx.toHeaders call⟩ (k + 1) := by
  let sent : Sent := ⟨service, Feign.send app.lib ctx.toHeaders call⟩
  -- attempt `k` is answered with what the downstream makes of `k + 1` requests
  have hsend : ∀ k, send downstream sent (afterSending s sent k) =
      (streamSend (fun k => downstream (s.events ++ List.replicate (k + 1) sent)) k).map id
        (afterSending s sent) := by
    intro k
    simp [send, afterSending, streamSend, List.replicate_succ']
  have hmap := request_map app.codec client hsend call.method call.responseModel 0
  obtain ⟨i, -, hstream⟩ := request_stream app.codec client
    (fun k => downstream (s.events ++ List.replicate (k + 1) sent)) call.method call.responseModel
  rw [hstream] at hmap
  have hzero : afterSending s sent 0 = s := by
    simp [afterSending]
  rw [hzero] at hmap
  refine ⟨i, ?_⟩
  show (request app.codec client (send downstream sent) call.method call.responseModel s).2 = _
  rw [hmap]
  rfl

def sentFor (lib : HttpLib) (headers : Dict String String) : BffCall → Sent
  | .listFlows => ⟨.flow, FlowServiceClient.sent lib headers .listFlows⟩
  | .getFlow flowId | .getFlowWithOwner flowId =>
    ⟨.flow, FlowServiceClient.sent lib headers (.getFlow flowId)⟩
  | .createFlow payload => ⟨.flow, FlowServiceClient.sent lib headers (.createFlow payload)⟩
  | .getUser userId => ⟨.uc, UcServiceClient.sent lib headers (.getUser userId)⟩
  | .getUserByUsername username =>
    ⟨.uc, UcServiceClient.sent lib headers (.getUserByUsername username)⟩

theorem sentFor_headers (lib : HttpLib) (headers : Dict String String) (call : BffCall) :
    (sentFor lib headers call).request.headers = headers := by
  cases call <;> rfl

/-- **A handler** sends the request of its call, at least once, and no other. -/
theorem run_handle (ctx : RequestContext) (call : BffCall) (s : Runtime Sent) :
    ∃ k, ((handle app downstream ctx call).run s).2 =
      afterSending s (sentFor app.lib ctx.toHeaders call) (k + 1) := by
  have hflow : ∀ call : FlowCall, ∃ k, ((flowClient app downstream ctx call).run s).2 =
      afterSending s ⟨.flow, FlowServiceClient.sent app.lib ctx.toHeaders call⟩ (k + 1) := by
    intro call
    rw [flowClient, FlowServiceClient.outbound_eq]
    exact run_invoke app downstream .flow app.clients.flow ctx _ s
  have huc : ∀ call : UcCall, ∃ k, ((ucClient app downstream ctx call).run s).2 =
      afterSending s ⟨.uc, UcServiceClient.sent app.lib ctx.toHeaders call⟩ (k + 1) := by
    intro call
    rw [ucClient, UcServiceClient.outbound_eq]
    exact run_invoke app downstream .uc app.clients.uc ctx _ s
  cases call with
  | listFlows | getFlow _ | createFlow _ | getFlowWithOwner _ =>
    simp only [handle, Handler.snd_run_bind_pure]
    exact hflow _
  | getUser _ | getUserByUsername _ =>
    simp only [handle, Handler.snd_run_bind_pure]
    exact huc _

/-! ### One inbound request -/

/-- The handler of `serve` is the one that the application registers: the application answers what
`serve` does, and what it raises with the framework's own response. -/
theorem handle_exceptionHandlers (x : Handler Fault (Runtime Sent) (OutboundResponse (Body V))) :
    exceptionHandlers.handle x = handleServiceCallError x := by
  funext s
  show (exceptionHandlers.handle x).run s = (handleServiceCallError x).run s
  rw [ExceptionHandlers.run_handle, handleServiceCallError, Handler.run_bind, Handler.run_attempt]
  rcases x.run s with ⟨((_ | _) | _) | _, _⟩ <;> rfl

/-- The request that an inbound request has the BFF send, if any, with the two ids. -/
def forwarded (user : String) (request : InboundRequest) (requestId traceId : String) :
    Option Sent :=
  match route app.framework user request with
  | .call call => some (sentFor app.lib (RequestContext.toHeaders
      ⟨request.headers.get "Authorization", some requestId, some traceId, some user⟩) call)
  | _ => none

theorem run_callNext (user : String) (request : InboundRequest) {requestId traceId : String}
    (hrequest : requestId ≠ "") (htrace : traceId ≠ "") (s : Runtime Sent) :
    ∃ k, ((callNext app downstream user request ⟨some requestId, some traceId⟩).run s).2 =
      match forwarded app user request requestId traceId with
      | some sent => afterSending s sent (k + 1)
      | none => s := by
  unfold callNext forwarded
  -- only a call that is routed and valid builds a context
  cases route app.framework user request with
  | unrouted | static _ | invalid => exact ⟨0, rfl⟩
  | call call =>
    simp only [Handler.run_bind, run_fromRequest request.headers hrequest htrace]
    exact run_handle app downstream _ call s

/-- The requests that the BFF sends for an inbound request. -/
def sends (user : String) (uuids : Stream' Uuid) (request : InboundRequest) : List Sent :=
  ((serve app downstream user request).run ⟨uuids, []⟩).2.events

/-- **All requests of a run are one and the same**, which the edge's ids determine. -/
theorem sends_eq (user : String) (uuids : Stream' Uuid) (request : InboundRequest) :
    ∃ requestId traceId left,
      EdgeIds (request.headers.get "X-Request-ID") uuids requestId traceId left ∧
      (∀ sent ∈ sends app downstream user uuids request,
        forwarded app user request requestId traceId = some sent) ∧
      (sends app downstream user uuids request = [] ↔
        forwarded app user request requestId traceId = none) := by
  obtain ⟨requestId, traceId, left, hids, hdispatch⟩ := run_dispatch_edge request.headers
    (fun state => handleServiceCallError (callNext app downstream user request state))
    ⟨uuids, []⟩
  -- the handler starts with the UUIDs that the edge has left
  obtain ⟨k, hk⟩ := run_callNext app downstream user request hids.isToken_requestId.ne_empty
    hids.isToken_traceId.ne_empty ⟨left, []⟩
  have hsends : sends app downstream user uuids request =
      match forwarded app user request requestId traceId with
      | some sent => List.replicate (k + 1) sent
      | none => [] := by
    rw [sends, serve, hdispatch, Prod.map_snd, id_eq, ← handle_exceptionHandlers,
      ExceptionHandlers.snd_run_handle, hk]
    cases forwarded app user request requestId traceId with
    | none => rfl
    | some sent => rfl
  refine ⟨requestId, traceId, left, hids, ?_⟩
  rw [hsends]
  cases forwarded app user request requestId traceId with
  | none => simp
  | some sent =>
    refine ⟨fun sent' hsent' => ?_, by simp⟩
    rw [List.eq_of_mem_replicate hsent']

/-! ### Two inbound requests -/

/-- The requests agree in what may reach a downstream service. -/
structure Agree (request request' : InboundRequest) : Prop where
  method : request.method = request'.method
  path : request.path = request'.path
  queryString : request.queryString = request'.queryString
  body : request.body = request'.body
  authorization : request.headers.get "Authorization" = request'.headers.get "Authorization"
  requestId : request.headers.get "X-Request-ID" = request'.headers.get "X-Request-ID"

variable {request request' : InboundRequest}

/-- The create is the only handler that reads more than the path. -/
theorem bind_congr (framework : WebFramework V) (user : String) {endpoint : Endpoint}
    (args : List String)
    (h : endpoint = .createFlow →
      parseFlowCreate framework request = parseFlowCreate framework request') :
    bind framework user request endpoint args = bind framework user request' endpoint args := by
  cases endpoint with
  | healthz | me | listFlows => rfl
  | createFlow => simp only [bind, h rfl]
  | getFlow | getUser | getUserByUsername | getFlowWithOwner =>
    -- whatever their number, the path arguments are all that is read
    rcases args with _ | ⟨arg, _ | ⟨_, _⟩⟩ <;> rfl

theorem method_of_dispatch_createFlow {method path : String} {args : List String}
    (h : Router.dispatch routeTable method path = some (.createFlow, args)) : method = "POST" := by
  have htable : ∀ r ∈ routeTable, r.endpoint = .createFlow → r.method = "POST" := by
    simp [routeTable]
  exact Router.method_of_dispatch h htable

/-- **The same is asked for**, if the framework parses the bodies of both or of neither. -/
theorem Agree.route_eq (h : Agree request request') (framework : WebFramework V) (user : String)
    (hparses : request.method = "POST" → framework.parsesJson (request.headers.get "Content-Type") =
      framework.parsesJson (request'.headers.get "Content-Type")) :
    route framework user request = route framework user request' := by
  rw [route, route, ← h.method, ← h.path]
  cases hdispatch : Router.dispatch routeTable request.method request.path with
  | none => rfl
  | some target =>
    obtain ⟨endpoint, args⟩ := target
    refine bind_congr framework user args fun hcreate => ?_
    rw [hcreate] at hdispatch
    rw [parseFlowCreate, parseFlowCreate, hparses (method_of_dispatch_createFlow hdispatch), h.body]

theorem parseFlowCreate_eq (framework : WebFramework V) (h : request.body = request'.body)
    {payload payload' : FlowCreate} (hp : parseFlowCreate framework request = some payload)
    (hp' : parseFlowCreate framework request' = some payload') : payload = payload' := by
  unfold parseFlowCreate at hp hp'
  split at hp
  · split at hp'
    · rw [h, hp'] at hp
      exact (Option.some.inj hp).symm
    · cases hp'
  · cases hp

/-- **What is asked for** differs at most in whether it is found to be valid. -/
theorem Agree.call_eq (h : Agree request request') (framework : WebFramework V) (user : String)
    {call call' : BffCall} (hcall : route framework user request = .call call)
    (hcall' : route framework user request' = .call call') : call = call' := by
  rw [route] at hcall hcall'
  rw [← h.method, ← h.path] at hcall'
  cases hdispatch : Router.dispatch routeTable request.method request.path with
  | none => simp [hdispatch] at hcall
  | some target =>
    obtain ⟨endpoint, args⟩ := target
    simp only [hdispatch] at hcall hcall'
    -- the bodies are equal, so two creates that are valid have one payload
    by_cases hcreate : endpoint = .createFlow
    · rw [hcreate, bind] at hcall hcall'
      split at hcall
      · next payload hp =>
        split at hcall'
        · next payload' hp' =>
          obtain rfl := parseFlowCreate_eq framework h.body hp hp'
          exact Routed.call.inj (hcall.symm.trans hcall')
        · cases hcall'
      · cases hcall
    · rw [bind_congr framework user args fun he => absurd he hcreate, hcall'] at hcall
      exact (Routed.call.inj hcall).symm

theorem Agree.forwarded_eq (h : Agree request request') (user requestId traceId : String)
    {sent sent' : Sent} (hsent : forwarded app user request requestId traceId = some sent)
    (hsent' : forwarded app user request' requestId traceId = some sent') : sent = sent' := by
  unfold forwarded at hsent hsent'
  split at hsent
  · next call hcall =>
    split at hsent'
    · next call' hcall' =>
      obtain rfl := h.call_eq app.framework user hcall hcall'
      rw [← Option.some.inj hsent, ← Option.some.inj hsent', h.authorization]
    · cases hsent'
  · cases hsent

/-- A request carries the identity and a trace id that has been generated. -/
def Marked (user : String) (uuids : Stream' Uuid) (sent : Sent) : Prop :=
  sent.request.headers.get? "X-User-ID" = (if user = "" then none else some user) ∧
    ∃ n, sent.request.headers.get? "X-Trace-ID" = some (uuids.get n).text

theorem marked_of_forwarded {user : String} {uuids left : Stream' Uuid} {requestId traceId : String}
    {raw : Option String} (hids : EdgeIds raw uuids requestId traceId left) {sent : Sent}
    (hsent : forwarded app user request requestId traceId = some sent) :
    Marked user uuids sent := by
  unfold forwarded at hsent
  split at hsent
  · next call hcall =>
    obtain rfl := Option.some.inj hsent
    obtain ⟨n, hn⟩ := hids.exists_get_eq_traceId
    obtain ⟨-, -, htrace, huser⟩ := get?_toHeaders
      ⟨request.headers.get "Authorization", some requestId, some traceId, some user⟩
    rw [Marked, sentFor_headers, htrace, huser]
    refine ⟨?_, n, ?_⟩
    · by_cases hempty : user = ""
      · simp [headerValue, hempty]
      · simp [headerValue_of_ne hempty, hempty]
    · rw [headerValue_of_ne hids.isToken_traceId.ne_empty, hn]
  · cases hsent

/-- **Ingress noninterference.**  For inbound requests that agree in the first line, the body and
the headers `Authorization` and `X-Request-ID`, whatever their other headers and whatever the
services answer in either run, the BFF sends the same request downstream, in all its attempts.  It
carries the identity that the auth dependency has found, and a generated trace id.  Whether one is
sent depends on no other header than the `Content-Type` of a `POST`, without which the body is not
parsed. -/
theorem ingress_noninterference (downstream' : Downstream) (user : String) (uuids : Stream' Uuid)
    (h : Agree request request') :
    (∀ sent ∈ sends app downstream user uuids request,
      ∀ sent' ∈ sends app downstream' user uuids request', sent = sent') ∧
    (∀ sent ∈ sends app downstream user uuids request ++ sends app downstream' user uuids request',
      Marked user uuids sent) ∧
    ((request.method = "POST" → app.framework.parsesJson (request.headers.get "Content-Type") =
        app.framework.parsesJson (request'.headers.get "Content-Type")) →
      (sends app downstream user uuids request = [] ↔
        sends app downstream' user uuids request' = [])) := by
  obtain ⟨requestId, traceId, left, hids, hmem, hnil⟩ := sends_eq app downstream user uuids request
  obtain ⟨requestId', traceId', left', hids', hmem', hnil'⟩ :=
    sends_eq app downstream' user uuids request'
  -- the edge settles on the same ids in both runs
  rw [← h.requestId] at hids'
  obtain ⟨rfl, rfl⟩ := hids.unique hids'
  refine ⟨?_, ?_, fun hparses => ?_⟩
  · intro sent hsent sent' hsent'
    exact h.forwarded_eq app user requestId traceId (hmem sent hsent) (hmem' sent' hsent')
  · intro sent hsent
    rcases List.mem_append.mp hsent with hsent | hsent
    · exact marked_of_forwarded app hids (hmem sent hsent)
    · exact marked_of_forwarded app hids' (hmem' sent hsent)
  · rw [hnil, hnil', forwarded, forwarded, h.route_eq app.framework user hparses]
    split <;> simp

/-! ### A run -/

/-- An application, for concrete runs. -/
def App.sample : App Unit Unit where
  lib := .sample
  codec := .sample
  framework := {
    parsesJson := fun contentType => contentType = some "application/json"
    jsonObject := fun _ => some (modelDump false FlowCreate.release.fields)
    unrouted := fun _ => ⟨404, [], .detail "Not Found"⟩
    invalid := fun _ => ⟨422, [], .detail "Unprocessable Content"⟩ }
  clients := ⟨⟨"flow", 3⟩, ⟨"uc", 3⟩⟩

/-- A `GET` of a flow with the given headers. -/
def getRelease (headers : Headers) : InboundRequest :=
  ⟨"GET", "/flows/release", "", ("x-request-id", "edge-1:57f6a2") :: headers, []⟩

theorem ingress_noninterference_claimed :
    let claimed := sends .sample (fun _ => .ok ⟨200, [], []⟩) getCurrentUser (.const .one)
      (getRelease [("x-user-id", "admin"), ("x-trace-id", "trace-1")])
    let plain :=
      sends .sample (fun _ => .ok ⟨503, [], []⟩) getCurrentUser (.const .one) (getRelease [])
    claimed.length = 1 ∧ plain.length = 3 ∧ ∀ sent ∈ claimed, ∀ sent' ∈ plain, sent = sent' := by
  have hagree : Agree (getRelease [("x-user-id", "admin"), ("x-trace-id", "trace-1")])
      (getRelease []) := ⟨rfl, rfl, rfl, rfl, rfl, rfl⟩
  exact ⟨rfl, rfl, (ingress_noninterference .sample _ _ getCurrentUser (.const .one) hagree).1⟩

/-- A `POST` of a flow with the given `Content-Type`. -/
def createRelease (contentType : String) : InboundRequest :=
  ⟨"POST", "/flows", "", [("x-request-id", "edge-1:57f6a2"), ("content-type", contentType)], []⟩

/-- Two inbound requests that differ in the `Content-Type` alone: one is refused at the BFF, and
nothing is sent for it. -/
theorem ingress_interference_contentType :
    let sends := sends .sample (fun _ => .ok ⟨201, [], []⟩) getCurrentUser (.const .one)
    Agree (createRelease "application/json") (createRelease "text/plain") ∧
      (sends (createRelease "application/json")).length = 1 ∧
      sends (createRelease "text/plain") = [] :=
  ⟨⟨rfl, rfl, rfl, rfl, rfl, rfl⟩, rfl, rfl⟩

end Novon.Bff
