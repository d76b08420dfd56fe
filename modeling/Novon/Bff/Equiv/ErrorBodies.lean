import Novon.Bff.Application
import Novon.Bff.Equiv.Ingress
import Novon.Core.Equiv.Application
import Novon.Core.Equiv.ErrorMapping

/-!
# What error responses tell of downstream bodies

Two runs of a proxied endpoint whose attempts agree in kind, and may differ in the bodies of errors
and of unreadable successes, make the same attempts.  Their responses are the same unless the
attempt that ends the call has, in one of the runs only, a body on which the JSON decoder raises
what the client does not catch (`error_bodies_iff`): a mapped error then stands against the
framework's own.
-/

namespace Novon

namespace BaseServiceClient

variable {J V : Type} {codec : Codec J V}

/-- Outcomes of the same kind.  A readable body is the same in both. -/
inductive SameKind (codec : Codec J V) (model : TypeHint) : Outcome → Outcome → Prop
  | error (exc : LibraryError) : SameKind codec model (.error exc) (.error exc)
  | failure {response response' : Response} (h : response.isSuccess = false)
    (hstatus : response.statusCode = response'.statusCode) :
    SameKind codec model (.ok response) (.ok response')
  | readable {response : Response} (h : response.isSuccess = true) {result : Result V}
    (hread : parseResponse codec response (some model) = .ok result) :
    SameKind codec model (.ok response) (.ok response)
  | unreadable {response response' : Response} (h : response.isSuccess = true)
    (hstatus : response.statusCode = response'.statusCode) {exc exc' : Raised}
    (hread : parseResponse codec response (some model) = .error exc)
    (hread' : parseResponse codec response' (some model) = .error exc') :
    SameKind codec model (.ok response) (.ok response')

variable {model : TypeHint} {outcome outcome' : Outcome}

theorem SameKind.symm (h : SameKind codec model outcome outcome') :
    SameKind codec model outcome' outcome := by
  cases h with
  | error exc => exact .error exc
  | readable hs hread => exact .readable hs hread
  | failure hs hstatus =>
    exact .failure (by rw [← hs, Response.isSuccess, Response.isSuccess, hstatus]) hstatus.symm
  | unreadable hs hstatus hread hread' =>
    exact .unreadable (by rw [← hs, Response.isSuccess, Response.isSuccess, hstatus]) hstatus.symm
      hread' hread

/-- An outcome whose kind is tried again in one run is tried again in the other, if it is mapped. -/
theorem SameKind.transient (h : SameKind codec model outcome outcome')
    (htransient : transient codec outcome = true) (hmapped : ¬ Unmapped codec model outcome') :
    BaseServiceClient.transient codec outcome' = true := by
  cases h with
  | error exc => exact htransient
  | readable hs hread => exact htransient
  | @failure response response' hs hstatus =>
    obtain ⟨hlarge, -⟩ := Bool.and_eq_true_iff.mp htransient
    have hs' : response'.isSuccess = false := by
      rw [← hs, Response.isSuccess, Response.isSuccess, hstatus]
    rw [hstatus] at hlarge
    refine Bool.and_eq_true_iff.mpr ⟨hlarge, ?_⟩
    by_contra htext
    exact hmapped (.inl ⟨hs', by simpa using htext⟩)
  | @unreadable response response' hs hstatus =>
    have hlarge := of_decide_eq_true (Bool.and_eq_true_iff.mp htransient).1
    simp only [Response.isSuccess, decide_eq_true_eq] at hs
    omega

/-! ### One attempt in both runs -/

/-- The error response to an error status does not depend on the text. -/
theorem serviceCallErrorHandler_httpError (client : BaseServiceClient) (status : ℤ)
    (body body' : String) :
    serviceCallErrorHandler (httpError client status body) =
      serviceCallErrorHandler (httpError client status body') := by
  unfold httpError
  split_ifs <;> rfl

/-- Failures of the same kind have the same error response, if they are mapped. -/
theorem SameKind.handler_eq (h : SameKind codec model outcome outcome')
    {client : BaseServiceClient} {exc exc' : ServiceCallError}
    (he : requestOnce codec client (some model) outcome = .error (.service exc))
    (he' : requestOnce codec client (some model) outcome' = .error (.service exc')) :
    serviceCallErrorHandler exc = serviceCallErrorHandler exc' := by
  cases h with
  | error _ | readable _ _ =>
    obtain rfl := Raised.service.inj (Except.error.inj (he.symm.trans he'))
    rfl
  | @failure response response' hs hstatus =>
    have hs' : response'.isSuccess = false := by
      rw [← hs, Response.isSuccess, Response.isSuccess, hstatus]
    have hmap : ∀ {r : Response} {e : ServiceCallError}, r.isSuccess = false →
        Maps codec client (some model) (.ok r) (.error (.service e)) →
        ∃ body, e = httpError client r.statusCode body := by
      intro r e hr hmaps
      cases hmaps with
      | @status _ body _ _ => exact ⟨body, rfl⟩
      | unreadable hs _ _ _ => cases hr.symm.trans hs
      | uncaught hs _ _ => cases hr.symm.trans hs
    obtain ⟨body, rfl⟩ := hmap hs (maps_of_service codec client he)
    obtain ⟨body', rfl⟩ := hmap hs' (maps_of_service codec client he')
    rw [hstatus]
    exact serviceCallErrorHandler_httpError client _ _ _
  | @unreadable response response' hs hstatus =>
    have hs' : response'.isSuccess = true := by
      rw [← hs, Response.isSuccess, Response.isSuccess, hstatus]
    have hmap : ∀ {r : Response} {e : ServiceCallError}, r.isSuccess = true →
        Maps codec client (some model) (.ok r) (.error (.service e)) →
        ∃ body, e = unreadableBody client body := by
      intro r e hr hmaps
      cases hmaps with
      | status hs _ => cases hr.symm.trans hs
      | @unreadable _ _ body _ _ _ _ => exact ⟨body, rfl⟩
      | uncaught _ hparse _ => exact absurd rfl ((raised_parseResponse codec hparse).1 e)
    obtain ⟨body, rfl⟩ := hmap hs (maps_of_service codec client he)
    obtain ⟨body', rfl⟩ := hmap hs' (maps_of_service codec client he')
    rfl

/-- Of what an attempt raises, the exceptions that are no `ServiceCallError` are unmapped. -/
theorem unmapped_iff_of_error {client : BaseServiceClient} {raised : Raised}
    (h : requestOnce codec client (some model) outcome = .error raised) :
    Unmapped codec model outcome ↔ ∃ cls text, raised = .other cls text := by
  have hmapped := mapped_requestOnce codec client model outcome
  rw [h] at hmapped
  cases raised with
  | service exc => exact iff_of_false (hmapped.mp trivial) (by simp)
  | other cls text => exact iff_of_true (by_contra fun hno => hmapped.mpr hno) ⟨cls, text, rfl⟩

/-- A response that is no success, or that is unreadable, makes an attempt raise. -/
theorem exists_requestOnce_error (client : BaseServiceClient) {response : Response}
    (h : response.isSuccess = false ∨
      ∃ exc, parseResponse codec response (some model) = .error exc) :
    ∃ raised, requestOnce codec client (some model) (.ok response) = .error raised := by
  rw [requestOnce]
  split
  · exact ⟨_, rfl⟩
  · next hs =>
    obtain ⟨exc, hexc⟩ := h.resolve_left (by simpa using hs)
    rw [hexc]
    dsimp only
    split <;> exact ⟨_, rfl⟩

end BaseServiceClient

namespace Bff

open BaseServiceClient RequestIDMiddleware

variable {J V : Type} (app : App J V)

/-- The downstream call of a proxied endpoint. -/
def outboundFor : BffCall → Service × OutboundCall
  | .listFlows => (.flow, FlowServiceClient.outboundCall .listFlows)
  | .getFlow flowId | .getFlowWithOwner flowId =>
    (.flow, FlowServiceClient.outboundCall (.getFlow flowId))
  | .createFlow payload => (.flow, FlowServiceClient.outboundCall (.createFlow payload))
  | .getUser userId => (.uc, UcServiceClient.outboundCall (.getUser userId))
  | .getUserByUsername username => (.uc, UcServiceClient.outboundCall (.getUserByUsername username))

/-- Its response model. -/
def modelOf : BffCall → TypeHint
  | .listFlows => .listOf (.cls "FlowResponse")
  | .getFlow _ | .createFlow _ | .getFlowWithOwner _ => .cls "FlowResponse"
  | .getUser _ | .getUserByUsername _ => .cls "UserResponse"

def clientOf (clients : AppClients) : Service → BaseServiceClient
  | .flow => clients.flow
  | .uc => clients.uc

/-- The response with the result of the call. -/
def present : BffCall → Result V → OutboundResponse (Body V)
  | .createFlow _, result => ⟨201, [], .result result⟩
  | .getFlowWithOwner _, result => ⟨200, [], .flowWithOwner result⟩
  | _, result => ⟨200, [], .result result⟩

/-- What a handler returns or raises when this outcome ends its call. -/
def conclude (call : BffCall) (outcome : Outcome) : Except Fault (OutboundResponse (Body V)) :=
  ((requestOnce app.codec (clientOf app.clients (outboundFor call).1) (some (modelOf call))
    outcome).mapError Fault.raised).map (present call)

/-- The attempts that a call may make. -/
def attemptsOf (call : BffCall) : ℕ :=
  attemptLimit (clientOf app.clients (outboundFor call).1) (outboundFor call).2.method

/-- A client call that is answered attempt by attempt. -/
theorem run_invoke_replay (outcomes : ℕ → Outcome) (service : Service)
    (client : BaseServiceClient) (ctx : RequestContext) (call : OutboundCall)
    (hnone : call.expectsNone = false) (uuids : Stream' Uuid) :
    ∃ i, Decides app.codec (attemptLimit client call.method) outcomes i ∧
      (invoke app (replay outcomes) service client ctx (.ok call)).run ⟨uuids, []⟩ =
        ((requestOnce app.codec client call.responseModel (outcomes i)).mapError .raised,
          afterSending ⟨uuids, []⟩ ⟨service, Feign.send app.lib ctx.toHeaders call⟩ (i + 1)) := by
  let sent : Sent := ⟨service, Feign.send app.lib ctx.toHeaders call⟩
  have hsend : ∀ k, send (replay outcomes) sent (afterSending ⟨uuids, []⟩ sent k) =
      (streamSend outcomes k).map id (afterSending ⟨uuids, []⟩ sent) := by
    intro k
    simp [send, afterSending, streamSend, replay, List.replicate_succ']
  have hmap := request_map app.codec client hsend call.method call.responseModel 0
  obtain ⟨i, hdecides, hstream⟩ :=
    request_stream app.codec client outcomes call.method call.responseModel
  have hzero : afterSending ⟨uuids, []⟩ sent 0 = ⟨uuids, []⟩ := by simp [afterSending]
  rw [hstream, hzero] at hmap
  refine ⟨i, hdecides, ?_⟩
  have hinvoke : (invoke app (replay outcomes) service client ctx (.ok call)).run ⟨uuids, []⟩ =
      (request app.codec client (send (replay outcomes) sent) call.method call.responseModel
        ⟨uuids, []⟩).map (Except.mapError .raised) id := by
    simp only [invoke, Handler.run, hnone]
    rfl
  rw [hinvoke, hmap]
  rfl

theorem outboundFor_responseModel (call : BffCall) :
    (outboundFor call).2.responseModel = some (modelOf call) := by
  cases call <;> rfl

theorem outboundFor_expectsNone (call : BffCall) : (outboundFor call).2.expectsNone = false := by
  cases call <;> rfl

theorem sentFor_eq (lib : HttpLib) (headers : Dict String String) (call : BffCall) :
    sentFor lib headers call =
      ⟨(outboundFor call).1, Feign.send lib headers (outboundFor call).2⟩ := by
  cases call <;> rfl

/-- A handler makes the one downstream call of its endpoint and presents the result. -/
theorem run_handle_eq (downstream : Downstream) (ctx : RequestContext) (call : BffCall)
    (s : Runtime Sent) :
    (handle app downstream ctx call).run s =
      ((invoke app downstream (outboundFor call).1 (clientOf app.clients (outboundFor call).1) ctx
        (.ok (outboundFor call).2)).run s).map (Except.map (present call)) id := by
  cases call with
  | listFlows | getFlow _ | createFlow _ | getFlowWithOwner _ =>
    simp only [handle, Handler.run_bind, flowClient, FlowServiceClient.outbound_eq, outboundFor,
      clientOf]
    rcases (invoke app downstream .flow app.clients.flow ctx _).run s with ⟨_ | _, _⟩ <;> rfl
  | getUser _ | getUserByUsername _ =>
    simp only [handle, Handler.run_bind, ucClient, UcServiceClient.outbound_eq, outboundFor,
      clientOf]
    rcases (invoke app downstream .uc app.clients.uc ctx _).run s with ⟨_ | _, _⟩ <;> rfl

/-- **A handler** concludes from the outcome of the attempt that decides its call. -/
theorem run_handle_replay (outcomes : ℕ → Outcome) (ctx : RequestContext) (call : BffCall)
    (uuids : Stream' Uuid) :
    ∃ i, Decides app.codec (attemptsOf app call) outcomes i ∧
      (handle app (replay outcomes) ctx call).run ⟨uuids, []⟩ =
        (conclude app call (outcomes i),
          afterSending ⟨uuids, []⟩ (sentFor app.lib ctx.toHeaders call) (i + 1)) := by
  obtain ⟨i, hdecides, hrun⟩ := run_invoke_replay app outcomes (outboundFor call).1
    (clientOf app.clients (outboundFor call).1) ctx (outboundFor call).2
    (outboundFor_expectsNone call) uuids
  refine ⟨i, hdecides, ?_⟩
  rw [run_handle_eq, hrun, outboundFor_responseModel, sentFor_eq]
  rfl

/-! ### The responses of two runs -/

/-- The response to an inbound request whose call is decided by this outcome. -/
def responseTo (requestId : String) (call : BffCall) (outcome : Outcome) :
    OutboundResponse (Body V) :=
  exceptionHandlers.respond requestId (conclude app call outcome)

/-- Status and body are the same. -/
def SameAnswer (response response' : OutboundResponse (Body V)) : Prop :=
  response.statusCode = response'.statusCode ∧ response.body = response'.body

theorem responseTo_of_service (requestId : String) {call : BffCall} {outcome : Outcome}
    {exc : ServiceCallError}
    (h : requestOnce app.codec (clientOf app.clients (outboundFor call).1) (some (modelOf call))
      outcome = .error (.service exc)) :
    (responseTo app requestId call outcome).statusCode =
        (serviceCallErrorHandler exc).statusCode ∧
      (responseTo app requestId call outcome).body =
        .error (serviceCallErrorHandler exc).content := by
  rw [responseTo, conclude, h]
  exact ⟨rfl, rfl⟩

theorem responseTo_of_other (requestId : String) {call : BffCall} {outcome : Outcome}
    {cls : ExcClass} {text : String}
    (h : requestOnce app.codec (clientOf app.clients (outboundFor call).1) (some (modelOf call))
      outcome = .error (.other cls text)) :
    (responseTo app requestId call outcome).statusCode = 500 ∧
      (responseTo app requestId call outcome).body = .detail "Internal Server Error" := by
  rw [responseTo, conclude, h]
  exact ⟨rfl, rfl⟩

/-- Where both runs raise, what is raised decides. -/
theorem sameAnswer_iff_of_errors (requestId : String) {call : BffCall}
    {outcome outcome' : Outcome} (h : SameKind app.codec (modelOf call) outcome outcome')
    {raised raised' : Raised}
    (hr : requestOnce app.codec (clientOf app.clients (outboundFor call).1) (some (modelOf call))
      outcome = .error raised)
    (hr' : requestOnce app.codec (clientOf app.clients (outboundFor call).1) (some (modelOf call))
      outcome' = .error raised') :
    SameAnswer (responseTo app requestId call outcome) (responseTo app requestId call outcome') ↔
      (Unmapped app.codec (modelOf call) outcome ↔
        Unmapped app.codec (modelOf call) outcome') := by
  rw [unmapped_iff_of_error hr, unmapped_iff_of_error hr']
  cases raised with
  | service exc =>
    have hanswer := responseTo_of_service app requestId hr
    cases raised' with
    | service exc' =>
      -- the text is in the exception, not in the response
      have hanswer' := responseTo_of_service app requestId hr'
      have hsame := h.handler_eq hr hr'
      refine iff_of_true ⟨?_, ?_⟩ (by simp)
      · rw [hanswer.1, hanswer'.1, hsame]
      · rw [hanswer.2, hanswer'.2, hsame]
    | other cls' text' =>
      have hanswer' := responseTo_of_other app requestId hr'
      refine iff_of_false (fun hsame => ?_) (by simp)
      cases hanswer.2.symm.trans (hsame.2.trans hanswer'.2)
  | other cls text =>
    have hanswer := responseTo_of_other app requestId hr
    cases raised' with
    | service exc' =>
      -- the framework's 500 against a mapped error
      have hanswer' := responseTo_of_service app requestId hr'
      refine iff_of_false (fun hsame => ?_) (by simp)
      cases hanswer.2.symm.trans (hsame.2.trans hanswer'.2)
    | other cls' text' =>
      have hanswer' := responseTo_of_other app requestId hr'
      exact iff_of_true ⟨hanswer.1.trans hanswer'.1.symm, hanswer.2.trans hanswer'.2.symm⟩
        (by simp)

/-- **One attempt in two runs**: outcomes of the same kind are answered alike unless the client
leaves only one of them unmapped. -/
theorem sameAnswer_iff (requestId : String) {call : BffCall} {outcome outcome' : Outcome}
    (h : SameKind app.codec (modelOf call) outcome outcome') :
    SameAnswer (responseTo app requestId call outcome) (responseTo app requestId call outcome') ↔
      (Unmapped app.codec (modelOf call) outcome ↔ Unmapped app.codec (modelOf call) outcome') := by
  cases h with
  | error exc => exact iff_of_true ⟨rfl, rfl⟩ Iff.rfl
  | readable hs hread => exact iff_of_true ⟨rfl, rfl⟩ Iff.rfl
  | @failure response response' hs hstatus =>
    have hs' : response'.isSuccess = false := by
      rw [← hs, Response.isSuccess, Response.isSuccess, hstatus]
    obtain ⟨raised, hr⟩ := exists_requestOnce_error _ (.inl hs)
    obtain ⟨raised', hr'⟩ := exists_requestOnce_error _ (.inl hs')
    exact sameAnswer_iff_of_errors app requestId (.failure hs hstatus) hr hr'
  | unreadable hs hstatus hread hread' =>
    obtain ⟨raised, hr⟩ := exists_requestOnce_error _ (.inr ⟨_, hread⟩)
    obtain ⟨raised', hr'⟩ := exists_requestOnce_error _ (.inr ⟨_, hread'⟩)
    exact sameAnswer_iff_of_errors app requestId (.unreadable hs hstatus hread hread') hr hr'

/-! ### Two runs -/

/-- The context of the downstream call. -/
def contextFor (user : String) (request : InboundRequest) (requestId traceId : String) :
    RequestContext :=
  ⟨request.headers.get "Authorization", some requestId, some traceId, some user⟩

/-- A run of a proxied endpoint ends with the outcome that decides its call. -/
theorem run_application (outcomes : ℕ → Outcome) {user : String} {request : InboundRequest}
    {call : BffCall} (hcall : route app.framework user request = .call call)
    {requestId traceId : String} (hrequest : requestId ≠ "") (htrace : traceId ≠ "")
    {uuids left : Stream' Uuid}
    (hdispatch : ∀ callNext :
        RequestState → Handler Fault (Runtime Sent) (OutboundResponse (Body V)),
      (dispatch false callNext request.headers).run ⟨uuids, []⟩ =
        ((callNext ⟨some requestId, some traceId⟩).run ⟨left, []⟩).map
          (Except.map (echo requestId)) id) :
    ∃ i, Decides app.codec (attemptsOf app call) outcomes i ∧
      (application app (replay outcomes) user request).run ⟨uuids, []⟩ =
        (.ok (responseTo app requestId call (outcomes i)),
          afterSending ⟨left, []⟩ (sentFor app.lib
            (contextFor user request requestId traceId).toHeaders call) (i + 1)) := by
  obtain ⟨i, hdecides, hrun⟩ :=
    run_handle_replay app outcomes (contextFor user request requestId traceId) call left
  refine ⟨i, hdecides, ?_⟩
  have hnext : (callNext app (replay outcomes) user request
      ⟨some requestId, some traceId⟩).run ⟨left, []⟩ =
        (handle app (replay outcomes) (contextFor user request requestId traceId) call).run
          ⟨left, []⟩ := by
    rw [callNext, hcall]
    simp only [Handler.run_bind, RequestContext.run_fromRequest request.headers hrequest htrace]
    rfl
  rw [application, ExceptionHandlers.run_serve exceptionHandlers false _ _ hdispatch, hnext, hrun]
  rfl

/-- Of two runs whose attempts agree in kind, one goes on no longer than the other if where that
ends both or neither is left unmapped. -/
theorem le_of_decides {codec : Codec J V} {model : TypeHint} {limit : ℕ} {o o' : ℕ → Outcome}
    {i i' : ℕ} (hi : Decides codec limit o i) (hi' : Decides codec limit o' i')
    (hsame : SameKind codec model (o' i) (o i))
    (hiff : Unmapped codec model (o i) ↔ Unmapped codec model (o' i)) : i' ≤ i := by
  by_contra hlt
  have hagain := hi'.transient_of_lt i (Nat.lt_of_not_le hlt)
  have hmapped : ¬ Unmapped codec model (o' i) := by
    intro hunmapped
    rw [not_transient_of_unmapped codec hunmapped] at hagain
    cases hagain
  have hother := hsame.transient hagain (hiff.not.mpr hmapped)
  rcases hi.last with hlast | hlast
  · rw [hother] at hlast
    cases hlast
  · have hlimit := hi'.lt
    omega

/-- **Downstream bodies do not show in errors, but for what is left unmapped.**  Two runs of a
proxied endpoint whose attempts agree in kind have the same response and send the same requests,
equally many, exactly when the outcome that ends the call of either run is left unmapped by the
client in both runs or in none. -/
theorem error_bodies_iff (user : String) (request : InboundRequest) (call : BffCall)
    (hcall : route app.framework user request = .call call) (outcomes outcomes' : ℕ → Outcome)
    (hkind : ∀ i, SameKind app.codec (modelOf call) (outcomes i) (outcomes' i))
    (uuids : Stream' Uuid) :
    ∃ response response' final final',
      (application app (replay outcomes) user request).run ⟨uuids, []⟩ = (.ok response, final) ∧
      (application app (replay outcomes') user request).run ⟨uuids, []⟩ =
        (.ok response', final') ∧
      (SameAnswer response response' ∧ final = final' ↔
        ∀ i, Decides app.codec (attemptsOf app call) outcomes i ∨
            Decides app.codec (attemptsOf app call) outcomes' i →
          (Unmapped app.codec (modelOf call) (outcomes i) ↔
            Unmapped app.codec (modelOf call) (outcomes' i))) := by
  obtain ⟨requestId, traceId, left, hrequest, htrace, -, hdispatch⟩ :=
    run_dispatch_storedState (ε := Fault) (β := Body V) false request.headers
      (⟨uuids, []⟩ : Runtime Sent)
  obtain ⟨i, hi, hrun⟩ := run_application app outcomes hcall hrequest.ne_empty htrace.ne_empty
    hdispatch
  obtain ⟨i', hi', hrun'⟩ := run_application app outcomes' hcall hrequest.ne_empty htrace.ne_empty
    hdispatch
  refine ⟨_, _, _, _, hrun, hrun', ?_⟩
  constructor
  · rintro ⟨hsame, hfinal⟩
    -- as many requests: the same attempt ends the call
    obtain rfl : i = i' := by
      have hlength := congrArg (fun s => s.events.length) hfinal
      simpa [afterSending] using hlength
    intro k hk
    obtain rfl : k = i := hk.elim (fun h => h.unique hi) fun h => h.unique hi'
    exact (sameAnswer_iff app requestId (hkind k)).mp hsame
  · intro h
    obtain rfl : i = i' :=
      Nat.le_antisymm (le_of_decides hi' hi (hkind i') (h i' (.inr hi')).symm)
        (le_of_decides hi hi' (hkind i).symm (h i (.inl hi)))
    exact ⟨(sameAnswer_iff app requestId (hkind i)).mpr (h i (.inl hi)), rfl⟩

/-- An application whose downstream bodies are the letter `x` or integers of too many digits. -/
def App.unreadable : App Unit Unit :=
  { App.sample with
    codec := {
      toTextDecoder := .sample
      loads
        | 0x78 :: _ => .error ⟨.jsonDecodeError, "Expecting value: line 1 column 1 (char 0)",
            jsonDecodeError_isDecodeError⟩
        | _ => .error ⟨.valueError, "Exceeds the limit (4300 digits) for integer string conversion",
            by decide⟩
      validatePython := fun _ _ => none } }

/-- A body that is one integer of 4301 digits. -/
def longInteger : Bytes := List.replicate 4301 0x31

theorem error_bodies_iff_notFound :
    ∃ response response' final final',
      (application .unreadable (replay fun _ => .ok ⟨404, [], [0x78]⟩) getCurrentUser
        (getRelease [])).run ⟨.const .one, []⟩ = (.ok response, final) ∧
      (application .unreadable (replay fun _ => .ok ⟨404, [], [0x31]⟩) getCurrentUser
        (getRelease [])).run ⟨.const .one, []⟩ = (.ok response', final') ∧
      SameAnswer response response' ∧ final = final' := by
  obtain ⟨response, response', final, final', hrun, hrun', hiff⟩ := error_bodies_iff .unreadable
    getCurrentUser (getRelease []) (.getFlow "release") rfl (fun _ => .ok ⟨404, [], [0x78]⟩)
    (fun _ => .ok ⟨404, [], [0x31]⟩) (fun _ => .failure rfl rfl) (.const .one)
  have hmapped : ∀ content : Bytes,
      ¬ Unmapped App.unreadable.codec (modelOf (.getFlow "release")) (.ok ⟨404, [], content⟩) := by
    rintro content (⟨-, htext⟩ | ⟨hs, -⟩)
    · cases htext
    · cases hs
  exact ⟨response, response', final, final', hrun, hrun',
    hiff.mpr fun i _ => iff_of_false (hmapped _) (hmapped _)⟩

/-- Of two unreadable bodies, one is answered with the mapped error and one with the framework's.
And under a charset that decodes one of two error bodies only, there is one request against
three. -/
theorem unreadable_bodies_differ :
    SameKind App.unreadable.codec (modelOf (.getFlow "release")) (.ok ⟨200, [], [0x78]⟩)
        (.ok ⟨200, [], longInteger⟩) ∧
      (∃ response response' final,
        (application .unreadable (replay fun _ => .ok ⟨200, [], [0x78]⟩) getCurrentUser
          (getRelease [])).run ⟨.const .one, []⟩ = (.ok response, final) ∧
        (application .unreadable (replay fun _ => .ok ⟨200, [], longInteger⟩) getCurrentUser
          (getRelease [])).run ⟨.const .one, []⟩ = (.ok response', final) ∧
        response.statusCode = 502 ∧ response'.statusCode = 500) ∧
    SameKind App.unreadable.codec (modelOf (.getFlow "release"))
        (.ok ⟨503, undefinedCharset, []⟩) (.ok ⟨503, undefinedCharset, [0x78]⟩) ∧
      ∃ response response' final final',
        (application .unreadable (replay fun _ => .ok ⟨503, undefinedCharset, []⟩) getCurrentUser
          (getRelease [])).run ⟨.const .one, []⟩ = (.ok response, final) ∧
        (application .unreadable (replay fun _ => .ok ⟨503, undefinedCharset, [0x78]⟩)
          getCurrentUser (getRelease [])).run ⟨.const .one, []⟩ = (.ok response', final') ∧
        response.statusCode = 502 ∧ response'.statusCode = 500 ∧
        final.events.length = 3 ∧ final'.events.length = 1 :=
  ⟨.unreadable rfl rfl rfl rfl, ⟨_, _, _, rfl, rfl, rfl, rfl⟩, .failure rfl rfl,
    _, _, _, _, rfl, rfl, rfl, rfl, rfl, rfl⟩

end Bff

end Novon
