import Novon.Bff.Equiv.ByUsername
import Novon.Network.Equiv.Attempts
import Novon.Network.Equiv.Lossy
import Novon.Platform.Equiv.Attempts
import Novon.Platform.Equiv.Routing
import Novon.Platform.Equiv.Typed

/-!
# The BFF refines the gateway

The services together do, on every run, what the gateway does on the stores (`gateway_refines`):
every answer of every run is the same, and so are the stores.  The BFF's part of it is one inbound
request.  It is routed, a client call is built, the call is sent attempt by attempt to a service
that routes, validates, handles and renders, and the response to the deciding attempt is parsed and
presented; `matches_serve` follows one attempt and `conduct_eq` all attempts.  The invariant that
carries it over runs is that stored records have the declared types (`Stores.Typed`).
-/

namespace Novon.Platform

open Bff BaseServiceClient Router Run

variable {J V : Type}

/-- The client reads a record of the declared types as the value of the record. -/
structure Deployment.Reads (d : Deployment J V) (v : Decoding V) : Prop where
  user : ReadsUsers d.bff.codec d.ucBody v.user
  flow : ∀ flow : FlowResponse, flow.Typed →
    ∃ json, d.bff.codec.loads (d.flowBody (.record flow)) = .ok json ∧
      d.bff.codec.validatePython (.cls "FlowResponse") json = some (v.flow flow)
  flows : ∀ flows : List FlowResponse, (∀ flow ∈ flows, flow.Typed) →
    ∃ json, d.bff.codec.loads (d.flowBody (.records flows)) = .ok json ∧
      d.bff.codec.validatePython (.listOf (.cls "FlowResponse")) json = some (v.flows flows)

/-! ### The response to one outcome -/

section Responses

variable (app : App J V) (requestId : String) {call : BffCall} {ρ : Type}

theorem client_eq (clients : AppClients) (call : BffCall) :
    Gateway.client clients call = clientOf clients (outboundFor call).1 := by
  cases call <;> rfl

/-- The request id is in the headers alone. -/
theorem shown_responseTo (requestId' : String) (outcome : Outcome) :
    shown (responseTo app requestId call outcome) =
      shown (responseTo app requestId' call outcome) := by
  unfold responseTo ExceptionHandlers.respond
  split
  · rfl
  · split <;> rfl

theorem shown_of_ok {outcome : Outcome} {result : Result V}
    (h : requestOnce app.codec (clientOf app.clients (outboundFor call).1) (some (modelOf call))
      outcome = .ok result) :
    shown (responseTo app requestId call outcome) = shown (present call result) := by
  rw [responseTo, conclude, h]
  rfl

theorem shown_of_service {outcome : Outcome} {exc : ServiceCallError}
    (h : requestOnce app.codec (clientOf app.clients (outboundFor call).1) (some (modelOf call))
      outcome = .error (.service exc)) :
    shown (responseTo app requestId call outcome) =
      .bff (serviceCallErrorHandler exc).statusCode
        (.error (serviceCallErrorHandler exc).content) := by
  obtain ⟨hstatus, hbody⟩ := responseTo_of_service app requestId h
  rw [shown, hstatus, hbody]

theorem shown_notFound (body : ReplyBody ρ → Bytes) (content : ReplyBody ρ) :
    shown (responseTo app requestId call (.ok (Lossy.render body ⟨404, content⟩))) =
      Gateway.notFound (Gateway.client app.clients call) := by
  rw [shown_of_service app requestId (Lossy.requestOnce_render app.codec _ body rfl _), client_eq]
  rfl

theorem shown_unprocessable (body : ReplyBody ρ → Bytes) (content : ReplyBody ρ) :
    shown (responseTo app requestId call (.ok (Lossy.render body ⟨422, content⟩))) =
      Gateway.unprocessable (Gateway.client app.clients call) := by
  have htext : ∀ name : String, name ++ " returned " ++ toString (422 : ℤ) =
      name ++ " returned 422" := by
    intro name
    rw [String.append_assoc]
    rfl
  rw [shown_of_service app requestId (Lossy.requestOnce_render app.codec _ body rfl _), client_eq,
    Gateway.unprocessable, ← htext]
  rfl

theorem shown_unreached (exc : TransportError) :
    shown (responseTo app requestId call (.error exc.toLibraryError)) =
      Gateway.unreached (Gateway.client app.clients call) exc := by
  have honce : requestOnce app.codec (clientOf app.clients (outboundFor call).1)
      (some (modelOf call)) (.error exc.toLibraryError) =
      .error (.service (mapTransportError (clientOf app.clients (outboundFor call).1)
        exc.toLibraryError)) := if_pos exc.isTransportError
  rw [shown_of_service app requestId honce, client_eq, Gateway.unreached, mapTransportError]
  by_cases htimeout : exc.cls.isSubclass [.timeoutException] = true
  · rw [if_pos htimeout, if_pos htimeout]
    rfl
  · rw [if_neg htimeout, if_neg htimeout]
    rfl

/-- A readable body of a successful response. -/
theorem requestOnce_readable {codec : Codec J V} {client : BaseServiceClient} {model : TypeHint}
    {response : Response} {json : J} {value : V} (hs : response.isSuccess = true)
    (hmodel : model ≠ .noneType) (hopt : (TypeHint.unwrapOptional model).2 = false)
    (hloads : codec.loads response.content = .ok json)
    (hvalidate : codec.validatePython model json = some value) :
    requestOnce codec client (some model) (.ok response) = .ok (.value value) := by
  have hparse : parseResponse codec response (some model) = .ok (.value value) := by
    unfold parseResponse
    split
    · next h => cases h
    · next h => exact absurd (Option.some.inj h) hmodel
    · next m _ h =>
      obtain rfl := Option.some.inj h
      rw [hopt, Bool.false_and, if_neg Bool.false_ne_true, validateJson, hloads]
      simp only [hvalidate]
  rw [requestOnce, hs, if_neg (by simp), hparse]

end Responses

/-! ### One attempt -/

section Attempt

variable {d : Deployment J V} {v : Decoding V} {s : Stores} {ρ : Type}

/-- The id of a call is one segment that stays where it is in a path. -/
def Plain (call : BffCall) : Prop := ∀ id, call.pathId = some id → Addressable id

/-- What an attempt that is answered shows and does is what the call does on the stores. -/
structure Matches (d : Deployment J V) (v : Decoding V) (call : BffCall) (env : Env) (s : Stores)
    (r : Response × Stores) : Prop where
  status_lt : r.1.statusCode < 500
  shown : ∀ requestId, shown (responseTo d.bff requestId call (.ok r.1)) =
    (Gateway.answer v d.bff.clients env s call).1
  stores : r.2 = (Gateway.answer v d.bff.clients env s call).2

theorem Matches.of_value {call : BffCall} {env : Env} {s' : Stores} {response : Response} {json : J}
    {value : V} (hs : response.isSuccess = true)
    (hloads : d.bff.codec.loads response.content = .ok json)
    (hvalidate : d.bff.codec.validatePython (modelOf call) json = some value)
    (hanswer : Gateway.answer v d.bff.clients env s call =
      (Platform.shown (present call (.value value)), s')) :
    Matches d v call env s (response, s') := by
  have hlt : response.statusCode < 500 := by
    simp only [Response.isSuccess, decide_eq_true_eq] at hs
    omega
  have hmodel : modelOf call ≠ .noneType ∧ (TypeHint.unwrapOptional (modelOf call)).2 = false := by
    cases call <;> exact ⟨by simp [modelOf], rfl⟩
  refine ⟨hlt, fun requestId => ?_, by rw [hanswer]⟩
  rw [hanswer]
  exact shown_of_ok d.bff requestId (requestOnce_readable hs hmodel.1 hmodel.2 hloads hvalidate)

theorem Matches.of_notFound {call : BffCall} {env : Env} {body : ReplyBody ρ → Bytes}
    {content : ReplyBody ρ} (hanswer : Gateway.answer v d.bff.clients env s call =
      (Gateway.notFound (Gateway.client d.bff.clients call), s)) :
    Matches d v call env s (Lossy.render body ⟨404, content⟩, s) := by
  refine ⟨show (404 : ℤ) < 500 by decide, fun requestId => ?_, by rw [hanswer]⟩
  rw [hanswer]
  exact shown_notFound d.bff requestId body content

/-- The lookup of a flow by its id. -/
theorem matches_getFlow (h : d.Reads v) (hs : s.Typed) {call : BffCall} {flowId : String}
    (hcall : call = .getFlow flowId ∨ call = .getFlowWithOwner flowId) (ha : Addressable flowId)
    (headers : Dict String String) (env : Env) :
    Matches d v call env s (d.serve (sentFor d.bff.lib headers call) env s) := by
  have hroute := Flow.route_getFlow d.bff.lib headers ha
  have hserve : d.serve (sentFor d.bff.lib headers call) env s =
      (Lossy.render d.flowBody (Flow.handle (.getFlow flowId) env s.flow).1,
        { s with flow := (Flow.handle (.getFlow flowId) env s.flow).2 }) := by
    rcases hcall with rfl | rfl
    all_goals
      simp only [Deployment.serve, sentFor, Flow.serve, hroute]
      rfl
  rw [hserve, Flow.handle, Flow.run_getFlow]
  cases hget : s.flow.get? flowId with
  | none =>
    refine Matches.of_notFound ?_
    rcases hcall with rfl | rfl <;> simp only [Gateway.answer, hget] <;> rfl
  | some flow =>
    obtain ⟨json, hloads, hvalidate⟩ := h.flow flow (hs.flow flowId flow hget)
    have hmodel : modelOf call = .cls "FlowResponse" := by rcases hcall with rfl | rfl <;> rfl
    refine Matches.of_value rfl hloads (hmodel ▸ hvalidate) ?_
    rcases hcall with rfl | rfl <;> simp only [Gateway.answer, hget] <;> rfl

/-- The lookup of a user by its id. -/
theorem matches_getUser (h : d.Reads v) (hs : s.Typed) {userId : String} (ha : Addressable userId)
    (headers : Dict String String) (env : Env) :
    Matches d v (.getUser userId) env s
      (d.serve (sentFor d.bff.lib headers (.getUser userId)) env s) := by
  have hroute := Uc.route_getUser d.bff.lib headers ha
  by_cases hby : userId ∈ Uc.staticIds
  · -- the lookup by name is reached without a name
    rw [if_pos hby] at hroute
    let request := UcServiceClient.sent d.bff.lib headers (.getUser userId)
    have hserve : d.serve (sentFor d.bff.lib headers (.getUser userId)) env s =
        (Lossy.render d.ucBody ⟨422, (d.ucFramework.invalid request).body⟩, s) := by
      simp only [Deployment.serve, sentFor, Uc.serve, hroute, Routed.serve, Lossy.render,
        d.ucFramework.invalid_status]
      rfl
    have hanswer : Gateway.answer v d.bff.clients env s (.getUser userId) =
        (Gateway.unprocessable d.bff.clients.uc, s) := by
      simp only [Gateway.answer, if_pos hby]
    rw [hserve]
    refine ⟨show (422 : ℤ) < 500 by decide, fun requestId => ?_, by rw [hanswer]⟩
    rw [hanswer]
    exact shown_unprocessable d.bff requestId d.ucBody _
  · rw [if_neg hby] at hroute
    have hserve : d.serve (sentFor d.bff.lib headers (.getUser userId)) env s =
        (Lossy.render d.ucBody (Uc.handle (.getUser userId) env s.uc).1,
          { s with uc := (Uc.handle (.getUser userId) env s.uc).2 }) := by
      simp only [Deployment.serve, sentFor, Uc.serve, hroute]
      rfl
    rw [hserve, Uc.handle, Uc.run_getUser]
    cases hget : s.uc.users.get? userId with
    | none => exact Matches.of_notFound (by simp only [Gateway.answer, if_neg hby, hget]; rfl)
    | some user =>
      obtain ⟨json, hloads, hvalidate⟩ := h.user user (hs.user userId user hget)
      exact Matches.of_value rfl hloads hvalidate
        (by simp only [Gateway.answer, if_neg hby, hget]; rfl)

/-- **An attempt that is answered**: the request is sent, routed, bound, handled, rendered, parsed
and presented, and shows what the call is for. -/
theorem matches_serve (h : d.Reads v) (hs : s.Typed) {call : BffCall} (hplain : Plain call)
    (headers : Dict String String) (env : Env) :
    Matches d v call env s (d.serve (sentFor d.bff.lib headers call) env s) := by
  cases call with
  | getFlow flowId => exact matches_getFlow h hs (.inl rfl) (hplain flowId rfl) headers env
  | getFlowWithOwner flowId => exact matches_getFlow h hs (.inr rfl) (hplain flowId rfl) headers env
  | listFlows =>
    have hserve : d.serve (sentFor d.bff.lib headers .listFlows) env s =
        (Lossy.render d.flowBody ⟨200, .records s.flow.values⟩, s) := by
      simp only [Deployment.serve, sentFor, Flow.serve, Flow.route_listFlows]
      rfl
    have htyped : ∀ flow ∈ s.flow.values, flow.Typed := by
      intro flow hflow
      obtain ⟨flowId, hget⟩ := Dict.mem_values_iff.mp hflow
      exact hs.flow flowId flow hget
    obtain ⟨json, hloads, hvalidate⟩ := h.flows s.flow.values htyped
    rw [hserve]
    exact Matches.of_value rfl hloads hvalidate rfl
  | createFlow payload =>
    have hserve : d.serve (sentFor d.bff.lib headers (.createFlow payload)) env s =
        (Lossy.render d.flowBody ⟨201, .record (Flow.newFlow payload env)⟩, { s with
          flow := s.flow.set (Flow.flowIdOf env.uuid) (Flow.newFlow payload env) }) := by
      simp only [Deployment.serve, sentFor, Flow.serve, Flow.route_createFlow, Routed.serve,
        Flow.handle, Flow.run_createFlow, Flow.newFlow_filled]
      rfl
    obtain ⟨json, hloads, hvalidate⟩ := h.flow _ (newFlow_typed payload env)
    rw [hserve]
    exact Matches.of_value rfl hloads hvalidate rfl
  | getUser userId => exact matches_getUser h hs (hplain userId rfl) headers env
  | getUserByUsername username =>
    have hserve : d.serve (sentFor d.bff.lib headers (.getUserByUsername username)) env s =
        (Lossy.render d.ucBody (Uc.handle (.getUserByUsername username) env s.uc).1,
          { s with uc := (Uc.handle (.getUserByUsername username) env s.uc).2 }) := by
      simp only [Deployment.serve, sentFor, Uc.serve, Uc.route_getUserByUsername]
      rfl
    rw [hserve, Uc.handle, Uc.run_getUserByUsername]
    cases hget : (s.uc.usersByUsername.get? (.str username)).bind s.uc.users.get? with
    | none => exact Matches.of_notFound (by simp only [Gateway.answer, hget]; rfl)
    | some user =>
      obtain ⟨userId, -, huser⟩ := Option.bind_eq_some_iff.mp hget
      obtain ⟨json, hloads, hvalidate⟩ := h.user user (hs.user userId user huser)
      exact Matches.of_value rfl hloads hvalidate (by simp only [Gateway.answer, hget]; rfl)

/-- **An attempt of a call**, whatever becomes of it, is one at what the call is for. -/
theorem realizes_deliver (h : d.Reads v) (hs : s.Typed) {call : BffCall} (hplain : Plain call)
    (headers : Dict String String) (requestId : String) :
    (Gateway.operation v d.bff.clients call).Realizes d.bff.codec
      (d.deliver (sentFor d.bff.lib headers call))
      (fun outcome => shown (responseTo d.bff requestId call outcome)) s where
  not_transient := fun env =>
    not_transient_of_status d.bff.codec (matches_serve h hs hplain headers env).status_lt
  perform := fun env => by
    have hserve := matches_serve h hs hplain headers env
    exact Prod.ext (hserve.shown requestId).symm hserve.stores.symm
  lost := fun loss => by
    cases loss with
    | request exc => rfl
    | response env exc => exact Prod.ext rfl (matches_serve h hs hplain headers env).stores
  unreached := shown_unreached d.bff requestId

theorem typed_deliver (hs : s.Typed) (sent : Sent) (delivery : Delivery) :
    (d.deliver sent s delivery).2.Typed := by
  have hserve : ∀ env, (d.serve sent env s).2.Typed := by
    intro env
    unfold Deployment.serve
    cases sent.service with
    | uc => exact hs.serve_uc d.ucFramework sent.request env
    | flow => exact hs.serve_flow d.flowFramework sent.request env
  cases delivery with
  | answered env => exact hserve env
  | lost loss =>
    cases loss with
    | request exc => exact hs
    | response env exc => exact hserve env

end Attempt

/-! ### All attempts -/

section Attempts

variable (d : Deployment J V) (deliveries : ℕ → Delivery) (s : Stores)

theorem after_concat (sents : List Sent) (sent : Sent) :
    d.after deliveries s (sents ++ [sent]) =
      (d.deliver sent (d.after deliveries s sents) (deliveries sents.length)).2 := by
  rw [Deployment.after, List.zipIdx_append, List.foldl_append]
  simp [Deployment.after]

/-- The stores after `k` attempts that send the same. -/
def storesAt (sent : Sent) (k : ℕ) : Stores := d.after deliveries s (List.replicate k sent)

theorem storesAt_succ (sent : Sent) (k : ℕ) :
    storesAt d deliveries s sent (k + 1) =
      (d.deliver sent (storesAt d deliveries s sent k) (deliveries k)).2 := by
  rw [storesAt, List.replicate_succ', after_concat, List.length_replicate]
  rfl

theorem answers_downstream (sent : Sent) (k : ℕ) :
    answers (d.downstream deliveries s) sent k =
      (d.deliver sent (storesAt d deliveries s sent k) (deliveries k)).1 := by
  rw [answers, List.replicate_succ', Deployment.downstream, List.getLast?_concat]
  simp [storesAt]

variable {s}

theorem typed_storesAt (hs : s.Typed) (sent : Sent) (k : ℕ) :
    (storesAt d deliveries s sent k).Typed := by
  induction k with
  | zero => exact hs
  | succ k ih =>
    rw [storesAt_succ]
    exact typed_deliver ih sent (deliveries k)

theorem deliver_storesAt (sent : Sent) (k : ℕ) :
    d.deliver sent (storesAt d deliveries s sent k) (deliveries k) =
      (answers (d.downstream deliveries s) sent k, storesAt d deliveries s sent (k + 1)) := by
  rw [answers_downstream, storesAt_succ]

theorem attemptsOf_eq (app : App J V) (call : BffCall) :
    attemptsOf app call = Gateway.retries app.clients call + 1 := by
  have hget : upper "GET" ∈ idempotentMethods := by decide
  have hpost : upper "POST" ∉ idempotentMethods := by decide
  cases call with
  | createFlow payload => exact attemptLimit_of_not_idempotent app.clients.flow hpost
  | listFlows | getFlow _ | getFlowWithOwner _ =>
    exact attemptLimit_of_idempotent app.clients.flow hget
  | getUser _ | getUserByUsername _ => exact attemptLimit_of_idempotent app.clients.uc hget

end Attempts

/-! ### Inbound requests -/

section Inbound

variable {d : Deployment J V} {v : Decoding V} {user : String} {request : InboundRequest}
  {call : BffCall}

/-- The id in the path of a proxied request is no dot segment, which the client would resolve. -/
def Deployment.NoDots (d : Deployment J V) (user : String) (request : InboundRequest) : Prop :=
  ∀ call id, route d.bff.framework user request = .call call → call.pathId = some id →
    isDotSegment id = false

theorem Deployment.NoDots.plain (h : d.NoDots user request)
    (hcall : route d.bff.framework user request = .call call) : Plain call := by
  intro id hid
  obtain ⟨hne, hslash⟩ := pathId_of_route hcall hid
  exact ⟨hne, hslash, h call id hcall hid⟩

theorem noDots_of_pathId (hcall : route d.bff.framework user request = .call call)
    (hid : call.pathId = none) : d.NoDots user request := by
  intro call' id hcall' hid'
  obtain rfl := Routed.call.inj (hcall.symm.trans hcall')
  rw [hid] at hid'
  cases hid'

theorem arrival_eq_inr_iff :
    Gateway.arrival d user request = .inr call ↔
      route d.bff.framework user request = .call call := by
  unfold Gateway.arrival
  cases route d.bff.framework user request <;> simp

/-- A request that is no call is answered without a service. -/
theorem run_application_of_inl {answer : Answer V}
    (h : Gateway.arrival d user request = .inl answer) (downstream : Downstream)
    (uuids : Stream' Uuid) :
    ∃ response left, (application d.bff downstream user request).run ⟨uuids, []⟩ =
      (.ok response, ⟨left, []⟩) ∧ shown response = answer := by
  have hnext : ∃ response, (∀ state r, (callNext d.bff downstream user request state).run r =
      (.ok response, r)) ∧ shown response = answer := by
    unfold Gateway.arrival at h
    unfold callNext
    cases hroute : route d.bff.framework user request with
    | unrouted =>
      rw [hroute] at h
      exact ⟨d.bff.framework.unrouted request, fun _ _ => rfl, Sum.inl.inj h⟩
    | static content =>
      rw [hroute] at h
      exact ⟨⟨200, [], .mapping content⟩, fun _ _ => rfl, Sum.inl.inj h⟩
    | invalid =>
      rw [hroute] at h
      exact ⟨d.bff.framework.invalid request, fun _ _ => rfl, Sum.inl.inj h⟩
    | call call =>
      rw [hroute] at h
      cases h
  obtain ⟨response, hrun, hshown⟩ := hnext
  obtain ⟨requestId, left, happlication⟩ := run_application_quiet d.bff downstream hrun uuids
  exact ⟨_, left, happlication, hshown⟩

/-- **One inbound request that is a call.** -/
theorem serveInbound_call (h : d.Reads v)
    (hcall : route d.bff.framework user request = .call call) (hplain : Plain call)
    (deliveries : ℕ → Delivery) (uuids : Stream' Uuid) {s : Stores} (hs : s.Typed) :
    d.serveInbound user request uuids deliveries s =
        (Gateway.operation v d.bff.clients call).conduct deliveries
          (Gateway.retries d.bff.clients call) 0 s ∧
      (d.serveInbound user request uuids deliveries s).2.Typed := by
  obtain ⟨headers, requestId, left, i, hi, hrun⟩ :=
    run_application_decides d.bff (d.downstream deliveries s) hcall uuids
  have hserve : d.serveInbound user request uuids deliveries s =
      (shown (responseTo d.bff requestId call
        (answers (d.downstream deliveries s) (sentFor d.bff.lib headers call) i)),
        storesAt d deliveries s (sentFor d.bff.lib headers call) (i + 1)) := by
    rw [Deployment.serveInbound, hrun]
    rfl
  have hconduct := Operation.conduct_eq
    (fun k => realizes_deliver h (typed_storesAt d deliveries hs _ k) hplain headers requestId)
    (deliver_storesAt d deliveries (sentFor d.bff.lib headers call)) hi
    (Gateway.retries d.bff.clients call) (by rw [attemptsOf_eq, Nat.zero_add]) (Nat.zero_le i)
  rw [hserve]
  exact ⟨hconduct.symm, typed_storesAt d deliveries hs _ (i + 1)⟩

end Inbound

/-! ### Whole runs -/

section Runs

variable {d : Deployment J V} {v : Decoding V}

/-- **Step lemma**: one input, on stores of typed records. -/
theorem step_refines (h : d.Reads v) {i : Input}
    (hi : ∀ user request uuids deliveries, i = .bff user request uuids deliveries →
      d.NoDots user request) {s : Stores} (hs : s.Typed) :
    d.step i s = Gateway.step d v i s ∧ (d.step i s).2.Typed := by
  cases i with
  | uc request env => exact ⟨rfl, hs.serve_uc d.ucFramework request env⟩
  | flow request env => exact ⟨rfl, hs.serve_flow d.flowFramework request env⟩
  | bff user request uuids deliveries =>
    show d.serveInbound user request uuids deliveries s = _ ∧
      (d.serveInbound user request uuids deliveries s).2.Typed
    cases harrival : Gateway.arrival d user request with
    | inl answer =>
      obtain ⟨response, left, hrun, rfl⟩ :=
        run_application_of_inl harrival (d.downstream deliveries s) uuids
      have hserve : d.serveInbound user request uuids deliveries s = (shown response, s) := by
        rw [Deployment.serveInbound, hrun]
        rfl
      rw [hserve, Gateway.step, harrival]
      exact ⟨rfl, hs⟩
    | inr call =>
      have hroute := arrival_eq_inr_iff.mp harrival
      rw [Gateway.step, harrival]
      exact serveInbound_call h hroute ((hi _ _ _ _ rfl).plain hroute) deliveries uuids hs

/-- **Run lemma: the services together refine the gateway.**  On every run, from empty stores, every
answer and the final stores are those of the gateway. -/
theorem gateway_refines (h : d.Reads v) {inputs : List Input}
    (hdots : ∀ user request uuids deliveries, .bff user request uuids deliveries ∈ inputs →
      d.NoDots user request) :
    exec d.step inputs .empty = exec (Gateway.step d v) inputs .empty := by
  obtain ⟨hanswers, hstores, -⟩ := exec_simulation d.step (Gateway.step d v)
    (fun is => ∀ user request uuids deliveries, .bff user request uuids deliveries ∈ is →
      d.NoDots user request)
    (fun _ s t => s = t ∧ s.Typed) .empty .empty
    (fun is i his user request uuids deliveries hmem =>
      his user request uuids deliveries (List.mem_append_left _ hmem)) ⟨rfl, typed_empty⟩
    (by
      rintro is i s t his ⟨rfl, hs⟩
      have hi : ∀ user request uuids deliveries, i = .bff user request uuids deliveries →
          d.NoDots user request := by
        rintro user request uuids deliveries rfl
        exact his user request uuids deliveries List.mem_concat_self
      obtain ⟨hstep, htyped⟩ := step_refines h hi hs
      rw [← hstep]
      exact ⟨rfl, rfl, htyped⟩)
    inputs hdots
  exact Prod.ext hanswers hstores

end Runs

/-! ### A create whose response is lost -/

/-- The services with JSON bodies. -/
def Deployment.sample : Deployment JsonText.Document Model where
  bff := .json
  ucFramework := .sample _
  flowFramework := .sample _
  ucBody := ReplyBody.jsonBytes UserResponse.members
  flowBody := ReplyBody.jsonBytes FlowResponse.members

/-- How the client reads these bodies. -/
def Decoding.sample : Decoding Model := ⟨.user, .flow, .flows⟩

theorem Deployment.sample_reads : Deployment.sample.Reads .sample :=
  ⟨fun _ => Codec.json_user, fun _ => Codec.json_flow, fun _ => Codec.json_flows⟩

def disconnected : TransportError :=
  ⟨⟨.remoteProtocolError, "Server disconnected without sending a response.", by decide⟩, by decide⟩

def postRelease : InboundRequest :=
  ⟨"POST", "/flows", "", [("content-type", "application/json")], []⟩

def getFlows : InboundRequest := ⟨"GET", "/flows", "", [], []⟩

/-- A create that is served and not answered, and a list that is answered at the second attempt. -/
def lostCreate : List Input :=
  [.bff getCurrentUser postRelease (.const .one) fun _ => .lost (.response ⟨.one, 1⟩ disconnected),
    .bff getCurrentUser getFlows (.const .two) fun k =>
      if k = 0 then .lost (.request disconnected) else .answered ⟨.two, 2⟩]

theorem gateway_refines_lostCreate :
    exec Deployment.sample.step lostCreate .empty =
        exec (Gateway.step .sample .sample) lostCreate .empty ∧
      (exec Deployment.sample.step lostCreate .empty).1 =
        [.bff 502 (.error ⟨"ServiceUnavailableError",
            "Cannot reach flow: Server disconnected without sending a response.", "flow",
            some 502⟩),
          .bff 200 (.result (.value (.flows [Flow.newFlow .release ⟨.one, 1⟩])))] := by
  have hdots : ∀ user request uuids deliveries, .bff user request uuids deliveries ∈ lostCreate →
      Deployment.sample.NoDots user request := by
    intro user request uuids deliveries hmem
    rcases List.mem_cons.mp hmem with heq | hmem
    · obtain ⟨rfl, rfl, -, -⟩ := Input.bff.inj heq
      exact noDots_of_pathId rfl rfl
    · obtain ⟨rfl, rfl, -, -⟩ := Input.bff.inj (List.mem_singleton.mp hmem)
      exact noDots_of_pathId rfl rfl
  have h := gateway_refines Deployment.sample_reads hdots
  exact ⟨h, by rw [h]; rfl⟩

end Novon.Platform
