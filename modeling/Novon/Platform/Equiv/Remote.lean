import Novon.Platform.Direct
import Novon.Platform.Equiv.Traffic

/-!
# A method of a typed client is its handler

However calls of the clients' methods interleave, and whatever the network loses of them, each
returns or raises what its handler makes of the stores as the attempt finds them
(`remote_is_direct`).  The reply of a handler is what the annotation of its method promises
(`Replied`), which is all that is parsed of it.
-/

namespace Novon.Platform

open Bff BaseServiceClient Run

variable {J V ρ : Type}

/-! ### What a method makes of a reply -/

/-- The replies to a call whose method is annotated with a type, for records of class `name`. -/
inductive Replied (name : String) (Typed : ρ → Prop) : TypeHint → Reply ρ → Prop where
  | record {statusCode : ℤ} {r : ρ} (hstatus : statusCode = 200 ∨ statusCode = 201)
      (htyped : Typed r) : Replied name Typed (.cls name) ⟨statusCode, .record r⟩
  | records {rs : List ρ} (htyped : ∀ r ∈ rs, Typed r) :
      Replied name Typed (.listOf (.cls name)) ⟨200, .records rs⟩
  | empty : Replied name Typed .noneType ⟨204, .empty⟩
  | refused {hint : TypeHint} {statusCode : ℤ} {text : String}
      (hstatus : statusCode = 404 ∨ statusCode = 409) :
      Replied name Typed hint ⟨statusCode, .detail text⟩

/-- A call of an endpoint with this return annotation. -/
def Returns (call : OutboundCall) (hint : TypeHint) : Prop :=
  Feign.resolveReturnContract hint = (call.expectsNone, call.responseModel)

section Concluded

variable (app : App J V) (client : BaseServiceClient) {name : String} {Typed : ρ → Prop}
  {body : ReplyBody ρ → Bytes} {value : ρ → V} {values : List ρ → V} {hint : TypeHint}
  {call : OutboundCall} {reply : Reply ρ}

theorem refusal_eq {statusCode : ℤ} (hstatus : statusCode = 404 ∨ statusCode = 409)
    (text : String) :
    httpError client statusCode text = Direct.refusal client statusCode text := by
  rcases hstatus with rfl | rfl <;> rfl

theorem unreached_eq (exc : TransportError) :
    concluded app client call (.error exc.toLibraryError) =
      .error (.raised (.service (Direct.unreached client exc))) := by
  have honce : requestOnce app.codec client call.responseModel (.error exc.toLibraryError) =
      .error (.service (mapTransportError client exc.toLibraryError)) := if_pos exc.isTransportError
  unfold concluded
  rw [honce]
  cases call.expectsNone <;> rfl

/-- **A reply that keeps the promise of its annotation is seen as what it says.** -/
theorem concluded_render
    (hrecord : ∀ r, Typed r → ∃ json, app.codec.loads (body (.record r)) = .ok json ∧
      app.codec.validatePython (.cls name) json = some (value r))
    (hrecords : ∀ rs, (∀ r ∈ rs, Typed r) → ∃ json,
      app.codec.loads (body (.records rs)) = .ok json ∧
        app.codec.validatePython (.listOf (.cls name)) json = some (values rs))
    (hreturns : Returns call hint) (h : Replied name Typed hint reply) :
    concluded app client call (.ok (Lossy.render body reply)) =
      Direct.seen client (app.codec.utf8 ∘ body) value values reply := by
  cases h with
  | @record statusCode r hstatus htyped =>
    obtain ⟨hnone, hmodel⟩ := Prod.mk.inj hreturns
    obtain ⟨json, hloads, hvalidate⟩ := hrecord r htyped
    have hsuccess : (Lossy.render body ⟨statusCode, .record r⟩).isSuccess = true := by
      rcases hstatus with rfl | rfl <;> rfl
    rw [concluded, ← hmodel, ← hnone,
      requestOnce_readable hsuccess (by simp) rfl hloads hvalidate]
    rfl
  | @records rs htyped =>
    obtain ⟨hnone, hmodel⟩ := Prod.mk.inj hreturns
    obtain ⟨json, hloads, hvalidate⟩ := hrecords rs htyped
    have hsuccess : (Lossy.render body ⟨200, .records rs⟩).isSuccess = true := rfl
    rw [concluded, ← hmodel, ← hnone,
      requestOnce_readable hsuccess (by simp) rfl hloads hvalidate]
    rfl
  | empty =>
    obtain ⟨hnone, hmodel⟩ := Prod.mk.inj hreturns
    rw [concluded, ← hmodel, ← hnone]
    rfl
  | @refused _ statusCode text hstatus =>
    have hfailure : (Lossy.render body ⟨statusCode, .detail text⟩).isSuccess = false := by
      rcases hstatus with rfl | rfl <;> rfl
    have hrefusal := refusal_eq client hstatus (app.codec.utf8 (body (.detail text)))
    rw [concluded, Lossy.requestOnce_render app.codec client body hfailure, hrefusal]
    cases call.expectsNone <;> rfl

end Concluded

/-! ### What the handlers reply -/

theorem uc_replied {s : Uc.Store} (hs : ∀ userId user, s.users.get? userId = some user → user.Typed)
    (call : UcCall) (env : Env) :
    Replied "UserResponse" UserResponse.Typed (UcServiceClient.endpoint call).responseType
      (Uc.handle call env s).1 := by
  cases call with
  | listUsers =>
    refine .records fun user huser => ?_
    obtain ⟨userId, hget⟩ := Dict.mem_values_iff.mp huser
    exact hs userId user hget
  | getUserByUsername username =>
    rw [Uc.handle, Uc.run_getUserByUsername]
    cases hget : (s.usersByUsername.get? (.str username)).bind s.users.get? with
    | none => exact .refused (.inl rfl)
    | some user =>
      obtain ⟨userId, -, huser⟩ := Option.bind_eq_some_iff.mp hget
      exact .record (.inl rfl) (hs userId user huser)
  | getUser userId =>
    rw [Uc.handle, Uc.run_getUser]
    cases hget : s.users.get? userId with
    | none => exact .refused (.inl rfl)
    | some user => exact .record (.inl rfl) (hs userId user hget)
  | createUser payload =>
    rw [Uc.handle, Uc.run_createUser]
    split
    · exact .refused (.inr rfl)
    · exact .record (.inr rfl) (newUser_typed payload env)
  | updateUser userId payload =>
    rw [Uc.handle, Uc.run_updateUser]
    cases hget : s.users.get? userId with
    | none => exact .refused (.inl rfl)
    | some existing =>
      dsimp only
      split
      · exact .refused (.inr rfl)
      · exact .record (.inl rfl) ((hs userId existing hget).applyUserUpdate payload env.now)
  | deleteUser userId =>
    rw [Uc.handle, Uc.run_deleteUser]
    cases s.users.get? userId with
    | none => exact .refused (.inl rfl)
    | some user => exact .empty

theorem flow_replied {s : Flow.Store} (hs : ∀ flowId flow, s.get? flowId = some flow → flow.Typed)
    (call : FlowCall) (env : Env) :
    Replied "FlowResponse" FlowResponse.Typed (FlowServiceClient.endpoint call).responseType
      (Flow.handle call env s).1 := by
  cases call with
  | listFlows =>
    refine .records fun flow hflow => ?_
    obtain ⟨flowId, hget⟩ := Dict.mem_values_iff.mp hflow
    exact hs flowId flow hget
  | getFlow flowId =>
    rw [Flow.handle, Flow.run_getFlow]
    cases hget : s.get? flowId with
    | none => exact .refused (.inl rfl)
    | some flow => exact .record (.inl rfl) (hs flowId flow hget)
  | createFlow payload =>
    rw [Flow.handle, Flow.run_createFlow]
    exact .record (.inr rfl) (newFlow_typed payload env)
  | updateFlow flowId payload =>
    rw [Flow.handle, Flow.run_updateFlow]
    cases hget : s.get? flowId with
    | none => exact .refused (.inl rfl)
    | some existing =>
      exact .record (.inl rfl) ((hs flowId existing hget).applyFlowUpdate payload env.now)
  | deleteFlow flowId =>
    rw [Flow.handle, Flow.run_deleteFlow]
    cases s.get? flowId with
    | none => exact .refused (.inl rfl)
    | some flow => exact .empty

/-! ### One attempt -/

/-- The client reads records, and lists of them, of the declared types as their values. -/
structure Deployment.ReadsAll (d : Deployment J V) (v : Direct.Views V) : Prop
    extends d.Reads v.toDecoding where
  users : ∀ users : List UserResponse, (∀ user ∈ users, user.Typed) →
    ∃ json, d.bff.codec.loads (d.ucBody (.records users)) = .ok json ∧
      d.bff.codec.validatePython (.listOf (.cls "UserResponse")) json = some (v.users users)

namespace Remote

/-- The id of a call, if it has one, stays where it is in a path, and a `get_user` is not taken by the
static sibling of its route. -/
def Call.Plain : Call → Prop
  | .uc call => Uc.Plain call
  | .flow call => Flow.Plain call

/-- What the wrapper makes of a call. -/
def Call.outboundCall : Call → OutboundCall
  | .uc call => UcServiceClient.outboundCall call
  | .flow call => FlowServiceClient.outboundCall call

theorem Call.outbound_eq (lib : HttpLib) (call : Call) :
    call.outbound lib = .ok call.outboundCall := by
  cases call with
  | uc call => exact UcServiceClient.outbound_eq lib call
  | flow call => exact FlowServiceClient.outbound_eq lib call

/-- The request of every attempt. -/
def Call.sent (lib : HttpLib) (ctx : RequestContext) (call : Call) : Sent :=
  ⟨call.service, Feign.send lib ctx.toHeaders call.outboundCall⟩

variable {d : Deployment J V} {v : Direct.Views V} {s : Stores} {call : Call}

/-- **An attempt that is answered**: the request is sent, routed, bound, handled, rendered and
parsed, and the method returns or raises what its handler says. -/
theorem serve_sent (h : d.ReadsAll v) (hs : s.Typed) (hplain : call.Plain) (ctx : RequestContext)
    (env : Env) :
    (d.serve (call.sent d.bff.lib ctx) env s).1.statusCode < 500 ∧
      Direct.perform d v call env s =
        (concluded d.bff (call.client d.bff.clients) call.outboundCall
          (.ok (d.serve (call.sent d.bff.lib ctx) env s).1),
          (d.serve (call.sent d.bff.lib ctx) env s).2) := by
  cases call with
  | uc call =>
    have hserve : d.serve (Call.sent d.bff.lib ctx (.uc call)) env s =
        (Lossy.render d.ucBody (Uc.handle call env s.uc).1,
          { s with uc := (Uc.handle call env s.uc).2 }) := by
      rw [← Uc.serve_sent d.bff.lib ctx.toHeaders d.ucFramework hplain]
      rfl
    rw [hserve]
    have hreturns : Returns (UcServiceClient.outboundCall call)
        (UcServiceClient.endpoint call).responseType := rfl
    have hseen := concluded_render d.bff d.bff.clients.uc h.user h.users hreturns
      (uc_replied hs.user call env)
    exact ⟨Uc.handle_status_lt call env s.uc, Prod.ext hseen.symm rfl⟩
  | flow call =>
    have hserve : d.serve (Call.sent d.bff.lib ctx (.flow call)) env s =
        (Lossy.render d.flowBody (Flow.handle call env s.flow).1,
          { s with flow := (Flow.handle call env s.flow).2 }) := by
      rw [← Flow.serve_sent d.bff.lib ctx.toHeaders d.flowFramework hplain]
      rfl
    rw [hserve]
    have hreturns : Returns (FlowServiceClient.outboundCall call)
        (FlowServiceClient.endpoint call).responseType := rfl
    have hseen := concluded_render d.bff d.bff.clients.flow h.flow h.flows hreturns
      (flow_replied hs.flow call env)
    exact ⟨Flow.handle_status_lt call env s.flow, Prod.ext hseen.symm rfl⟩

/-- **An attempt of a call**, whatever becomes of it, is one at its handler. -/
theorem realizes_deliver (h : d.ReadsAll v) (hs : s.Typed) (hplain : call.Plain)
    (ctx : RequestContext) :
    (Direct.operation d v call).Realizes d.bff.codec (d.deliver (call.sent d.bff.lib ctx))
      (concluded d.bff (call.client d.bff.clients) call.outboundCall) s where
  not_transient := fun env =>
    not_transient_of_status d.bff.codec (serve_sent h hs hplain ctx env).1
  perform := fun env => (serve_sent h hs hplain ctx env).2
  lost := fun loss => by
    cases loss with
    | request exc => rfl
    | response env exc =>
      have hperform := (serve_sent h hs hplain ctx env).2
      exact Prod.ext rfl (congrArg Prod.snd hperform).symm
  unreached := unreached_eq d.bff (call.client d.bff.clients)

/-! ### One call in flight -/

/-- What a call returns or raises and sends when its attempts have these outcomes. -/
def Flight.seen (app : App J V) (flight : Flight) (outcomes : List Outcome) :
    Except Fault (Result V) × List Sent :=
  let r := { flight with outcomes }.run app
  (r.1, r.2.events)

theorem Flight.result_of_pending (app : App J V) {flight : Flight} {sent : Sent}
    (h : flight.pending app = some sent) : flight.result app = none := by
  rw [Flight.result, h]

theorem Flight.result_of_done (app : App J V) {flight : Flight} (h : flight.pending app = none) :
    flight.result app = some (flight.seen app flight.outcomes).1 := by
  rw [Flight.result, h]
  rfl

/-- The attempts that a call may make. -/
def Call.limit (clients : AppClients) (call : Call) : ℕ :=
  attemptLimit (call.client clients) call.outboundCall.method

theorem Call.limit_eq (clients : AppClients) (call : Call) :
    call.limit clients = Direct.retries clients call + 1 := by
  have hget : upper "GET" ∈ idempotentMethods := by decide
  have hdelete : upper "DELETE" ∈ idempotentMethods := by decide
  have hpost : upper "POST" ∉ idempotentMethods := by decide
  have hpatch : upper "PATCH" ∉ idempotentMethods := by decide
  cases call with
  | uc call =>
    cases call with
    | listUsers | getUser _ | getUserByUsername _ =>
      exact attemptLimit_of_idempotent clients.uc hget
    | createUser _ => exact attemptLimit_of_not_idempotent clients.uc hpost
    | updateUser _ _ => exact attemptLimit_of_not_idempotent clients.uc hpatch
    | deleteUser _ => exact attemptLimit_of_idempotent clients.uc hdelete
  | flow call =>
    cases call with
    | listFlows | getFlow _ => exact attemptLimit_of_idempotent clients.flow hget
    | createFlow _ => exact attemptLimit_of_not_idempotent clients.flow hpost
    | updateFlow _ _ => exact attemptLimit_of_not_idempotent clients.flow hpatch
    | deleteFlow _ => exact attemptLimit_of_idempotent clients.flow hdelete

/-- **A call in flight** sends copies of one request, and returns or raises what its method makes of
the deciding outcome. -/
theorem Flight.calls (app : App J V) (flight : Flight) :
    Operation.Calls app.codec (flight.call.limit app.clients)
      (· = flight.call.sent app.lib flight.ctx)
      (concluded app (flight.call.client app.clients) flight.call.outboundCall)
      (flight.seen app) := by
  intro outcomes
  obtain ⟨i, hi, hrun⟩ := run_invoke_decides app (replay fun k => outcomes.getD k (.ok ⟨0, [], []⟩))
    flight.call.service (flight.call.client app.clients) flight.ctx flight.call.outboundCall
    flight.uuids
  rw [answers_replay] at hi hrun
  refine ⟨i, _, hi, rfl, ?_⟩
  rw [Flight.seen, Flight.run]
  dsimp only
  rw [Call.outbound_eq, hrun]
  simp [afterSending, Call.sent]

/-- The call does what the method does from here on. -/
inductive Follows (d : Deployment J V) : Flight → Direct.Flight → Prop where
  | waiting {flight : Flight} {left : ℕ} (hplain : flight.call.Plain)
      (htransient : ∀ o ∈ flight.outcomes, transient d.bff.codec o = true)
      (hleft : flight.outcomes.length + left + 1 = flight.call.limit d.bff.clients) :
      Follows d flight (.waiting flight.call left)
  | returned {flight : Flight} (hpending : flight.pending d.bff = none) :
      Follows d flight .returned

/-- A call that starts waits for its first attempt. -/
theorem follows_call (hplain : call.Plain) (ctx : RequestContext) (uuids : Stream' Uuid) :
    (Flight.mk call ctx uuids []).result d.bff = none ∧
      Follows d ⟨call, ctx, uuids, []⟩ (.waiting call (Direct.retries d.bff.clients call)) := by
  let flight : Flight := ⟨call, ctx, uuids, []⟩
  have hlimit := call.limit_eq d.bff.clients
  have hnone : ∀ o ∈ flight.outcomes, transient d.bff.codec o = true :=
    fun o ho => absurd ho List.not_mem_nil
  obtain ⟨sent, -, hpending⟩ := (flight.calls d.bff).pending hnone
    (by rw [hlimit]; exact Nat.succ_pos _)
  refine ⟨Flight.result_of_pending d.bff hpending, .waiting hplain hnone ?_⟩
  rw [hlimit]
  exact congrArg (· + 1) (Nat.zero_add _)

/-- **One attempt of a call in flight**, on any stores of typed records. -/
theorem Follows.attempt (h : d.ReadsAll v) (hs : s.Typed) {flight : Flight} {left : ℕ}
    (hfollows : Follows d flight (.waiting call left)) (delivery : Delivery) :
    ∃ sent, flight.pending d.bff = some sent ∧
      let r := d.deliver sent s delivery
      (∃ result, (Direct.operation d v call).attempt left s delivery = (.inl result, r.2) ∧
        (flight.record r.1).result d.bff = some result ∧
        Follows d (flight.record r.1) .returned) ∨
      ∃ left', (Direct.operation d v call).attempt left s delivery = (.inr left', r.2) ∧
        (flight.record r.1).result d.bff = none ∧
        Follows d (flight.record r.1) (.waiting call left') := by
  cases hfollows with
  | waiting hplain htransient hleft =>
  have hcalls := flight.calls d.bff
  have hrealizes : ∀ sent, sent = flight.call.sent d.bff.lib flight.ctx →
      (Direct.operation d v flight.call).Realizes d.bff.codec (d.deliver sent)
        (concluded d.bff (flight.call.client d.bff.clients) flight.call.outboundCall) s := by
    rintro sent rfl
    exact realizes_deliver h hs hplain flight.ctx
  obtain ⟨sent, hpending, hattempt⟩ := hcalls.attempt hrealizes htransient hleft delivery
  refine ⟨sent, hpending, ?_⟩
  rcases hattempt with ⟨hattempt, hdone⟩ | ⟨left', hattempt, hall, hlength⟩
  · have hpending' : (flight.record (d.deliver sent s delivery).1).pending d.bff = none := hdone
    exact .inl ⟨_, hattempt, Flight.result_of_done d.bff hpending', .returned hpending'⟩
  · obtain ⟨sent', -, hpending'⟩ := hcalls.pending hall (by omega)
    let flight' : Flight := flight.record (d.deliver sent s delivery).1
    have hfollows' : Follows d flight' (.waiting flight'.call left') :=
      .waiting hplain hall hlength
    exact .inr ⟨left', hattempt, Flight.result_of_pending d.bff hpending', hfollows'⟩

/-! ### Whole runs -/

/-- The calls in flight do what the methods do from here on. -/
structure Carries (d : Deployment J V) (t : Traffic) (g : Direct.Traffic) : Prop where
  stores : t.stores = g.stores
  typed : t.stores.Typed
  flights : List.Forall₂ (Follows d) t.flights g.flights

/-- **Step lemma**: one move. -/
theorem move_direct (h : d.ReadsAll v) {m : Move}
    (hm : ∀ call ctx uuids, m = .call call ctx uuids → call.Plain) {t : Traffic}
    {g : Direct.Traffic} (hcarries : Carries d t g) :
    (move d m t).1 = (Direct.move d v m g).1 ∧
      Carries d (move d m t).2 (Direct.move d v m g).2 := by
  obtain ⟨hstores, htyped, hflights⟩ := hcarries
  cases m with
  | uc request env =>
    rw [move, Direct.move, ← hstores]
    exact ⟨rfl, rfl, htyped.serve_uc d.ucFramework request env, hflights⟩
  | flow request env =>
    rw [move, Direct.move, ← hstores]
    exact ⟨rfl, rfl, htyped.serve_flow d.flowFramework request env, hflights⟩
  | call call ctx uuids =>
    obtain ⟨hresult, hfollows⟩ := follows_call (d := d) (hm _ _ _ rfl) ctx uuids
    exact ⟨hresult, hstores, htyped, hflights.concat hfollows⟩
  | attempt k delivery =>
    rw [move, Direct.move]
    rcases hflights.getElem? k with ⟨hnone, hnone'⟩ | ⟨flight, flight', hget, hget', hfollows⟩
    · rw [hnone, hnone']
      exact ⟨rfl, hstores, htyped, hflights⟩
    · rw [hget, hget']
      cases flight' with
      | returned =>
        cases hfollows with
        | returned hpending =>
          simp only [hpending]
          exact ⟨trivial, hstores, htyped, hflights⟩
      | waiting call left =>
        obtain ⟨sent, hpending, hattempt⟩ := hfollows.attempt h htyped delivery
        have htyped' := typed_deliver (d := d) htyped sent delivery
        rcases hattempt with ⟨result, hattempt, hresult, hfollows'⟩ |
          ⟨left', hattempt, hresult, hfollows'⟩
        all_goals
          simp only [hpending, ← hstores, hattempt]
          exact ⟨hresult, rfl, htyped', hflights.set k hfollows'⟩

/-- **Run lemma: the methods of the clients are the handlers of the services.**  On every sequence
of calls, attempts and requests of others, each method returns or raises what its handler, called
directly on the stores as the attempt finds them, says, and the stores are the same. -/
theorem remote_is_direct (h : d.ReadsAll v) {moves : List Move}
    (hplain : ∀ call ctx uuids, .call call ctx uuids ∈ moves → call.Plain) :
    (exec (move d) moves .empty).1 = (exec (Direct.move d v) moves .empty).1 ∧
      (exec (move d) moves .empty).2.stores = (exec (Direct.move d v) moves .empty).2.stores := by
  obtain ⟨hresults, hcarries⟩ := exec_simulation (move d) (Direct.move d v)
    (fun ms => ∀ call ctx uuids, .call call ctx uuids ∈ ms → call.Plain) (fun _ => Carries d)
    .empty .empty
    (fun ms m hms call ctx uuids hmem => hms call ctx uuids (List.mem_append_left _ hmem))
    ⟨rfl, typed_empty, .nil⟩
    (by
      intro ms m t g hms hcarries
      refine move_direct h ?_ hcarries
      rintro call ctx uuids rfl
      exact hms call ctx uuids List.mem_concat_self)
    moves hplain
  exact ⟨hresults, hcarries.stores⟩

/-- How the client reads the bodies of the sample services. -/
def viewsSample : Direct.Views Model := ⟨.sample, .users⟩

theorem sample_readsAll : Deployment.sample.ReadsAll viewsSample :=
  ⟨Deployment.sample_reads, fun _ => Codec.json_users⟩

/-- A user is renamed and deleted while the network loses the answer to either, which the client
only asks for again when it deletes. -/
def renameAndDelete : List Move :=
  [.call (.uc (.createUser .alice)) ⟨none, none, none, none⟩ (.const .one),
    .call (.uc (.updateUser (Uc.userIdOf .one) .toAlicia)) ⟨none, none, none, none⟩ (.const .one),
    .attempt 0 (.answered ⟨.one, 0⟩), .attempt 1 (.lost (.response ⟨.two, 1⟩ disconnected)),
    .call (.uc (.deleteUser (Uc.userIdOf .one))) ⟨none, none, none, none⟩ (.const .one),
    .attempt 2 (.lost (.response ⟨.two, 2⟩ disconnected)), .attempt 2 (.answered ⟨.two, 3⟩)]

theorem remote_is_direct_renamed :
    (exec (move .sample) renameAndDelete .empty).1 =
        (exec (Direct.move .sample viewsSample) renameAndDelete .empty).1 ∧
      (exec (move .sample) renameAndDelete .empty).1 =
        [none, none, some (.ok (.value (.user (Uc.newUser .alice ⟨.one, 0⟩)))),
          some (.error (.raised (.service (.unavailable
            "Cannot reach uc: Server disconnected without sending a response." "uc")))),
          none, none,
          some (.error (.raised (.service (.notFound "Resource not found from uc" "uc"
            (some (Codec.json.utf8
              (documentBytes (.object [("detail", some "User not found")]))))))))] := by
  have hplain : ∀ call ctx uuids, .call call ctx uuids ∈ renameAndDelete → call.Plain := by
    intro call ctx uuids hmem
    simp only [renameAndDelete, List.mem_cons, Move.call.injEq, reduceCtorEq, List.not_mem_nil,
      false_or, or_false] at hmem
    have hone : Router.Addressable (Uc.userIdOf .one) := by decide
    rcases hmem with ⟨rfl, -, -⟩ | ⟨rfl, -, -⟩ | ⟨rfl, -, -⟩
    · trivial
    · exact hone
    · exact hone
  have h := (remote_is_direct sample_readsAll hplain).1
  exact ⟨h, by rw [h]; rfl⟩

end Remote

end Novon.Platform
