import Novon.Bff.Equiv.Ingress
import Novon.Network.Lossy
import Novon.Uc.Equiv.Findable
import Novon.Uc.Equiv.Server
import Novon.Wire.Records

/-!
# Which users the BFF finds by name

The BFF takes the username from its path, where it is one segment.  A name with a slash in it, which
the models admit and the UC service serves from its query, is two segments once the path is decoded,
and no route takes it.  Every other stored user is found (`by_username_iff`): the client sends the
name as a query parameter, and the index leads from it to the user.
-/

namespace Novon.Bff

open Run BaseServiceClient

variable {J V : Type} (app : App J V)

/-- The UC service, in state `s`, answers every request that it is sent. -/
def answering (framework : Framework UserResponse) (body : ReplyBody UserResponse → Bytes)
    (env : Env) (s : Uc.Store) (flow : Downstream) : Downstream := fun sents =>
  match sents.getLast? with
  | some ⟨.uc, request⟩ => .ok (Lossy.render body (Uc.serve framework request env s).1)
  | _ => flow sents

/-- What the client reads from the rendered record of a user. -/
def ReadsUsers (codec : Codec J V) (body : ReplyBody UserResponse → Bytes)
    (value : UserResponse → V) : Prop :=
  ∀ user : UserResponse, user.Typed → ∃ json, codec.loads (body (.record user)) = .ok json ∧
    codec.validatePython (.cls "UserResponse") json = some (value user)

variable (downstream : Downstream)

/-! ### The call of the UC service -/

/-- A client call whose first attempt succeeds returns its result. -/
theorem fst_run_invoke {service : Service} {client : BaseServiceClient} {ctx : RequestContext}
    {call : OutboundCall} {s : Runtime Sent} {result : Result V} (hnone : call.expectsNone = false)
    (h : requestOnce app.codec client call.responseModel
      (downstream (s.events ++ [⟨service, Feign.send app.lib ctx.toHeaders call⟩])) = .ok result) :
    ((invoke app downstream service client ctx (.ok call)).run s).1 = .ok result := by
  let sent : Sent := ⟨service, Feign.send app.lib ctx.toHeaders call⟩
  have hrequest : request app.codec client (send downstream sent) call.method call.responseModel s =
      (.ok result, (send downstream sent s).2) := request_of_ok app.codec client h
  have hinvoke : ((invoke app downstream service client ctx (.ok call)).run s).1 =
      (request app.codec client (send downstream sent) call.method call.responseModel s).1.mapError
        Fault.raised := by
    simp only [invoke, Handler.run, hnone]
    rfl
  rw [hinvoke, hrequest]
  rfl

theorem requestOnce_record {codec : Codec J V} {body : ReplyBody UserResponse → Bytes}
    {value : UserResponse → V} (h : ReadsUsers codec body value) (client : BaseServiceClient)
    {user : UserResponse} (ht : user.Typed) :
    requestOnce codec client (some (.cls "UserResponse"))
      (.ok (Lossy.render body ⟨200, .record user⟩)) = .ok (.value (value user)) := by
  obtain ⟨json, hloads, hvalidate⟩ := h user ht
  simp [requestOnce, Lossy.render, Response.isSuccess, parseResponse, TypeHint.unwrapOptional,
    validateJson, hloads, hvalidate]

/-- The client of the UC service finds a stored user by its name. -/
theorem fst_run_getUserByUsername {framework : Framework UserResponse}
    {body : ReplyBody UserResponse → Bytes} {value : UserResponse → V}
    (hcodec : ReadsUsers app.codec body value) {run : List Uc.Step} {userId name : String}
    {user : UserResponse}
    (hstored : (exec Uc.step run .empty).2.users.get? userId = some user)
    (hname : user.username = .str name) (env : Env) (flow : Downstream) (ctx : RequestContext)
    (s : Runtime Sent) :
    ((handle app (answering framework body env (exec Uc.step run .empty).2 flow) ctx
      (.getUserByUsername name)).run s).1 = .ok ⟨200, [], .result (.value (value user))⟩ := by
  have hsent : UcServiceClient.sent app.lib ctx.toHeaders (.getUserByUsername name) =
      Feign.send app.lib ctx.toHeaders (UcServiceClient.outboundCall (.getUserByUsername name)) :=
    rfl
  have hanswer : answering framework body env (exec Uc.step run .empty).2 flow
      (s.events ++ [⟨.uc, Feign.send app.lib ctx.toHeaders
        (UcServiceClient.outboundCall (.getUserByUsername name))⟩]) =
      .ok (Lossy.render body ⟨200, .record user⟩) := by
    rw [answering, List.getLast?_concat, ← hsent]
    simp only [Uc.serve, Uc.route_getUserByUsername, Routed.serve]
    rw [Uc.handle_getUserByUsername_of_stored run hstored hname]
  have hcall : ((ucClient app (answering framework body env (exec Uc.step run .empty).2 flow) ctx
      (.getUserByUsername name)).run s).1 = .ok (.value (value user)) := by
    rw [ucClient, UcServiceClient.outbound_eq]
    refine fst_run_invoke app _ rfl ?_
    rw [hanswer]
    exact requestOnce_record hcodec app.clients.uc (Uc.typed_of_stored run userId user hstored)
  rw [handle, Handler.run_bind]
  generalize (ucClient app _ ctx (.getUserByUsername name)).run s = r at hcall ⊢
  obtain ⟨result, s'⟩ := r
  obtain rfl := hcall
  rfl

/-! ### Routing -/

theorem segments_by_username (name : String) :
    Router.segments ("/users/by-username/" ++ name) =
      "" :: "users" :: "by-username" :: Router.segments name := by
  have hsplit : "/users/by-username/" ++ name =
      "" ++ "/" ++ ("users" ++ "/" ++ ("by-username" ++ "/" ++ name)) := by
    simp [← String.append_assoc]
  rw [hsplit, Router.segments_append_slash (by decide), Router.segments_append_slash (by decide),
    Router.segments_append_slash (by decide)]

/-- A name is one segment unless there is a slash in it, and then no route takes the path. -/
theorem dispatch_by_username {name : String} (hne : name ≠ "") :
    Router.dispatch routeTable "GET" ("/users/by-username/" ++ name) =
      if '/' ∈ name.toList then none else some (.getUserByUsername, [name]) := by
  rw [Router.dispatch, segments_by_username]
  by_cases hslash : '/' ∈ name.toList
  · obtain ⟨a, b, rest, hsegs⟩ := Router.segments_of_slash hslash
    simp [hsegs, routeTable, Router.matchPath, hslash]
  · simp [Router.segments_eq_singleton hslash, routeTable, Router.matchPath, hslash, hne]

theorem route_by_username (framework : WebFramework V) (caller : String) {name : String}
    (hne : name ≠ "") {request : InboundRequest} (hmethod : request.method = "GET")
    (hpath : Percent.unquote ("/users/by-username/" ++ Percent.quote name) = some request.path) :
    route framework caller request =
      if '/' ∈ name.toList then .unrouted else .call (.getUserByUsername name) := by
  rw [Percent.unquote_append (by decide)] at hpath
  rw [route, hmethod, ← Option.some.inj hpath, dispatch_by_username hne]
  by_cases hslash : '/' ∈ name.toList
  · rw [if_pos hslash, if_pos hslash]
  · rw [if_neg hslash, if_neg hslash]
    rfl

/-! ### One inbound request -/

/-- What the application answers is what the router and the handlers do, with the request id in
its headers. -/
theorem fst_run_serve (caller : String) (uuids : Stream' Uuid) (request : InboundRequest) :
    ∃ requestId traceId left, requestId ≠ "" ∧ traceId ≠ "" ∧
      ((serve app downstream caller request).run ⟨uuids, []⟩).1 =
        ((handleServiceCallError (callNext app downstream caller request
          ⟨some requestId, some traceId⟩)).run ⟨left, []⟩).1.map
            (RequestIDMiddleware.echo requestId) := by
  obtain ⟨requestId, traceId, left, hids, hdispatch⟩ :=
    RequestIDMiddleware.run_dispatch_edge request.headers
      (fun state => handleServiceCallError (callNext app downstream caller request state))
      ⟨uuids, []⟩
  exact ⟨requestId, traceId, left, hids.isToken_requestId.ne_empty,
    hids.isToken_traceId.ne_empty,
    congrArg Prod.fst hdispatch⟩

/-- The exception handler leaves a response as it is. -/
theorem fst_run_handleServiceCallError
    {x : Handler Fault (Runtime Sent) (OutboundResponse (Body V))} {s : Runtime Sent}
    {response : OutboundResponse (Body V)} (h : (x.run s).1 = .ok response) :
    ((handleServiceCallError x).run s).1 = .ok response := by
  rw [← handle_exceptionHandlers]
  exact exceptionHandlers.fst_run_handle h

/-- Without a route the framework answers. -/
theorem fst_run_serve_unrouted {caller : String} {request : InboundRequest}
    (h : route app.framework caller request = .unrouted) (uuids : Stream' Uuid) :
    ∃ requestId, ((serve app downstream caller request).run ⟨uuids, []⟩).1 =
      .ok (RequestIDMiddleware.echo requestId (app.framework.unrouted request)) := by
  obtain ⟨requestId, traceId, left, -, -, hserve⟩ :=
    fst_run_serve app downstream caller uuids request
  have hnext : ((callNext app downstream caller request ⟨some requestId, some traceId⟩).run
      ⟨left, []⟩).1 = .ok (app.framework.unrouted request) := by
    simp only [callNext, h, Handler.run_pure]
  exact ⟨requestId, by rw [hserve, fst_run_handleServiceCallError hnext]; rfl⟩

/-- **The BFF finds a stored user by its name if and only if there is no slash in the name.** -/
theorem by_username_iff (app : App J V) (framework : Framework UserResponse)
    (body : ReplyBody UserResponse → Bytes) (value : UserResponse → V)
    (hcodec : ReadsUsers app.codec body value)
    (hunrouted : ∀ request, (app.framework.unrouted request).statusCode ∈ [307, 404, 405])
    (run : List Uc.Step) (userId name : String) (user : UserResponse)
    (hstored : (exec Uc.step run .empty).2.users.get? userId = some user)
    (hname : user.username = .str name) (env : Env) (flow : Downstream) (caller : String)
    (uuids : Stream' Uuid) (request : InboundRequest) (hmethod : request.method = "GET")
    (hpath : Percent.unquote ("/users/by-username/" ++ Percent.quote name) = some request.path) :
    (∃ headers, ((serve app (answering framework body env (exec Uc.step run .empty).2 flow) caller
      request).run ⟨uuids, []⟩).1 = .ok ⟨200, headers, .result (.value (value user))⟩) ↔
      '/' ∉ name.toList := by
  have hne : name ≠ "" := by
    obtain ⟨text, htext, hlen, -⟩ := (Uc.wellFormed_of_stored run userId user hstored).username
    obtain rfl := FieldValue.str.inj (hname.symm.trans htext)
    rintro rfl
    exact absurd hlen (by decide)
  have hroute := route_by_username app.framework caller hne hmethod hpath
  constructor
  · rintro ⟨headers, hserve⟩ hslash
    rw [if_pos hslash] at hroute
    obtain ⟨requestId, hunr⟩ := fst_run_serve_unrouted app
      (answering framework body env (exec Uc.step run .empty).2 flow) hroute uuids
    rw [hunr] at hserve
    have hstatus : (app.framework.unrouted request).statusCode = 200 :=
      congrArg OutboundResponse.statusCode (Except.ok.inj hserve)
    have hmem := hunrouted request
    rw [hstatus] at hmem
    exact absurd hmem (by decide)
  · intro hslash
    rw [if_neg hslash] at hroute
    obtain ⟨requestId, traceId, left, hrequest, htrace, hserve⟩ := fst_run_serve app
      (answering framework body env (exec Uc.step run .empty).2 flow) caller uuids request
    have hnext : ((callNext app (answering framework body env (exec Uc.step run .empty).2 flow)
        caller request ⟨some requestId, some traceId⟩).run ⟨left, []⟩).1 =
        .ok ⟨200, [], .result (.value (value user))⟩ := by
      simp only [callNext, hroute, Handler.run_bind,
        RequestContext.run_fromRequest request.headers hrequest htrace]
      exact fst_run_getUserByUsername app hcodec hstored hname env flow _ _
    exact ⟨_, by rw [hserve, fst_run_handleServiceCallError hnext]; rfl⟩

/-! ### A run -/

/-- A user whose name has a slash in it. -/
def slashRun : List Uc.Step :=
  [⟨.createUser { UserCreate.alice with username := ⟨"a/b", by decide, by decide⟩ }, ⟨.one, 0⟩⟩]

/-- The BFF with clients that read JSON. -/
def App.json : App JsonText.Document Model where
  lib := .sample
  codec := .json
  framework := {
    parsesJson := App.sample.framework.parsesJson
    jsonObject := App.sample.framework.jsonObject
    unrouted := fun _ => ⟨404, [], .detail "Not Found"⟩
    invalid := fun _ => ⟨422, [], .detail "Unprocessable Content"⟩ }
  clients := App.sample.clients

/-- The UC service, with the Flow service down. -/
def ucOnly (run : List Uc.Step) : Downstream :=
  answering (.sample _) (ReplyBody.jsonBytes UserResponse.members) ⟨.two, 1⟩
    (exec Uc.step run .empty).2 fun _ => .ok ⟨503, [], []⟩

theorem by_username_iff_sample :
    ∃ user headers, user.username = .str "alicia" ∧
      ((serve .json (ucOnly Uc.renameRun) getCurrentUser
        ⟨"GET", "/users/by-username/alicia", "", [], []⟩).run ⟨.const .one, []⟩).1 =
          .ok ⟨200, headers, .result (.value (.user user))⟩ := by
  obtain ⟨headers, h⟩ := (by_username_iff .json (.sample _)
    (ReplyBody.jsonBytes UserResponse.members) .user (fun _ => Codec.json_user)
    (fun _ => List.mem_cons_of_mem _ List.mem_cons_self) Uc.renameRun (Uc.userIdOf .one) "alicia" _
    rfl rfl ⟨.two, 1⟩ (fun _ => .ok ⟨503, [], []⟩) getCurrentUser (.const .one)
    ⟨"GET", "/users/by-username/alicia", "", [], []⟩ rfl (by decide)).mpr (by decide)
  exact ⟨_, headers, rfl, h⟩

/-- The user named `a/b` is found by the UC service and not by the BFF. -/
theorem not_every_user_by_username :
    (Uc.step ⟨.getUserByUsername "a/b", ⟨.two, 1⟩⟩ (exec Uc.step slashRun .empty).2).1.statusCode =
      200 ∧
    ¬ ∀ (run : List Uc.Step) (userId name : String) (user : UserResponse)
      (request : InboundRequest),
      (exec Uc.step run .empty).2.users.get? userId = some user → user.username = .str name →
      request.method = "GET" →
      Percent.unquote ("/users/by-username/" ++ Percent.quote name) = some request.path →
      ∃ headers, ((serve .json (ucOnly run) getCurrentUser request).run ⟨.const .one, []⟩).1 =
        .ok ⟨200, headers, .result (.value (.user user))⟩ := by
  refine ⟨rfl, fun h => ?_⟩
  have hpath : Percent.unquote ("/users/by-username/" ++ Percent.quote "a/b") =
      some "/users/by-username/a/b" := Percent.unquote_append (by decide) "a/b"
  obtain ⟨headers, hserve⟩ := h slashRun (Uc.userIdOf .one) "a/b" _
    ⟨"GET", "/users/by-username/a/b", "", [], []⟩ rfl rfl rfl hpath
  have hroute : route App.json.framework getCurrentUser
      ⟨"GET", "/users/by-username/a/b", "", [], []⟩ = .unrouted := rfl
  obtain ⟨requestId, hunr⟩ := fst_run_serve_unrouted .json (ucOnly slashRun) hroute (.const .one)
  rw [hunr] at hserve
  exact absurd (congrArg OutboundResponse.statusCode (Except.ok.inj hserve))
    (show (404 : ℤ) ≠ 200 by decide)

end Novon.Bff
