import Novon.Http.Equiv.Message
import Novon.Http.Equiv.Router
import Novon.Flow.Equiv.Routes
import Novon.Flow.Server
import Novon.FlowApi.Equiv.Client

/-!
# Which Flow handler a client call reaches

The `PATCH` and the `DELETE` of an addressable id reach their handlers with it, and with other ids
they reach none.
-/

namespace Novon.Flow

open Router

variable (lib : HttpLib) (headers : Dict String String)

/-- What a client call is dispatched to is read off the path that arrives. -/
theorem target_sent (call : FlowCall) :
    target (FlowServiceClient.sent lib headers call) =
      (arrived lib (FlowServiceClient.path call)).bind
        (dispatch routeTable (FlowServiceClient.endpoint call).method) := rfl

theorem target_updateFlow (id : String) (p : FlowUpdate) :
    target (FlowServiceClient.sent lib headers (.updateFlow id p)) =
      if Addressable id then some (.updateFlow, [id]) else none := by
  rw [target_sent]
  exact dispatch_arrived_item lib (c := "flows") (by decide) (by decide) rfl rfl id

theorem target_deleteFlow (id : String) :
    target (FlowServiceClient.sent lib headers (.deleteFlow id)) =
      if Addressable id then some (.deleteFlow, [id]) else none := by
  rw [target_sent]
  exact dispatch_arrived_item lib (c := "flows") (by decide) (by decide) rfl rfl id

theorem target_getFlow {id : String} (hid : isDotSegment id = false) :
    target (FlowServiceClient.sent lib headers (.getFlow id)) =
      if Addressable id then some (.getFlow, [id]) else none := by
  have harrived : arrived lib ("/flows/" ++ Percent.quote id) = some ("/flows/" ++ id) :=
    arrived_item lib "flows" (by decide) (by decide) rfl hid
  have hseg : segments ("/flows/" ++ id) = "" :: "flows" :: segments id :=
    segments_item "flows" (by decide) id
  rw [target_sent, FlowServiceClient.path, harrived, Option.bind_some]
  by_cases ha : id = "" ∨ '/' ∈ id.toList
  · rw [if_neg fun h => ha.elim h.1 h.2.1]
    rcases ha with rfl | hslash
    · rfl
    · obtain ⟨a, b, rest, hsegs⟩ := segments_of_slash hslash
      simp [dispatch, FlowServiceClient.endpoint, FlowServiceClient.getFlow, routeTable, hseg,
        hsegs, matchPath]
  · rw [not_or] at ha
    rw [if_pos ⟨ha.1, ha.2, hid⟩]
    have hone : segments id = [id] := segments_eq_singleton ha.2
    simp [dispatch, FlowServiceClient.endpoint, FlowServiceClient.getFlow, routeTable, hseg, hone,
      matchPath, ha.1]

/-! ### Bodies -/

/-- The explicitly set fields of a PATCH are the payload again on the other side. -/
theorem parseBody_updateFlow (flowId : String) (p : FlowUpdate) :
    (FlowServiceClient.sent lib headers (.updateFlow flowId p)).parseBody FlowUpdate.validate =
      some p := by
  have hnodup : (p.fields.map Prod.fst).Nodup := by
    simp [FlowUpdate.fields]
  have hget := get?_modelDump true hnodup
  have hname := OptField.parse_dump _ _ BoundedStr.ofString?_val p.name
  have hdescription := OptField.parse_dump _ _ BoundedStr.ofString?_val p.description
  have hstatus := OptField.parse_dump some id (fun _ => rfl) p.status
  show FlowUpdate.validate (modelDump true p.fields) = some p
  simp only [FlowUpdate.validate, hget]
  simp [FlowUpdate.fields, Dict.lookup, hname, hdescription, hstatus]

/-- **The `PATCH` of an addressable id arrives as it was called.** -/
theorem route_updateFlow (id : String) (p : FlowUpdate) :
    route (FlowServiceClient.sent lib headers (.updateFlow id p)) =
      if Addressable id then .call (.updateFlow id p) else .unrouted := by
  rw [route, target_updateFlow]
  by_cases ha : Addressable id
  · rw [if_pos ha, if_pos ha]
    simp only [bind, parseBody_updateFlow]
  · rw [if_neg ha, if_neg ha]

theorem route_deleteFlow (id : String) :
    route (FlowServiceClient.sent lib headers (.deleteFlow id)) =
      if Addressable id then .call (.deleteFlow id) else .unrouted := by
  rw [route, target_deleteFlow]
  by_cases ha : Addressable id
  · rw [if_pos ha, if_pos ha]
    rfl
  · rw [if_neg ha, if_neg ha]

/-! ### Serving -/

/-- No handler answers with a 5xx. -/
theorem handle_status_lt (call : FlowCall) (env : Env) (s : Store) :
    (handle call env s).1.statusCode < 500 := by
  cases call with
  | listFlows => exact (by decide : (200 : ℤ) < 500)
  | getFlow flowId =>
    rw [handle, run_getFlow]
    cases s.get? flowId <;> simp [Reply.ofResult]
  | createFlow payload =>
    rw [handle, run_createFlow]
    simp [Reply.ofResult]
  | updateFlow flowId p =>
    rw [handle, run_updateFlow]
    cases s.get? flowId <;> simp [Reply.ofResult]
  | deleteFlow flowId =>
    rw [handle, run_deleteFlow]
    cases s.get? flowId <;> simp [Reply.ofResult]

theorem serve_status_lt (framework : Framework FlowResponse) (request : Request) (env : Env)
    (s : Store) : (serve framework request env s).1.statusCode < 500 :=
  Routed.serve_status_lt framework request handle_status_lt (route request) env s

def handler : FlowCall → Endpoint
  | .listFlows => .listFlows
  | .getFlow _ => .getFlow
  | .createFlow _ => .createFlow
  | .updateFlow _ _ => .updateFlow
  | .deleteFlow _ => .deleteFlow

theorem handler_of_bind {request : Request} {endpoint : Endpoint} {args : List String}
    {call : FlowCall} (h : bind request endpoint args = .call call) : endpoint = handler call := by
  unfold bind at h
  split at h <;> first
    | (obtain rfl := Routed.call.inj h; rfl)
    | (split at h <;> first | (obtain rfl := Routed.call.inj h; rfl) | simp at h)
    | simp at h

/-- **A request has the method of the call that it is routed to.** -/
theorem method_of_route {request : Request} {call : FlowCall} (h : route request = .call call) :
    request.method = (FlowServiceClient.endpoint call).method := by
  rw [route] at h
  cases ht : target request with
  | none => simp [ht] at h
  | some t =>
    obtain ⟨endpoint, args⟩ := t
    simp only [ht] at h
    obtain rfl := handler_of_bind h
    obtain ⟨path, -, hpath⟩ := Option.bind_eq_some_iff.mp ht
    have htable : ∀ r ∈ routeTable, r.endpoint = handler call →
        r.method = (FlowServiceClient.endpoint call).method := by
      cases call <;> simp [routeTable, handler, FlowServiceClient.endpoint,
        FlowServiceClient.getFlow, FlowServiceClient.listFlows, FlowServiceClient.createFlow,
        FlowServiceClient.updateFlow, FlowServiceClient.deleteFlow]
    exact method_of_dispatch hpath htable

/-- A `GET` changes nothing, and its answer depends on the store alone. -/
theorem serve_get (framework : Framework FlowResponse) {request : Request}
    (h : request.method = "GET") (env env' : Env) (s : Store) :
    serve framework request env s = ((serve framework request env' s).1, s) := by
  rw [serve, serve]
  refine Routed.serve_read framework request fun call hroute => ?_
  have hmethod := (method_of_route hroute).symm.trans h
  cases call with
  | listFlows => rfl
  | getFlow flowId =>
    simp only [handle, run_getFlow]
    cases s.get? flowId <;> rfl
  | createFlow _ => exact absurd hmethod (show "POST" ≠ "GET" by decide)
  | updateFlow _ _ => exact absurd hmethod (show "PATCH" ≠ "GET" by decide)
  | deleteFlow _ => exact absurd hmethod (show "DELETE" ≠ "GET" by decide)

end Novon.Flow
