import Novon.Bff.Equiv.ErrorBodies
import Novon.Flow.Equiv.Server
import Novon.Platform.Gateway
import Novon.Uc.Equiv.Server

/-!
# Where the calls of the clients arrive

The requests that the clients send are routed to the handlers that the calls are named after, with
the same arguments, and served by them (`Uc.serve_sent`, `Flow.serve_sent`).  The dump of a create
has all fields, so that an unset description arrives as an explicit null, and makes the same record.
-/

namespace Novon

/-- The payload as it arrives: what was unset is an explicit null. -/
def FlowCreate.filled (p : FlowCreate) : FlowCreate :=
  { p with description := if p.description = .unset then .null else p.description }

/-- The dump of all fields of a valid payload is valid again. -/
theorem FlowCreate.validate_modelDump (p : FlowCreate) :
    FlowCreate.validate (modelDump false p.fields) = some p.filled := by
  have hnodup : (p.fields.map Prod.fst).Nodup := by simp [FlowCreate.fields]
  have hget := get?_modelDump false hnodup
  simp only [FlowCreate.validate, hget]
  obtain ⟨name, description⟩ := p
  cases description <;>
    simp [FlowCreate.fields, FlowCreate.filled, Dict.lookup, OptField.dump, OptField.toField,
      OptField.parse, requireStr]

theorem Flow.newFlow_filled (p : FlowCreate) (env : Env) :
    Flow.newFlow p.filled env = Flow.newFlow p env := by
  obtain ⟨name, description⟩ := p
  cases description <;> rfl

/-- The dump of all fields of a valid payload is the payload again on the other side. -/
theorem UserCreate.validate_modelDump (p : UserCreate) :
    UserCreate.validate (modelDump false p.fields) = some p := by
  have hnodup : (p.fields.map Prod.fst).Nodup := by simp [UserCreate.fields]
  have hget := get?_modelDump false hnodup
  simp only [UserCreate.validate, hget]
  simp [UserCreate.fields, Dict.lookup, OptField.dump, requireStr]

namespace Flow

open Router

variable (lib : HttpLib) (headers : Dict String String)

theorem target_flows {call : FlowCall} (hpath : FlowServiceClient.path call = "/flows") :
    target (FlowServiceClient.sent lib headers call) =
      dispatch routeTable (FlowServiceClient.endpoint call).method "/flows" := by
  have harrived : arrived lib "/flows" = some "/flows" :=
    arrived_eq_self lib (by decide) (by decide)
  rw [target_sent, hpath, harrived]
  rfl

theorem route_listFlows :
    route (FlowServiceClient.sent lib headers .listFlows) = .call .listFlows := by
  rw [route, target_flows lib headers rfl]
  rfl

theorem route_getFlow {id : String} (h : Addressable id) :
    route (FlowServiceClient.sent lib headers (.getFlow id)) = .call (.getFlow id) := by
  rw [route, target_getFlow lib headers h.2.2, if_pos h]
  rfl

/-- **A create arrives with its payload filled in.** -/
theorem route_createFlow (p : FlowCreate) :
    route (FlowServiceClient.sent lib headers (.createFlow p)) =
      .call (.createFlow p.filled) := by
  have htarget : target (FlowServiceClient.sent lib headers (.createFlow p)) =
      some (.createFlow, []) := target_flows lib headers rfl
  have hbody : (FlowServiceClient.sent lib headers (.createFlow p)).parseBody FlowCreate.validate =
      some p.filled := FlowCreate.validate_modelDump p
  rw [route, htarget]
  simp only [bind, hbody]

/-- The id of a call, if it has one, is a segment of a path. -/
def Plain : FlowCall → Prop
  | .getFlow id | .updateFlow id _ | .deleteFlow id => Addressable id
  | _ => True

/-- **A call that is sent reaches its handler.** -/
theorem serve_sent (framework : Framework FlowResponse) {call : FlowCall} (h : Plain call)
    (env : Env) (s : Store) :
    serve framework (FlowServiceClient.sent lib headers call) env s = handle call env s := by
  have hserve : ∀ {arrived}, route (FlowServiceClient.sent lib headers call) = .call arrived →
      handle arrived env s = handle call env s →
      serve framework (FlowServiceClient.sent lib headers call) env s = handle call env s := by
    intro arrived hroute hhandle
    rw [serve, hroute]
    exact hhandle
  cases call with
  | listFlows => exact hserve (route_listFlows lib headers) rfl
  | createFlow p =>
    refine hserve (route_createFlow lib headers p) ?_
    rw [handle, handle, run_createFlow, run_createFlow, newFlow_filled]
  | getFlow id => exact hserve (route_getFlow lib headers h) rfl
  | updateFlow id p => exact hserve ((route_updateFlow lib headers id p).trans (if_pos h)) rfl
  | deleteFlow id => exact hserve ((route_deleteFlow lib headers id).trans (if_pos h)) rfl

end Flow

namespace Uc

open Router

variable (lib : HttpLib) (headers : Dict String String)

/-- The static sibling takes its ids for lookups without a name. -/
theorem route_getUser {id : String} (h : Addressable id) :
    route (UcServiceClient.sent lib headers (.getUser id)) =
      if id ∈ staticIds then .invalid else .call (.getUser id) := by
  rw [route, target_getUser lib headers h.2.2, if_pos h]
  by_cases hby : id ∈ staticIds
  · rw [if_pos hby, if_pos hby]
    rfl
  · rw [if_neg hby, if_neg hby]
    rfl

theorem target_users {call : UcCall} (hpath : UcServiceClient.path call = "/users") :
    target (UcServiceClient.sent lib headers call) =
      dispatch routeTable (UcServiceClient.endpoint call).method "/users" := by
  have harrived : arrived lib "/users" = some "/users" :=
    arrived_eq_self lib (by decide) (by decide)
  rw [target_sent, hpath, harrived]
  rfl

theorem route_listUsers :
    route (UcServiceClient.sent lib headers .listUsers) = .call .listUsers := by
  rw [route, target_users lib headers rfl]
  rfl

/-- **A create arrives as it was called.** -/
theorem route_createUser (p : UserCreate) :
    route (UcServiceClient.sent lib headers (.createUser p)) = .call (.createUser p) := by
  have htarget : target (UcServiceClient.sent lib headers (.createUser p)) =
      some (.createUser, []) := target_users lib headers rfl
  have hbody : (UcServiceClient.sent lib headers (.createUser p)).parseBody UserCreate.validate =
      some p := UserCreate.validate_modelDump p
  rw [route, htarget]
  simp only [bind, hbody]

/-- The id of a call, if it has one, is a segment of a path, and not one that the static sibling of
its route takes. -/
def Plain : UcCall → Prop
  | .getUser id => Addressable id ∧ id ∉ staticIds
  | .updateUser id _ | .deleteUser id => Addressable id
  | _ => True

/-- **A call that is sent reaches its handler.** -/
theorem serve_sent (framework : Framework UserResponse) {call : UcCall} (h : Plain call) (env : Env)
    (s : Store) :
    serve framework (UcServiceClient.sent lib headers call) env s = handle call env s := by
  have hroute : route (UcServiceClient.sent lib headers call) = .call call := by
    cases call with
    | listUsers => exact route_listUsers lib headers
    | createUser p => exact route_createUser lib headers p
    | getUserByUsername username => exact route_getUserByUsername lib headers username
    | getUser id =>
      rw [route_getUser lib headers h.1, if_neg h.2]
    | updateUser id p => exact (route_updateUser lib headers id p).trans (if_pos h)
    | deleteUser id => exact (route_deleteUser lib headers id).trans (if_pos h)
  rw [serve, hroute]
  rfl

end Uc

/-! ### The path arguments of the BFF -/

namespace Bff

open Router

/-- A path argument that matched is not empty and has no slash in it. -/
theorem arguments_of_matchPath {parts : List Segment} {segs args : List String}
    (h : matchPath parts segs = some args) : ∀ arg ∈ args, arg ≠ "" ∧ arg ∈ segs := by
  induction parts generalizing segs args with
  | nil =>
    cases segs with
    | nil =>
      obtain rfl := Option.some.inj h
      exact fun arg harg => absurd harg List.not_mem_nil
    | cons s rest => simp [matchPath] at h
  | cons part parts ih =>
    cases segs with
    | nil => cases part <;> simp [matchPath] at h
    | cons s rest =>
      cases part with
      | lit text =>
        simp only [matchPath] at h
        split at h
        · exact fun arg harg => (ih h arg harg).imp id fun hmem => List.mem_cons_of_mem _ hmem
        · cases h
      | param name =>
        simp only [matchPath] at h
        split at h
        · cases h
        · next hs =>
          obtain ⟨args', hargs, rfl⟩ := Option.map_eq_some_iff.mp h
          intro arg harg
          rcases List.mem_cons.mp harg with rfl | harg
          · exact ⟨hs, List.mem_cons_self⟩
          · exact (ih hargs arg harg).imp id fun hmem => List.mem_cons_of_mem _ hmem

/-- The id in the path of a call, if it has one. -/
def BffCall.pathId : BffCall → Option String
  | .getFlow id | .getFlowWithOwner id | .getUser id => some id
  | _ => none

/-- The id of a routed call is one segment, and not empty. -/
theorem pathId_of_route {V : Type} {framework : WebFramework V} {user : String}
    {request : InboundRequest} {call : BffCall} (h : route framework user request = .call call)
    {id : String} (hid : call.pathId = some id) : id ≠ "" ∧ '/' ∉ id.toList := by
  rw [route] at h
  cases hd : Router.dispatch routeTable request.method request.path with
  | none => simp [hd] at h
  | some found =>
    obtain ⟨endpoint, args⟩ := found
    simp only [hd] at h
    have hargs : ∀ arg ∈ args, arg ≠ "" ∧ '/' ∉ arg.toList := by
      obtain ⟨r, -, hr⟩ := List.exists_of_findSome?_eq_some hd
      split at hr
      · obtain ⟨args', hmatch, heq⟩ := Option.map_eq_some_iff.mp hr
        obtain ⟨-, rfl⟩ := Prod.mk.inj heq
        intro arg harg
        obtain ⟨hne, hmem⟩ := arguments_of_matchPath hmatch arg harg
        exact ⟨hne, slash_not_mem_of_mem_segments hmem⟩
      · cases hr
    refine hargs id ?_
    -- the endpoints with an id take it from the path
    unfold bind at h
    split at h
    all_goals first
      | (obtain rfl := Routed.call.inj h
         obtain rfl := Option.some.inj hid
         exact List.mem_singleton_self _)
      | (obtain rfl := Routed.call.inj h; cases hid)
      | (split at h <;> first | (obtain rfl := Routed.call.inj h; cases hid) | cases h)
      | cases h

end Bff

end Novon
