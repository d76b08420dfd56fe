import Novon.Http.Equiv.Message
import Novon.Http.Equiv.Router
import Novon.Uc.Equiv.Routes
import Novon.Uc.Server
import Novon.UcApi.Equiv.Client

/-!
# Which UC handler a client call reaches

The `PATCH` and the `DELETE` of an addressable id reach their handlers with it, and with other ids
they reach none.  The `GET` shares its path with the static `by-username` route, which comes first.
-/

namespace Novon.Uc

open Router

variable (lib : HttpLib) (headers : Dict String String)

/-- What a client call is dispatched to is read off the path that arrives. -/
theorem target_sent (call : UcCall) :
    target (UcServiceClient.sent lib headers call) =
      (arrived lib (UcServiceClient.path call)).bind
        (dispatch routeTable (UcServiceClient.endpoint call).method) := rfl

theorem target_updateUser (id : String) (p : UserUpdate) :
    target (UcServiceClient.sent lib headers (.updateUser id p)) =
      if Addressable id then some (.updateUser, [id]) else none := by
  rw [target_sent]
  exact dispatch_arrived_item lib (c := "users") (by decide) (by decide) rfl rfl id

theorem target_deleteUser (id : String) :
    target (UcServiceClient.sent lib headers (.deleteUser id)) =
      if Addressable id then some (.deleteUser, [id]) else none := by
  rw [target_sent]
  exact dispatch_arrived_item lib (c := "users") (by decide) (by decide) rfl rfl id

/-- The static sibling takes the `GET` of one id. -/
theorem target_getUser {id : String} (hid : isDotSegment id = false) :
    target (UcServiceClient.sent lib headers (.getUser id)) =
      if Addressable id then
        if id ∈ staticIds then some (.getUserByUsername, []) else some (.getUser, [id])
      else none := by
  have harrived : arrived lib ("/users/" ++ Percent.quote id) = some ("/users/" ++ id) :=
    arrived_item lib "users" (by decide) (by decide) rfl hid
  have hseg : segments ("/users/" ++ id) = "" :: "users" :: segments id :=
    segments_item "users" (by decide) id
  rw [target_sent, UcServiceClient.path, harrived, Option.bind_some]
  by_cases ha : id = "" ∨ '/' ∈ id.toList
  · rw [if_neg fun h => ha.elim h.1 h.2.1]
    rcases ha with rfl | hslash
    · rfl
    · -- the route of the listing has too few segments, the static sibling as many as one id
      obtain ⟨a, b, rest, hsegs⟩ := segments_of_slash hslash
      simp [dispatch, UcServiceClient.endpoint, UcServiceClient.getUser, routeTable, hseg, hsegs,
        matchPath]
  · rw [not_or] at ha
    rw [if_pos ⟨ha.1, ha.2, hid⟩]
    have hone : segments id = [id] := segments_eq_singleton ha.2
    by_cases hby : id ∈ staticIds
    · rw [if_pos hby]
      have hids : id = "by-username" ∨ id = "by-username\n" := by simpa [staticIds] using hby
      rcases hids with rfl | rfl <;> rfl
    · have hids : ¬ (id = "by-username" ∨ id = "by-username\n") := by simpa [staticIds] using hby
      simp [dispatch, UcServiceClient.endpoint, UcServiceClient.getUser, routeTable, hseg, hone,
        matchPath, matchesLit, hids, hby, ha.1]

/-! ### Bodies -/

/-- The explicitly set fields of a PATCH are the payload again on the other side. -/
theorem parseBody_updateUser (userId : String) (p : UserUpdate) :
    (UcServiceClient.sent lib headers (.updateUser userId p)).parseBody UserUpdate.validate =
      some p := by
  have hnodup : (p.fields.map Prod.fst).Nodup := by
    simp [UserUpdate.fields]
  have hget := get?_modelDump true hnodup
  have husername := OptField.parse_dump _ _ BoundedStr.ofString?_val p.username
  have hemail := OptField.parse_dump _ _ BoundedStr.ofString?_val p.email
  have hstatus := OptField.parse_dump some id (fun _ => rfl) p.status
  show UserUpdate.validate (modelDump true p.fields) = some p
  simp only [UserUpdate.validate, hget]
  simp [UserUpdate.fields, Dict.lookup, husername, hemail, hstatus]

/-- **The `PATCH` of an addressable id arrives as it was called.** -/
theorem route_updateUser (id : String) (p : UserUpdate) :
    route (UcServiceClient.sent lib headers (.updateUser id p)) =
      if Addressable id then .call (.updateUser id p) else .unrouted := by
  rw [route, target_updateUser]
  by_cases ha : Addressable id
  · rw [if_pos ha, if_pos ha]
    simp only [bind, parseBody_updateUser]
  · rw [if_neg ha, if_neg ha]

theorem route_deleteUser (id : String) :
    route (UcServiceClient.sent lib headers (.deleteUser id)) =
      if Addressable id then .call (.deleteUser id) else .unrouted := by
  rw [route, target_deleteUser]
  by_cases ha : Addressable id
  · rw [if_pos ha, if_pos ha]
    rfl
  · rw [if_neg ha, if_neg ha]

/-- The lookup by name takes its argument from the query, whatever characters are in it. -/
theorem route_getUserByUsername (username : String) :
    route (UcServiceClient.sent lib headers (.getUserByUsername username)) =
      .call (.getUserByUsername username) := by
  have harrived : arrived lib "/users/by-username" = some "/users/by-username" :=
    arrived_eq_self lib (by decide) (by decide)
  have htarget : target (UcServiceClient.sent lib headers (.getUserByUsername username)) =
      some (.getUserByUsername, []) := by
    rw [target_sent, UcServiceClient.path, harrived]
    rfl
  rw [route, htarget]
  rfl

/-! ### Serving -/

/-- No handler answers with a 5xx. -/
theorem handle_status_lt (call : UcCall) (env : Env) (s : Store) :
    (handle call env s).1.statusCode < 500 := by
  cases call with
  | listUsers => exact (by decide : (200 : ℤ) < 500)
  | getUserByUsername username =>
    rw [handle, run_getUserByUsername]
    cases (s.usersByUsername.get? (.str username)).bind s.users.get? <;> simp [Reply.ofResult]
  | getUser userId =>
    rw [handle, run_getUser]
    cases s.users.get? userId <;> simp [Reply.ofResult]
  | createUser payload =>
    rw [handle, run_createUser]
    split <;> simp [Reply.ofResult]
  | updateUser userId p =>
    rw [handle, run_updateUser]
    split
    · simp [Reply.ofResult]
    · split <;> simp [Reply.ofResult]
  | deleteUser userId =>
    rw [handle, run_deleteUser]
    cases s.users.get? userId <;> simp [Reply.ofResult]

theorem serve_status_lt (framework : Framework UserResponse) (request : Request) (env : Env)
    (s : Store) : (serve framework request env s).1.statusCode < 500 :=
  Routed.serve_status_lt framework request handle_status_lt (route request) env s

def handler : UcCall → Endpoint
  | .listUsers => .listUsers
  | .getUserByUsername _ => .getUserByUsername
  | .getUser _ => .getUser
  | .createUser _ => .createUser
  | .updateUser _ _ => .updateUser
  | .deleteUser _ => .deleteUser

theorem handler_of_bind {request : Request} {endpoint : Endpoint} {args : List String}
    {call : UcCall} (h : bind request endpoint args = .call call) : endpoint = handler call := by
  unfold bind at h
  split at h <;> first
    | (obtain rfl := Routed.call.inj h; rfl)
    | (split at h <;> first | (obtain rfl := Routed.call.inj h; rfl) | simp at h)
    | simp at h

/-- **A request has the method of the call that it is routed to.** -/
theorem method_of_route {request : Request} {call : UcCall} (h : route request = .call call) :
    request.method = (UcServiceClient.endpoint call).method := by
  rw [route] at h
  cases ht : target request with
  | none => simp [ht] at h
  | some t =>
    obtain ⟨endpoint, args⟩ := t
    simp only [ht] at h
    obtain rfl := handler_of_bind h
    obtain ⟨path, -, hpath⟩ := Option.bind_eq_some_iff.mp ht
    have htable : ∀ r ∈ routeTable, r.endpoint = handler call →
        r.method = (UcServiceClient.endpoint call).method := by
      cases call <;> simp [routeTable, handler, UcServiceClient.endpoint, UcServiceClient.getUser,
        UcServiceClient.getUserByUsername, UcServiceClient.listUsers, UcServiceClient.createUser,
        UcServiceClient.updateUser, UcServiceClient.deleteUser]
    exact method_of_dispatch hpath htable

/-- A `GET` changes nothing, and its answer depends on the store alone. -/
theorem serve_get (framework : Framework UserResponse) {request : Request}
    (h : request.method = "GET") (env env' : Env) (s : Store) :
    serve framework request env s = ((serve framework request env' s).1, s) := by
  rw [serve, serve]
  refine Routed.serve_read framework request fun call hroute => ?_
  have hmethod := (method_of_route hroute).symm.trans h
  cases call with
  | listUsers => rfl
  | getUserByUsername username =>
    simp only [handle, run_getUserByUsername]
    cases (s.usersByUsername.get? (.str username)).bind s.users.get? <;> rfl
  | getUser userId =>
    simp only [handle, run_getUser]
    cases s.users.get? userId <;> rfl
  | createUser _ => exact absurd hmethod (show "POST" ≠ "GET" by decide)
  | updateUser _ _ => exact absurd hmethod (show "PATCH" ≠ "GET" by decide)
  | deleteUser _ => exact absurd hmethod (show "DELETE" ≠ "GET" by decide)

end Novon.Uc
