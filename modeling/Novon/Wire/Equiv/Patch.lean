import Novon.Flow.Equiv.Routes
import Novon.Flow.Equiv.Server
import Novon.Uc.Equiv.Routes
import Novon.Uc.Equiv.Server
import Novon.Wire.Exchange

/-!
# PATCH end to end

A `PATCH` that succeeds stores the record with each explicitly set field overlaid, nulls only where
the response model admits them (`patchedField`), whatever the payload.  The payload that the
handler sees is the payload of the call (`route_updateUser`), so what is left is what the handler
does with it.
-/

namespace Novon

variable (lib : HttpLib) (headers : Dict String String) (env : Env)

/-- A `PATCH` of a user that is answered 200 has come to the handler and passed its checks. -/
theorem Uc.exchange_updateUser {framework : Framework UserResponse} {s s' : Uc.Store}
    {userId : String} {p : UserUpdate} {user : UserResponse} {reply : Reply UserResponse}
    (hget : s.users.get? userId = some user)
    (h : Uc.exchange lib framework headers (.updateUser userId p) env s = .ok (reply, s'))
    (hstatus : reply.statusCode = 200) :
    s'.users = s.users.set userId (applyUserUpdate p env.now user) := by
  rw [Uc.exchange, UcServiceClient.request_eq, Except.map, Except.ok.injEq, Uc.serve,
    Uc.route_updateUser] at h
  split at h
  · rw [Routed.serve, Uc.handle, Uc.run_updateUser, hget] at h
    split at h
    · -- the record is there
      next heq => simp at heq
    · next existing heq =>
      obtain rfl := Option.some.inj heq
      split at h
      · -- a conflict answers 409
        obtain ⟨rfl, -⟩ := Prod.mk.inj h
        simp [Reply.ofResult] at hstatus
      · obtain ⟨-, rfl⟩ := Prod.mk.inj h
        rfl
  · -- no route: the framework's refusal or redirect
    obtain ⟨rfl, -⟩ := Prod.mk.inj h
    have hredirect := (framework.unrouted_bounds
      (UcServiceClient.sent lib headers (.updateUser userId p))).1
    omega

/-- A `PATCH` of a flow that is answered 200 has come to the handler and passed its checks. -/
theorem Flow.exchange_updateFlow {framework : Framework FlowResponse} {s s' : Flow.Store}
    {flowId : String} {p : FlowUpdate} {flow : FlowResponse} {reply : Reply FlowResponse}
    (hget : s.get? flowId = some flow)
    (h : Flow.exchange lib framework headers (.updateFlow flowId p) env s = .ok (reply, s'))
    (hstatus : reply.statusCode = 200) :
    s' = s.set flowId (applyFlowUpdate p env.now flow) := by
  rw [Flow.exchange, FlowServiceClient.request_eq, Except.map, Except.ok.injEq, Flow.serve,
    Flow.route_updateFlow] at h
  split at h
  · rw [Routed.serve, Flow.handle, Flow.run_updateFlow, hget] at h
    obtain ⟨-, rfl⟩ := Prod.mk.inj h
    rfl
  · obtain ⟨rfl, -⟩ := Prod.mk.inj h
    have hredirect := (framework.unrouted_bounds
      (FlowServiceClient.sent lib headers (.updateFlow flowId p))).1
    omega

/-- **PATCH end to end.**  A `PATCH` that succeeds stores exactly the patched fields of the stored
record, for every payload, and leaves the other records as they were. -/
theorem patch_stores (frameworkUc : Framework UserResponse)
    (frameworkFlow : Framework FlowResponse) :
    (∀ s s' userId p user reply, s.users.get? userId = some user →
      Uc.exchange lib frameworkUc headers (.updateUser userId p) env s = .ok (reply, s') →
      reply.statusCode = 200 →
      (∃ stored, s'.users.get? userId = some stored ∧ stored.fields =
        patchedFields (targetNullable UserResponse.modelFields) p.fields env.now user.fields) ∧
      ∀ i, i ≠ userId → s'.users.get? i = s.users.get? i) ∧
    (∀ s s' flowId p flow reply, s.get? flowId = some flow →
      Flow.exchange lib frameworkFlow headers (.updateFlow flowId p) env s = .ok (reply, s') →
      reply.statusCode = 200 →
      (∃ stored, s'.get? flowId = some stored ∧ stored.fields =
        patchedFields (targetNullable FlowResponse.modelFields) p.fields env.now flow.fields) ∧
      ∀ i, i ≠ flowId → s'.get? i = s.get? i) := by
  constructor
  · intro s s' userId p user reply hget h hstatus
    rw [Uc.exchange_updateUser lib headers env hget h hstatus]
    exact ⟨⟨_, Dict.get?_set_self .., fields_applyUserUpdate p env.now user⟩,
      fun i hi => Dict.get?_set_of_ne _ _ hi⟩
  · intro s s' flowId p flow reply hget h hstatus
    rw [Flow.exchange_updateFlow lib headers env hget h hstatus]
    exact ⟨⟨_, Dict.get?_set_self .., fields_applyFlowUpdate p env.now flow⟩,
      fun i hi => Dict.get?_set_of_ne _ _ hi⟩

/-- A rename beside an explicit null, and a null that clears a description. -/
theorem patch_stores_sample :
    (∃ stored, (Uc.patched (Uc.userIdOf .one) .toAlicia ⟨.two, 1⟩ (Uc.newUser .alice ⟨.one, 0⟩)
        (Uc.created .alice ⟨.one, 0⟩ .empty)).users.get? (Uc.userIdOf .one) = some stored ∧
      stored.fields = patchedFields (targetNullable UserResponse.modelFields)
        UserUpdate.toAlicia.fields 1 (Uc.newUser .alice ⟨.one, 0⟩).fields) ∧
    ∃ stored, (Dict.set (Dict.set .empty (Flow.flowIdOf .two) (Flow.newFlow .release ⟨.two, 0⟩))
        (Flow.flowIdOf .two) (applyFlowUpdate .clear 1 (Flow.newFlow .release ⟨.two, 0⟩))).get?
          (Flow.flowIdOf .two) = some stored ∧
      stored.fields = patchedFields (targetNullable FlowResponse.modelFields)
        FlowUpdate.clear.fields 1 (Flow.newFlow .release ⟨.two, 0⟩).fields := by
  have huser : Router.Addressable (Uc.userIdOf .one) := by decide
  have hflow : Router.Addressable (Flow.flowIdOf .two) := by decide
  constructor
  · refine ((patch_stores .sample .empty ⟨.two, 1⟩ (.sample _) (.sample _)).1
      (Uc.created .alice ⟨.one, 0⟩ .empty) _ (Uc.userIdOf .one) .toAlicia
      (Uc.newUser .alice ⟨.one, 0⟩)
      ⟨200, .record (applyUserUpdate .toAlicia 1 (Uc.newUser .alice ⟨.one, 0⟩))⟩ rfl ?_ rfl).1
    rw [Uc.exchange, UcServiceClient.request_eq, Except.map, Uc.serve, Uc.route_updateUser,
      if_pos huser]
    rfl
  · refine ((patch_stores .sample .empty ⟨.one, 1⟩ (.sample _) (.sample _)).2
      (Dict.set .empty (Flow.flowIdOf .two) (Flow.newFlow .release ⟨.two, 0⟩)) _
      (Flow.flowIdOf .two) .clear (Flow.newFlow .release ⟨.two, 0⟩)
      ⟨200, .record (applyFlowUpdate .clear 1 (Flow.newFlow .release ⟨.two, 0⟩))⟩ rfl ?_ rfl).1
    rw [Flow.exchange, FlowServiceClient.request_eq, Except.map, Flow.serve, Flow.route_updateFlow,
      if_pos hflow]
    rfl

end Novon
