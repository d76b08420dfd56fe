import Novon.Core.Equiv.BaseClient
import Novon.Data.Rpc
import Novon.Flow.Equiv.Routes
import Novon.Flow.Server
import Novon.FlowApi.Client
import Novon.Network.Lossy
import Novon.Uc.Equiv.Routes
import Novon.Uc.Server
import Novon.UcApi.Client

/-!
# The services and their clients on a network

Both services as keyed servers, side by side, and the requests that the calls of their clients
issue.  A client of either service may have any `max_retries`; a call may make as many attempts as
`BaseServiceClient.request` allows for its method.
-/

namespace Novon

open Rpc BaseServiceClient

/-! ### UC -/

/-- What a call does to the users, by the status it is answered with. -/
def Uc.keyEffect (call : UcCall) (env : Env) (status : ℤ) : KeyEffect String :=
  match call with
  | .createUser _ => if status = 201 then .insert (Uc.userIdOf env.uuid) else .idle
  | .updateUser userId _ => if status = 200 then .alter userId else .idle
  | .deleteUser userId => if status = 204 then .remove userId else .idle
  | _ => .idle

theorem Uc.keyEffect_relates (call : UcCall) (env : Env) (s : Uc.Store) :
    (Uc.keyEffect call env (Uc.handle call env s).1.statusCode).Relates
      (fun s : Uc.Store => s.users.get?) s (Uc.handle call env s).2 := by
  have he := Uc.handle_effect call env s
  generalize Uc.handle call env s = r at he ⊢
  cases he with
  | read hread => rcases hread with rfl | ⟨_, rfl⟩ | ⟨_, rfl⟩ <;> rfl
  | refused hstatus => cases call <;> rcases hstatus with rfl | rfl <;> rfl
  | create _ => exact ⟨by simp [Uc.created], fun i hi => Dict.get?_set_of_ne _ _ hi⟩
  | patch hget _ =>
    exact ⟨by simp [hget], by simp [Uc.patched], fun i hi => Dict.get?_set_of_ne _ _ hi⟩
  | delete hget =>
    refine ⟨by simp [hget], ?_, fun i hi => ?_⟩
    · simp [Uc.deleted, Dict.get?_pop]
    · simp [Uc.deleted, Dict.get?_pop, hi]

/-- Only a create inserts, and under the id it draws. -/
theorem Uc.of_keyEffect_eq_insert {call : UcCall} {env : Env} {status : ℤ} {k : String}
    (h : Uc.keyEffect call env status = .insert k) :
    (∃ payload, call = .createUser payload) ∧ Uc.userIdOf env.uuid = k := by
  cases call with
  | createUser payload =>
    simp only [Uc.keyEffect] at h
    split at h
    · exact ⟨⟨payload, rfl⟩, KeyEffect.insert.inj h⟩
    · cases h
  | updateUser _ _ | deleteUser _ =>
    simp only [Uc.keyEffect] at h
    split at h <;> cases h
  | getUser _ | getUserByUsername _ | listUsers => cases h

def Uc.keyedServer (framework : Framework UserResponse) :
    KeyedServer Request Env (Reply UserResponse) Uc.Store String UserResponse where
  serve := Uc.serve framework
  lookup s := s.users.get?
  draws request env :=
    match Uc.route request with
    | .call (.createUser _) => some (Uc.userIdOf env.uuid)
    | _ => none
  effect request env s :=
    match Uc.route request with
    | .call call => Uc.keyEffect call env (Uc.handle call env s).1.statusCode
    | _ => .idle
  effect_relates request env s := by
    unfold Uc.serve
    cases Uc.route request with
    | call call => exact Uc.keyEffect_relates call env s
    | unrouted | static _ | invalid => rfl
  draws_of_insert request env s k h := by
    cases hroute : Uc.route request with
    | call call =>
      simp only [hroute] at h
      obtain ⟨⟨payload, rfl⟩, rfl⟩ := Uc.of_keyEffect_eq_insert h
      rfl
    | unrouted | static _ | invalid =>
      simp only [hroute] at h
      cases h

/-- A request that some call of some UC client sends, with the number of attempts it may make. -/
def Uc.Issues (request : Request) (limit : ℕ) : Prop :=
  ∃ (lib : HttpLib) (headers : Dict String String) (client : BaseServiceClient) (call : UcCall),
    UcServiceClient.request lib headers call = .ok request ∧
      limit = attemptLimit client (UcServiceClient.endpoint call).method

/-! ### Flow -/

/-- What a call does to the flows, by the status it is answered with. -/
def Flow.keyEffect (call : FlowCall) (env : Env) (status : ℤ) : KeyEffect String :=
  match call with
  | .createFlow _ => if status = 201 then .insert (Flow.flowIdOf env.uuid) else .idle
  | .updateFlow flowId _ => if status = 200 then .alter flowId else .idle
  | .deleteFlow flowId => if status = 204 then .remove flowId else .idle
  | _ => .idle

theorem Flow.keyEffect_relates (call : FlowCall) (env : Env) (s : Flow.Store) :
    (Flow.keyEffect call env (Flow.handle call env s).1.statusCode).Relates
      (fun s : Flow.Store => Dict.get? s) s (Flow.handle call env s).2 := by
  have he := Flow.handle_effect call env s
  generalize Flow.handle call env s = r at he ⊢
  cases he with
  | read hread => rcases hread with rfl | ⟨_, rfl⟩ <;> rfl
  | refused => cases call <;> rfl
  | create => exact ⟨by simp, fun i hi => Dict.get?_set_of_ne _ _ hi⟩
  | patch hget => exact ⟨by simp [hget], by simp, fun i hi => Dict.get?_set_of_ne _ _ hi⟩
  | delete hget =>
    refine ⟨by simp [hget], ?_, fun i hi => ?_⟩
    · simp [Dict.get?_pop]
    · simp [Dict.get?_pop, hi]

/-- Only a create inserts, and under the id it draws. -/
theorem Flow.of_keyEffect_eq_insert {call : FlowCall} {env : Env} {status : ℤ} {k : String}
    (h : Flow.keyEffect call env status = .insert k) :
    (∃ payload, call = .createFlow payload) ∧ Flow.flowIdOf env.uuid = k := by
  cases call with
  | createFlow payload =>
    simp only [Flow.keyEffect] at h
    split at h
    · exact ⟨⟨payload, rfl⟩, KeyEffect.insert.inj h⟩
    · cases h
  | updateFlow _ _ | deleteFlow _ =>
    simp only [Flow.keyEffect] at h
    split at h <;> cases h
  | getFlow _ | listFlows => cases h

def Flow.keyedServer (framework : Framework FlowResponse) :
    KeyedServer Request Env (Reply FlowResponse) Flow.Store String FlowResponse where
  serve := Flow.serve framework
  lookup s := Dict.get? s
  draws request env :=
    match Flow.route request with
    | .call (.createFlow _) => some (Flow.flowIdOf env.uuid)
    | _ => none
  effect request env s :=
    match Flow.route request with
    | .call call => Flow.keyEffect call env (Flow.handle call env s).1.statusCode
    | _ => .idle
  effect_relates request env s := by
    unfold Flow.serve
    cases Flow.route request with
    | call call => exact Flow.keyEffect_relates call env s
    | unrouted | static _ | invalid => rfl
  draws_of_insert request env s k h := by
    cases hroute : Flow.route request with
    | call call =>
      simp only [hroute] at h
      obtain ⟨⟨payload, rfl⟩, rfl⟩ := Flow.of_keyEffect_eq_insert h
      rfl
    | unrouted | static _ | invalid =>
      simp only [hroute] at h
      cases h

/-- A request that some call of some Flow client sends, with the number of attempts it may make. -/
def Flow.Issues (request : Request) (limit : ℕ) : Prop :=
  ∃ (lib : HttpLib) (headers : Dict String String) (client : BaseServiceClient) (call : FlowCall),
    FlowServiceClient.request lib headers call = .ok request ∧
      limit = attemptLimit client (FlowServiceClient.endpoint call).method

/-! ### Both -/

/-- The two services, each with its own store. -/
def services (frameworkUc : Framework UserResponse) (frameworkFlow : Framework FlowResponse) :
    KeyedServer (Request ⊕ Request) Env (Reply UserResponse ⊕ Reply FlowResponse)
      (Uc.Store × Flow.Store) (String ⊕ String) (UserResponse ⊕ FlowResponse) :=
  (Uc.keyedServer frameworkUc).prod (Flow.keyedServer frameworkFlow)

/-- The requests that the clients of the two services issue. -/
def Issues : Request ⊕ Request → ℕ → Prop
  | .inl request => Uc.Issues request
  | .inr request => Flow.Issues request

/-- The retry predicate on a reply: it looks at the status (`Lossy.transient_render`). -/
def retries : Reply UserResponse ⊕ Reply FlowResponse → Bool
  | .inl reply => 500 ≤ reply.statusCode
  | .inr reply => 500 ≤ reply.statusCode

end Novon
