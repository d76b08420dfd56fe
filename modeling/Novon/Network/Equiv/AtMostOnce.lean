import Novon.Data.Equiv.Rpc
import Novon.Flow.Equiv.Server
import Novon.Network.Services
import Novon.Uc.Equiv.Server

/-!
# No call takes effect twice

A `POST` or a `PATCH` is sent once.  A `GET` changes nothing, and a `DELETE` removes one id, which
is never drawn again: so no call of a client changes a store twice, whatever the network loses or
delays.
-/

namespace Novon

open Rpc BaseServiceClient

theorem attemptLimit_of_not_idempotent (client : BaseServiceClient) {method : String}
    (h : upper method ∉ idempotentMethods) : attemptLimit client method = 1 := by
  have hretry : shouldRetry client method = false := by
    simp [shouldRetry, h]
  rw [attemptLimit, hretry]
  rfl

/-! ### UC -/

/-- The effects that a call may have. -/
def Uc.Permits (call : UcCall) : KeyEffect String → Prop :=
  KeyEffect.Within (∃ payload, call = .createUser payload)
    (fun userId => ∃ payload, call = .updateUser userId payload) fun userId =>
      call = .deleteUser userId

/-- What a call does when it is handled, it may do. -/
theorem Uc.permits_keyEffect (call : UcCall) (env : Env) (status : ℤ) :
    Uc.Permits call (Uc.keyEffect call env status) := by
  cases call with
  | getUser _ | getUserByUsername _ | listUsers => exact True.intro
  | createUser payload =>
    refine KeyEffect.Within.ite ?_ _
    exact ⟨payload, rfl⟩
  | updateUser _ payload =>
    refine KeyEffect.Within.ite ?_ _
    exact ⟨payload, rfl⟩
  | deleteUser _ =>
    refine KeyEffect.Within.ite ?_ _
    exact rfl

theorem Uc.effect_get (framework : Framework UserResponse) {request : Request}
    (h : request.method = "GET") (env : Env) (s : Uc.Store) :
    (Uc.keyedServer framework).effect request env s = .idle := by
  simp only [Uc.keyedServer]
  cases hroute : Uc.route request with
  | unrouted | static _ | invalid => rfl
  | call call =>
    have hmethod := (Uc.method_of_route hroute).symm.trans h
    cases call with
    | getUser _ | getUserByUsername _ | listUsers => rfl
    | createUser _ => exact absurd hmethod (show "POST" ≠ "GET" by decide)
    | updateUser _ _ => exact absurd hmethod (show "PATCH" ≠ "GET" by decide)
    | deleteUser _ => exact absurd hmethod (show "DELETE" ≠ "GET" by decide)

/-- The request of a call has no other effect than the call may have. -/
theorem Uc.permits_effect (framework : Framework UserResponse) (lib : HttpLib)
    (headers : Dict String String) (call : UcCall) (env : Env) (s : Uc.Store) :
    Uc.Permits call
      ((Uc.keyedServer framework).effect (UcServiceClient.sent lib headers call) env s) := by
  cases call with
  | getUser _ | getUserByUsername _ | listUsers =>
    rw [Uc.effect_get framework rfl env s]
    trivial
  | createUser payload =>
    simp only [Uc.keyedServer]
    cases hroute : Uc.route (UcServiceClient.sent lib headers (.createUser payload)) with
    | unrouted | static _ | invalid => trivial
    | call call =>
      -- the payload may arrive in another spelling, but as that of a create
      have hmethod := Uc.method_of_route hroute
      cases call with
      | createUser _ =>
        simp only [Uc.keyEffect]
        refine KeyEffect.Within.ite ?_ _
        exact ⟨payload, rfl⟩
      | getUser _ | getUserByUsername _ | listUsers =>
        exact absurd hmethod (show "POST" ≠ "GET" by decide)
      | updateUser _ _ => exact absurd hmethod (show "POST" ≠ "PATCH" by decide)
      | deleteUser _ => exact absurd hmethod (show "POST" ≠ "DELETE" by decide)
  | updateUser userId payload =>
    simp only [Uc.keyedServer, Uc.route_updateUser]
    by_cases ha : Router.Addressable userId
    · simp only [ha, if_true]
      exact Uc.permits_keyEffect _ _ _
    · simp only [ha, if_false]
      trivial
  | deleteUser userId =>
    simp only [Uc.keyedServer, Uc.route_deleteUser]
    by_cases ha : Router.Addressable userId
    · simp only [ha, if_true]
      exact Uc.permits_keyEffect _ _ _
    · simp only [ha, if_false]
      trivial

/-- A call that may be sent again only removes. -/
theorem Uc.limit_or_onlyRemoves (framework : Framework UserResponse) {request : Request} {limit : ℕ}
    (h : Uc.Issues request limit) :
    limit ≤ 1 ∨ OnlyRemoves (Uc.keyedServer framework) request := by
  obtain ⟨lib, headers, client, call, hrequest, rfl⟩ := h
  rw [UcServiceClient.request_eq] at hrequest
  obtain rfl := Except.ok.inj hrequest
  have hpermits := Uc.permits_effect framework lib headers call
  cases call with
  | createUser _ =>
    exact .inl (attemptLimit_of_not_idempotent client
      (show upper "POST" ∉ idempotentMethods by decide)).le
  | updateUser _ _ =>
    exact .inl (attemptLimit_of_not_idempotent client
      (show upper "PATCH" ∉ idempotentMethods by decide)).le
  | getUser _ | getUserByUsername _ | listUsers =>
    exact .inr ⟨"", fun env s => .inl (Uc.effect_get framework rfl env s)⟩
  | deleteUser userId =>
    exact .inr ⟨userId, fun env s => (hpermits env s).of_removal (by simp) (by simp) (by simp)⟩

/-! ### Flow -/

/-- The effects that a call may have. -/
def Flow.Permits (call : FlowCall) : KeyEffect String → Prop :=
  KeyEffect.Within (∃ payload, call = .createFlow payload)
    (fun flowId => ∃ payload, call = .updateFlow flowId payload) fun flowId =>
      call = .deleteFlow flowId

/-- What a call does when it is handled, it may do. -/
theorem Flow.permits_keyEffect (call : FlowCall) (env : Env) (status : ℤ) :
    Flow.Permits call (Flow.keyEffect call env status) := by
  cases call with
  | getFlow _ | listFlows => exact True.intro
  | createFlow payload =>
    refine KeyEffect.Within.ite ?_ _
    exact ⟨payload, rfl⟩
  | updateFlow _ payload =>
    refine KeyEffect.Within.ite ?_ _
    exact ⟨payload, rfl⟩
  | deleteFlow _ =>
    refine KeyEffect.Within.ite ?_ _
    exact rfl

theorem Flow.effect_get (framework : Framework FlowResponse) {request : Request}
    (h : request.method = "GET") (env : Env) (s : Flow.Store) :
    (Flow.keyedServer framework).effect request env s = .idle := by
  simp only [Flow.keyedServer]
  cases hroute : Flow.route request with
  | unrouted | static _ | invalid => rfl
  | call call =>
    have hmethod := (Flow.method_of_route hroute).symm.trans h
    cases call with
    | getFlow _ | listFlows => rfl
    | createFlow _ => exact absurd hmethod (show "POST" ≠ "GET" by decide)
    | updateFlow _ _ => exact absurd hmethod (show "PATCH" ≠ "GET" by decide)
    | deleteFlow _ => exact absurd hmethod (show "DELETE" ≠ "GET" by decide)

/-- The request of a call has no other effect than the call may have. -/
theorem Flow.permits_effect (framework : Framework FlowResponse) (lib : HttpLib)
    (headers : Dict String String) (call : FlowCall) (env : Env) (s : Flow.Store) :
    Flow.Permits call
      ((Flow.keyedServer framework).effect (FlowServiceClient.sent lib headers call) env s) := by
  cases call with
  | getFlow _ | listFlows =>
    rw [Flow.effect_get framework rfl env s]
    trivial
  | createFlow payload =>
    simp only [Flow.keyedServer]
    cases hroute : Flow.route (FlowServiceClient.sent lib headers (.createFlow payload)) with
    | unrouted | static _ | invalid => trivial
    | call call =>
      -- the payload may arrive in another spelling, but as that of a create
      have hmethod := Flow.method_of_route hroute
      cases call with
      | createFlow _ =>
        simp only [Flow.keyEffect]
        refine KeyEffect.Within.ite ?_ _
        exact ⟨payload, rfl⟩
      | getFlow _ | listFlows =>
        exact absurd hmethod (show "POST" ≠ "GET" by decide)
      | updateFlow _ _ => exact absurd hmethod (show "POST" ≠ "PATCH" by decide)
      | deleteFlow _ => exact absurd hmethod (show "POST" ≠ "DELETE" by decide)
  | updateFlow flowId payload =>
    simp only [Flow.keyedServer, Flow.route_updateFlow]
    by_cases ha : Router.Addressable flowId
    · simp only [ha, if_true]
      exact Flow.permits_keyEffect _ _ _
    · simp only [ha, if_false]
      trivial
  | deleteFlow flowId =>
    simp only [Flow.keyedServer, Flow.route_deleteFlow]
    by_cases ha : Router.Addressable flowId
    · simp only [ha, if_true]
      exact Flow.permits_keyEffect _ _ _
    · simp only [ha, if_false]
      trivial

/-- A call that may be sent again only removes. -/
theorem Flow.limit_or_onlyRemoves (framework : Framework FlowResponse) {request : Request}
    {limit : ℕ} (h : Flow.Issues request limit) :
    limit ≤ 1 ∨ OnlyRemoves (Flow.keyedServer framework) request := by
  obtain ⟨lib, headers, client, call, hrequest, rfl⟩ := h
  rw [FlowServiceClient.request_eq] at hrequest
  obtain rfl := Except.ok.inj hrequest
  have hpermits := Flow.permits_effect framework lib headers call
  cases call with
  | createFlow _ =>
    exact .inl (attemptLimit_of_not_idempotent client
      (show upper "POST" ∉ idempotentMethods by decide)).le
  | updateFlow _ _ =>
    exact .inl (attemptLimit_of_not_idempotent client
      (show upper "PATCH" ∉ idempotentMethods by decide)).le
  | getFlow _ | listFlows =>
    exact .inr ⟨"", fun env s => .inl (Flow.effect_get framework rfl env s)⟩
  | deleteFlow flowId =>
    exact .inr ⟨flowId, fun env s => (hpermits env s).of_removal (by simp) (by simp) (by simp)⟩

/-! ### Both -/

/-- A call that may be sent again only removes, at either service. -/
theorem limit_or_onlyRemoves (frameworkUc : Framework UserResponse)
    (frameworkFlow : Framework FlowResponse) {request : Request ⊕ Request} {limit : ℕ}
    (h : Issues request limit) :
    limit ≤ 1 ∨ OnlyRemoves (services frameworkUc frameworkFlow) request := by
  cases request with
  | inl request =>
    rcases Uc.limit_or_onlyRemoves frameworkUc h with hlimit | hremoves
    · exact .inl hlimit
    · exact .inr (hremoves.inl _)
  | inr request =>
    rcases Flow.limit_or_onlyRemoves frameworkFlow h with hlimit | hremoves
    · exact .inl hlimit
    · exact .inr (hremoves.inr _)

/-- The clients, the services and the network between them. -/
abbrev Network : Type :=
  Net (Request ⊕ Request) Env (Reply UserResponse ⊕ Reply FlowResponse) (Uc.Store × Flow.Store)
    (String ⊕ String)

/-- What a run does for call `c`, whose request is the first argument: some client made the call,
and no request served for it has another effect than the call may have. -/
def Network.Serves (frameworkUc : Framework UserResponse) (frameworkFlow : Framework FlowResponse)
    (net : Network) (c : ℕ) : Request ⊕ Request → Prop
  | .inl request => ∃ (lib : HttpLib) (headers : Dict String String) (call : UcCall),
      request = UcServiceClient.sent lib headers call ∧
        ∀ e ∈ net.log, e.call = c → ∃ effect, Uc.Permits call effect ∧
          e.effect (services frameworkUc frameworkFlow) = effect.map .inl
  | .inr request => ∃ (lib : HttpLib) (headers : Dict String String) (call : FlowCall),
      request = FlowServiceClient.sent lib headers call ∧
        ∀ e ∈ net.log, e.call = c → ∃ effect, Flow.Permits call effect ∧
          e.effect (services frameworkUc frameworkFlow) = effect.map .inr

/-- **At most one effect per client call**, in every run of any number of clients of the two
services.  A create inserts at most one record, a `PATCH` is applied at most once, and a delete
removes at most the record it asks for, which is not in the store again once it has been removed. -/
theorem at_most_once (frameworkUc : Framework UserResponse)
    (frameworkFlow : Framework FlowResponse) {net : Network}
    (h : net.Reachable (services frameworkUc frameworkFlow) Issues retries (.empty, .empty)) :
    AtMostOnce (services frameworkUc frameworkFlow) (.empty, .empty) net ∧
      ∀ c call, net.calls[c]? = some call →
        net.Serves frameworkUc frameworkFlow c call.request := by
  have hempty : ∀ k, (services frameworkUc frameworkFlow).lookup (.empty, .empty) k = none := by
    rintro (k | k) <;> rfl
  refine ⟨h.atMostOnce _ _ _ hempty fun _ _ => limit_or_onlyRemoves _ _, ?_⟩
  intro c call hcall
  have hinv := h.inv _ _ _ hempty
  obtain ⟨-, hissue⟩ := hinv.attempt_le c call hcall
  -- a request served for the call is the request of the call
  have howned : ∀ e ∈ net.log, e.call = c → e.request = call.request := by
    intro e he hc
    obtain ⟨call', hcall', hrequest⟩ := hinv.logged e he
    rw [hc] at hcall'
    obtain rfl := Option.some.inj (hcall.symm.trans hcall')
    exact hrequest.symm
  cases hrequest : call.request with
  | inl request =>
    rw [hrequest] at hissue howned
    obtain ⟨lib, headers, client, ucCall, hsent, -⟩ := hissue
    rw [UcServiceClient.request_eq] at hsent
    obtain rfl := Except.ok.inj hsent
    refine ⟨lib, headers, ucCall, rfl, fun e he hc => ⟨_, Uc.permits_effect frameworkUc lib headers
      ucCall e.env e.before.1, ?_⟩⟩
    rw [Entry.effect, howned e he hc, services, KeyedServer.effect_prod_inl]
  | inr request =>
    rw [hrequest] at hissue howned
    obtain ⟨lib, headers, client, flowCall, hsent, -⟩ := hissue
    rw [FlowServiceClient.request_eq] at hsent
    obtain rfl := Except.ok.inj hsent
    refine ⟨lib, headers, flowCall, rfl, fun e he hc => ⟨_, Flow.permits_effect frameworkFlow lib
      headers flowCall e.env e.before.2, ?_⟩⟩
    rw [Entry.effect, howned e he hc, services, KeyedServer.effect_prod_inr]

/-! ### A run -/

theorem issues_sentUc (lib : HttpLib) (headers : Dict String String) (client : BaseServiceClient)
    (call : UcCall) : Issues (.inl (UcServiceClient.sent lib headers call))
      (attemptLimit client (UcServiceClient.endpoint call).method) :=
  ⟨lib, headers, client, call, UcServiceClient.request_eq lib headers call, rfl⟩

theorem Uc.draws_deleteUser (framework : Framework UserResponse) (lib : HttpLib)
    (headers : Dict String String) (userId : String) (env : Env) :
    (Uc.keyedServer framework).draws (UcServiceClient.sent lib headers (.deleteUser userId)) env =
      none := by
  simp only [Uc.keyedServer, Uc.route_deleteUser]
  by_cases ha : Router.Addressable userId
  · rw [if_pos ha]
  · rw [if_neg ha]

/-- A record is created, and deleted by a call whose first attempt arrives after its second. -/
theorem at_most_once_lateDelete :
    ∃ net : Network, net.log.length = 3 ∧ net.requests = [] ∧
      AtMostOnce (services (.sample _) (.sample _)) (.empty, .empty) net := by
  have hcreate := issues_sentUc .sample .empty ⟨"uc", 3⟩ (.createUser .alice)
  have hdelete := issues_sentUc .sample .empty ⟨"uc", 3⟩ (.deleteUser (Uc.userIdOf .one))
  have hnone : ∀ (env : Env) (drawn : List (String ⊕ String)) (key : String ⊕ String),
      (services (.sample _) (.sample _)).draws (.inl (UcServiceClient.sent .sample .empty
        (.deleteUser (Uc.userIdOf .one)))) env = some key → key ∉ drawn := by
    intro env drawn key hkey
    simp only [services, KeyedServer.prod, Uc.draws_deleteUser, Option.map_none] at hkey
    cases hkey
  have hfirst : ∀ (env : Env) (key : String ⊕ String),
      (services (.sample _) (.sample _)).draws
        (.inl (UcServiceClient.sent .sample .empty (.createUser .alice))) env = some key →
          key ∉ [] :=
    fun _ _ _ => List.not_mem_nil
  have h₀ : (Net.init (.empty, .empty) : Network).Reachable
    (services (.sample _) (.sample _)) Issues retries (.empty, .empty) := .init
  have h₁ := h₀.step (.start hcreate)
  have h₂ := h₁.step (.deliver (show _ = [] ++ (0, 1) :: _ from rfl) rfl (hfirst ⟨.one, 0⟩))
  have h₃ := h₂.step (.start hdelete)
  have h₄ := h₃.step (.timeout (c := 1) rfl rfl)
  have h₅ := h₄.step (.deliver (show _ = [] ++ (1, 2) :: _ from rfl) rfl (hnone ⟨.two, 1⟩ _))
  have h₆ := h₅.step (.deliver (show _ = [] ++ (1, 1) :: _ from rfl) rfl (hnone ⟨.two, 2⟩ _))
  exact ⟨_, rfl, rfl, (at_most_once (.sample _) (.sample _) h₆).1⟩

end Novon
