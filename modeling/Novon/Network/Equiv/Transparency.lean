import Novon.Flow.Equiv.Server
import Novon.Network.Equiv.Lossy
import Novon.Uc.Equiv.Server

/-!
# Are retries transparent?

A `GET` leaves the store as it is, so the answered attempt finds what a loss-free call would have
found.  A `DELETE` whose own attempt has removed the record, with the response lost, is answered
404 at the next attempt, and the caller of a call that did its work sees `ServiceNotFoundError`.
`retry_transparent` says that this is the only case.
-/

namespace Novon

open BaseServiceClient

variable {J V : Type}

/-- What the caller of a UC call sees. -/
def Uc.outcome (lib : HttpLib) (headers : Dict String String) (codec : Codec J V)
    (client : BaseServiceClient) (framework : Framework UserResponse)
    (body : ReplyBody UserResponse → Bytes) (env : Env) (losses : List Loss) (s : Uc.Store)
    (call : UcCall) : Except WrapperError (Except Raised (Result V)) :=
  (UcServiceClient.outbound lib call).map
    (Lossy.perform lib headers codec client (Uc.serve framework) body env losses s)

/-- What the caller of a Flow call sees. -/
def Flow.outcome (lib : HttpLib) (headers : Dict String String) (codec : Codec J V)
    (client : BaseServiceClient) (framework : Framework FlowResponse)
    (body : ReplyBody FlowResponse → Bytes) (env : Env) (losses : List Loss) (s : Flow.Store)
    (call : FlowCall) : Except WrapperError (Except Raised (Result V)) :=
  (FlowServiceClient.outbound lib call).map
    (Lossy.perform lib headers codec client (Flow.serve framework) body env losses s)

namespace Lossy

variable {ρ σ : Type}

/-- A request that changes nothing and whose answer depends on the store alone. -/
def IsRead (serve : Env → σ → Reply ρ × σ) : Prop :=
  ∀ env env' s, serve env s = ((serve env' s).1, s)

/-- A request that answers 204 and removes what is present, and 404 if it is not. -/
structure IsRemoval (serve : Env → σ → Reply ρ × σ) (present : σ → Prop) (text : String) :
    Prop where
  there : ∀ env s, present s → (serve env s).1 = ⟨204, .empty⟩ ∧ ¬ present (serve env s).2
  gone : ∀ env s, ¬ present s → serve env s = (⟨404, .detail text⟩, s)

variable (lib : HttpLib) (headers : Dict String String) (codec : Codec J V)
  (client : BaseServiceClient) (serve : Request → Env → σ → Reply ρ × σ)
  (body : ReplyBody ρ → Bytes) (env env₀ : Env) {call : OutboundCall} {losses : List Loss}

/-- If the answered attempt finds the store of before the call, the caller sees what a loss-free
call would have shown. -/
theorem perform_of_afterLosses
    (hstatus : ∀ env s, (serve (Feign.send lib headers call) env s).1.statusCode < 500)
    (hn : losses.length < attemptLimit client call.method) {s : σ}
    (hafter : afterLosses (serve (Feign.send lib headers call)) s losses = s)
    (henv : (serve (Feign.send lib headers call) env s).1 =
      (serve (Feign.send lib headers call) env₀ s).1) :
    perform lib headers codec client serve body env losses s call =
      perform lib headers codec client serve body env₀ [] s call := by
  have hpos : ([] : List Loss).length < attemptLimit client call.method :=
    attemptLimit_pos client call.method
  rw [perform_eq codec client body env lib headers serve (hstatus env) hn,
    perform_eq codec client body env₀ lib headers serve (hstatus env₀) hpos, hafter, henv]
  rfl

/-- **Retries of a read** are transparent. -/
theorem perform_read
    (hstatus : ∀ env s, (serve (Feign.send lib headers call) env s).1.statusCode < 500)
    (hread : IsRead (serve (Feign.send lib headers call)))
    (hn : losses.length < attemptLimit client call.method) (s : σ) :
    perform lib headers codec client serve body env losses s call =
      perform lib headers codec client serve body env₀ [] s call := by
  have hstate := fun env => (Prod.ext_iff.mp (hread env env s)).2
  exact perform_of_afterLosses lib headers codec client serve body env env₀ hstatus hn
    (afterLosses_eq_self _ hstate losses) (Prod.ext_iff.mp (hread env env₀ s)).1

/-- A caller that expects no content sees the status of the answer: nothing for a 204, and
`ServiceNotFoundError` for a 404. -/
theorem seen_noContent (hmodel : call.responseModel = none) (hnone : call.expectsNone = true)
    (text : String) :
    seen codec client body call (⟨204, .empty⟩ : Reply ρ) = .ok .none ∧
      seen codec client body call ⟨404, .detail text⟩ =
        .error (.service (.notFound ("Resource not found from " ++ client.serviceName)
          client.serviceName (some (codec.utf8 (body (.detail text)))))) := by
  have hfailed : (render body (⟨404, .detail text⟩ : Reply ρ)).isSuccess = false := rfl
  constructor
  · simp only [seen, hmodel, hnone]
    rfl
  · simp only [seen, hnone, requestOnce_render codec client body hfailed]
    rfl

/-- **Retries of a removal** are transparent if and only if no attempt has removed something and
lost the answer. -/
theorem perform_removal {present : σ → Prop} {text : String}
    (hremoval : IsRemoval (serve (Feign.send lib headers call)) present text)
    (hmodel : call.responseModel = none) (hnone : call.expectsNone = true)
    (hn : losses.length < attemptLimit client call.method) (s : σ) :
    perform lib headers codec client serve body env losses s call =
        perform lib headers codec client serve body env₀ [] s call ↔
      ¬ (present s ∧ ∃ loss ∈ losses, loss.isResponse = true) := by
  have hstatus : ∀ env s, (serve (Feign.send lib headers call) env s).1.statusCode < 500 := by
    intro env s
    by_cases hp : present s
    · simp [(hremoval.there env s hp).1]
    · simp [hremoval.gone env s hp]
  by_cases hp : present s
  · by_cases hloss : ∃ loss ∈ losses, loss.isResponse = true
    · -- the answered attempt finds nothing, the loss-free one removes it
      have hpos : ([] : List Loss).length < attemptLimit client call.method :=
        attemptLimit_pos client call.method
      have hleft : ∀ env s, ¬ present (serve (Feign.send lib headers call) env s).2 := by
        intro env s
        by_cases hs : present s
        · exact (hremoval.there env s hs).2
        · rw [hremoval.gone env s hs]
          exact hs
      have hafter := afterLosses_of_response (serve (Feign.send lib headers call))
        (fun s => ¬ present s) hleft s hloss
      obtain ⟨hfound, hmissing⟩ := seen_noContent codec client body hmodel hnone text
      refine iff_of_false ?_ fun h => h ⟨hp, hloss⟩
      rw [perform_eq codec client body env lib headers serve (hstatus env) hn,
        perform_eq codec client body env₀ lib headers serve (hstatus env₀) hpos,
        hremoval.gone env _ hafter, afterLosses, (hremoval.there env₀ s hp).1, hfound, hmissing]
      simp
    · -- only requests were lost: the record is still there
      have hrequests : ∀ loss ∈ losses, loss.isResponse = false := by
        intro loss hl
        by_contra hr
        exact hloss ⟨loss, hl, by simpa using hr⟩
      have hafter := afterLosses_of_requests (serve (Feign.send lib headers call)) s hrequests
      have hanswer := (hremoval.there env s hp).1.trans (hremoval.there env₀ s hp).1.symm
      exact iff_of_true (perform_of_afterLosses lib headers codec client serve body env env₀ hstatus
        hn hafter hanswer) fun h => hloss h.2
  · -- there was nothing to remove in any attempt
    have hafter := afterLosses_eq_self (serve (Feign.send lib headers call))
      (fun env => by rw [hremoval.gone env s hp]) losses
    have hanswer : (serve (Feign.send lib headers call) env s).1 =
        (serve (Feign.send lib headers call) env₀ s).1 := by
      rw [hremoval.gone env s hp, hremoval.gone env₀ s hp]
    exact iff_of_true (perform_of_afterLosses lib headers codec client serve body env env₀ hstatus
      hn hafter hanswer) fun h => hp h.1

/-- A handler that looks one record up and removes it. -/
theorem isRemoval_of_lookup {β : Type} {serve : Env → σ → Reply ρ × σ} (lookup : σ → Option β)
    {text : String}
    (hfound : ∀ env s b, lookup s = some b →
      (serve env s).1 = ⟨204, .empty⟩ ∧ lookup (serve env s).2 = none)
    (hmissing : ∀ env s, lookup s = none → serve env s = (⟨404, .detail text⟩, s)) :
    IsRemoval serve (fun s => (lookup s).isSome = true) text where
  there env s hs := by
    obtain ⟨b, hb⟩ := Option.isSome_iff_exists.mp hs
    obtain ⟨hreply, hnone⟩ := hfound env s b hb
    refine ⟨hreply, ?_⟩
    rw [hnone]
    exact Bool.false_ne_true
  gone env s hs := hmissing env s (by simpa using hs)

/-- **Retries of a read or of a removal**: `Lost` says that it is a removal whose answer was
lost. -/
theorem perform_eq_iff {Lost : Prop}
    (hstatus : ∀ env s, (serve (Feign.send lib headers call) env s).1.statusCode < 500)
    (hn : losses.length < attemptLimit client call.method) (s : σ)
    (h : IsRead (serve (Feign.send lib headers call)) ∧ ¬ Lost ∨
      ∃ present text, IsRemoval (serve (Feign.send lib headers call)) present text ∧
        call.responseModel = none ∧ call.expectsNone = true ∧
        (Lost ↔ present s ∧ ∃ loss ∈ losses, loss.isResponse = true)) :
    perform lib headers codec client serve body env losses s call =
        perform lib headers codec client serve body env₀ [] s call ↔ ¬ Lost := by
  rcases h with ⟨hread, hkept⟩ | ⟨present, text, hremoval, hmodel, hnone, hlost⟩
  · exact iff_of_true (perform_read lib headers codec client serve body env env₀ hstatus hread hn s)
      hkept
  · rw [hlost]
    exact perform_removal lib headers codec client serve body env env₀ hremoval hmodel hnone hn s

end Lossy

open Lossy

variable (lib : HttpLib) (headers : Dict String String) (codec : Codec J V)
  (client : BaseServiceClient) (env env₀ : Env) {losses : List Loss}

/-! ### The two services -/

theorem Uc.isRemoval_deleteUser (framework : Framework UserResponse) {userId : String}
    (ha : Router.Addressable userId) :
    IsRemoval (Uc.serve framework (UcServiceClient.sent lib headers (.deleteUser userId)))
      (fun s => s.users.contains userId = true) "User not found" := by
  have hserve : ∀ env s,
      Uc.serve framework (UcServiceClient.sent lib headers (.deleteUser userId)) env s =
        ((Uc.deleteUser userId).run s).map (Reply.ofResult 204 fun _ => .empty) id := by
    intro env s
    rw [Uc.serve, Uc.route_deleteUser, if_pos ha]
    rfl
  refine isRemoval_of_lookup (fun s : Uc.Store => s.users.get? userId) ?_ ?_
  · intro env s user huser
    rw [hserve, Uc.run_deleteUser, huser]
    exact ⟨rfl, by simp [Uc.deleted, Dict.get?_pop]⟩
  · intro env s hnone
    rw [hserve, Uc.run_deleteUser, hnone]
    rfl

theorem Flow.isRemoval_deleteFlow (framework : Framework FlowResponse) {flowId : String}
    (ha : Router.Addressable flowId) :
    IsRemoval (Flow.serve framework (FlowServiceClient.sent lib headers (.deleteFlow flowId)))
      (fun s => s.contains flowId = true) "Flow not found" := by
  have hserve : ∀ env s,
      Flow.serve framework (FlowServiceClient.sent lib headers (.deleteFlow flowId)) env s =
        ((Flow.deleteFlow flowId).run s).map (Reply.ofResult 204 fun _ => .empty) id := by
    intro env s
    rw [Flow.serve, Flow.route_deleteFlow, if_pos ha]
    rfl
  refine isRemoval_of_lookup (fun s : Flow.Store => s.get? flowId) ?_ ?_
  · intro env s flow hflow
    rw [hserve, Flow.run_deleteFlow, hflow]
    exact ⟨rfl, by simp [Dict.get?_pop]⟩
  · intro env s hnone
    rw [hserve, Flow.run_deleteFlow, hnone]
    rfl

/-- An attempt to delete the record has reached the server, and its answer was lost. -/
def AnswerOfRemovalLost (id : String) (stored : Bool) (losses : List Loss) : Prop :=
  Router.Addressable id ∧ stored = true ∧ ∃ loss ∈ losses, loss.isResponse = true

/-- Retries of a UC call are transparent but for a `DELETE` that lost the answer of its own
removal. -/
theorem Uc.transparent_iff (framework : Framework UserResponse)
    (body : ReplyBody UserResponse → Bytes) (call : UcCall)
    (hidem : upper (UcServiceClient.endpoint call).method ∈ idempotentMethods)
    (hn : losses.length < attemptLimit client (UcServiceClient.endpoint call).method)
    (s : Uc.Store) :
    Uc.outcome lib headers codec client framework body env losses s call =
        Uc.outcome lib headers codec client framework body env₀ [] s call ↔
      ¬ ∃ userId, call = .deleteUser userId ∧
        AnswerOfRemovalLost userId (s.users.contains userId) losses := by
  rw [Uc.outcome, Uc.outcome, UcServiceClient.outbound_eq, Except.map, Except.map, Except.ok.injEq]
  have hn' : losses.length < attemptLimit client (UcServiceClient.outboundCall call).method := hn
  refine perform_eq_iff lib headers codec client (Uc.serve framework) body env env₀
    (Uc.serve_status_lt framework _) hn' s ?_
  cases call with
  | getUser _ | getUserByUsername _ | listUsers =>
    exact .inl ⟨Uc.serve_get framework rfl, by simp⟩
  | createUser _ => exact absurd hidem (show upper "POST" ∉ idempotentMethods by decide)
  | updateUser _ _ => exact absurd hidem (show upper "PATCH" ∉ idempotentMethods by decide)
  | deleteUser userId =>
    simp only [UcCall.deleteUser.injEq, exists_eq_left', AnswerOfRemovalLost]
    by_cases ha : Router.Addressable userId
    · have hremoval := Uc.isRemoval_deleteUser lib headers framework ha
      refine .inr ⟨fun s => s.users.contains userId = true, _, hremoval, rfl, rfl, ?_⟩
      simp only [ha, true_and]
    · -- the request reaches no handler
      have hread : IsRead (Uc.serve framework
          (UcServiceClient.sent lib headers (.deleteUser userId))) := by
        intro env env' s
        rw [Uc.serve, Uc.serve, Uc.route_deleteUser, if_neg ha]
        rfl
      exact .inl ⟨hread, fun h => ha h.1⟩

theorem Flow.transparent_iff (framework : Framework FlowResponse)
    (body : ReplyBody FlowResponse → Bytes) (call : FlowCall)
    (hidem : upper (FlowServiceClient.endpoint call).method ∈ idempotentMethods)
    (hn : losses.length < attemptLimit client (FlowServiceClient.endpoint call).method)
    (s : Flow.Store) :
    Flow.outcome lib headers codec client framework body env losses s call =
        Flow.outcome lib headers codec client framework body env₀ [] s call ↔
      ¬ ∃ flowId, call = .deleteFlow flowId ∧
        AnswerOfRemovalLost flowId (s.contains flowId) losses := by
  rw [Flow.outcome, Flow.outcome, FlowServiceClient.outbound_eq, Except.map, Except.map,
    Except.ok.injEq]
  have hn' : losses.length < attemptLimit client (FlowServiceClient.outboundCall call).method := hn
  refine perform_eq_iff lib headers codec client (Flow.serve framework) body env env₀
    (Flow.serve_status_lt framework _) hn' s ?_
  cases call with
  | getFlow _ | listFlows => exact .inl ⟨Flow.serve_get framework rfl, by simp⟩
  | createFlow _ => exact absurd hidem (show upper "POST" ∉ idempotentMethods by decide)
  | updateFlow _ _ => exact absurd hidem (show upper "PATCH" ∉ idempotentMethods by decide)
  | deleteFlow flowId =>
    simp only [FlowCall.deleteFlow.injEq, exists_eq_left', AnswerOfRemovalLost]
    by_cases ha : Router.Addressable flowId
    · have hremoval := Flow.isRemoval_deleteFlow lib headers framework ha
      refine .inr ⟨fun s => s.contains flowId = true, _, hremoval, rfl, rfl, ?_⟩
      simp only [ha, true_and]
    · -- the request reaches no handler
      have hread : IsRead (Flow.serve framework
          (FlowServiceClient.sent lib headers (.deleteFlow flowId))) := by
        intro env env' s
        rw [Flow.serve, Flow.serve, Flow.route_deleteFlow, if_neg ha]
        rfl
      exact .inl ⟨hread, fun h => ha h.1⟩

/-- **When retries are transparent.**  For every store, every `max_retries` and every pattern of
losses before an attempt that is answered, the caller of an idempotent endpoint sees what one
loss-free execution would have shown if and only if the call is not a `DELETE` of a stored record
of which an attempt reached the server and lost its answer. -/
theorem retry_transparent (frameworkUc : Framework UserResponse)
    (frameworkFlow : Framework FlowResponse) (bodyUc : ReplyBody UserResponse → Bytes)
    (bodyFlow : ReplyBody FlowResponse → Bytes) :
    (∀ call, upper (UcServiceClient.endpoint call).method ∈ idempotentMethods → ∀ losses,
      losses.length < attemptLimit client (UcServiceClient.endpoint call).method → ∀ s : Uc.Store,
      (Uc.outcome lib headers codec client frameworkUc bodyUc env losses s call =
          Uc.outcome lib headers codec client frameworkUc bodyUc env₀ [] s call ↔
        ¬ ∃ userId, call = .deleteUser userId ∧
          AnswerOfRemovalLost userId (s.users.contains userId) losses)) ∧
    (∀ call, upper (FlowServiceClient.endpoint call).method ∈ idempotentMethods → ∀ losses,
      losses.length < attemptLimit client (FlowServiceClient.endpoint call).method →
      ∀ s : Flow.Store,
      (Flow.outcome lib headers codec client frameworkFlow bodyFlow env losses s call =
          Flow.outcome lib headers codec client frameworkFlow bodyFlow env₀ [] s call ↔
        ¬ ∃ flowId, call = .deleteFlow flowId ∧
          AnswerOfRemovalLost flowId (s.contains flowId) losses)) :=
  ⟨fun call hidem _ hn s => Uc.transparent_iff lib headers codec client env env₀ frameworkUc bodyUc
      call hidem hn s,
    fun call hidem _ hn s => Flow.transparent_iff lib headers codec client env env₀ frameworkFlow
      bodyFlow call hidem hn s⟩

def readTimeout : TransportError := ⟨⟨.readTimeout, "", by decide⟩, by decide⟩

def Uc.aliceStore : Uc.Store := Uc.created .alice ⟨.one, 0⟩ .empty

/-- A `DELETE` whose first request is lost. -/
theorem retry_transparent_requestLost :
    Uc.outcome .sample .empty Codec.sample ⟨"uc", 3⟩ (.sample _) (fun _ => []) ⟨.two, 1⟩
        [.request readTimeout] Uc.aliceStore (.deleteUser (Uc.userIdOf .one)) =
      Uc.outcome .sample .empty Codec.sample ⟨"uc", 3⟩ (.sample _) (fun _ => []) ⟨.two, 1⟩ []
        Uc.aliceStore (.deleteUser (Uc.userIdOf .one)) := by
  have hidem : upper "DELETE" ∈ idempotentMethods := by decide
  have hlimit : 1 < attemptLimit ⟨"uc", 3⟩ "DELETE" := by decide
  refine ((retry_transparent .sample .empty Codec.sample ⟨"uc", 3⟩ ⟨.two, 1⟩ ⟨.two, 1⟩ (.sample _)
    (.sample _) (fun _ => []) (fun _ => [])).1 (.deleteUser (Uc.userIdOf .one)) hidem
      [.request readTimeout] hlimit Uc.aliceStore).mpr ?_
  rintro ⟨userId, -, -, -, loss, hloss, hresponse⟩
  obtain rfl := List.mem_singleton.mp hloss
  exact absurd hresponse (by decide)

/-- What the caller sees is the answer to the attempt after the losses. -/
theorem Uc.outcome_eq (framework : Framework UserResponse)
    (body : ReplyBody UserResponse → Bytes) (call : UcCall)
    (hn : losses.length < attemptLimit client (UcServiceClient.endpoint call).method)
    (s : Uc.Store) :
    Uc.outcome lib headers codec client framework body env losses s call =
      .ok (seen codec client body (UcServiceClient.outboundCall call)
        (Uc.serve framework (UcServiceClient.sent lib headers call) env
          (afterLosses (Uc.serve framework (UcServiceClient.sent lib headers call)) s
            losses)).1) := by
  have hn' : losses.length < attemptLimit client (UcServiceClient.outboundCall call).method := hn
  have hstatus := Uc.serve_status_lt framework (UcServiceClient.sent lib headers call) env
  rw [Uc.outcome, UcServiceClient.outbound_eq, Except.map,
    perform_eq codec client body env lib headers (Uc.serve framework) hstatus hn']
  rfl

/-- A `DELETE` whose first response is lost: the record is gone, and the caller sees
`ServiceNotFoundError` where a loss-free call returns `None`. -/
theorem retry_not_transparent :
    Uc.outcome .sample .empty Codec.sample ⟨"uc", 3⟩ (.sample _) (fun _ => []) ⟨.two, 1⟩
        [.response ⟨.two, 1⟩ readTimeout] Uc.aliceStore (.deleteUser (Uc.userIdOf .one)) =
      .ok (.error (.service (.notFound "Resource not found from uc" "uc" (some "")))) ∧
    Uc.outcome .sample .empty Codec.sample ⟨"uc", 3⟩ (.sample _) (fun _ => []) ⟨.two, 1⟩ []
        Uc.aliceStore (.deleteUser (Uc.userIdOf .one)) = .ok (.ok .none) := by
  have ha : Router.Addressable (Uc.userIdOf .one) := by decide
  have hremoval := Uc.isRemoval_deleteUser .sample .empty (.sample _) ha
  have hpresent : Uc.aliceStore.users.contains (Uc.userIdOf .one) = true := rfl
  obtain ⟨hfound, hleft⟩ := hremoval.there ⟨.two, 1⟩ Uc.aliceStore hpresent
  have hgone := hremoval.gone ⟨.two, 1⟩ _ hleft
  constructor
  · rw [Uc.outcome_eq _ _ _ _ _ _ _ _ (by decide), afterLosses, afterLosses, hgone]
    rfl
  · rw [Uc.outcome_eq _ _ _ _ _ _ _ _ (by decide), afterLosses, hfound]
    rfl

end Novon
