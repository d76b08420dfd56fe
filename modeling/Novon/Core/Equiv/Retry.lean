import Mathlib.Data.Nat.Find
import Mathlib.Order.Bounds.Basic
import Mathlib.Tactic.SplitIfs
import Novon.Core.Equiv.BaseClient

/-!
# How many requests a call sends

A call is due as many requests as it takes to get an outcome that is neither a transport error nor
a 5xx, or as many as the client allows, and all of them are the same request.  It sends that many
and ends with the mapping of the last outcome exactly if no outcome until then lacks the text that
its error carries (`exact_retries_iff`).  The HTTP layer is a sequence of outcomes that keeps a log;
it is the sequence of `request_stream` seen through the length of the log.
-/

namespace Novon

namespace BaseServiceClient

variable {J V B P σ : Type} (codec : Codec J V) (client : BaseServiceClient)

/-- What is raised after the retry loop. -/
def loopError : Raised :=
  .service (.plain "retry loop exited without a result" "unknown" none none)

/-- A transport error, or a response of a status from 500 on. -/
def unavailable : Outcome → Bool
  | .error exc => exc.cls.isSubclass [.transportError]
  | .ok response => 500 ≤ response.statusCode

/-- The numbers, counted from one, of the attempts after which a call may be over. -/
def stops (method : String) (outcomes : ℕ → Outcome) : Set ℕ :=
  {k | 1 ≤ k ∧ (¬ (upper method ∈ idempotentMethods ∧ 0 < client.maxRetries) ∨
    (k : ℤ) = client.maxRetries ∨ unavailable (outcomes k) = false)}

/-- The call sends exactly `k` requests, all of them the same, and ends with the mapping of outcome
`k`, which is never the error after the loop. -/
structure EndsAfter (outcomes : ℕ → Outcome) (method path : String) (ctx : Option RequestContext)
    (model : Option TypeHint) (json : Option B) (params : Option P)
    (headers : Option (Dict String String)) (k : ℕ) : Prop where
  maps : Maps codec client model (outcomes k)
    (requestCall codec client (logged outcomes) method path ctx model json params headers []).1
  log : (requestCall codec client (logged outcomes) method path ctx model json params headers
    []).2 = List.replicate k ⟨method, path, mergedHeaders ctx headers, json, params⟩
  ne_loopError :
    (requestCall codec client (logged outcomes) method path ctx model json params headers []).1 ≠
      .error loopError

theorem statusCode_httpError (status : ℤ) (body : String) :
    (httpError client status body).statusCode ≠ none := by
  unfold httpError
  split_ifs <;> simp [ServiceCallError.notFound, ServiceCallError.badRequest,
    ServiceCallError.unavailable, ServiceCallError.plain]

theorem statusCode_mapTransportError (exc : LibraryError) :
    (mapTransportError client exc).statusCode ≠ none := by
  unfold mapTransportError
  split <;> simp [ServiceCallError.timeout, ServiceCallError.unavailable]

/-- Every service error that an attempt raises carries a status. -/
theorem statusCode_of_requestOnce {model : Option TypeHint} {outcome : Outcome}
    {exc : ServiceCallError} (h : requestOnce codec client model outcome = .error (.service exc)) :
    exc.statusCode ≠ none := by
  cases maps_of_service codec client h with
  | transport h => exact statusCode_mapTransportError client _
  | status hs htext => exact statusCode_httpError client _ _
  | unreadable hs hparse hcaught htext => simp [unreadableBody, ServiceCallError.response]
  | uncaught hs hparse hcaught =>
    -- what parsing raises is no service error
    exact absurd rfl ((raised_parseResponse codec hparse).1 exc)

theorem requestOnce_ne_loopError (model : Option TypeHint) (outcome : Outcome) :
    requestOnce codec client model outcome ≠ .error loopError :=
  fun h => statusCode_of_requestOnce codec client h rfl

/-! ### Outcomes with and without a text -/

theorem unavailable_of_transient {outcome : Outcome} (h : transient codec outcome = true) :
    unavailable outcome = true := by
  cases outcome with
  | error exc => exact h
  | ok response => exact (Bool.and_eq_true_iff.mp h).1

/-- What is unavailable is tried again unless its text is missing. -/
theorem transient_of_unavailable {model : Option TypeHint} {outcome : Outcome}
    (h : unavailable outcome = true) (htext : ¬ Textless codec model outcome) :
    transient codec outcome = true := by
  cases outcome with
  | error exc => exact h
  | ok response =>
    have hs : response.isSuccess = false := by
      simp only [unavailable, decide_eq_true_eq] at h
      simp only [Response.isSuccess, decide_eq_false_iff_not]
      omega
    refine Bool.and_eq_true_iff.mpr ⟨h, ?_⟩
    by_contra hno
    exact htext ⟨by simpa using hno, .inl hs⟩

theorem not_transient_of_textless {model : Option TypeHint} {outcome : Outcome}
    (h : Textless codec model outcome) : transient codec outcome = false := by
  cases outcome with
  | error exc => exact h.elim
  | ok response => rw [transient, h.1, Bool.and_false]

variable {codec client}

/-- A call may be over where it ends. -/
theorem Decides.mem_stops {method : String} {outcomes : ℕ → Outcome} {model : Option TypeHint}
    {i : ℕ} (h : Decides codec (attemptLimit client method) (fun i => outcomes (i + 1)) i)
    (htext : ¬ Textless codec model (outcomes (i + 1))) :
    i + 1 ∈ stops client method outcomes := by
  refine ⟨by omega, ?_⟩
  by_cases hretry : upper method ∈ idempotentMethods ∧ 0 < client.maxRetries
  · refine .inr ?_
    have hlimit : (attemptLimit client method : ℤ) = client.maxRetries := by
      rw [attemptLimit, if_pos (by simpa [shouldRetry] using hretry)]
      omega
    rcases h.last with hlast | hlast
    · refine .inr ?_
      by_contra havailable
      have htransient := transient_of_unavailable codec (by simpa using havailable) htext
      exact absurd (htransient.symm.trans hlast) (by decide)
    · exact .inl (by omega)
  · exact .inl hretry

/-- A call is not over before it ends, as long as no text is missing. -/
theorem Decides.le_of_mem_stops {method : String} {outcomes : ℕ → Outcome} {i : ℕ}
    (h : Decides codec (attemptLimit client method) (fun i => outcomes (i + 1)) i) {k : ℕ}
    (hk : k ∈ stops client method outcomes) : i + 1 ≤ k := by
  obtain ⟨hpos, hstop⟩ := hk
  by_contra hlt
  have hbefore := h.transient_of_lt (k - 1) (by omega)
  have hlimit := h.lt
  rw [Nat.sub_add_cancel hpos] at hbefore
  rcases hstop with hretry | hlast | havailable
  · have hone : attemptLimit client method = 1 := if_neg (by simpa [shouldRetry] using hretry)
    omega
  · unfold attemptLimit at hlimit
    split at hlimit <;> omega
  · rw [unavailable_of_transient codec hbefore] at havailable
    cases havailable

variable (codec client)

/-- A call is due to be over after some attempt. -/
theorem exists_isLeast_stops (method : String) (outcomes : ℕ → Outcome) :
    ∃ k, IsLeast (stops client method outcomes) k := by
  have hne : (stops client method outcomes).Nonempty := by
    by_cases hretry : upper method ∈ idempotentMethods ∧ 0 < client.maxRetries
    · exact ⟨client.maxRetries.toNat, by omega, .inr (.inl (by omega))⟩
    · exact ⟨1, le_rfl, .inl hretry⟩
  classical
  exact ⟨Nat.find hne, Nat.find_spec hne, fun k hk => Nat.find_min' hne hk⟩

/-- A call ends with the outcome that decides it, and has sent one request up to there. -/
theorem exists_requestCall_eq (outcomes : ℕ → Outcome) (method path : String)
    (ctx : Option RequestContext) (model : Option TypeHint) (json : Option B) (params : Option P)
    (headers : Option (Dict String String)) :
    ∃ i, Decides codec (attemptLimit client method) (fun i => outcomes (i + 1)) i ∧
      requestCall codec client (logged outcomes) method path ctx model json params headers [] =
        (requestOnce codec client model (outcomes (i + 1)),
          List.replicate (i + 1) ⟨method, path, mergedHeaders ctx headers, json, params⟩) := by
  let sent : HttpRequest B P := ⟨method, path, mergedHeaders ctx headers, json, params⟩
  obtain ⟨i, hdecides, hstream⟩ :=
    request_stream codec client (fun i => outcomes (i + 1)) method model
  -- the log after `i` requests stands for the number `i`
  have hsend : ∀ i : ℕ, logged outcomes sent (List.replicate i sent) =
      (streamSend (fun i => outcomes (i + 1)) i).map id fun i => List.replicate i sent := by
    intro i
    simp [logged, streamSend, List.replicate_succ']
  refine ⟨i, hdecides, ?_⟩
  have hmap := request_map codec client hsend method model 0
  rw [hstream] at hmap
  exact hmap

/-- **Exact retries.**  Let `k` be the least number such that the method is not to be retried, `k`
is the limit, or outcome `k` is neither a transport error nor a 5xx.  A call sends `k` requests, all
of them the same, and ends with the mapping of outcome `k` if and only if none of the first `k`
outcomes lacks the text of its error. -/
theorem exact_retries_iff (outcomes : ℕ → Outcome) (method path : String)
    (ctx : Option RequestContext) (model : Option TypeHint) (json : Option B) (params : Option P)
    (headers : Option (Dict String String)) :
    ∃ k, IsLeast (stops client method outcomes) k ∧
      (EndsAfter codec client outcomes method path ctx model json params headers k ↔
        ∀ j, 1 ≤ j → j ≤ k → ¬ Textless codec model (outcomes j)) := by
  obtain ⟨i, hdecides, hcall⟩ :=
    exists_requestCall_eq codec client outcomes method path ctx model json params headers
  obtain ⟨k, hk⟩ := exists_isLeast_stops client method outcomes
  -- the call ends at the latest where it is due to end
  have hle : i + 1 ≤ k := hdecides.le_of_mem_stops hk.1
  refine ⟨k, hk, fun hends j hpos hj htextless => ?_, fun htext => ?_⟩
  · obtain rfl : i + 1 = k := by
      have hlog := congrArg List.length hends.log
      rw [hcall] at hlog
      simpa using hlog
    rcases Nat.lt_or_eq_of_le hj with hlt | rfl
    · -- the call would have ended with the missing text
      have hbefore := hdecides.transient_of_lt (j - 1) (by omega)
      rw [Nat.sub_add_cancel hpos, not_transient_of_textless codec htextless] at hbefore
      cases hbefore
    · exact hends.maps.not_textless htextless
  · obtain rfl : i + 1 = k := by
      have hstop := hdecides.mem_stops (htext (i + 1) (by omega) hle)
      exact Nat.le_antisymm hle (hk.2 hstop)
    refine ⟨?_, by rw [hcall], ?_⟩
    · rw [hcall]
      exact (requestOnce_cases codec client model (outcomes (i + 1))).resolve_right
        fun h => htext (i + 1) (by omega) le_rfl h.1
    · rw [hcall]
      exact requestOnce_ne_loopError codec client model _

/-! ### A text that cannot be decoded -/

/-- A 503 with a charset that decodes nothing. -/
def undecodable : Outcome := .ok ⟨503, undefinedCharset, [120]⟩

/-- A `GET` that is answered with it however often it is sent. -/
def undecodableCall : Except Raised (Result Unit) × List (HttpRequest Unit Unit) :=
  requestCall .sample ⟨"uc", 3⟩ (logged fun _ => undecodable) "GET" "/users/u1" none none none none
    none []

/-- The call is due three requests.  It sends one and raises what the decoder raises. -/
theorem not_exact_retries :
    IsLeast (stops ⟨"uc", 3⟩ "GET" fun _ => undecodable) 3 ∧
    undecodableCall = (.error (.other .unicodeError "undefined encoding"),
      [⟨"GET", "/users/u1", .empty, none, none⟩]) ∧
    ¬ EndsAfter Codec.sample ⟨"uc", 3⟩ (fun _ => undecodable) "GET" "/users/u1" none none
      (none : Option Unit) (none : Option Unit) none 3 := by
  have hcall : undecodableCall = (.error (.other .unicodeError "undefined encoding"),
      [⟨"GET", "/users/u1", .empty, none, none⟩]) := rfl
  have hidem : upper "GET" ∈ idempotentMethods := by decide
  refine ⟨⟨⟨by decide, .inr (.inl rfl)⟩, ?_⟩, hcall, fun hends => ?_⟩
  · rintro k ⟨-, hretry | hlimit | havailable⟩
    · exact absurd ⟨hidem, show (0 : ℤ) < 3 by decide⟩ hretry
    · have hthree : (k : ℤ) = 3 := hlimit
      omega
    · cases havailable
  · have hlog := (congrArg Prod.snd hcall).symm.trans hends.log
    exact absurd (congrArg List.length hlog) (by decide)

end BaseServiceClient

end Novon
