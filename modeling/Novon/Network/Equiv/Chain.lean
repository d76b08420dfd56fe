import Novon.Core.Equiv.Context
import Novon.Network.Chain

/-!
# One request id and one trace id for a chain

The edge settles on two tokens (`run_dispatch_edge`).  A service that is called with tokens for its
ids keeps them, puts them into the headers of its own call, and draws nothing
(`Relays.visit`): so they reach every service, however the calls end.
-/

namespace Novon.Chain

open RequestIDMiddleware RequestContext

variable {ε β : Type}

/-- What an event shows of the two ids. -/
def Event.Carries (requestId traceId : String) : Event β → Prop
  | handled state ctx => state = ⟨some requestId, some traceId⟩ ∧
      ctx.requestId = some requestId ∧ ctx.traceId = some traceId
  | returned response => response.headers.get "X-Request-ID" = some requestId

/-- A service handles a request. -/
def Event.isHandled : Event β → Bool
  | handled _ _ => true
  | returned _ => false

/-- What `n` services with the ids `requestId` and `traceId` do to the runtime. -/
structure Passes (requestId traceId : String) (n : ℕ) (s s' : Runtime (Event β)) : Prop where
  uuids : s'.uuids = s.uuids
  events : ∃ new, s'.events = s.events ++ new ∧ (∀ event ∈ new, event.Carries requestId traceId) ∧
    new.countP Event.isHandled = n

theorem Passes.trans {requestId traceId : String} {m n : ℕ} {s s' s'' : Runtime (Event β)}
    (h : Passes requestId traceId m s s') (h' : Passes requestId traceId n s' s'') :
    Passes requestId traceId (m + n) s s'' := by
  obtain ⟨new, hnew, hcarries, hcount⟩ := h.events
  obtain ⟨new', hnew', hcarries', hcount'⟩ := h'.events
  refine ⟨h'.uuids.trans h.uuids, new ++ new', ?_, ?_, ?_⟩
  · rw [hnew', hnew, List.append_assoc]
  · intro event hevent
    rcases List.mem_append.mp hevent with hevent | hevent
    · exact hcarries event hevent
    · exact hcarries' event hevent
  · rw [List.countP_append, hcount, hcount']

theorem Passes.emit {requestId traceId : String} {event : Event β}
    (h : event.Carries requestId traceId) (s : Runtime (Event β)) :
    Passes requestId traceId (if event.isHandled then 1 else 0) s
      { s with events := s.events ++ [event] } := by
  refine ⟨rfl, [event], rfl, ?_, ?_⟩
  · intro event' hevent
    rwa [List.mem_singleton.mp hevent]
  · cases event <;> rfl

variable {requestId traceId : String}

/-- What a call of the next service does, if it is made in a context with the two ids. -/
def Relays (requestId traceId : String) (n : ℕ) :
    Option (Dict String String → Handling ε β) → Prop
  | none => n = 0
  | some call => ∀ (ctx : RequestContext) (s : Runtime (Event β)), ctx.requestId = some requestId →
      ctx.traceId = some traceId → Passes requestId traceId n s ((call ctx.toHeaders).run s).2

/-- **One service**, once its middleware has settled on tokens: it passes them on. -/
theorem Relays.handle (hrequest : IsToken requestId) (htrace : IsToken traceId) (hop : Hop ε β)
    (headers : Headers) {n : ℕ}
    {next : Option (Dict String String → Handling ε β)}
    (h : Relays requestId traceId n next) (s : Runtime (Event β)) :
    Passes requestId traceId (1 + n) s
      ((handle hop next headers ⟨some requestId, some traceId⟩).run s).2 := by
  have hctx : (fromRequest headers ⟨some requestId, some traceId⟩ hop.userId :
      Handler ε (Runtime (Event β)) _).run s = _ :=
    run_fromRequest headers hrequest.ne_empty htrace.ne_empty hop.userId s
  have hcarries : Event.Carries requestId traceId (.handled ⟨some requestId, some traceId⟩
      ⟨headers.get "Authorization", some requestId, some traceId, hop.userId⟩ : Event β) :=
    ⟨rfl, rfl, rfl⟩
  have hemit := Passes.emit hcarries s
  simp only [Chain.handle, Handler.run_bind, hctx, Runtime.run_emit]
  cases next with
  | none =>
    obtain rfl : n = 0 := h
    exact hemit
  | some call => exact hemit.trans (h _ _ rfl rfl)

/-- **A service behind its middleware** returns the request id with its response. -/
theorem passes_visit {trust : Bool} {hop : Hop ε β} {headers : Headers} {n : ℕ}
    {next : Option (Dict String String → Handling ε β)}
    {s s₁ : Runtime (Event β)}
    (hdispatch : (dispatch trust (handle hop next headers) headers).run s =
      ((handle hop next headers ⟨some requestId, some traceId⟩).run s₁).map
        (Except.map (echo requestId)) id)
    (hhandle : Passes requestId traceId n s₁
      ((handle hop next headers ⟨some requestId, some traceId⟩).run s₁).2) :
    Passes requestId traceId n s₁ ((visit trust hop next headers).run s).2 := by
  rw [visit, Handler.run_bind, hdispatch]
  generalize (handle hop next headers ⟨some requestId, some traceId⟩).run s₁ = r at hhandle ⊢
  obtain ⟨outcome, s₂⟩ := r
  cases outcome with
  -- a service that raises returns no response
  | error e => exact hhandle
  | ok response =>
    have hcarries : (Event.returned (echo requestId response)).Carries requestId traceId :=
      Headers.get_set_self _ _ _
    exact hhandle.trans (Passes.emit hcarries s₂)

/-- **A trusting service** that is called in a context with two tokens. -/
theorem Relays.visit (hrequest : IsToken requestId) (htrace : IsToken traceId)
    (transport : Transport) (hop : Hop ε β) {n : ℕ}
    {next : Option (Dict String String → Handling ε β)}
    (h : Relays requestId traceId n next) :
    Relays requestId traceId (1 + n)
      (some fun sent => visit true hop next (transport.deliver sent)) := by
  intro ctx s hctxRequest hctxTrace
  -- the ids are put into the headers of the call, and the transport keeps tokens
  obtain ⟨-, hsentRequest, hsentTrace, -⟩ := get?_toHeaders ctx
  rw [hctxRequest, headerValue_of_ne hrequest.ne_empty] at hsentRequest
  rw [hctxTrace, headerValue_of_ne htrace.ne_empty] at hsentTrace
  have harriveRequest := transport.deliver_token ctx "X-Request-ID" requestId
    ((fullmatch_iff requestId).mpr hrequest) hsentRequest
  have harriveTrace := transport.deliver_token ctx "X-Trace-ID" traceId
    ((fullmatch_iff traceId).mpr htrace) hsentTrace
  exact passes_visit (run_dispatch_trusting _ harriveRequest hrequest harriveTrace htrace s)
    (h.handle hrequest htrace hop _ s)

/-- **All services after the edge.** -/
theorem relays_call (hrequest : IsToken requestId) (htrace : IsToken traceId)
    (later : List (Transport × Hop ε β)) : Relays requestId traceId later.length (call later) := by
  induction later with
  | nil => rfl
  | cons hop later ih =>
    rw [List.length_cons, Nat.add_comm]
    exact ih.visit hrequest htrace hop.1 hop.2

/-- **Correlation ids are stable along every chain.**  All services see one request id and one trace
id, and every response carries the request id.  Both are tokens.  The request id is the inbound one
if that is a token, and the next UUID if not; the trace id is the UUID after it, minted at the edge.
No other UUID is drawn for an id. -/
theorem correlation_ids (edge : Hop ε β) (later : List (Transport × Hop ε β)) (headers : Headers)
    (uuids : Stream' Uuid) :
    ∃ (requestId traceId : String) (final : Runtime (Event β)),
      ((serve edge later headers).run ⟨uuids, []⟩).2 = final ∧
      (∀ event ∈ final.events, event.Carries requestId traceId) ∧
      final.events.countP Event.isHandled = later.length + 1 ∧
      IsToken requestId ∧ IsToken traceId ∧
      (∀ raw, headers.get "X-Request-ID" = some raw → (requestId = raw ↔ IsToken raw)) ∧
      EdgeIds (headers.get "X-Request-ID") uuids requestId traceId final.uuids := by
  obtain ⟨requestId, traceId, left, hids, hdispatch⟩ :=
    run_dispatch_edge headers (handle edge (call later) headers) ⟨uuids, []⟩
  have hrequest := hids.isToken_requestId
  have htrace := hids.isToken_traceId
  have hpasses := passes_visit hdispatch
    ((relays_call hrequest htrace later).handle hrequest htrace edge headers _)
  obtain ⟨new, hnew, hcarries, hcount⟩ := hpasses.events
  rw [List.nil_append] at hnew
  refine ⟨requestId, traceId, _, rfl, ?_, ?_, hrequest, htrace, ?_, ?_⟩
  · rw [serve, hnew]
    exact hcarries
  · rw [serve, hnew, hcount, Nat.add_comm]
  · intro raw hraw
    constructor
    · rintro rfl
      exact hrequest
    · intro htoken
      rw [hraw] at hids
      cases hids with
      | kept _ => rfl
      | minted hno => exact absurd htoken (hno raw rfl)
  · rw [serve, hpasses.uuids]
    exact hids

/-! ### A transport -/

/-- Lower-case names are looked up like the names, if no two of these differ in case only. -/
theorem lookup_lower {name : String} {entries : List (String × String)}
    (h : ∀ e ∈ entries, lower e.1 = lower name → e.1 = name) :
    Dict.lookup (lower name) (entries.map fun e => (lower e.1, e.2)) =
      Dict.lookup name entries := by
  induction entries with
  | nil => rfl
  | cons e entries ih =>
    have hrest := ih fun e' he' => h e' (List.mem_cons_of_mem e he')
    rw [List.map_cons, Dict.lookup, Dict.lookup, hrest]
    by_cases he : e.1 = name
    · rw [if_pos (congrArg lower he), if_pos he]
    · rw [if_neg fun hlower => he (h e (List.mem_cons_self ..) hlower), if_neg he]

/-- A transport that adds a header of its own. -/
def Transport.plain : Transport where
  deliver sent := ("host", "service") :: sent.entries.map fun e => (lower e.1, e.2)
  deliver_token ctx name value _ hvalue := by
    have hname := mem_contextHeaders (Dict.contains_iff.mpr ⟨value, hvalue⟩)
    have hhost : ∀ name ∈ contextHeaders, "host" ≠ lower name := by decide
    rw [Headers.get, Dict.lookup, if_neg (hhost name hname), lookup_lower]
    · exact hvalue
    · intro e he
      have hset := Dict.contains_iff.mpr ⟨e.2, Dict.get?_eq_some_iff.mpr he⟩
      exact lower_contextHeaders_injective e.1 (mem_contextHeaders hset) name hname

end Novon.Chain
