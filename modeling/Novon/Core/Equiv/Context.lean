import Novon.Core.Context
import Novon.Core.Equiv.Middleware

/-!
# What a context carries on

With the ids that the middleware has set, `fromRequest` draws nothing, and of the inbound headers it
reads `Authorization` only (`run_fromRequest`).  `toHeaders` puts every field that is not empty into
its header (`get?_toHeaders`).
-/

namespace Novon.RequestContext

variable {ε ω : Type}

theorem run_orUuid4 {text : String} (h : text ≠ "") (s : Runtime ω) :
    (orUuid4 (some text) : Handler ε (Runtime ω) String).run s = (.ok text, s) := by
  rw [orUuid4, if_pos h]
  rfl

/-- **Behind the middleware** a context is built from the state, the credential and the identity. -/
theorem run_fromRequest (headers : Headers) {requestId traceId : String} (hrequest : requestId ≠ "")
    (htrace : traceId ≠ "") (userId : Option String) (s : Runtime ω) :
    (fromRequest headers ⟨some requestId, some traceId⟩ userId : Handler ε _ _).run s =
      (.ok ⟨headers.get "Authorization", some requestId, some traceId, userId⟩, s) := by
  simp only [fromRequest, Handler.run_bind, run_orUuid4 hrequest, run_orUuid4 htrace,
    Handler.run_pure]

/-- The value that a field gives its header. -/
def headerValue (value : Option String) : Option String := value.filter fun text => text ≠ ""

theorem get?_addHeader (name : String) (value : Option String) (headers : Dict String String)
    (key : String) :
    (addHeader name value headers).get? key =
      if key = name then (headerValue value).or (headers.get? key) else headers.get? key := by
  cases value with
  | none => simp [addHeader, headerValue]
  | some text =>
    -- an empty value sets no header
    by_cases htext : text = ""
    · subst htext
      simp [addHeader, headerValue, Option.filter]
    · simp only [addHeader, headerValue, Option.filter_some, ne_eq, htext, not_false_eq_true,
        if_true, decide_true, Option.some_or]
      exact Dict.get?_set headers name text key

/-- **Every field has its header.** -/
theorem get?_toHeaders (ctx : RequestContext) :
    ctx.toHeaders.get? "Authorization" = headerValue ctx.authToken ∧
    ctx.toHeaders.get? "X-Request-ID" = headerValue ctx.requestId ∧
    ctx.toHeaders.get? "X-Trace-ID" = headerValue ctx.traceId ∧
    ctx.toHeaders.get? "X-User-ID" = headerValue ctx.userId := by
  simp [toHeaders, get?_addHeader]

theorem headerValue_of_ne {text : String} (h : text ≠ "") :
    headerValue (some text) = some text := by
  simp [headerValue, h]

/-- The headers that a context can set. -/
def contextHeaders : List String := ["Authorization", "X-Request-ID", "X-Trace-ID", "X-User-ID"]

theorem mem_contextHeaders {ctx : RequestContext} {k : String}
    (h : ctx.toHeaders.contains k = true) : k ∈ contextHeaders := by
  by_contra hk
  simp only [contextHeaders, List.mem_cons, List.not_mem_nil, or_false, not_or] at hk
  obtain ⟨hauth, hrequest, htrace, huser⟩ := hk
  rw [Dict.contains, toHeaders, get?_addHeader, if_neg huser, get?_addHeader, if_neg htrace,
    get?_addHeader, if_neg hrequest, get?_addHeader, if_neg hauth] at h
  cases h

theorem lower_contextHeaders_injective :
    ∀ k ∈ contextHeaders, ∀ k' ∈ contextHeaders, lower k = lower k' → k = k' := by
  decide

/-- A property of every header value is one of every field that is not empty. -/
theorem forall_toHeaders_iff (ctx : RequestContext) (P : String → Prop) :
    (∀ k v, ctx.toHeaders.get? k = some v → P v) ↔
      (∀ v, headerValue ctx.authToken = some v → P v) ∧
      (∀ v, headerValue ctx.requestId = some v → P v) ∧
      (∀ v, headerValue ctx.traceId = some v → P v) ∧
      ∀ v, headerValue ctx.userId = some v → P v := by
  obtain ⟨hauth, hrequest, htrace, huser⟩ := get?_toHeaders ctx
  rw [← hauth, ← hrequest, ← htrace, ← huser]
  constructor
  · exact fun h => ⟨h _, h _, h _, h _⟩
  · rintro ⟨hauth', hrequest', htrace', huser'⟩ k v hv
    have hk := mem_contextHeaders (Dict.contains_iff.mpr ⟨v, hv⟩)
    simp only [contextHeaders, List.mem_cons, List.not_mem_nil, or_false] at hk
    rcases hk with rfl | rfl | rfl | rfl
    · exact hauth' v hv
    · exact hrequest' v hv
    · exact htrace' v hv
    · exact huser' v hv

end Novon.RequestContext
