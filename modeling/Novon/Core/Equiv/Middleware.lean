import Novon.Core.Middleware
import Novon.Data.Ascii

/-!
# Which ids the middleware lets in

`sanitizeHeaderToken` accepts the tokens of RFC 9110 with `:` and `=`, up to a length of 512
(`fullmatch_iff`), and a UUID is one of them (`isToken_uuid`).  So what it returns is always a token
and passes through it unchanged the next time (`run_sanitizeHeaderToken_of_isToken`).
-/

namespace Novon

/-! ### The token language -/

/-- The `tchar` of RFC 9110 that are neither digits nor letters. -/
def tcharPunctuation : List Char := "!#$%&'*+-.^_`|~".toList

/-- A `tchar` of RFC 9110. -/
def IsTchar (c : Char) : Prop :=
  c ∈ tcharPunctuation ∨ c.isDigit = true ∨ c.isAlpha = true

/-- A header value that may be kept as an id. -/
structure IsToken (s : String) : Prop where
  pos : 1 ≤ s.length
  length_le : s.length ≤ 512
  chars : ∀ c ∈ s.toList, IsTchar c ∨ c = ':' ∨ c = '='

theorem IsToken.ne_empty {s : String} (h : IsToken s) : s ≠ "" := by
  rintro rfl
  exact absurd h.pos (by decide)

theorem isTchar_of_isUuidChar {c : Char} (h : isUuidChar c = true) : IsTchar c := by
  simp only [isUuidChar, Bool.or_eq_true, decide_eq_true_eq, beq_iff_eq] at h
  rcases h with (hdigit | ⟨hlow, hhigh⟩) | rfl
  · exact .inr (.inl (isDigit_iff.mpr hdigit))
  · have hletter : c ≤ 'z' := Char.le_trans hhigh (by decide)
    exact .inr (.inr (isAlpha_iff.mpr (.inr ⟨hlow, hletter⟩)))
  · exact .inl (by decide)

/-- **A UUID is a token.** -/
theorem isToken_uuid (uuid : Uuid) : IsToken uuid.text where
  pos := by rw [uuid.length_text]; decide
  length_le := by rw [uuid.length_text]; decide
  chars c hc := .inl (isTchar_of_isUuidChar (uuid.isUuidChar_text c hc))

namespace RequestIDMiddleware

/-- The punctuation of the pattern is that of the token language. -/
theorem mem_tokenPunctuation_iff (c : Char) :
    c ∈ tokenPunctuation ↔ c ∈ tcharPunctuation ∨ c = ':' ∨ c = '=' := by
  have hperm : tokenPunctuation.Perm (':' :: '=' :: tcharPunctuation) := by decide
  rw [hperm.mem_iff, List.mem_cons, List.mem_cons]
  tauto

theorem tokenClass_iff (c : Char) : tokenClass c = true ↔ IsTchar c ∨ c = ':' ∨ c = '=' := by
  rw [tokenClass, IsTchar, isAlpha_iff, isDigit_iff]
  simp only [Bool.or_eq_true, decide_eq_true_eq, List.contains_iff_mem, mem_tokenPunctuation_iff]
  tauto

/-- **The pattern matches the tokens.** -/
theorem fullmatch_iff (raw : String) : fullmatch raw = true ↔ IsToken raw := by
  simp only [fullmatch, Bool.and_eq_true, decide_eq_true_eq, List.all_eq_true, tokenClass_iff]
  exact ⟨fun h => ⟨h.1.1, h.1.2, h.2⟩, fun h => ⟨⟨h.pos, h.length_le⟩, h.chars⟩⟩

/-! ### The sanitizer -/

variable {ε ω β : Type}

/-- A token is kept, and nothing is drawn. -/
theorem run_sanitizeHeaderToken_of_isToken {raw : String} (h : IsToken raw) (s : Runtime ω) :
    (sanitizeHeaderToken (some raw) : Handler ε (Runtime ω) String).run s = (.ok raw, s) := by
  have hkept : (raw ≠ "" && fullmatch raw) = true := by
    simp [h.ne_empty, (fullmatch_iff raw).mpr h]
  rw [sanitizeHeaderToken, if_pos hkept]
  rfl

/-- Anything else is replaced by a UUID. -/
theorem run_sanitizeHeaderToken_of_not_isToken {raw : Option String}
    (h : ∀ text, raw = some text → ¬ IsToken text) (s : Runtime ω) :
    (sanitizeHeaderToken raw : Handler ε (Runtime ω) String).run s =
      (.ok s.uuids.head.text, { s with uuids := s.uuids.tail }) := by
  cases raw with
  | none => rfl
  | some text =>
    have hreplaced : ¬ (text ≠ "" && fullmatch text) = true := by
      intro hkept
      rw [Bool.and_eq_true, fullmatch_iff] at hkept
      exact h text rfl hkept.2
    rw [sanitizeHeaderToken, if_neg hreplaced]
    rfl

/-- **What the sanitizer returns is a token**, and it draws UUIDs at most. -/
theorem run_sanitizeHeaderToken (raw : Option String) (s : Runtime ω) :
    ∃ text uuids, IsToken text ∧
      (sanitizeHeaderToken raw : Handler ε (Runtime ω) String).run s =
        (.ok text, { s with uuids }) := by
  by_cases h : ∃ text, raw = some text ∧ IsToken text
  · obtain ⟨text, rfl, htoken⟩ := h
    exact ⟨text, s.uuids, htoken, run_sanitizeHeaderToken_of_isToken htoken s⟩
  · exact ⟨_, _, isToken_uuid _, run_sanitizeHeaderToken_of_not_isToken
      (fun text htext htoken => h ⟨text, htext, htoken⟩) s⟩

theorem run_traceIdOf (trust : Bool) (headers : Headers) (s : Runtime ω) :
    ∃ text uuids, IsToken text ∧
      (traceIdOf trust headers : Handler ε (Runtime ω) String).run s =
        (.ok text, { s with uuids }) := by
  cases trust with
  | false => exact ⟨_, _, isToken_uuid _, rfl⟩
  | true => exact run_sanitizeHeaderToken (headers.get "X-Trace-ID") s

/-! ### The dispatch -/

/-- The request id set on a response. -/
def echo (requestId : String) (response : OutboundResponse β) : OutboundResponse β :=
  { response with headers := response.headers.set "X-Request-ID" requestId }

/-- The next handler is called with the ids that the middleware has settled on. -/
theorem run_dispatch (trust : Bool) {headers : Headers} {s s₁ s₂ : Runtime ω}
    {requestId traceId : String}
    (callNext : RequestState → Handler ε (Runtime ω) (OutboundResponse β))
    (hrequest : (sanitizeHeaderToken (headers.get "X-Request-ID") : Handler ε _ _).run s =
      (.ok requestId, s₁))
    (htrace : (traceIdOf trust headers : Handler ε _ _).run s₁ = (.ok traceId, s₂)) :
    (dispatch trust callNext headers).run s =
      ((callNext ⟨some requestId, some traceId⟩).run s₂).map (Except.map (echo requestId)) id := by
  simp only [dispatch, Handler.run_bind, hrequest, htrace]
  rcases (callNext ⟨some requestId, some traceId⟩).run s₂ with ⟨_ | _, _⟩ <;> rfl

/-- **Trusting or not**, the middleware stores two tokens, hands them on and echoes the first. -/
theorem run_dispatch_storedState (trust : Bool) (headers : Headers) (s : Runtime ω) :
    ∃ requestId traceId uuids, IsToken requestId ∧ IsToken traceId ∧
      (storedState trust headers : Handler ε (Runtime ω) _).run s =
        (.ok ⟨some requestId, some traceId⟩, { s with uuids }) ∧
      ∀ callNext : RequestState → Handler ε (Runtime ω) (OutboundResponse β),
        (dispatch trust callNext headers).run s =
          ((callNext ⟨some requestId, some traceId⟩).run { s with uuids }).map
            (Except.map (echo requestId)) id := by
  obtain ⟨requestId, uuids, hrequestId, hrequest⟩ :=
    run_sanitizeHeaderToken (ε := ε) (headers.get "X-Request-ID") s
  obtain ⟨traceId, left, htraceId, htrace⟩ :=
    run_traceIdOf (ε := ε) trust headers { s with uuids }
  refine ⟨requestId, traceId, left, hrequestId, htraceId, ?_, fun callNext =>
    run_dispatch trust callNext hrequest htrace⟩
  simp only [storedState, Handler.run_bind, hrequest, htrace, Handler.run_pure]

/-- **A trusting service keeps the tokens that it is called with**, and draws nothing. -/
theorem run_dispatch_trusting {headers : Headers} {requestId traceId : String}
    (callNext : RequestState → Handler ε (Runtime ω) (OutboundResponse β))
    (hrequest : headers.get "X-Request-ID" = some requestId) (hrequestId : IsToken requestId)
    (htrace : headers.get "X-Trace-ID" = some traceId) (htraceId : IsToken traceId)
    (s : Runtime ω) :
    (dispatch true callNext headers).run s =
      ((callNext ⟨some requestId, some traceId⟩).run s).map (Except.map (echo requestId)) id := by
  apply run_dispatch
  · rw [hrequest]
    exact run_sanitizeHeaderToken_of_isToken hrequestId s
  · rw [traceIdOf, if_pos rfl, htrace]
    exact run_sanitizeHeaderToken_of_isToken htraceId s

/-- The ids that the edge gives a request with the `X-Request-ID` that is the first argument, and
the UUIDs that it leaves. -/
inductive EdgeIds : Option String → Stream' Uuid → String → String → Stream' Uuid → Prop where
  | kept {raw : String} {uuids : Stream' Uuid} (h : IsToken raw) :
    EdgeIds (some raw) uuids raw uuids.head.text uuids.tail
  | minted {raw : Option String} {uuids : Stream' Uuid}
    (h : ∀ text, raw = some text → ¬ IsToken text) :
    EdgeIds raw uuids uuids.head.text uuids.tail.head.text uuids.tail.tail

/-- **The edge** takes a token for the request id and mints the trace id. -/
theorem run_dispatch_edge (headers : Headers)
    (callNext : RequestState → Handler ε (Runtime ω) (OutboundResponse β)) (s : Runtime ω) :
    ∃ requestId traceId uuids,
      EdgeIds (headers.get "X-Request-ID") s.uuids requestId traceId uuids ∧
      (dispatch false callNext headers).run s =
        ((callNext ⟨some requestId, some traceId⟩).run { s with uuids }).map
          (Except.map (echo requestId)) id := by
  by_cases h : ∃ raw, headers.get "X-Request-ID" = some raw ∧ IsToken raw
  · -- one UUID is drawn, for the trace id
    obtain ⟨raw, hraw, htoken⟩ := h
    have hkept : (sanitizeHeaderToken (headers.get "X-Request-ID") : Handler ε _ _).run s =
        (.ok raw, s) := by
      rw [hraw]
      exact run_sanitizeHeaderToken_of_isToken htoken s
    exact ⟨raw, _, _, hraw ▸ .kept htoken, run_dispatch false callNext hkept rfl⟩
  · -- two are drawn, for the request id first
    have hno : ∀ text, headers.get "X-Request-ID" = some text → ¬ IsToken text :=
      fun text htext htoken => h ⟨text, htext, htoken⟩
    exact ⟨_, _, _, .minted hno, run_dispatch false callNext
      (run_sanitizeHeaderToken_of_not_isToken hno s) rfl⟩

namespace EdgeIds

variable {raw : Option String} {uuids left : Stream' Uuid} {requestId traceId : String}

theorem unique {requestId' traceId' : String} {left' : Stream' Uuid}
    (h : EdgeIds raw uuids requestId traceId left)
    (h' : EdgeIds raw uuids requestId' traceId' left') :
    requestId = requestId' ∧ traceId = traceId' := by
  cases h with
  | kept h =>
    cases h' with
    | kept _ => exact ⟨rfl, rfl⟩
    | minted hno => exact absurd h (hno _ rfl)
  | minted hno =>
    cases h' with
    | kept h => exact absurd h (hno _ rfl)
    | minted _ => exact ⟨rfl, rfl⟩

theorem exists_get_eq_traceId (h : EdgeIds raw uuids requestId traceId left) :
    ∃ n, traceId = (uuids.get n).text := by
  cases h with
  | kept _ => exact ⟨0, rfl⟩
  | minted _ => exact ⟨1, rfl⟩

theorem isToken_requestId (h : EdgeIds raw uuids requestId traceId left) : IsToken requestId := by
  cases h with
  | kept h => exact h
  | minted h => exact isToken_uuid _

theorem isToken_traceId (h : EdgeIds raw uuids requestId traceId left) : IsToken traceId := by
  cases h with
  | kept h => exact isToken_uuid _
  | minted h => exact isToken_uuid _

end EdgeIds

end RequestIDMiddleware

end Novon
