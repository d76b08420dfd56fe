import Novon.Core.Equiv.Context

/-!
# Which contexts can be sent on

Header values are sent as ASCII.  Behind the middleware the ids are tokens, so a context that is
built from a request can be sent on exactly when the `Authorization` header, which is relayed as it
came, is ASCII, and the user id is a single line (`sendable_iff`).
-/

namespace Novon

/-- A character that may stand in a header value: ASCII, and no line break. -/
def IsPlain (c : Char) : Prop := c.toNat < 128 ∧ c ≠ '\r' ∧ c ≠ '\n'

instance (c : Char) : Decidable (IsPlain c) := inferInstanceAs (Decidable (_ ∧ _ ∧ _))

def IsAscii (s : String) : Prop := ∀ c ∈ s.toList, c.toNat < 128

def SingleLine (s : String) : Prop := ∀ c ∈ s.toList, c ≠ '\r' ∧ c ≠ '\n'

instance (s : String) : Decidable (IsAscii s) :=
  decidable_of_iff (s.toList.all fun c => c.toNat < 128) (by simp [IsAscii])

instance (s : String) : Decidable (SingleLine s) :=
  decidable_of_iff (s.toList.all fun c => c ≠ '\r' ∧ c ≠ '\n') (by simp [SingleLine])

/-- A header value that can be sent. -/
structure Sendable (s : String) : Prop where
  ne_empty : s ≠ ""
  ascii : IsAscii s
  singleLine : SingleLine s

/-- What a server delivers as header values: Latin-1 without line breaks. -/
def Delivered (headers : Headers) : Prop :=
  ∀ h ∈ headers, (∀ c ∈ h.2.toList, c.toNat < 256) ∧ SingleLine h.2

instance (headers : Headers) : Decidable (Delivered headers) :=
  decidable_of_iff (headers.all fun h => h.2.toList.all (fun c => c.toNat < 256) &&
    decide (SingleLine h.2)) (by simp [Delivered])

/-! ### Tokens -/

theorem isPlain_of_range {lo hi c : Char} (hlo : lo ≤ c) (hhi : c ≤ hi) (h32 : 32 ≤ lo.toNat)
    (h128 : hi.toNat < 128) : IsPlain c := by
  have hge : 32 ≤ c.toNat := le_trans h32 hlo
  refine ⟨lt_of_le_of_lt hhi h128, ?_, ?_⟩
  · rintro rfl
    exact absurd hge (by decide)
  · rintro rfl
    exact absurd hge (by decide)

theorem isPlain_of_isTchar {c : Char} (h : IsTchar c) : IsPlain c := by
  rcases h with hpunct | hdigit | halpha
  · have hall : (tcharPunctuation.all fun c => decide (IsPlain c)) = true := rfl
    exact of_decide_eq_true (List.all_eq_true.mp hall c hpunct)
  · obtain ⟨hlo, hhi⟩ := isDigit_iff.mp hdigit
    exact isPlain_of_range hlo hhi (by decide) (by decide)
  · rcases isAlpha_iff.mp halpha with ⟨hlo, hhi⟩ | ⟨hlo, hhi⟩
    · exact isPlain_of_range hlo hhi (by decide) (by decide)
    · exact isPlain_of_range hlo hhi (by decide) (by decide)

/-- **A token can be sent.** -/
theorem IsToken.sendable {s : String} (h : IsToken s) : Sendable s := by
  have hplain : ∀ c ∈ s.toList, IsPlain c := by
    intro c hc
    rcases h.chars c hc with htchar | rfl | rfl
    · exact isPlain_of_isTchar htchar
    · decide
    · decide
  exact ⟨h.ne_empty, fun c hc => (hplain c hc).1, fun c hc => (hplain c hc).2⟩

/-! ### Contexts -/

namespace RequestContext

variable {ε ω : Type}

/-- A handler that answers with the context it builds from its request. -/
def contextOf (headers : Headers) (userId : Option String) (state : RequestState) :
    Handler ε (Runtime ω) (OutboundResponse RequestContext) := do
  let ctx ← fromRequest headers state userId
  return ⟨200, [], ctx⟩

theorem headerValue_eq_some_iff {value : Option String} {v : String} :
    headerValue value = some v ↔ value = some v ∧ v ≠ "" := by
  rw [headerValue, Option.filter_eq_some_iff, decide_eq_true_iff]

/-- What an empty field would have to satisfy does not matter where it holds of `""`. -/
theorem forall_headerValue_iff {value : Option String} {P : String → Prop} (h : P "") :
    (∀ v, headerValue value = some v → P v) ↔ ∀ v, value = some v → P v := by
  constructor
  · intro hp v hv
    by_cases hempty : v = ""
    · rwa [hempty]
    · exact hp v (headerValue_eq_some_iff.mpr ⟨hv, hempty⟩)
  · exact fun hp v hv => hp v (headerValue_eq_some_iff.mp hv).1

theorem sendable_iff_of_headerValue {value : Option String} :
    (∀ v, headerValue value = some v → Sendable v) ↔
      ∀ v, value = some v → IsAscii v ∧ SingleLine v := by
  rw [← forall_headerValue_iff (P := fun v => IsAscii v ∧ SingleLine v) (by decide)]
  constructor
  · exact fun h v hv => ⟨(h v hv).ascii, (h v hv).singleLine⟩
  · exact fun h v hv => ⟨(headerValue_eq_some_iff.mp hv).2, (h v hv).1, (h v hv).2⟩

theorem singleLine_get {headers : Headers} (h : Delivered headers) (name : String) (v : String)
    (hv : headers.get name = some v) : SingleLine v :=
  (h _ (Dict.mem_of_lookup hv)).2

/-- A context with tokens for ids, a credential in one line and an ASCII user id. -/
theorem forall_sendable_iff {auth userId : Option String} {requestId traceId : String}
    (hrequestId : IsToken requestId) (htraceId : IsToken traceId)
    (hauth : ∀ v, auth = some v → SingleLine v) (huser : ∀ u, userId = some u → IsAscii u) :
    (∀ k v, (toHeaders ⟨auth, some requestId, some traceId, userId⟩).get? k = some v →
        Sendable v) ↔
      (∀ v, auth = some v → IsAscii v) ∧ ∀ u, userId = some u → SingleLine u := by
  have hids : ∀ {id : String}, IsToken id → ∀ v, headerValue (some id) = some v → Sendable v := by
    intro id hid v hv
    obtain ⟨heq, _⟩ := headerValue_eq_some_iff.mp hv
    cases heq
    exact hid.sendable
  rw [forall_toHeaders_iff, and_iff_right (hids hrequestId), and_iff_right (hids htraceId),
    sendable_iff_of_headerValue, sendable_iff_of_headerValue]
  constructor
  · rintro ⟨hauth', huser'⟩
    exact ⟨fun v hv => (hauth' v hv).1, fun u hu => (huser' u hu).2⟩
  · rintro ⟨hauth', huser'⟩
    exact ⟨fun v hv => ⟨hauth' v hv, hauth v hv⟩, fun u hu => ⟨huser u hu, huser' u hu⟩⟩

/-- **Which contexts can be sent on.**  Of a request that was delivered and passed the middleware,
every header of the context is a non-empty single line of ASCII exactly when its `Authorization`
is ASCII and the user id is a single line. -/
theorem sendable_iff (trust : Bool) (headers : Headers) (hdelivered : Delivered headers)
    (userId : Option String) (huser : ∀ u, userId = some u → IsAscii u) (s : Runtime ω) :
    ∃ response s',
      (RequestIDMiddleware.dispatch (ε := ε) trust (contextOf headers userId) headers).run s =
          (.ok response, s') ∧
        ((∀ k v, response.body.toHeaders.get? k = some v → Sendable v) ↔
          (∀ v, headers.get "Authorization" = some v → IsAscii v) ∧
            ∀ u, userId = some u → SingleLine u) := by
  obtain ⟨requestId, traceId, uuids, hrequestId, htraceId, -, hdispatch⟩ :=
    RequestIDMiddleware.run_dispatch_storedState (ε := ε) trust headers s
  have hrun := hdispatch (contextOf headers userId)
  have hctx : (contextOf headers userId ⟨some requestId, some traceId⟩ :
      Handler ε (Runtime ω) _).run { s with uuids } =
        (.ok ⟨200, [], ⟨headers.get "Authorization", some requestId, some traceId, userId⟩⟩,
          { s with uuids }) := by
    rw [contextOf, Handler.run_bind,
      run_fromRequest headers hrequestId.ne_empty htraceId.ne_empty userId _]
    rfl
  rw [hctx] at hrun
  exact ⟨_, _, hrun, forall_sendable_iff hrequestId htraceId
    (singleLine_get hdelivered "Authorization") huser⟩

/-- An ASCII credential is sent on. -/
theorem sendable_iff_ascii :
    ∃ response s',
      (RequestIDMiddleware.dispatch (ε := Unit) (ω := Unit) false
        (contextOf [("authorization", "Bearer abc")] (some "u1"))
        [("authorization", "Bearer abc")]).run ⟨Stream'.const Uuid.one, []⟩ = (.ok response, s') ∧
        ∀ k v, response.body.toHeaders.get? k = some v → Sendable v := by
  obtain ⟨response, s', hrun, hiff⟩ := sendable_iff (ε := Unit) (ω := Unit) false
    [("authorization", "Bearer abc")] (by decide) (some "u1") (by decide)
    ⟨Stream'.const Uuid.one, []⟩
  refine ⟨response, s', hrun, hiff.mpr ⟨?_, by decide⟩⟩
  rintro v ⟨⟩
  decide

/-- A credential with a letter of Latin-1 reaches the outbound headers as it came. -/
theorem not_sendable_credential :
    Delivered [("authorization", "Bearer é")] ∧
      ∃ response s',
        (RequestIDMiddleware.dispatch (ε := Unit) (ω := Unit) false
          (contextOf [("authorization", "Bearer é")] (some "u1"))
          [("authorization", "Bearer é")]).run ⟨Stream'.const Uuid.one, []⟩ = (.ok response, s') ∧
          response.body.toHeaders.get? "Authorization" = some "Bearer é" ∧
          ¬ Sendable "Bearer é" := by
  refine ⟨by decide, _, _, rfl, rfl, fun h => ?_⟩
  exact absurd h.ascii (by decide)

end RequestContext

end Novon
