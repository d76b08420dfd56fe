import Novon.Core.BaseClient

/-!
# Which attempt decides a call

The HTTP layer is a sequence of outcomes, one for each attempt.  An outcome is transient if the
retry predicate accepts what `_request_once` makes of it, which depends on the outcome alone
(`retriable_requestOnce`).  A call ends with what `_request_once` makes of the first outcome that
is not transient, or of the last one allowed (`request_stream`).
-/

namespace Novon.BaseServiceClient

variable {J V : Type} (codec : Codec J V)

/-- A transport error, or a 5xx response whose text can be read. -/
def transient : Outcome → Bool
  | .error exc => exc.cls.isSubclass [.transportError]
  | .ok response => 500 ≤ response.statusCode && codec.hasText response

/-- The number of attempts a call may make. -/
def attemptLimit (client : BaseServiceClient) (method : String) : ℕ :=
  if shouldRetry client method then client.maxRetries.toNat else 1

theorem attemptLimit_pos (client : BaseServiceClient) (method : String) :
    0 < attemptLimit client method := by
  unfold attemptLimit
  split
  · next h =>
    have hpos : 0 < client.maxRetries := by
      simp only [shouldRetry, decide_eq_true_eq] at h
      exact h.2
    omega
  · exact Nat.one_pos

variable (client : BaseServiceClient)

/-! ### Classes that are no service error -/

/-- What a library raises is never retried as it is. -/
theorem not_retriable_of_libraryError (exc : LibraryError) :
    retriable (.other exc.cls exc.text) = false := by
  have h := exc.isForeign
  show exc.cls.isSubclass [.serviceUnavailableError, .serviceTimeoutError] = false
  revert h
  cases exc.cls <;> decide

theorem not_retriable_of_decodeError {c : ExcClass}
    (h : c ∈ [.jsonDecodeError, .unicodeDecodeError, .valueError, .recursionError]) :
    c.isSubclass [.serviceUnavailableError, .serviceTimeoutError] = false := by
  simp only [List.mem_cons, List.not_mem_nil, or_false] at h
  rcases h with rfl | rfl | rfl | rfl <;> rfl

/-- What `_parse_response` raises is no service error, and never retried. -/
theorem raised_parseResponse {response : Response} {model : Option TypeHint} {exc : Raised}
    (h : parseResponse codec response model = .error exc) :
    (∀ e, exc ≠ .service e) ∧ retriable exc = false := by
  have hjson : ∀ m, validateJson codec m response = .error exc →
      (∀ e, exc ≠ .service e) ∧ retriable exc = false := by
    intro m hm
    unfold validateJson at hm
    split at hm
    · next e _ =>
      obtain rfl := Except.error.inj hm
      exact ⟨by simp, not_retriable_of_decodeError e.isDecodeError⟩
    · split at hm
      · obtain rfl := Except.error.inj hm
        exact ⟨by simp, rfl⟩
      · simp at hm
  unfold parseResponse at h
  split at h
  · simp at h
  · simp at h
  · split at h
    · simp at h
    · exact hjson _ h

theorem retriable_mapTransportError (exc : LibraryError) :
    retriable (.service (mapTransportError client exc)) = true := by
  unfold mapTransportError
  split <;> rfl

/-- Of the errors for a status, the retry predicate accepts those for 5xx ones. -/
theorem retriable_httpError (status : ℤ) (body : String) :
    retriable (.service (httpError client status body)) = decide (500 ≤ status) := by
  unfold httpError
  split
  · next h =>
    rw [h]
    rfl
  · split
    · next h =>
      rw [decide_eq_false (by omega)]
      rfl
    · split
      · next h =>
        rw [decide_eq_true h]
        rfl
      · next h =>
        rw [decide_eq_false h]
        rfl

/-- Of the responses that are no success, the retry predicate accepts the 5xx ones, if they have a
text. -/
theorem retriable_mapHttpError (response : Response) :
    retriable (raising (mapHttpError codec client response)) =
      transient codec (.ok response) := by
  rw [mapHttpError, transient, TextDecoder.hasText]
  cases codec.text response with
  | error exc =>
    rw [Except.isOk, Except.toBool, Bool.and_false]
    exact not_retriable_of_libraryError exc
  | ok body =>
    rw [Except.isOk, Except.toBool, Bool.and_true]
    exact retriable_httpError client response.statusCode body

/-- An unreadable body is never retried, with a text or without. -/
theorem not_retriable_unreadableBody (text : Except LibraryError String) :
    retriable (raising (text.map (unreadableBody client))) = false := by
  cases text with
  | error exc => exact not_retriable_of_libraryError exc
  | ok body => rfl

theorem not_transient_of_status {response : Response} (h : response.statusCode < 500) :
    transient codec (.ok response) = false := by
  rw [transient, decide_eq_false (by omega), Bool.false_and]

/-- **The retry predicate looks at the outcome alone.** -/
theorem retriable_requestOnce {model : Option TypeHint} {outcome : Outcome} {exc : Raised}
    (h : requestOnce codec client model outcome = .error exc) :
    retriable exc = transient codec outcome := by
  cases outcome with
  | error e =>
    rw [requestOnce] at h
    split at h
    · next ht =>
      obtain rfl := Except.error.inj h
      rw [transient, ht, retriable_mapTransportError]
    · next ht =>
      obtain rfl := Except.error.inj h
      rw [transient, Bool.eq_false_iff.mpr ht]
      exact not_retriable_of_libraryError e
  | ok response =>
    rw [requestOnce] at h
    split at h
    · obtain rfl := Except.error.inj h
      exact retriable_mapHttpError codec client response
    · next hs =>
      have hstatus : response.statusCode < 500 := by
        simp only [Response.isSuccess, Bool.not_eq_true, Bool.not_eq_false',
          decide_eq_true_eq] at hs
        omega
      rw [not_transient_of_status codec hstatus]
      split at h
      · simp at h
      · next e he =>
        split at h
        · obtain rfl := Except.error.inj h
          exact not_retriable_unreadableBody client (codec.text response)
        · obtain rfl := Except.error.inj h
          exact (raised_parseResponse codec he).2

theorem requestOnce_of_transient (model : Option TypeHint) {outcome : Outcome}
    (h : transient codec outcome = true) :
    ∃ exc, requestOnce codec client model outcome = .error exc := by
  cases outcome with
  | error e => exact ⟨_, if_pos h⟩
  | ok response =>
    have hs : (!response.isSuccess) = true := by
      simp only [transient, Bool.and_eq_true, decide_eq_true_eq] at h
      simp only [Response.isSuccess, Bool.not_eq_true', decide_eq_false_iff_not]
      omega
    exact ⟨_, if_pos hs⟩

/-! ### What an attempt is mapped to -/

/-- The mapping of an outcome, with the text of the response where an error carries it. -/
inductive Maps (model : Option TypeHint) : Outcome → Except Raised (Result V) → Prop
  | transport {exc : LibraryError} (h : exc.cls.isSubclass [.transportError] = true) :
    Maps model (.error exc) (.error (.service (mapTransportError client exc)))
  | library {exc : LibraryError} (h : exc.cls.isSubclass [.transportError] = false) :
    Maps model (.error exc) (.error (.other exc.cls exc.text))
  | status {response : Response} {body : String} (hs : response.isSuccess = false)
    (htext : codec.text response = .ok body) :
    Maps model (.ok response) (.error (.service (httpError client response.statusCode body)))
  | parsed {response : Response} {result : Result V} (hs : response.isSuccess = true)
    (hparse : parseResponse codec response model = .ok result) :
    Maps model (.ok response) (.ok result)
  | unreadable {response : Response} {exc : Raised} {body : String}
    (hs : response.isSuccess = true) (hparse : parseResponse codec response model = .error exc)
    (hcaught : exc.isInstance [.jsonDecodeError, .unicodeDecodeError, .validationError] = true)
    (htext : codec.text response = .ok body) :
    Maps model (.ok response) (.error (.service (unreadableBody client body)))
  | uncaught {response : Response} {exc : Raised} (hs : response.isSuccess = true)
    (hparse : parseResponse codec response model = .error exc)
    (hcaught : exc.isInstance [.jsonDecodeError, .unicodeDecodeError, .validationError] = false) :
    Maps model (.ok response) (.error exc)

/-- The error that the outcome is due carries a text, and there is none. -/
def Textless (model : Option TypeHint) : Outcome → Prop
  | .error _ => False
  | .ok response => codec.hasText response = false ∧ (response.isSuccess = false ∨
      ∃ exc, parseResponse codec response model = .error exc ∧
        exc.isInstance [.jsonDecodeError, .unicodeDecodeError, .validationError] = true)

/-- What is mapped lacks no text. -/
theorem Maps.not_textless {codec : Codec J V} {client : BaseServiceClient}
    {model : Option TypeHint} {outcome : Outcome} {result : Except Raised (Result V)}
    (h : Maps codec client model outcome result) : ¬ Textless codec model outcome := by
  cases h with
  | transport h => exact id
  | library h => exact id
  | status hs htext =>
    rintro ⟨hno, -⟩
    rw [TextDecoder.hasText_of_ok htext] at hno
    cases hno
  | parsed hs hparse =>
    rintro ⟨-, hno | ⟨exc, hexc, -⟩⟩
    · simp [hs] at hno
    · cases hparse.symm.trans hexc
  | unreadable hs hparse hcaught htext =>
    rintro ⟨hno, -⟩
    rw [TextDecoder.hasText_of_ok htext] at hno
    cases hno
  | uncaught hs hparse hcaught =>
    rintro ⟨-, hno | ⟨exc, hexc, hcaught'⟩⟩
    · simp [hs] at hno
    · obtain rfl := Except.error.inj (hparse.symm.trans hexc)
      rw [hcaught] at hcaught'
      cases hcaught'

/-- **What `_request_once` makes of an outcome**: its mapping or, if the text for it cannot be
read, the exception of the decoder. -/
theorem requestOnce_cases (model : Option TypeHint) (outcome : Outcome) :
    Maps codec client model outcome (requestOnce codec client model outcome) ∨
      (Textless codec model outcome ∧ ∃ exc : LibraryError,
        requestOnce codec client model outcome = .error (.other exc.cls exc.text)) := by
  cases outcome with
  | error exc =>
    rw [requestOnce]
    split
    · next h => exact .inl (.transport h)
    · next h => exact .inl (.library (Bool.eq_false_iff.mpr h))
  | ok response =>
    rw [requestOnce]
    split
    · next hs =>
      have hs' : response.isSuccess = false := by simpa using hs
      rw [mapHttpError]
      cases htext : codec.text response with
      | error exc => exact .inr ⟨⟨TextDecoder.hasText_of_error htext, .inl hs'⟩, exc, rfl⟩
      | ok body => exact .inl (.status hs' htext)
    · next hs =>
      have hs' : response.isSuccess = true := by simpa using hs
      split
      · next result hparse => exact .inl (.parsed hs' hparse)
      · next exc hparse =>
        split
        · next hcaught =>
          cases htext : codec.text response with
          | error exc' =>
            exact .inr ⟨⟨TextDecoder.hasText_of_error htext, .inr ⟨exc, hparse, hcaught⟩⟩, exc',
              rfl⟩
          | ok body => exact .inl (.unreadable hs' hparse hcaught htext)
        · next hcaught => exact .inl (.uncaught hs' hparse (Bool.eq_false_iff.mpr hcaught))

/-- A mapping is what `_request_once` returns or raises. -/
theorem Maps.eq {codec : Codec J V} {client : BaseServiceClient} {model : Option TypeHint}
    {outcome : Outcome} {result : Except Raised (Result V)}
    (h : Maps codec client model outcome result) :
    requestOnce codec client model outcome = result := by
  cases h with
  | transport h => exact if_pos h
  | library h => exact if_neg (by rw [h]; exact Bool.false_ne_true)
  | status hs htext =>
    rw [requestOnce, hs, mapHttpError, htext]
    rfl
  | parsed hs hparse =>
    rw [requestOnce, hs, hparse]
    rfl
  | unreadable hs hparse hcaught htext =>
    rw [requestOnce, hs, hparse]
    simp only [Bool.not_true, Bool.false_eq_true, if_false, hcaught, if_true, htext]
    rfl
  | uncaught hs hparse hcaught =>
    rw [requestOnce, hs, hparse]
    simp only [Bool.not_true, Bool.false_eq_true, if_false, hcaught]

/-- A `ServiceCallError` is a mapping. -/
theorem maps_of_service {model : Option TypeHint} {outcome : Outcome} {exc : ServiceCallError}
    (h : requestOnce codec client model outcome = .error (.service exc)) :
    Maps codec client model outcome (.error (.service exc)) := by
  rcases requestOnce_cases codec client model outcome with hmaps | ⟨-, e, he⟩
  · rwa [h] at hmaps
  · cases h.symm.trans he

/-! ### The deciding attempt -/

/-- Attempt `i` decides a call of at most `limit` attempts. -/
structure Decides (limit : ℕ) (outcomes : ℕ → Outcome) (i : ℕ) : Prop where
  lt : i < limit
  transient_of_lt : ∀ j < i, transient codec (outcomes j) = true
  last : transient codec (outcomes i) = false ∨ i + 1 = limit

variable {codec} in
/-- An attempt that is reached and whose outcome is not transient is the deciding one. -/
theorem Decides.eq {limit : ℕ} {outcomes : ℕ → Outcome} {i j : ℕ}
    (h : Decides codec limit outcomes i) (hj : j < limit)
    (hbefore : ∀ k < j, transient codec (outcomes k) = true)
    (hnot : transient codec (outcomes j) = false) : j = i := by
  rcases Nat.lt_trichotomy j i with hlt | heq | hgt
  · rw [h.transient_of_lt j hlt] at hnot
    exact absurd hnot (by simp)
  · exact heq
  · rcases h.last with hlast | hlast
    · rw [hbefore i hgt] at hlast
      exact absurd hlast (by simp)
    · omega

variable {codec} in
/-- Only one attempt decides a call. -/
theorem Decides.unique {limit : ℕ} {outcomes : ℕ → Outcome} {i j : ℕ}
    (hi : Decides codec limit outcomes i) (hj : Decides codec limit outcomes j) : i = j := by
  have hle : ∀ {i j : ℕ}, Decides codec limit outcomes i → Decides codec limit outcomes j →
      i ≤ j := by
    intro i j hi hj
    by_contra hlt
    have hlt := Nat.lt_of_not_le hlt
    rcases hj.last with hlast | hlast
    · rw [hi.transient_of_lt j hlt] at hlast
      cases hlast
    · have := hi.lt
      omega
  exact Nat.le_antisymm (hle hi hj) (hle hj hi)

variable {codec} in
/-- A property of outcomes that excludes transient ones holds of the deciding outcome if and only if
it holds of some outcome that is reached. -/
theorem Decides.iff_exists {limit : ℕ} {outcomes : ℕ → Outcome} {i : ℕ}
    (h : Decides codec limit outcomes i) {P : Outcome → Prop}
    (hP : ∀ o, P o → transient codec o = false) :
    P (outcomes i) ↔
      ∃ j < limit, (∀ k < j, transient codec (outcomes k) = true) ∧ P (outcomes j) := by
  constructor
  · exact fun hi => ⟨i, h.lt, h.transient_of_lt, hi⟩
  · rintro ⟨j, hj, hbefore, hPj⟩
    rwa [← h.eq hj hbefore (hP _ hPj)]

/-- The retry loop from attempt `k` on, with `n + 1` attempts left. -/
theorem requestWithRetry_stream (outcomes : ℕ → Outcome) (model : Option TypeHint) (n k : ℕ) :
    ∃ i, k ≤ i ∧ i < k + (n + 1) ∧ (∀ j, k ≤ j → j < i → transient codec (outcomes j) = true) ∧
      (transient codec (outcomes i) = false ∨ i + 1 = k + (n + 1)) ∧
      requestWithRetry (attempt codec client (streamSend outcomes) model) (n + 1) k =
        (requestOnce codec client model (outcomes i), i + 1) := by
  induction n generalizing k with
  | zero =>
    refine ⟨k, Nat.le_refl k, by omega, by omega, .inr rfl, ?_⟩
    rw [requestWithRetry, attempt, streamSend]
    cases requestOnce codec client model (outcomes k) <;> simp
  | succ n ih =>
    by_cases ht : transient codec (outcomes k) = true
    · -- this attempt is repeated: the rest of the loop decides
      obtain ⟨i, hle, hlt, hbefore, hlast, heq⟩ := ih (k + 1)
      obtain ⟨exc, hexc⟩ := requestOnce_of_transient codec client model ht
      refine ⟨i, by omega, by omega, fun j hj hji => ?_, ?_, ?_⟩
      · rcases Nat.eq_or_lt_of_le hj with rfl | hj'
        · exact ht
        · exact hbefore j hj' hji
      · exact hlast.imp_right fun h => by omega
      · have hretry : retriable exc = true := (retriable_requestOnce codec client hexc).trans ht
        rw [requestWithRetry, attempt, streamSend]
        simp only [hexc, hretry, Bool.true_and]
        exact heq
    · -- this attempt ends the loop, with its result or its error
      have ht' : transient codec (outcomes k) = false := by simpa using ht
      refine ⟨k, Nat.le_refl k, by omega, by omega, .inl ht', ?_⟩
      rw [requestWithRetry, attempt, streamSend]
      cases hexc : requestOnce codec client model (outcomes k) with
      | ok result => rfl
      | error exc =>
        have hretry : retriable exc = false := (retriable_requestOnce codec client hexc).trans ht'
        simp [hretry]

/-- **A call is decided by one attempt**, and sends as many requests as it takes to get there. -/
theorem request_stream (outcomes : ℕ → Outcome) (method : String) (model : Option TypeHint) :
    ∃ i, Decides codec (attemptLimit client method) outcomes i ∧
      request codec client (streamSend outcomes) method model 0 =
        (requestOnce codec client model (outcomes i), i + 1) := by
  have hpos := attemptLimit_pos client method
  unfold request
  by_cases hr : shouldRetry client method = true
  · have hlimit : attemptLimit client method = client.maxRetries.toNat := if_pos hr
    obtain ⟨n, hn⟩ : ∃ n, client.maxRetries.toNat = n + 1 := ⟨client.maxRetries.toNat - 1, by omega⟩
    obtain ⟨i, -, hlt, hbefore, hlast, heq⟩ :=
      requestWithRetry_stream codec client outcomes model n 0
    rw [if_pos hr, hn]
    refine ⟨i, ⟨by omega, fun j hj => hbefore j (Nat.zero_le j) hj, ?_⟩, heq⟩
    exact hlast.imp_right fun h => by omega
  · have hlimit : attemptLimit client method = 1 := if_neg hr
    rw [if_neg hr]
    exact ⟨0, ⟨by omega, by omega, .inr (by omega)⟩, rfl⟩

/-- A call whose first attempt succeeds is over. -/
theorem request_of_ok {σ : Type} {send : σ → Outcome × σ} {method : String}
    {model : Option TypeHint} {s : σ} {result : Result V}
    (h : requestOnce codec client model (send s).1 = .ok result) :
    request codec client send method model s = (.ok result, (send s).2) := by
  have hattempt : attempt codec client send model s = (.ok result, (send s).2) := by
    rw [attempt, h]
  unfold request
  split
  · next hr =>
    have hpos := attemptLimit_pos client method
    rw [attemptLimit, if_pos hr] at hpos
    obtain ⟨n, hn⟩ : ∃ n, client.maxRetries.toNat = n + 1 := ⟨client.maxRetries.toNat - 1, by omega⟩
    rw [hn, requestWithRetry, hattempt]
  · exact hattempt

/-! ### Other HTTP layers -/

variable {σ τ : Type} {f : σ → τ} {sendσ : σ → Outcome × σ} {sendτ : τ → Outcome × τ}

/-- HTTP layers that correspond state by state answer the attempts alike. -/
theorem requestWithRetry_map (hsend : ∀ s, sendτ (f s) = (sendσ s).map id f)
    (model : Option TypeHint) (n : ℕ) (s : σ) :
    requestWithRetry (attempt codec client sendτ model) n (f s) =
      (requestWithRetry (attempt codec client sendσ model) n s).map id f := by
  induction n generalizing s with
  | zero => rfl
  | succ n ih =>
    rw [requestWithRetry, requestWithRetry, attempt, attempt, hsend]
    simp only [Prod.map_fst, Prod.map_snd, id_eq]
    cases requestOnce codec client model (sendσ s).1 with
    | ok result => rfl
    | error exc =>
      simp only [ih]
      split <;> rfl

theorem request_map (hsend : ∀ s, sendτ (f s) = (sendσ s).map id f) (method : String)
    (model : Option TypeHint) (s : σ) :
    request codec client sendτ method model (f s) =
      (request codec client sendσ method model s).map id f := by
  unfold request
  split
  · exact requestWithRetry_map codec client hsend model _ s
  · rw [attempt, attempt, hsend]
    rfl

end Novon.BaseServiceClient
