import Novon.Core.Equiv.BaseClient
import Novon.Network.Lossy

/-!
# The answered attempt

However the attempts before it are lost, a call ends with what `_request_once` makes of the answer
of the first attempt that gets one, unless the answer is a 5xx.
-/

namespace Novon.Lossy

open BaseServiceClient

variable {ρ σ J V : Type} (codec : Codec J V) (client : BaseServiceClient)
  (serve : Env → σ → Reply ρ × σ) (body : ReplyBody ρ → Bytes) (env : Env)

/-- What a service answers has a text, for whichever client. -/
theorem text_render (body : ReplyBody ρ → Bytes) (reply : Reply ρ) :
    codec.text (render body reply) = .ok (codec.utf8 (body reply.body)) :=
  TextDecoder.text_of_charset (codec.charset_json _ (contentType_mem reply.body))

/-- An answer that is no success is mapped by its status, with its text. -/
theorem requestOnce_render (body : ReplyBody ρ → Bytes) {reply : Reply ρ}
    (hs : (render body reply).isSuccess = false) (model : Option TypeHint) :
    requestOnce codec client model (.ok (render body reply)) =
      .error (.service (httpError client reply.statusCode (codec.utf8 (body reply.body)))) :=
  (Maps.status hs (text_render codec body reply)).eq

/-- The retry predicate looks at the status of an answer. -/
theorem transient_render (body : ReplyBody ρ → Bytes) (reply : Reply ρ) :
    transient codec (.ok (render body reply)) = decide (500 ≤ reply.statusCode) := by
  rw [transient, TextDecoder.hasText_of_ok (text_render codec body reply), Bool.and_true]
  rfl

/-- The state that the lost attempts leave behind. -/
def afterLosses : σ → List Loss → σ
  | s, [] => s
  | s, .request _ :: losses => afterLosses s losses
  | s, .response env' _ :: losses => afterLosses (serve env' s).2 losses

/-- A step that never moves the state keeps it through every loss. -/
theorem afterLosses_eq_self {s : σ} (h : ∀ env, (serve env s).2 = s) (losses : List Loss) :
    afterLosses serve s losses = s := by
  induction losses with
  | nil => rfl
  | cons loss losses ih =>
    cases loss with
    | request exc => exact ih
    | response env' exc => rw [afterLosses, h, ih]

/-- If nothing but requests is lost, the state is that before the call. -/
theorem afterLosses_of_requests (s : σ) {losses : List Loss}
    (h : ∀ loss ∈ losses, loss.isResponse = false) : afterLosses serve s losses = s := by
  induction losses with
  | nil => rfl
  | cons loss losses ih =>
    have hhead := h loss List.mem_cons_self
    cases loss with
    | request exc => exact ih fun l hl => h l (List.mem_cons_of_mem _ hl)
    | response env' exc => exact absurd hhead (by simp [Loss.isResponse])

/-- A property of the state that every request establishes and keeps holds after a loss of a
response. -/
theorem afterLosses_of_response (P : σ → Prop) (h : ∀ env s, P (serve env s).2) (s : σ)
    {losses : List Loss} (hloss : ∃ loss ∈ losses, loss.isResponse = true) :
    P (afterLosses serve s losses) := by
  have hkeep : ∀ (losses : List Loss) (s : σ), P s → P (afterLosses serve s losses) := by
    intro losses
    induction losses with
    | nil => exact fun s hs => hs
    | cons loss losses ih =>
      intro s hs
      cases loss with
      | request exc => exact ih s hs
      | response env' exc => exact ih _ (h env' s)
  induction losses generalizing s with
  | nil => simp at hloss
  | cons loss losses ih =>
    cases loss with
    | request exc =>
      obtain ⟨l, hl, hr⟩ := hloss
      rcases List.mem_cons.mp hl with rfl | hl
      · simp [Loss.isResponse] at hr
      · exact ih s ⟨l, hl, hr⟩
    | response env' exc => exact hkeep losses _ (h env' s)

/-- A lost attempt fails transiently. -/
theorem attempt_loss (model : Option TypeHint) (s : σ) (loss : Loss) (losses : List Loss) :
    ∃ exc, retriable exc = true ∧
      attempt codec client (send serve body env) model (s, loss :: losses) =
        (.error exc, (afterLosses serve s [loss], losses)) := by
  have hmap : ∀ exc : TransportError, requestOnce codec client model (.error exc.toLibraryError) =
      .error (.service (mapTransportError client exc.toLibraryError)) := by
    intro exc
    rw [requestOnce, if_pos exc.isTransportError]
  cases loss with
  | request exc =>
    refine ⟨_, retriable_mapTransportError client exc.toLibraryError, ?_⟩
    rw [attempt, send, hmap]
    rfl
  | response env' exc =>
    refine ⟨_, retriable_mapTransportError client exc.toLibraryError, ?_⟩
    rw [attempt, send, hmap]
    rfl

theorem afterLosses_cons (s : σ) (loss : Loss) (losses : List Loss) :
    afterLosses serve s (loss :: losses) =
      afterLosses serve (afterLosses serve s [loss]) losses := by
  cases loss <;> rfl

/-- The retry loop ends with the answered attempt, if it is allowed that many. -/
theorem requestWithRetry_send (h : ∀ s, (serve env s).1.statusCode < 500)
    (model : Option TypeHint) (losses : List Loss) (n : ℕ) (hn : losses.length < n) (s : σ) :
    (requestWithRetry (attempt codec client (send serve body env) model) n (s, losses)).1 =
      requestOnce codec client model
        (.ok (render body (serve env (afterLosses serve s losses)).1)) := by
  obtain ⟨n, rfl⟩ : ∃ m, n = m + 1 := ⟨n - 1, by omega⟩
  induction losses generalizing n s with
  | nil =>
    -- the answer comes, and is no 5xx: the loop ends here
    have hstop : ∀ exc, requestOnce codec client model (.ok (render body (serve env s).1)) =
        .error exc → retriable exc = false := by
      intro exc hexc
      rw [retriable_requestOnce codec client hexc, transient_render]
      exact decide_eq_false (Int.not_le.mpr (h s))
    rw [requestWithRetry, attempt, send, afterLosses]
    cases hexc : requestOnce codec client model (.ok (render body (serve env s).1)) with
    | ok result => rfl
    | error exc => simp [hstop exc hexc]
  | cons loss losses ih =>
    rw [List.length_cons] at hn
    -- this attempt is lost, and another one is left for the answer
    obtain ⟨exc, hretry, hattempt⟩ := attempt_loss codec client serve body env model s loss losses
    have hmore : (n != 0) = true := by
      simp only [bne_iff_ne, ne_eq]
      omega
    obtain ⟨m, rfl⟩ : ∃ m, n = m + 1 := ⟨n - 1, by omega⟩
    rw [requestWithRetry, afterLosses_cons serve s loss losses, hattempt]
    simp only [hretry, hmore, Bool.and_self, if_true]
    exact ih _ m (by omega)

/-- **The answered attempt decides the call.** -/
theorem request_send (h : ∀ s, (serve env s).1.statusCode < 500) (method : String)
    (model : Option TypeHint) {losses : List Loss}
    (hn : losses.length < attemptLimit client method) (s : σ) :
    (request codec client (send serve body env) method model (s, losses)).1 =
      requestOnce codec client model
        (.ok (render body (serve env (afterLosses serve s losses)).1)) := by
  unfold attemptLimit at hn
  rw [request]
  split
  · next hr =>
    rw [if_pos hr] at hn
    exact requestWithRetry_send codec client serve body env h model losses _ hn s
  · next hr =>
    rw [if_neg hr] at hn
    -- a call of one attempt loses none
    obtain rfl : losses = [] := List.eq_nil_of_length_eq_zero (by omega)
    rfl

/-! ### What the caller sees -/

/-- What the caller sees of an answer. -/
def seen (call : OutboundCall) (reply : Reply ρ) : Except Raised (Result V) :=
  let result := requestOnce codec client call.responseModel (.ok (render body reply))
  if call.expectsNone then result.map fun _ => .none else result

variable (lib : HttpLib) (headers : Dict String String)
  (serve' : Request → Env → σ → Reply ρ × σ)

theorem perform_eq {call : OutboundCall}
    (h : ∀ s, (serve' (Feign.send lib headers call) env s).1.statusCode < 500)
    {losses : List Loss} (hn : losses.length < attemptLimit client call.method) (s : σ) :
    perform lib headers codec client serve' body env losses s call =
      seen codec client body call (serve' (Feign.send lib headers call) env
        (afterLosses (serve' (Feign.send lib headers call)) s losses)).1 := by
  rw [perform, request_send codec client _ body env h _ _ hn, seen]

end Novon.Lossy
