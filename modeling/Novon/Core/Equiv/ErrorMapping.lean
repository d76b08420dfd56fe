import Novon.Core.Equiv.BaseClient

/-!
# Which downstream failures are mapped

The catch clauses of `_request_once` cover transport errors, error statuses and most of what can go
wrong with a body.  They miss the `RequestError`s that are no `TransportError`, and what the JSON
decoder raises besides `JSONDecodeError` and `UnicodeDecodeError`.  And what they catch is mapped
with the text of the response, which the charset of its `Content-Type` may not decode.
`request_maps_failures` says that these are the only gaps.
-/

namespace Novon.BaseServiceClient

variable {J V : Type} (codec : Codec J V) (client : BaseServiceClient)

/-- The outcome that a caller may rely on: a value validated against the model, the `None` of a
contract that admits it, or a `ServiceCallError`. -/
def Mapped (model : TypeHint) : Except Raised (Result V) → Prop
  | .ok (.value v) =>
    ∃ content j, codec.loads content = .ok j ∧ codec.validatePython model j = some v
  | .ok .none => model.isNoneType = true ∨ (TypeHint.unwrapOptional model).2 = true
  | .ok (.response _) => False
  | .error (.service _) => True
  | .error (.other _ _) => False

/-- The JSON decoder is run on a body, unless there is nothing to decode. -/
def readsBody (model : TypeHint) (response : Response) : Bool :=
  !model.isNoneType && !((TypeHint.unwrapOptional model).2 && response.content.isEmpty)

/-- A body that is no JSON, or not of a value of the model. -/
def Unreadable (model : TypeHint) (content : Bytes) : Prop :=
  ∀ j, codec.loads content = .ok j → codec.validatePython model j = none

/-- The outcomes that no catch clause covers, or that are caught with a text that cannot be read. -/
def Unmapped (model : TypeHint) : Outcome → Prop
  | .error exc => exc.cls.isSubclass [.transportError] = false
  | .ok response =>
    (response.isSuccess = false ∧ codec.hasText response = false) ∨
      (response.isSuccess = true ∧ readsBody model response = true ∧
        ((∃ exc, codec.loads response.content = .error exc ∧
            exc.cls ∉ [ExcClass.jsonDecodeError, ExcClass.unicodeDecodeError]) ∨
          (Unreadable codec model response.content ∧ codec.hasText response = false)))

theorem not_transient_of_unmapped {model : TypeHint} {outcome : Outcome}
    (h : Unmapped codec model outcome) : transient codec outcome = false := by
  cases outcome with
  | error exc => exact h
  | ok response =>
    rcases h with ⟨-, htext⟩ | ⟨hs, -⟩
    · rw [transient, htext, Bool.and_false]
    · simp only [Response.isSuccess, decide_eq_true_eq] at hs
      exact not_transient_of_status codec (by omega)

/-- Among the decoder's exceptions, the catch clause names two classes. -/
theorem caught_decodeError (exc : DecodeError) :
    exc.cls.isSubclass [.jsonDecodeError, .unicodeDecodeError, .validationError] = true ↔
      exc.cls ∈ [ExcClass.jsonDecodeError, ExcClass.unicodeDecodeError] := by
  have h := exc.isDecodeError
  simp only [List.mem_cons, List.not_mem_nil, or_false] at h ⊢
  rcases h with h | h | h | h <;> rw [h] <;> decide

/-- What `_parse_response` does with a declared model. -/
theorem parseResponse_some (model : TypeHint) (response : Response) :
    parseResponse codec response (some model) =
      if readsBody model response then validateJson codec model response else .ok .none := by
  unfold parseResponse readsBody
  cases model with
  | noneType => rfl
  | cls _ | any | union _ | listOf _ | annotated _ | typeAlias _ =>
    simp only [TypeHint.isNoneType, Bool.not_false, Bool.true_and]
    split
    · next h => simp [h]
    · next h => simp [h]

/-- A body that is not read is admitted by the contract. -/
theorem contract_of_not_readsBody {model : TypeHint} {response : Response}
    (h : readsBody model response = false) :
    model.isNoneType = true ∨ (TypeHint.unwrapOptional model).2 = true := by
  by_contra hno
  rw [not_or, Bool.not_eq_true, Bool.not_eq_true] at hno
  simp [readsBody, hno] at h

/-- An exception is mapped if the text that goes into it can be read. -/
theorem mapped_raising (model : TypeHint) (response : Response) (f : String → ServiceCallError) :
    Mapped codec model (.error (raising ((codec.text response).map f))) ↔
      codec.hasText response = true := by
  rw [TextDecoder.hasText]
  cases codec.text response with
  | error exc => exact iff_of_false id Bool.false_ne_true
  | ok body => exact iff_of_true trivial rfl

/-- **A body that is read** gives a validated value or an exception of the decoder or of the
validation; the catch clause names all of these but two. -/
theorem mapped_validateJson {model : TypeHint} {response : Response}
    (hs : response.isSuccess = true) (hread : readsBody model response = true) :
    Mapped codec model (requestOnce codec client (some model) (.ok response)) ↔
      ¬ Unmapped codec model (.ok response) := by
  have hs' : (!response.isSuccess) = false := by simp [hs]
  rw [requestOnce, Unmapped, hs', if_neg Bool.false_ne_true, parseResponse_some, if_pos hread,
    validateJson]
  simp only [hs, hread, true_and, Bool.true_eq_false, false_and, false_or, Unreadable]
  cases hl : codec.loads response.content with
  | error exc =>
    have hcaught := caught_decodeError exc
    by_cases hc : exc.cls ∈ [ExcClass.jsonDecodeError, ExcClass.unicodeDecodeError]
    · have hinst : (Raised.other exc.cls exc.text).isInstance
          [.jsonDecodeError, .unicodeDecodeError, .validationError] = true := hcaught.mpr hc
      have hno : ¬ ∃ e, (Except.error exc : Except DecodeError J) = .error e ∧
          e.cls ∉ [ExcClass.jsonDecodeError, ExcClass.unicodeDecodeError] := by
        rintro ⟨e, he, hne⟩
        exact hne (Except.error.inj he ▸ hc)
      simp only [hinst, if_true, mapped_raising]
      rw [or_iff_right hno]
      simp
    · have hinst : (Raised.other exc.cls exc.text).isInstance
          [.jsonDecodeError, .unicodeDecodeError, .validationError] = false :=
        Bool.eq_false_iff.mpr (mt hcaught.mp hc)
      simp only [hinst, Bool.false_eq_true, if_false, Mapped, false_iff, not_not]
      exact .inl ⟨exc, rfl, hc⟩
  | ok value =>
    have hno : ¬ ∃ exc, (Except.ok value : Except DecodeError J) = .error exc ∧
        exc.cls ∉ [ExcClass.jsonDecodeError, ExcClass.unicodeDecodeError] := by
      rintro ⟨e, he, -⟩
      simp at he
    simp only [hno, false_or]
    cases hv : codec.validatePython model value with
    | none =>
      -- a `ValidationError` is caught, whatever the decoder has made of the body
      have hinst : (Raised.other .validationError "").isInstance
          [.jsonDecodeError, .unicodeDecodeError, .validationError] = true := rfl
      simp only [hinst, if_true, mapped_raising]
      simp [hv]
    | some v =>
      have hreadable : ¬ ∀ j, (Except.ok value : Except DecodeError J) = .ok j →
          codec.validatePython model j = none := by
        intro h
        rw [h value rfl] at hv
        cases hv
      exact iff_of_true ⟨response.content, value, hl, hv⟩ fun h => hreadable h.1

/-- **One attempt**: its outcome is mapped unless no catch clause covers it or no text is there. -/
theorem mapped_requestOnce (model : TypeHint) (outcome : Outcome) :
    Mapped codec model (requestOnce codec client (some model) outcome) ↔
      ¬ Unmapped codec model outcome := by
  cases outcome with
  | error exc =>
    rw [requestOnce, Unmapped]
    split
    · next h => simp [Mapped, h]
    · next h => simp [Mapped, h]
  | ok response =>
    by_cases hs : response.isSuccess = true
    · by_cases hread : readsBody model response = true
      · exact mapped_validateJson codec client hs hread
      · have hcontract := contract_of_not_readsBody (Bool.eq_false_iff.mpr hread)
        have hs' : (!response.isSuccess) = false := by simp [hs]
        rw [requestOnce, Unmapped, hs', if_neg Bool.false_ne_true, parseResponse_some,
          if_neg hread]
        simp [Mapped, hs, hread, hcontract]
    · -- an error status has its own mapping, which reads the text
      have hs' : (!response.isSuccess) = true := by simp [hs]
      rw [requestOnce, Unmapped, if_pos hs', mapHttpError, mapped_raising]
      simp [hs]

/-- **Which calls map their failure.**  A call with a declared response model returns a validated
value or raises a `ServiceCallError` if and only if no attempt that it reaches (all attempts before
it having failed transiently) ends with an outcome that no catch clause covers. -/
theorem request_maps_failures (outcomes : ℕ → Outcome) (method : String) (model : TypeHint) :
    Mapped codec model (request codec client (streamSend outcomes) method (some model) 0).1 ↔
      ¬ ∃ i < attemptLimit client method,
        (∀ j < i, transient codec (outcomes j) = true) ∧ Unmapped codec model (outcomes i) := by
  obtain ⟨i, hi, heq⟩ := request_stream codec client outcomes method (some model)
  rw [heq, mapped_requestOnce,
    hi.iff_exists (P := Unmapped codec model) fun _ => not_transient_of_unmapped codec]

/-- A body with a corrupt `Content-Encoding`: the HTTP library raises `DecodingError`. -/
def corruptEncoding : Outcome :=
  .error ⟨.decodingError, "Error -3 while decompressing data: incorrect header check", by decide⟩

/-- The exception reaches the caller as it is. -/
theorem request_corruptEncoding :
    ¬ Mapped .sample (.cls "UserResponse")
      (request .sample ⟨"uc", 3⟩ (streamSend fun _ => corruptEncoding) "GET"
        (some (.cls "UserResponse")) 0).1 := by
  intro h
  exact h

end Novon.BaseServiceClient
