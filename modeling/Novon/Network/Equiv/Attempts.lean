import Mathlib.Data.List.GetD
import Novon.Bff.Equiv.ErrorBodies
import Novon.Network.Attempts

/-!
# Attempts decide as the retry loop does

When what becomes of each attempt is what the operation does (`Realizes`), the attempts of a call
end where the retry loop ends, with the same for the caller and in the same state (`conduct_eq`),
and one attempt of a call in flight is one of the operation (`Realizes.attempt`).
-/

namespace Novon

namespace BaseServiceClient

/-! ### The outcomes so far -/

section

variable {J V : Type} {codec : Codec J V} {limit i : ℕ} {outcomes : List Outcome}
  {outcome default : Outcome}

theorem transient_getD (h : ∀ o ∈ outcomes, transient codec o = true) (default : Outcome) {k : ℕ}
    (hk : k < outcomes.length) : transient codec (outcomes.getD k default) = true := by
  rw [List.getD_eq_getElem outcomes default hk]
  exact h _ (List.getElem_mem hk)

theorem getD_concat_length (outcomes : List Outcome) (outcome default : Outcome) :
    (outcomes ++ [outcome]).getD outcomes.length default = outcome := by
  rw [List.getD_append_right _ _ _ _ (Nat.le_refl _), Nat.sub_self]
  rfl

/-- Attempts that have failed for the moment have not decided, unless they were all. -/
theorem Decides.length_le (hi : Decides codec limit (fun k => outcomes.getD k default) i)
    (h : ∀ o ∈ outcomes, transient codec o = true) (hlt : outcomes.length < limit) :
    outcomes.length ≤ i := by
  by_contra hnot
  have hmade := Nat.lt_of_not_le hnot
  rcases hi.last with hlast | hlast
  · rw [transient_getD h default hmade] at hlast
    cases hlast
  · omega

/-- The last outcome decides if it is not transient, or if no attempt is left. -/
theorem decides_concat (h : ∀ o ∈ outcomes, transient codec o = true)
    (hlt : outcomes.length < limit)
    (hlast : transient codec outcome = false ∨ outcomes.length + 1 = limit) (default : Outcome) :
    Decides codec limit (fun k => (outcomes ++ [outcome]).getD k default) outcomes.length := by
  refine ⟨hlt, fun k hk => ?_, ?_⟩
  · rw [List.getD_append _ _ _ _ hk]
    exact transient_getD h default hk
  · rw [getD_concat_length]
    exact hlast

end

end BaseServiceClient

namespace Operation

open BaseServiceClient

variable {σ α J V : Type} (codec : Codec J V)

/-- What becomes of an attempt in state `s` is what the operation does, for a caller that sees
`final` of the outcome. -/
structure Realizes (op : Operation σ α) (deliver : σ → Delivery → Outcome × σ)
    (final : Outcome → α) (s : σ) : Prop where
  /-- No answer is a 5xx, which would be taken for a failure for the moment. -/
  not_transient : ∀ env, transient codec (deliver s (.answered env)).1 = false
  perform : ∀ env, op.perform env s =
    (final (deliver s (.answered env)).1, (deliver s (.answered env)).2)
  lost : ∀ loss, deliver s (.lost loss) = (.error loss.exc.toLibraryError, op.lossEffect s loss)
  unreached : ∀ exc : TransportError, final (.error exc.toLibraryError) = op.unreached exc

variable {codec}

variable {op : Operation σ α} {deliver : σ → Delivery → Outcome × σ} {final : Outcome → α} {s : σ}

/-- An attempt performs the operation or leaves the state. -/
theorem snd_attempt (op : Operation σ α) (left : ℕ) (s : σ) (delivery : Delivery) :
    (op.attempt left s delivery).2 = s ∨
      ∃ env, (op.attempt left s delivery).2 = (op.perform env s).2 := by
  cases delivery with
  | answered env => exact .inr ⟨env, rfl⟩
  | lost loss =>
    cases loss with
    | request exc => exact .inl rfl
    | response env exc => exact .inr ⟨env, rfl⟩

theorem transient_loss (exc : TransportError) :
    transient codec (.error exc.toLibraryError) = true := exc.isTransportError

/-- **One attempt of a call in flight.** -/
theorem Realizes.attempt (h : Realizes codec op deliver final s) (left : ℕ) (delivery : Delivery) :
    ((transient codec (deliver s delivery).1 = false ∨ left = 0) ∧
      op.attempt left s delivery =
        (.inl (final (deliver s delivery).1), (deliver s delivery).2)) ∨
    ∃ left', left = left' + 1 ∧ transient codec (deliver s delivery).1 = true ∧
      op.attempt left s delivery = (.inr left', (deliver s delivery).2) := by
  cases delivery with
  | answered env =>
    refine .inl ⟨.inl (h.not_transient env), ?_⟩
    rw [Operation.attempt, h.perform env]
  | lost loss =>
    rw [h.lost loss]
    cases left with
    | zero =>
      refine .inl ⟨.inr rfl, ?_⟩
      rw [Operation.attempt, h.unreached]
    | succ left => exact .inr ⟨left, rfl, transient_loss loss.exc, rfl⟩

/-- **All attempts of a call**: from attempt `k` on, the caller sees what it makes of the deciding
outcome, and the state is that which the deciding attempt leaves. -/
theorem conduct_eq {deliveries : ℕ → Delivery} {states : ℕ → σ} {outcomes : ℕ → Outcome}
    (hrealizes : ∀ k, Realizes codec op deliver final (states k))
    (hattempt : ∀ k, deliver (states k) (deliveries k) = (outcomes k, states (k + 1)))
    {limit i k : ℕ} (hi : Decides codec limit outcomes i) (left : ℕ) (hlimit : k + left + 1 = limit)
    (hle : k ≤ i) :
    op.conduct deliveries left k (states k) = (final (outcomes i), states (i + 1)) := by
  -- an attempt that is answered decides
  have hanswered : ∀ {k env}, deliveries k = .answered env → k < limit → k ≤ i →
      op.perform env (states k) = (final (outcomes i), states (i + 1)) := by
    intro k env hk hlt hle
    have hstep := hattempt k
    have hnot := (hrealizes k).not_transient env
    rw [hk] at hstep
    rw [hstep] at hnot
    obtain rfl := hi.eq hlt (fun j hj => hi.transient_of_lt j (by omega)) hnot
    rw [(hrealizes k).perform env, hstep]
  have hlost : ∀ {k loss}, deliveries k = .lost loss →
      outcomes k = .error loss.exc.toLibraryError ∧
        states (k + 1) = op.lossEffect (states k) loss := by
    intro k loss hk
    have hstep := hattempt k
    rw [hk, (hrealizes k).lost loss] at hstep
    exact ⟨(Prod.mk.inj hstep).1.symm, (Prod.mk.inj hstep).2.symm⟩
  induction left generalizing k with
  | zero =>
    -- the last attempt decides, answered or not
    have hlt := hi.lt
    obtain rfl : k = i := by omega
    rw [conduct]
    cases hk : deliveries k with
    | answered env => exact hanswered hk (by omega) hle
    | lost loss =>
      obtain ⟨hout, hstate⟩ := hlost hk
      rw [hout, hstate, (hrealizes k).unreached]
  | succ left ih =>
    rw [conduct]
    cases hk : deliveries k with
    | answered env => exact hanswered hk (by omega) hle
    | lost loss =>
      obtain ⟨hout, hstate⟩ := hlost hk
      have hne : k ≠ i := by
        rintro rfl
        rcases hi.last with hlast | hlast
        · rw [hout, transient_loss] at hlast
          cases hlast
        · omega
      dsimp only
      rw [← hstate]
      exact ih (by omega) (by omega)

/-! ### Calls in flight -/

variable {γ : Type}

/-- A caller that sends copies of one request with property `P` until an outcome decides, and sees
`final` of that one.  `run` is what it sees and sends when its attempts have these outcomes. -/
def Calls (codec : Codec J V) (limit : ℕ) (P : γ → Prop) (final : Outcome → α)
    (run : List Outcome → α × List γ) : Prop :=
  ∀ outcomes, ∃ i sent,
    Decides codec limit (fun k => outcomes.getD k (.ok ⟨0, [], []⟩)) i ∧ P sent ∧
    run outcomes = (final (outcomes.getD i (.ok ⟨0, [], []⟩)), List.replicate (i + 1) sent)

variable {limit : ℕ} {P : γ → Prop} {run : List Outcome → α × List γ} {outcomes : List Outcome}

/-- While attempts are left the next one is waited for. -/
theorem Calls.pending (h : Calls codec limit P final run)
    (htransient : ∀ o ∈ outcomes, transient codec o = true) (hlt : outcomes.length < limit) :
    ∃ sent, P sent ∧ (run outcomes).2[outcomes.length]? = some sent := by
  obtain ⟨i, sent, hi, hsent, hrun⟩ := h outcomes
  refine ⟨sent, hsent, ?_⟩
  rw [hrun]
  exact List.getElem?_replicate_of_lt (Nat.lt_succ_of_le (hi.length_le htransient hlt))

/-- After the deciding attempt nothing is waited for. -/
theorem Calls.decided (h : Calls codec limit P final run)
    (htransient : ∀ o ∈ outcomes, transient codec o = true) (hlt : outcomes.length < limit)
    {outcome : Outcome} (hlast : transient codec outcome = false ∨ outcomes.length + 1 = limit) :
    (run (outcomes ++ [outcome])).1 = final outcome ∧
      (run (outcomes ++ [outcome])).2[(outcomes ++ [outcome]).length]? = none := by
  obtain ⟨i, sent, hi, -, hrun⟩ := h (outcomes ++ [outcome])
  obtain rfl := hi.unique (decides_concat htransient hlt hlast _)
  rw [hrun, getD_concat_length]
  exact ⟨rfl, List.getElem?_eq_none (by simp)⟩

/-- **One attempt of a call in flight** is one at the operation: it ends the call, or leaves one
further attempt less. -/
theorem Calls.attempt (h : Calls codec limit P final run) {deliver : γ → σ → Delivery → Outcome × σ}
    (hrealizes : ∀ sent, P sent → Realizes codec op (deliver sent) final s)
    (htransient : ∀ o ∈ outcomes, transient codec o = true) {left : ℕ}
    (hleft : outcomes.length + left + 1 = limit) (delivery : Delivery) :
    ∃ sent, (run outcomes).2[outcomes.length]? = some sent ∧
      let r := deliver sent s delivery
      (op.attempt left s delivery = (.inl (run (outcomes ++ [r.1])).1, r.2) ∧
        (run (outcomes ++ [r.1])).2[(outcomes ++ [r.1]).length]? = none) ∨
      ∃ left', op.attempt left s delivery = (.inr left', r.2) ∧
        (∀ o ∈ outcomes ++ [r.1], transient codec o = true) ∧
        (outcomes ++ [r.1]).length + left' + 1 = limit := by
  obtain ⟨sent, hsent, hpending⟩ := h.pending htransient (by omega)
  refine ⟨sent, hpending, ?_⟩
  dsimp only
  rcases (hrealizes sent hsent).attempt left delivery with
    ⟨hlast, hattempt⟩ | ⟨left', rfl, hagain, hattempt⟩
  · obtain ⟨hseen, hdone⟩ := h.decided htransient (by omega)
      (hlast.imp_right fun hzero => show outcomes.length + 1 = limit by omega)
    rw [hseen]
    exact .inl ⟨hattempt, hdone⟩
  · refine .inr ⟨left', hattempt, fun o ho => ?_, ?_⟩
    · rcases List.mem_append.mp ho with ho | ho
      · exact htransient o ho
      · rw [List.mem_singleton.mp ho]
        exact hagain
    · rw [List.length_append, List.length_singleton]
      omega

end Operation

end Novon
