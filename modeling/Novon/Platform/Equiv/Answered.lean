import Novon.Platform.Equiv.Traffic

/-!
# Every inbound request is answered once

Whatever interleaves, an inbound request is never answered twice, never costs more attempts than its
client allows, and is answered by then (`answered_once`).  A flight is watched from its arrival on:
it waits for an attempt as long as it has not been answered, and an attempt that is made while it
waits is recorded.
-/

namespace Novon.Platform

open Bff BaseServiceClient Run

variable {J V : Type} (d : Deployment J V)

/-- The attempts that an inbound request may cost. -/
def attemptsFor (user : String) (request : InboundRequest) : ℕ :=
  match Gateway.arrival d user request with
  | .inl _ => 0
  | .inr call => Gateway.retries d.bff.clients call + 1

/-- The move is an attempt of flight `k`. -/
def Move.isAttemptOf (k : ℕ) : Move → Bool
  | .attempt j _ => j = k
  | _ => false

/-- The answer to flight `k` that a move leads to. -/
def answerTo (k : ℕ) (x : Move × Option (Answer V)) : Option (Answer V) :=
  if x.1.isAttemptOf k then x.2 else none

variable {d}

/-- A flight that waits has attempts left. -/
theorem length_lt_of_pending {flight : Flight} {sent : Sent}
    (h : flight.pending d.bff = some sent) :
    flight.outcomes.length < attemptsFor d flight.user flight.request := by
  unfold attemptsFor
  cases harrival : Gateway.arrival d flight.user flight.request with
  | inl answer =>
    obtain ⟨response, left, hrun, -⟩ := run_application_of_inl harrival
      (replay fun k => flight.outcomes.getD k (.ok ⟨0, [], []⟩)) flight.uuids
    have hflight : flight.run d.bff = (.ok response, ⟨left, []⟩) := hrun
    rw [Flight.pending, hflight] at h
    cases h
  | inr call =>
    obtain ⟨i, sent', hi, -, hseen⟩ :=
      flight.calls d.bff (arrival_eq_inr_iff.mp harrival) "" flight.outcomes
    have hpending : (flight.seen d.bff flight.outcomes).2[flight.outcomes.length]? = some sent := h
    rw [hseen] at hpending
    obtain ⟨hlt, -⟩ := List.getElem?_eq_some_iff.mp hpending
    rw [List.length_replicate] at hlt
    have hlimit := hi.lt
    rw [attemptsOf_eq] at hlimit
    show _ < Gateway.retries d.bff.clients call + 1
    omega

/-- Flight `k` after `n` moves that were attempts of it, and the answers to it. -/
structure Watched (d : Deployment J V) (user : String) (request : InboundRequest) (k n : ℕ)
    (answers : List (Answer V)) (flight : Flight) : Prop where
  user_eq : flight.user = user
  request_eq : flight.request = request
  /-- It is answered once, and not while it waits. -/
  answers : answers.length = if (flight.pending d.bff).isSome then 0 else 1
  /-- While it waits, every attempt has been made. -/
  made : (flight.pending d.bff).isSome → flight.outcomes.length = n
  length_le : flight.outcomes.length ≤ attemptsFor d user request

/-- A flight answers if and only if it does not wait any longer. -/
theorem length_toList_answer (flight : Flight) :
    (flight.answer d.bff).toList.length = if (flight.pending d.bff).isSome then 0 else 1 := by
  unfold Flight.answer
  cases flight.pending d.bff <;> rfl

variable {user : String} {request : InboundRequest} {k n : ℕ} {answers : List (Answer V)}
  {flight : Flight}

theorem watched_arrival (d : Deployment J V) (user : String) (request : InboundRequest)
    (uuids : Stream' Uuid) (k : ℕ) :
    Watched d user request k 0 ((Flight.mk user request uuids []).answer d.bff).toList
      ⟨user, request, uuids, []⟩ where
  user_eq := rfl
  request_eq := rfl
  answers := length_toList_answer _
  made := fun _ => rfl
  length_le := Nat.zero_le _

/-- An attempt of a flight that waits. -/
theorem Watched.record (h : Watched d user request k n answers flight) {sent : Sent}
    (hpending : flight.pending d.bff = some sent) (outcome : Outcome) :
    Watched d user request k (n + 1)
      (answers ++ ((flight.record outcome).answer d.bff).toList) (flight.record outcome) where
  user_eq := h.user_eq
  request_eq := h.request_eq
  answers := by
    have hnone : answers.length = 0 := by rw [h.answers, hpending]; rfl
    rw [List.length_append, length_toList_answer, hnone, Nat.zero_add]
  made := fun _ => by
    have hmade := h.made (by rw [hpending]; rfl)
    rw [Flight.record, List.length_append, hmade]
    rfl
  length_le := by
    have hlt := length_lt_of_pending hpending
    rw [h.user_eq, h.request_eq] at hlt
    rw [Flight.record, List.length_append]
    exact hlt

/-- An attempt of a flight that has been answered is none. -/
theorem Watched.idle (h : Watched d user request k n answers flight)
    (hpending : flight.pending d.bff = none) : Watched d user request k (n + 1) answers flight where
  user_eq := h.user_eq
  request_eq := h.request_eq
  answers := h.answers
  made := fun hsome => by
    rw [hpending] at hsome
    cases hsome
  length_le := h.length_le

/-- **Step lemma**: a move, seen from one flight. -/
theorem watched_move (m : Move) {t : Traffic} (hget : t.flights[k]? = some flight)
    (h : Watched d user request k n answers flight) :
    ∃ flight', (d.move m t).2.flights[k]? = some flight' ∧
      Watched d user request k (n + if m.isAttemptOf k then 1 else 0)
        (answers ++ (answerTo k (m, (d.move m t).1)).toList) flight' := by
  have hother : m.isAttemptOf k = false → (d.move m t).2.flights[k]? = some flight →
      ∃ flight', (d.move m t).2.flights[k]? = some flight' ∧
        Watched d user request k (n + if m.isAttemptOf k then 1 else 0)
          (answers ++ (answerTo k (m, (d.move m t).1)).toList) flight' := by
    intro hm hget'
    refine ⟨flight, hget', ?_⟩
    rw [answerTo, hm, if_neg Bool.false_ne_true, if_neg Bool.false_ne_true]
    simpa using h
  cases m with
  | uc request env => exact hother rfl hget
  | flow request env => exact hother rfl hget
  | inbound user request uuids =>
    obtain ⟨hlt, -⟩ := List.getElem?_eq_some_iff.mp hget
    exact hother rfl ((List.getElem?_append_left hlt).trans hget)
  | attempt j delivery =>
    by_cases hj : j = k
    · subst hj
      have hm : (Move.attempt j delivery).isAttemptOf j = true := decide_eq_true rfl
      rw [answerTo, hm, if_pos rfl, if_pos rfl]
      obtain ⟨hlt, -⟩ := List.getElem?_eq_some_iff.mp hget
      rw [Deployment.move, hget]
      cases hpending : flight.pending d.bff with
      | none =>
        refine ⟨flight, by simpa only [hpending] using hget, ?_⟩
        simpa [hpending] using h.idle hpending
      | some sent =>
        simp only [hpending]
        exact ⟨_, List.getElem?_set_self hlt, h.record hpending _⟩
    · refine hother (decide_eq_false hj) ?_
      rw [Deployment.move]
      split
      · exact hget
      · split
        · exact hget
        · exact (List.getElem?_set_ne hj).trans hget

/-- **Run lemma**: a run, seen from one flight. -/
theorem watched_exec (moves : List Move) {t : Traffic} (hget : t.flights[k]? = some flight)
    (h : Watched d user request k n answers flight) :
    ∃ flight', (exec d.move moves t).2.flights[k]? = some flight' ∧
      Watched d user request k (n + moves.countP (·.isAttemptOf k))
        (answers ++ (trace d.move moves t).filterMap (answerTo k)) flight' := by
  induction moves using List.reverseRecOn with
  | nil => exact ⟨flight, hget, by simpa using h⟩
  | append_singleton moves m ih =>
    obtain ⟨flight', hget', h'⟩ := ih
    obtain ⟨flight'', hget'', h''⟩ := watched_move m hget' h'
    refine ⟨flight'', ?_, ?_⟩
    · rw [exec_concat]
      exact hget''
    · have hlast : ∀ x : Move × Option (Answer V),
          [x].filterMap (answerTo k) = (answerTo k x).toList := by
        intro x
        rw [List.filterMap_cons]
        cases answerTo k x <;> rfl
      rw [trace_concat, List.filterMap_append, hlast, List.countP_append, List.countP_singleton,
        ← Nat.add_assoc, ← List.append_assoc]
      exact h''

/-- **Every inbound request is answered once**: from its arrival on, at most one move answers it,
one has when as many attempts have been made as its client allows, and no more are sent. -/
theorem answered_once (d : Deployment J V) (t : Traffic) (user : String) (request : InboundRequest)
    (uuids : Stream' Uuid) (later : List Move) :
    let r := d.move (.inbound user request uuids) t
    let answers := r.1.toList ++ (trace d.move later r.2).filterMap (answerTo t.flights.length)
    answers.length ≤ 1 ∧
      (attemptsFor d user request ≤ later.countP (·.isAttemptOf t.flights.length) →
        answers.length = 1) ∧
      ∀ flight, (exec d.move later r.2).2.flights[t.flights.length]? = some flight →
        flight.outcomes.length ≤ attemptsFor d user request := by
  intro r answers
  have hget : r.2.flights[t.flights.length]? = some ⟨user, request, uuids, []⟩ :=
    List.getElem?_concat_length
  obtain ⟨flight, hget', h⟩ := watched_exec later hget
    (watched_arrival d user request uuids t.flights.length)
  have hlength : answers.length = if (flight.pending d.bff).isSome then 0 else 1 := h.answers
  refine ⟨?_, fun hmade => ?_, fun flight' hflight' => ?_⟩
  · rw [hlength]
    split <;> decide
  · rw [hlength, if_neg]
    intro hsome
    -- a flight that waits has made fewer attempts
    obtain ⟨sent, hpending⟩ := Option.isSome_iff_exists.mp hsome
    have hlt := length_lt_of_pending hpending
    rw [h.user_eq, h.request_eq, h.made hsome] at hlt
    omega
  · obtain rfl := Option.some.inj (hget'.symm.trans hflight')
    exact h.length_le

end Novon.Platform
