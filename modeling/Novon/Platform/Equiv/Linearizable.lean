import Novon.Platform.Equiv.Threads

/-!
# Every answer belongs to one moment

Through the BFF the whole platform is linearizable: under every schedule of threads and event loop,
an answer is what the gateway answers at one moment between the request's arrival and the answer, or
it says that the service was not reached (`answers_at_one_moment`).
-/

namespace List

/-- A place in the concatenation of lists with at most one element each. -/
theorem exists_take_of_flatten_eq {α : Type*} {xss : List (List α)}
    (hle : ∀ xs ∈ xss, xs.length ≤ 1) {before after : List α} {x : α}
    (h : xss.flatten = before ++ x :: after) :
    ∃ m < xss.length, before = (xss.take m).flatten := by
  induction xss generalizing before with
  | nil => simp at h
  | cons xs xss ih =>
    have hle' : ∀ xs ∈ xss, xs.length ≤ 1 := fun xs hxs => hle xs (mem_cons_of_mem _ hxs)
    rw [flatten_cons] at h
    cases before with
    | nil => exact ⟨0, Nat.succ_pos _, rfl⟩
    | cons y before =>
      match xs, hle xs mem_cons_self, h with
      | [], _, h =>
        obtain ⟨m, hm, hbefore⟩ := ih hle' h
        exact ⟨m + 1, Nat.succ_lt_succ hm, hbefore⟩
      | [_], _, h =>
        obtain ⟨rfl, htail⟩ := cons.inj h
        obtain ⟨m, hm, rfl⟩ := ih hle' htail
        exact ⟨m + 1, Nat.succ_lt_succ hm, rfl⟩

end List

namespace Novon.Platform

open Bff BaseServiceClient Run

variable {J V : Type} {d : Deployment J V} {v : Decoding V}

/-- What decides an answer: what the arrival is, one of these stores, or a loss. -/
def DecidedBy (d : Deployment J V) (v : Decoding V) (stores : Stores → Prop) (flight : Flight)
    (answer : Answer V) : Prop :=
  match Gateway.arrival d flight.user flight.request with
  | .inl a => answer = a
  | .inr call =>
    (∃ exc, answer = Gateway.unreached (Gateway.client d.bff.clients call) exc) ∨
      ∃ env s, stores s ∧ answer = (Gateway.answer v d.bff.clients env s call).1

theorem DecidedBy.mono {P Q : Stores → Prop} {flight : Flight} {answer : Answer V}
    (h : DecidedBy d v P flight answer) (hPQ : ∀ s, P s → Q s) :
    DecidedBy d v Q flight answer := by
  unfold DecidedBy at h ⊢
  split
  · next a ha => simpa only [ha] using h
  · next call hcall =>
    simp only [hcall] at h
    rcases h with hlost | ⟨env, s, hs, hanswer⟩
    · exact .inl hlost
    · exact .inr ⟨env, s, hPQ s hs, hanswer⟩

/-! ### Handlers that act at once -/

/-- The stores of a run after the arrival of inbound request `k`. -/
def StoresDuring (d : Deployment J V) (moves : List Move) (k : ℕ) (s : Stores) : Prop :=
  ∃ before m after, moves = before ++ m :: after ∧
    k < (exec d.move before .empty).2.flights.length ∧ s = (exec d.move before .empty).2.stores

theorem StoresDuring.concat {moves : List Move} {k : ℕ} {s : Stores}
    (h : StoresDuring d moves k s) (m : Move) : StoresDuring d (moves ++ [m]) k s := by
  obtain ⟨before, m', after, rfl, hk, hs⟩ := h
  exact ⟨before, m', after ++ [m], by rw [List.append_assoc, List.cons_append], hk, hs⟩

/-- An answer at the arrival is that of the arrival. -/
theorem decidedBy_arrival {stores : Stores → Prop} {user : String} {request : InboundRequest}
    {uuids : Stream' Uuid} (hnodots : d.NoDots user request) {answer : Answer V}
    (hanswer : (⟨user, request, uuids, []⟩ : Flight).answer d.bff = some answer) :
    DecidedBy d v stores ⟨user, request, uuids, []⟩ answer := by
  unfold DecidedBy
  dsimp only
  cases harrival : Gateway.arrival d user request with
  | inl a =>
    rw [(follows_inl harrival uuids).1] at hanswer
    exact (Option.some.inj hanswer).symm
  | inr call =>
    rw [(follows_inr harrival hnodots uuids).1] at hanswer
    cases hanswer

/-- An answer at an attempt is that of the stores which the attempt finds, or says that the service
was not reached. -/
theorem decidedBy_attempt (h : d.Reads v) {s : Stores} (hs : s.Typed) {flight : Flight}
    {call : BffCall} {left : ℕ} (hfollows : Follows d flight (.waiting call left))
    (delivery : Delivery) {sent : Sent} (hpending : flight.pending d.bff = some sent)
    {answer : Answer V}
    (hanswer : (flight.record (d.deliver sent s delivery).1).answer d.bff = some answer) :
    DecidedBy d v (· = s) (flight.record (d.deliver sent s delivery).1) answer := by
  have harrival : Gateway.arrival d flight.user flight.request = .inr call := by
    cases hfollows with
    | waiting hroute hplain htransient hleft => exact arrival_eq_inr_iff.mpr hroute
  obtain ⟨sent', hpending', hattempt⟩ := hfollows.attempt h hs delivery
  obtain rfl := Option.some.inj (hpending.symm.trans hpending')
  rcases hattempt with ⟨answer', hdecides, hanswer', -⟩ | ⟨left', -, hnone, -⟩
  · obtain rfl := Option.some.inj (hanswer.symm.trans hanswer')
    unfold DecidedBy
    simp only [Flight.record, harrival]
    cases delivery with
    | answered env =>
      exact .inr ⟨env, s, rfl, (Sum.inl.inj (congrArg Prod.fst hdecides)).symm⟩
    | lost loss =>
      cases left with
      | zero => exact .inl ⟨loss.exc, (Sum.inl.inj (congrArg Prod.fst hdecides)).symm⟩
      | succ left => cases congrArg Prod.fst hdecides
  · rw [hnone] at hanswer
    cases hanswer

/-- **Step lemma**: a flight that has its answer after a move had it before, or the move decides
it. -/
theorem decidedBy_move (h : d.Reads v) {t : Traffic} {g : Gateway.Traffic}
    (hcarries : Carries d t g) {m : Move}
    (hdots : ∀ user request uuids, m = .inbound user request uuids → d.NoDots user request)
    {k : ℕ} {flight : Flight} {answer : Answer V}
    (hget : (d.move m t).2.flights[k]? = some flight)
    (hanswer : flight.answer d.bff = some answer) :
    t.flights[k]? = some flight ∨
      DecidedBy d v (fun s => k < t.flights.length ∧ s = t.stores) flight answer := by
  cases m with
  | uc request env => exact .inl hget
  | flow request env => exact .inl hget
  | inbound user request uuids =>
    rcases List.getElem?_concat_eq_some hget with ⟨-, rfl⟩ | hget
    · exact .inr (decidedBy_arrival (hdots user request uuids rfl) hanswer)
    · exact .inl hget
  | attempt j delivery =>
    rcases hcarries.flights.getElem? j with ⟨hnone, -⟩ | ⟨flight₀, call₀, hj, hj', hfollows⟩
    · rw [Deployment.move, hnone] at hget
      exact .inl hget
    · cases hfollows with
      | answered hpending =>
        simp only [Deployment.move, hj, hpending] at hget
        exact .inl hget
      | @waiting call left hroute hplain htransient hleft =>
        have hfollows : Follows d flight₀ (.waiting call left) :=
          .waiting hroute hplain htransient hleft
        obtain ⟨sent, hpending, -⟩ := hfollows.attempt h hcarries.typed delivery
        simp only [Deployment.move, hj, hpending] at hget
        rcases List.getElem?_set_eq_some hget with ⟨rfl, rfl⟩ | ⟨-, hget⟩
        · refine .inr ((decidedBy_attempt h hcarries.typed hfollows delivery hpending
            hanswer).mono ?_)
          rintro s rfl
          exact ⟨(List.getElem?_eq_some_iff.mp hj).1, rfl⟩
        · exact .inl hget

/-- **Run lemma**: every answer of a run was decided in it. -/
theorem decidedBy_exec (h : d.Reads v) {moves : List Move}
    (hdots : ∀ user request uuids, .inbound user request uuids ∈ moves → d.NoDots user request)
    {k : ℕ} {flight : Flight} {answer : Answer V}
    (hget : (exec d.move moves .empty).2.flights[k]? = some flight)
    (hanswer : flight.answer d.bff = some answer) :
    DecidedBy d v (StoresDuring d moves k) flight answer := by
  induction moves using List.reverseRecOn generalizing flight with
  | nil => cases hget
  | append_singleton moves m ih =>
    have hdots' : ∀ user request uuids, .inbound user request uuids ∈ moves →
        d.NoDots user request := fun user request uuids hmem =>
      hdots user request uuids (List.mem_append_left _ hmem)
    have hcarries := (exec_refines h hdots' carries_empty).2
    rw [exec_concat] at hget
    have hlast : ∀ user request uuids, m = .inbound user request uuids →
        d.NoDots user request := by
      rintro user request uuids rfl
      exact hdots user request uuids List.mem_concat_self
    rcases decidedBy_move h hcarries hlast hget hanswer with hbefore | hnow
    · exact (ih hdots' hbefore hanswer).mono fun _ hs => hs.concat m
    · refine hnow.mono ?_
      rintro s ⟨hk, rfl⟩
      exact ⟨moves, m, [], rfl, hk, rfl⟩

/-! ### Handlers on threads -/

/-- The stores of a run after the arrival of inbound request `k` and before cut `n`: those that the
critical sections entered so far lead to. -/
def SerialDuring (d : Deployment J V) (moves : List Threads.Move) (n k : ℕ) (s : Stores) : Prop :=
  ∃ m < n, k < (exec (Threads.move d) (moves.take m) .empty).2.flights.length ∧
    s = (exec (Threads.move d) (moves.take m) .empty).2.hosts.serial

/-- **Through the BFF the platform is linearizable.**  Under every schedule, an answer is what the
gateway answers on the stores at one moment between the arrival and the answer, or says that the
service was not reached.  Behind a lock that is free the stores are the ones in memory. -/
theorem answers_at_one_moment (h : d.Reads v) {moves : List Threads.Move}
    (hdots : ∀ user request uuids, .inbound user request uuids ∈ moves → d.NoDots user request)
    (n : ℕ) :
    let t := (exec (Threads.move d) (moves.take n) .empty).2
    (∀ (k : ℕ) x answer, t.flights[k]? = some x → x.flight.answer d.bff = some answer →
      DecidedBy d v (SerialDuring d moves n k) x.flight answer) ∧
    (t.hosts.uc.locked = false → t.hosts.serial.uc = t.hosts.uc.shared) ∧
    (t.hosts.flow.locked = false → t.hosts.serial.flow = t.hosts.flow.shared) := by
  obtain ⟨atomic, hbeside, hcuts⟩ := Threads.exists_atomic d moves
  have hle : ∀ ms ∈ atomic, ms.length ≤ 1 := by
    intro ms hms
    obtain ⟨i, m, -, -, hemits⟩ := hbeside.exists_of_mem hms
    exact hemits.length_le
  have hdots' : ∀ user request uuids, .inbound user request uuids ∈ (atomic.take n).flatten →
      d.NoDots user request := by
    intro user request uuids hmem
    obtain ⟨ms, hms, hmem⟩ := List.mem_flatten.mp hmem
    obtain ⟨i, m, hm, -, hemits⟩ := hbeside.exists_of_mem (List.mem_of_mem_take hms)
    rw [hemits.eq_of_mem hmem] at hm
    exact hdots user request uuids (List.mem_of_getElem? hm)
  have hsound := Threads.sound_exec (d := d) (moves.take n)
  refine ⟨fun k x answer hget hanswer => ?_, fun hfree => (hsound.hosts.uc.free hfree).symm,
    fun hfree => (hsound.hosts.flow.free hfree).symm⟩
  have hget' : (exec d.move (atomic.take n).flatten .empty).2.flights[k]? = some x.flight := by
    obtain ⟨fate, hcut⟩ := hcuts n
    rw [hcut]
    exact Threads.flight_foretell hsound hget (by rw [hanswer]; rfl)
  refine (decidedBy_exec h hdots' hget' hanswer).mono ?_
  rintro s ⟨before, m, after, heq, hk, rfl⟩
  obtain ⟨i, hi, rfl⟩ := List.exists_take_of_flatten_eq
    (fun ms hms => hle ms (List.mem_of_mem_take hms)) heq
  rw [List.length_take] at hi
  have hin : i < n := by omega
  rw [List.take_take, min_eq_left hin.le] at hk ⊢
  -- at that cut the threads have led to the same stores
  obtain ⟨fate, hcut⟩ := hcuts i
  rw [hcut, Threads.length_foretell] at hk
  exact ⟨i, hin, hk, by rw [hcut, Threads.foretell_stores]⟩

/-- A list that is asked for before a create, and read after the create has been answered. -/
def slowList : List Threads.Move :=
  [.inbound getCurrentUser getFlows (.const .one), .reach 0 ⟨.one, 1⟩,
    .inbound getCurrentUser postRelease (.const .two), .reach 1 ⟨.one, 1⟩, .run .flow 1,
    .run .flow 1, .run .flow 1, .receive 1, .run .flow 0, .run .flow 0, .run .flow 0, .receive 0]

/-- The stores after the create. -/
def releaseStores : Stores :=
  ⟨.empty, Dict.empty.set (Flow.flowIdOf .one) (Flow.newFlow .release ⟨.one, 1⟩)⟩

/-- The list, once its reply has been received. -/
def slowFlight : Flight :=
  ⟨getCurrentUser, getFlows, .const .one, [.ok (Lossy.render Deployment.sample.flowBody
    ⟨200, .records [Flow.newFlow .release ⟨.one, 1⟩]⟩)]⟩

theorem answers_at_one_moment_slowList : ∃ x answer,
    (exec (Threads.move .sample) slowList .empty).2.flights[0]? = some x ∧
    x.flight.answer Deployment.sample.bff = some answer ∧
    answer = .bff 200 (.result (.value (.flows [Flow.newFlow .release ⟨.one, 1⟩]))) ∧
    DecidedBy .sample .sample (SerialDuring .sample slowList 12 0) x.flight answer := by
  have hdots : ∀ user request uuids, .inbound user request uuids ∈ slowList →
      Deployment.sample.NoDots user request := by
    intro user request uuids hmem
    simp only [slowList, List.mem_cons, Threads.Move.inbound.injEq, reduceCtorEq,
      List.not_mem_nil, false_or, or_false] at hmem
    rcases hmem with ⟨rfl, rfl, rfl⟩ | ⟨rfl, rfl, rfl⟩ <;> exact noDots_of_pathId rfl rfl
  have hget : (exec (Threads.move .sample) slowList .empty).2.flights[0]? =
      some ⟨slowFlight, .outstanding⟩ := rfl
  have hroute : route Deployment.sample.bff.framework slowFlight.user slowFlight.request =
      .call .listFlows := rfl
  have hanswer : slowFlight.answer Deployment.sample.bff =
      some (.bff 200 (.result (.value (.flows [Flow.newFlow .release ⟨.one, 1⟩])))) := by
    have htyped : releaseStores.Typed := by
      refine ⟨typed_empty.user, fun flowId flow hflow => ?_⟩
      rcases Dict.get?_set_eq_some_iff.mp hflow with ⟨-, rfl⟩ | ⟨-, hflow⟩
      · exact newFlow_typed _ _
      · cases hflow
    have hplain : Plain .listFlows := nofun
    have hmatches := matches_serve Deployment.sample_reads htyped hplain .empty ⟨.one, 1⟩
    have hserve : (Deployment.sample.serve (sentFor .sample .empty .listFlows) ⟨.one, 1⟩
        releaseStores).1 = Lossy.render Deployment.sample.flowBody
          ⟨200, .records [Flow.newFlow .release ⟨.one, 1⟩]⟩ := rfl
    have hlt := hmatches.status_lt
    have hshown := hmatches.shown ""
    rw [show Deployment.sample.bff.lib = .sample from rfl, hserve] at hlt hshown
    rw [Flight.answer_of_first _ hroute rfl (not_transient_of_status _ hlt), hshown]
    rfl
  exact ⟨_, _, hget, hanswer, rfl, (answers_at_one_moment Deployment.sample_reads hdots 12).1 0 _ _
    hget hanswer⟩

end Novon.Platform
