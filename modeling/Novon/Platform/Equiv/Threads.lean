import Novon.Data.Foresight
import Novon.Platform.Equiv.Hosts
import Novon.Platform.Equiv.Traffic

/-!
# Handlers on threads act at once

However the threads of both services and the event loop of the BFF are scheduled, the BFF answers as
if every handler acted at once, at some moment between its request and the answer, and whenever a
lock is free the store behind it is the one that these handlers leave (`threads_refine`).  The
moment is the one at which the thread takes the lock.  Whether the BFF hears of the reply comes out
later, so that the proof is by simulation with foresight: the state of the deployment whose handlers
act at once is a function of the state of the threads and of what is still to come out (`foretell`).
-/

namespace Novon.Platform.Threads

open Bff Run

variable {J V : Type} {d : Deployment J V} {h h' : Hosts}

/-! ### What holds whatever the schedulers do -/

/-- An attempt that is under way is the one that the flight waits for. -/
inductive Ready (d : Deployment J V) (h : Hosts) : Inbound → Prop where
  | outstanding {flight : Flight} : Ready d h ⟨flight, .outstanding⟩
  | served {flight : Flight} {service : Service} {request : Request} {env : Env} {t : ℕ}
      (hpending : flight.pending d.bff = some ⟨service, request⟩)
      (hserves : Serves h request env service t) : Ready d h ⟨flight, .served service t⟩
  | replied {flight : Flight} {sent : Sent} {response : Response}
      (hpending : flight.pending d.bff = some sent)
      (hserve : ∀ env s, d.serve sent env s = (response, s)) : Ready d h ⟨flight, .replied response⟩

/-- No two flights wait for one thread. -/
structure Traffic.Sound (d : Deployment J V) (t : Traffic) : Prop where
  hosts : t.hosts.Sound
  ready : ∀ (k : ℕ) x, t.flights[k]? = some x → Ready d t.hosts x
  owner : ∀ (j k : ℕ) x y service thread, t.flights[j]? = some x → t.flights[k]? = some y →
    x.progress = .served service thread → y.progress = .served service thread → j = k

theorem HostMove.ready (hmove : HostMove h h') {x : Inbound} (hready : Ready d h x) :
    Ready d h' x := by
  cases hready with
  | outstanding => exact .outstanding
  | served hpending hserves => exact .served hpending (hmove.serves hserves)
  | replied hpending hserve => exact .replied hpending hserve

/-- A flight moves on, with no thread or with one of its own. -/
theorem Traffic.Sound.set {t : Traffic} (hs : t.Sound d) (hmove : HostMove t.hosts h') {k : ℕ}
    {x : Inbound} (hready : Ready d h' x)
    (hfresh : ∀ service thread, x.progress = .served service thread →
      ∀ request env, ¬ Serves t.hosts request env service thread) :
    Traffic.Sound d ⟨h', t.flights.set k x⟩ := by
  -- the new thread serves no other flight
  have hnew : ∀ (j : ℕ) y service thread, t.flights[j]? = some y →
      x.progress = .served service thread → y.progress ≠ .served service thread := by
    intro j y service thread hj hx hy
    have hready' := hs.ready j y hj
    cases hready' with
    | served hpending hserves =>
      obtain ⟨rfl, rfl⟩ := Progress.served.inj hy
      exact hfresh _ _ hx _ _ hserves
    | outstanding | replied => cases hy
  refine ⟨hmove.sound hs.hosts, fun j y hj => ?_, fun j l y z service thread hj hl hy hz => ?_⟩
  · rcases List.getElem?_set_eq_some hj with ⟨-, rfl⟩ | ⟨-, hj⟩
    · exact hready
    · exact hmove.ready (hs.ready j y hj)
  · rcases List.getElem?_set_eq_some hj with ⟨rfl, rfl⟩ | ⟨-, hj'⟩ <;>
      rcases List.getElem?_set_eq_some hl with ⟨rfl, rfl⟩ | ⟨-, hl'⟩
    · rfl
    · exact absurd hz (hnew l z service thread hl' hy)
    · exact absurd hy (hnew j y service thread hj' hz)
    · exact hs.owner j l y z service thread hj' hl' hy hz

/-- The flights stay as they are. -/
theorem Traffic.Sound.hosts_move {t : Traffic} (hs : t.Sound d) (hmove : HostMove t.hosts h') :
    Traffic.Sound d ⟨h', t.flights⟩ :=
  ⟨hmove.sound hs.hosts, fun j y hj => hmove.ready (hs.ready j y hj), hs.owner⟩

theorem traffic_sound_empty : Traffic.empty.Sound d := by
  refine ⟨sound_empty, ?_, ?_⟩ <;> simp [Traffic.empty]

/-- **Step lemma**: every move keeps what holds. -/
theorem Traffic.Sound.move {t : Traffic} (hs : t.Sound d) (m : Move) :
    (move d m t).2.Sound d := by
  have hconclude : ∀ k flight outcome, (t.conclude d k flight outcome).2.Sound d :=
    fun k flight _ => hs.set .refl .outstanding nofun
  cases m with
  | inbound user request uuids =>
    refine ⟨hs.hosts, fun j y hj => ?_, fun j k y z service thread hj hk hy hz => ?_⟩
    · rcases List.getElem?_concat_eq_some hj with ⟨-, rfl⟩ | hj
      · exact .outstanding
      · exact hs.ready j y hj
    · rcases List.getElem?_concat_eq_some hj with ⟨-, rfl⟩ | hj
      · cases hy
      · rcases List.getElem?_concat_eq_some hk with ⟨-, rfl⟩ | hk
        · cases hz
        · exact hs.owner j k y z service thread hj hk hy hz
  | reach k env =>
    rw [Threads.move]
    split
    · next flight hget =>
      split
      · next sent hpending =>
        have hmove := hostMove_accept (h := t.hosts) d sent env
        have haccepts := accepts (d := d) hs.hosts sent env
        generalize accept d sent env t.hosts = r at hmove haccepts ⊢
        cases haccepts with
        | served hserial hdecision hserves hnew hfresh =>
          refine hs.set hmove (.served hpending hserves) fun service thread hx => ?_
          obtain ⟨rfl, rfl⟩ := Progress.served.inj hx
          exact hfresh
        | replied hserve => exact hs.set hmove (.replied hpending hserve) nofun
      · exact hs
    · exact hs
  | client service request env => exact hs.hosts_move (hostMove_accept d _ env)
  | run service thread => exact hs.hosts_move (hostMove_advance service thread)
  | receive k =>
    rw [Threads.move]
    split
    · next flight progress hget =>
      split
      · exact hconclude k flight _
      · exact hs
    · exact hs
  | giveUp k exc =>
    rw [Threads.move]
    split
    · next flight progress hget =>
      split
      · exact hconclude k flight _
      · exact hs
    · exact hs

/-! ### What is still to come out -/

/-- What is settled of an attempt. -/
def Progress.settled? (d : Deployment J V) (h : Hosts) : Progress → Option Response
  | .served service thread => decision d h service thread
  | .outstanding | .replied _ => none

/-- The outcome of an attempt with a settled response, which the BFF hears or gives up. -/
def outcome (fate : Option TransportError) (response : Response) : Except LibraryError Response :=
  match fate with
  | none => .ok response
  | some exc => .error exc.toLibraryError

/-- The same, for a service that acts at once. -/
def delivery (fate : Option TransportError) (env : Env) : Delivery :=
  match fate with
  | none => .answered env
  | some exc => .lost (.response env exc)

theorem deliver_delivery (sent : Sent) (s : Stores) (fate : Option TransportError) (env : Env) :
    d.deliver sent s (delivery fate env) =
      (outcome fate (d.serve sent env s).1, (d.serve sent env s).2) := by
  cases fate <;> rfl

/-- The flight as it is when handlers act at once. -/
def foretold (d : Deployment J V) (h : Hosts) (fate : Option TransportError) (x : Inbound) :
    Flight :=
  match x.progress.settled? d h with
  | none => x.flight
  | some response => x.flight.record (outcome fate response)

/-- **What the threads refine**: `fate` says for each flight what becomes of its settled reply. -/
def foretell (d : Deployment J V) (fate : ℕ → Option TransportError) (t : Traffic) :
    Platform.Traffic :=
  ⟨t.hosts.serial, t.flights.mapIdx fun k x => foretold d t.hosts (fate k) x⟩

@[simp] theorem foretell_stores (fate : ℕ → Option TransportError) (t : Traffic) :
    (foretell d fate t).stores = t.hosts.serial := rfl

@[simp] theorem length_foretell (fate : ℕ → Option TransportError) (t : Traffic) :
    (foretell d fate t).flights.length = t.flights.length := List.length_mapIdx

theorem foretold_of_unsettled {fate : Option TransportError} {x : Inbound}
    (hx : x.progress.settled? d h = none) : foretold d h fate x = x.flight := by
  rw [foretold, hx]

theorem foretold_of_settled {fate : Option TransportError} {x : Inbound} {response : Response}
    (hx : x.progress.settled? d h = some response) :
    foretold d h fate x = x.flight.record (outcome fate response) := by
  rw [foretold, hx]

theorem getElem?_foretell {fate : ℕ → Option TransportError} {t : Traffic} {k : ℕ} {x : Inbound}
    (hget : t.flights[k]? = some x) :
    (foretell d fate t).flights[k]? = some (foretold d t.hosts (fate k) x) := by
  rw [foretell, List.getElem?_mapIdx, hget]
  rfl

/-- One flight changes. -/
theorem foretell_set {fate fate' : ℕ → Option TransportError} {t : Traffic} {k : ℕ}
    {x : Inbound} (hothers : ∀ j y, j ≠ k → t.flights[j]? = some y →
      foretold d h' (fate' j) y = foretold d t.hosts (fate j) y) :
    foretell d fate' ⟨h', t.flights.set k x⟩ =
      ⟨h'.serial, (foretell d fate t).flights.set k (foretold d h' (fate' k) x)⟩ := by
  refine congrArg (Platform.Traffic.mk h'.serial) (List.ext_getElem? fun j => ?_)
  rw [List.getElem?_mapIdx, foretell]
  by_cases hjk : j = k
  · subst hjk
    rcases Nat.lt_or_ge j t.flights.length with hlt | hge
    · rw [List.getElem?_set_self hlt, List.getElem?_set_self (by simpa using hlt)]
      rfl
    · rw [List.getElem?_eq_none (by simpa using hge), List.getElem?_eq_none (by simpa using hge)]
      rfl
  · rw [List.getElem?_set_ne (Ne.symm hjk), List.getElem?_set_ne (Ne.symm hjk),
      List.getElem?_mapIdx]
    cases hget : t.flights[j]? with
    | none => rfl
    | some y => exact congrArg some (hothers j y hjk hget)

/-- No flight changes. -/
theorem foretell_hosts {fate : ℕ → Option TransportError} {t : Traffic}
    (hall : ∀ k y, t.flights[k]? = some y →
      foretold d h' (fate k) y = foretold d t.hosts (fate k) y) :
    foretell d fate ⟨h', t.flights⟩ = ⟨h'.serial, (foretell d fate t).flights⟩ := by
  refine congrArg (Platform.Traffic.mk h'.serial) (List.ext_getElem? fun k => ?_)
  rw [List.getElem?_mapIdx, foretell, List.getElem?_mapIdx]
  cases hget : t.flights[k]? with
  | none => rfl
  | some y => exact congrArg some (hall k y hget)

/-- An attempt that is made at once. -/
theorem exec_attempt {a : Platform.Traffic} {k : ℕ} {flight : Flight} {sent : Sent}
    (hget : a.flights[k]? = some flight) (hpending : flight.pending d.bff = some sent)
    (delivery : Delivery) :
    (exec d.move [.attempt k delivery] a).2 =
      ⟨(d.deliver sent a.stores delivery).2,
        a.flights.set k (flight.record (d.deliver sent a.stores delivery).1)⟩ := by
  simp only [exec_cons, exec_nil, Deployment.move, hget, hpending]

/-! ### One move -/

/-- A request of another client, which acts at once. -/
def clientMove : Service → Request → Env → Platform.Move
  | .uc, request, env => .uc request env
  | .flow, request, env => .flow request env

/-- With its next step the thread takes the lock. -/
def Enters (d : Deployment J V) (h : Hosts) (service : Service) (thread : ℕ) : Prop :=
  decision d h service thread = none ∧
    (decision d (advance service thread h) service thread).isSome

/-- What the deployment whose handlers act at once does at a move from `t`: an arrival is an
arrival; a request acts when its thread takes the lock; an attempt without a thread is made when its
reply is received; and an attempt that is given up before it has acted is a lost request. -/
inductive Emits (d : Deployment J V) (t : Traffic) : Move → List Platform.Move → Prop where
  | inbound (user : String) (request : InboundRequest) (uuids : Stream' Uuid) :
      Emits d t (.inbound user request uuids) [.inbound user request uuids]
  | reach (k : ℕ) (env : Env) : Emits d t (.reach k env) []
  | client (service : Service) (request : Request) (env : Env) :
      Emits d t (.client service request env) []
  | quiet {service : Service} {thread : ℕ} (hquiet : ¬ Enters d t.hosts service thread) :
      Emits d t (.run service thread) []
  /-- The attempt that waits for the thread. -/
  | attempt {flight : Flight} {service : Service} {thread k : ℕ} {request : Request} {env : Env}
      (henters : Enters d t.hosts service thread)
      (hget : t.flights[k]? = some ⟨flight, .served service thread⟩)
      (hpending : flight.pending d.bff = some ⟨service, request⟩)
      (hserves : Serves t.hosts request env service thread) (fate : Option TransportError) :
      Emits d t (.run service thread) [.attempt k (delivery fate env)]
  /-- No attempt waits for the thread. -/
  | acts {service : Service} {thread : ℕ} {request : Request} {env : Env}
      (henters : Enters d t.hosts service thread)
      (hfree : ∀ (k : ℕ) x, t.flights[k]? = some x → x.progress ≠ .served service thread)
      (hserves : Serves t.hosts request env service thread) :
      Emits d t (.run service thread) [clientMove service request env]
  | received (k : ℕ) : Emits d t (.receive k) []
  | replied {flight : Flight} {response : Response} {k : ℕ}
      (hget : t.flights[k]? = some ⟨flight, .replied response⟩) (env : Env) :
      Emits d t (.receive k) [.attempt k (.answered env)]
  | forgotten (k : ℕ) (exc : TransportError) : Emits d t (.giveUp k exc) []
  | lost {x : Inbound} {k : ℕ} (hget : t.flights[k]? = some x)
      (hunsettled : x.progress.settled? d t.hosts = none) (exc : TransportError) :
      Emits d t (.giveUp k exc) [.attempt k (.lost (.request exc))]

theorem Emits.length_le {t : Traffic} {m : Move} {ms : List Platform.Move} (h : Emits d t m ms) :
    ms.length ≤ 1 := by
  cases h <;> simp

theorem Emits.eq_of_mem {t : Traffic} {m : Move} {ms : List Platform.Move} (h : Emits d t m ms)
    {user : String} {request : InboundRequest} {uuids : Stream' Uuid}
    (hmem : .inbound user request uuids ∈ ms) : m = .inbound user request uuids := by
  cases h with
  | inbound =>
    obtain ⟨rfl, rfl, rfl⟩ := Platform.Move.inbound.inj (List.mem_singleton.mp hmem)
    rfl
  | @acts service => cases service <;> simp [clientMove] at hmem
  | reach | client | quiet | attempt | received | replied | forgotten | lost => simp at hmem

/-- What is to come out after the move determines what is to come out before it, and the moves in
between. -/
def Foretells (d : Deployment J V) (m : Move) (t : Traffic)
    (fate' : ℕ → Option TransportError) : Prop :=
  ∃ fate ms, Emits d t m ms ∧
    foretell d fate' (move d m t).2 = (exec d.move ms (foretell d fate t)).2

variable {t : Traffic} {fate' : ℕ → Option TransportError}

theorem foretells_inbound (user : String) (request : InboundRequest) (uuids : Stream' Uuid) :
    Foretells d (.inbound user request uuids) t fate' := by
  refine ⟨fate', _, .inbound user request uuids, ?_⟩
  show Platform.Traffic.mk t.hosts.serial (List.mapIdx _ (t.flights ++ [_])) = _
  rw [List.mapIdx_concat]
  rfl

/-- Nothing is settled. -/
theorem foretold_congr (hdecision : decision d h' = decision d h) (fate : Option TransportError)
    (x : Inbound) : foretold d h' fate x = foretold d h fate x := by
  unfold foretold Progress.settled?
  rw [hdecision]

theorem foretells_client (hs : t.Sound d) (service : Service) (request : Request) (env : Env) :
    Foretells d (.client service request env) t fate' := by
  refine ⟨fate', [], .client service request env, ?_⟩
  have haccepts := accepts (d := d) hs.hosts ⟨service, request⟩ env
  rw [move]
  generalize accept d ⟨service, request⟩ env t.hosts = r at haccepts ⊢
  cases haccepts with
  | served hserial hdecision hserves hnew hfresh =>
    show foretell d fate' ⟨_, t.flights⟩ = _
    rw [foretell_hosts fun k y _ => foretold_congr hdecision (fate' k) y, hserial]
    rfl
  | replied hserve => rfl

theorem foretells_reach (hs : t.Sound d) (k : ℕ) (env : Env) :
    Foretells d (.reach k env) t fate' := by
  refine ⟨fate', [], .reach k env, ?_⟩
  rw [move]
  split
  · next flight hget =>
    split
    · next sent hpending =>
      have haccepts := accepts (d := d) hs.hosts sent env
      have hfor : (foretell d fate' t).flights[k]? = some flight := getElem?_foretell hget
      generalize accept d sent env t.hosts = r at haccepts ⊢
      cases haccepts with
      | served hserial hdecision hserves hnew hfresh =>
        rw [foretell_set fun j y _ _ => foretold_congr hdecision (fate' j) y,
          foretold_of_unsettled (x := ⟨flight, .served sent.service _⟩) hnew, hserial,
          List.set_of_getElem? hfor]
        rfl
      | replied hserve =>
        rw [foretell_set fun j y _ _ => rfl, foretold_of_unsettled rfl, List.set_of_getElem? hfor]
        rfl
    · rfl
  · rfl

/-- One flight's attempt has an outcome. -/
theorem foretell_conclude {fate : ℕ → Option TransportError} {k : ℕ} (flight : Flight)
    (o : Except LibraryError Response) (hfate : ∀ j, j ≠ k → fate j = fate' j) :
    foretell d fate' (t.conclude d k flight o).2 =
      ⟨t.hosts.serial, (foretell d fate t).flights.set k (flight.record o)⟩ := by
  have hothers : ∀ j y, j ≠ k → t.flights[j]? = some y →
      foretold d t.hosts (fate' j) y = foretold d t.hosts (fate j) y :=
    fun j y hjk _ => by rw [hfate j hjk]
  show foretell d fate' ⟨t.hosts, t.flights.set k ⟨flight.record o, .outstanding⟩⟩ = _
  rw [foretell_set hothers, foretold_of_unsettled rfl]

/-- Before anything is settled, the attempt is made when it has its outcome. -/
theorem foretell_unsettled {k : ℕ} {x : Inbound} {sent : Sent} {delivery : Delivery}
    {o : Except LibraryError Response} (hget : t.flights[k]? = some x)
    (hunsettled : x.progress.settled? d t.hosts = none)
    (hpending : x.flight.pending d.bff = some sent)
    (hdeliver : ∀ s, d.deliver sent s delivery = (o, s)) :
    foretell d fate' (t.conclude d k x.flight o).2 =
      (exec d.move [.attempt k delivery] (foretell d fate' t)).2 := by
  have hfor : (foretell d fate' t).flights[k]? = some x.flight := by
    rw [getElem?_foretell hget, foretold_of_unsettled hunsettled]
  rw [exec_attempt hfor hpending, hdeliver, foretell_conclude x.flight o fun _ _ => rfl]
  rfl

/-- Afterwards it was made when its thread took the lock, with the outcome that it now has. -/
theorem foretell_settled {k : ℕ} {x : Inbound} {response : Response}
    (hget : t.flights[k]? = some x) (hsettled : x.progress.settled? d t.hosts = some response)
    (fate : Option TransportError) :
    foretell d fate' (t.conclude d k x.flight (outcome fate response)).2 =
      foretell d (Function.update fate' k fate) t := by
  have hfor : (foretell d (Function.update fate' k fate) t).flights[k]? =
      some (x.flight.record (outcome fate response)) := by
    rw [getElem?_foretell hget, foretold_of_settled hsettled, Function.update_self]
  rw [foretell_conclude x.flight _ fun j hj => Function.update_of_ne hj fate fate',
    List.set_of_getElem? hfor]
  rfl

theorem foretells_receive (hs : t.Sound d) (k : ℕ) : Foretells d (.receive k) t fate' := by
  cases hget : t.flights[k]? with
  | none => exact ⟨fate', [], .received k, by simp only [move, hget, exec_nil]⟩
  | some x =>
    have hready := hs.ready k x hget
    cases hresponse : x.progress.response? d t.hosts with
    | none => exact ⟨fate', [], .received k, by simp only [move, hget, hresponse, exec_nil]⟩
    | some response =>
      have hmove : (move d (.receive k) t).2 = (t.conclude d k x.flight (.ok response)).2 := by
        simp only [move, hget, hresponse]
      cases hready with
      | outstanding => cases hresponse
      | served hpending hserves =>
        have hsettled := hs.hosts.decision_of_response? hresponse
        refine ⟨Function.update fate' k none, [], .received k, ?_⟩
        rw [hmove]
        exact foretell_settled hget hsettled none
      | replied hpending hserve =>
        obtain rfl := Option.some.inj hresponse
        refine ⟨fate', _, .replied hget ⟨.one, 0⟩, ?_⟩
        rw [hmove]
        refine foretell_unsettled hget rfl hpending fun s => ?_
        rw [Deployment.deliver, hserve]

theorem foretells_giveUp (k : ℕ) (exc : TransportError) :
    Foretells d (.giveUp k exc) t fate' := by
  cases hget : t.flights[k]? with
  | none => exact ⟨fate', [], .forgotten k exc, by simp only [move, hget, exec_nil]⟩
  | some x =>
    cases hpending : x.flight.pending d.bff with
    | none => exact ⟨fate', [], .forgotten k exc, by simp only [move, hget, hpending, exec_nil]⟩
    | some sent =>
      have hmove : (move d (.giveUp k exc) t).2 =
          (t.conclude d k x.flight (.error exc.toLibraryError)).2 := by
        simp only [move, hget, hpending]
      cases hsettled : x.progress.settled? d t.hosts with
      | none =>
        refine ⟨fate', _, .lost hget hsettled exc, ?_⟩
        rw [hmove]
        exact foretell_unsettled hget hsettled hpending fun s => rfl
      | some response =>
        refine ⟨Function.update fate' k (some exc), [], .forgotten k exc, ?_⟩
        rw [hmove]
        exact foretell_settled hget hsettled (some exc)

/-- A request of another client, at once. -/
theorem exec_clientMove (service : Service) (request : Request) (env : Env)
    (a : Platform.Traffic) :
    (exec d.move [clientMove service request env] a).2 =
      ⟨(d.serve ⟨service, request⟩ env a.stores).2, a.flights⟩ := by
  cases service <;> rfl

/-- A flight that does not wait for the thread that takes the lock. -/
theorem foretold_of_enters {service : Service} {thread : ℕ} {response : Response}
    (hdecision : ∀ service' u, decision d h' service' u =
      if service' = service ∧ u = thread then some response else decision d h service' u)
    {x : Inbound} (hx : x.progress ≠ .served service thread) (fate : Option TransportError) :
    foretold d h' fate x = foretold d h fate x := by
  have hsame : x.progress.settled? d h' = x.progress.settled? d h := by
    cases hprogress : x.progress with
    | outstanding | replied => rfl
    | served service' u =>
      rw [Progress.settled?, hdecision, if_neg]
      · rfl
      · rintro ⟨rfl, rfl⟩
        exact hx hprogress
  rw [foretold, foretold, hsame]

theorem foretells_run (hs : t.Sound d) (service : Service) (thread : ℕ) :
    Foretells d (.run service thread) t fate' := by
  cases advances d hs.hosts service thread with
  | quiet hserial hdecision =>
    have hquiet : ¬ Enters d t.hosts service thread := by
      rintro ⟨hnone, hsome⟩
      rw [hdecision, hnone] at hsome
      cases hsome
    refine ⟨fate', [], .quiet hquiet, ?_⟩
    show foretell d fate' ⟨_, t.flights⟩ = _
    rw [foretell_hosts fun k y _ => foretold_congr hdecision (fate' k) y, hserial]
    rfl
  | enters response hsome hnew hserve hdecision =>
    have hsettles : decision d (advance service thread t.hosts) service thread = some response := by
      rw [hdecision, if_pos ⟨rfl, rfl⟩]
    have henters : Enters d t.hosts service thread := ⟨hnew, by rw [hsettles]; rfl⟩
    by_cases howner : ∃ (k : ℕ) (x : Inbound), t.flights[k]? = some x ∧
      x.progress = .served service thread
    · -- an attempt of the BFF, with the outcome that is to come out
      obtain ⟨k, x, hget, hx⟩ := howner
      have hready := hs.ready k x hget
      cases hready with
      | outstanding | replied => cases hx
      | @served flight service' request env u hpending hserves =>
      obtain ⟨rfl, rfl⟩ := Progress.served.inj hx
      refine ⟨fate', _, .attempt henters hget hpending hserves (fate' k), ?_⟩
      have hfor : (foretell d fate' t).flights[k]? = some flight := by
        rw [getElem?_foretell hget]
        exact congrArg some (foretold_of_unsettled hnew)
      have hflights : (move d (.run service' u) t).2 =
          ⟨advance service' u t.hosts, t.flights.set k ⟨flight, .served service' u⟩⟩ := by
        rw [List.set_of_getElem? hget]
        rfl
      have hothers : ∀ j y, j ≠ k → t.flights[j]? = some y →
          foretold d (advance service' u t.hosts) (fate' j) y =
            foretold d t.hosts (fate' j) y := by
        intro j y hjk hj
        refine foretold_of_enters hdecision (fun hy => hjk ?_) (fate' j)
        exact hs.owner j k y _ service' u hj hget hy rfl
      rw [exec_attempt hfor hpending, deliver_delivery, foretell_stores,
        hserve request env hserves, hflights, foretell_set hothers,
        foretold_of_settled (x := ⟨flight, .served service' u⟩) hsettles]
    · -- a request of another client, or one that the BFF has given up
      obtain ⟨request, env, hserves⟩ := hsome
      have hfree : ∀ (k : ℕ) x, t.flights[k]? = some x → x.progress ≠ .served service thread :=
        fun k x hget hx => howner ⟨k, x, hget, hx⟩
      refine ⟨fate', _, .acts henters hfree hserves, ?_⟩
      rw [exec_clientMove, foretell_stores, hserve request env hserves]
      show foretell d fate' ⟨_, t.flights⟩ = _
      rw [foretell_hosts fun k y hget =>
        foretold_of_enters hdecision (hfree k y hget) (fate' k)]

/-- **Step lemma**: every move of the threads. -/
theorem foretells (hs : t.Sound d) (m : Move) (fate' : ℕ → Option TransportError) :
    Foretells d m t fate' := by
  cases m with
  | inbound user request uuids => exact foretells_inbound user request uuids
  | reach k env => exact foretells_reach hs k env
  | client service request env => exact foretells_client hs service request env
  | run service thread => exact foretells_run hs service thread
  | receive k => exact foretells_receive hs k
  | giveUp k exc => exact foretells_giveUp k exc

/-! ### Whole runs -/

/-- An answered flight is the same flight when handlers act at once. -/
theorem flight_foretell (hs : t.Sound d) {fate : ℕ → Option TransportError} {k : ℕ} {x : Inbound}
    (hget : t.flights[k]? = some x) (hx : (x.flight.answer d.bff).isSome) :
    (foretell d fate t).flights[k]? = some x.flight := by
  have hready := hs.ready k x hget
  rw [getElem?_foretell hget]
  cases hready with
  | outstanding => rfl
  | served hpending | replied hpending =>
    rw [Flight.answer_of_pending d.bff hpending] at hx
    cases hx

/-- What a move does to the services: nothing, a request reaches one, or a thread makes a step. -/
theorem hosts_move (d : Deployment J V) (m : Move) (t : Traffic) :
    (move d m t).2.hosts = t.hosts ∨
      (∃ sent env, (move d m t).2.hosts = (accept d sent env t.hosts).2) ∨
      ∃ service thread, m = .run service thread ∧
        (move d m t).2.hosts = advance service thread t.hosts := by
  cases m with
  | inbound user request uuids => exact .inl rfl
  | client service request env => exact .inr (.inl ⟨⟨service, request⟩, env, rfl⟩)
  | run service thread => exact .inr (.inr ⟨service, thread, rfl, rfl⟩)
  | reach k env =>
    rw [move]
    split
    · split
      · next sent hpending => exact .inr (.inl ⟨sent, env, rfl⟩)
      · exact .inl rfl
    · exact .inl rfl
  | receive k | giveUp k exc =>
    rw [move]
    split
    · split <;> exact .inl rfl
    · exact .inl rfl

theorem hostMove_move (m : Move) (t : Traffic) : HostMove t.hosts (move d m t).2.hosts := by
  rcases hosts_move d m t with hsame | ⟨sent, env, haccept⟩ | ⟨service, thread, -, hadvance⟩
  · rw [hsame]
    exact .refl
  · rw [haccept]
    exact hostMove_accept d sent env
  · rw [hadvance]
    exact hostMove_advance service thread

/-- Only a step of a thread settles its response, on the stores as it finds them. -/
theorem decision_move (hs : t.Sound d) {m : Move} {service : Service} {thread : ℕ}
    {response : Response}
    (hdecision : decision d (move d m t).2.hosts service thread = some response) :
    decision d t.hosts service thread = some response ∨
      m = .run service thread ∧ ∃ request env, Serves t.hosts request env service thread ∧
        (d.serve ⟨service, request⟩ env t.hosts.serial).1 = response := by
  rcases hosts_move d m t with hsame | ⟨sent, env, haccept⟩ | ⟨service', thread', rfl, hadvance⟩
  · rw [hsame] at hdecision
    exact .inl hdecision
  · rw [haccept] at hdecision
    have haccepts := accepts (d := d) hs.hosts sent env
    generalize accept d sent env t.hosts = r at haccepts hdecision
    cases haccepts with
    | served hserial hsame hserves hnew hfresh =>
      rw [hsame] at hdecision
      exact .inl hdecision
    | replied hserve => exact .inl hdecision
  · rw [hadvance] at hdecision
    cases advances d hs.hosts service' thread' with
    | quiet hserial hsame =>
      rw [hsame] at hdecision
      exact .inl hdecision
    | enters response' hsome hnew hserve hsame =>
      rw [hsame] at hdecision
      split at hdecision
      · next heq =>
        obtain ⟨rfl, rfl⟩ := heq
        obtain rfl := Option.some.inj hdecision
        obtain ⟨request, env, hserves⟩ := hsome
        exact .inr ⟨rfl, request, env, hserves, by rw [hserve request env hserves]⟩
      · exact .inl hdecision

/-- **Run lemma**: what holds after any moves. -/
theorem sound_exec (moves : List Move) : (exec (move d) moves .empty).2.Sound d :=
  exec_invariant (move d) (fun _ => True) (fun _ => Traffic.Sound d) .empty
    (fun _ _ _ => trivial) traffic_sound_empty (fun _ m _ _ hs => hs.move m) moves trivial

/-- **Run lemma**: a settled response was settled by a step of its thread. -/
theorem exists_settled {moves : List Move} {service : Service} {thread : ℕ} {response : Response}
    (hdecision : decision d (exec (move d) moves .empty).2.hosts service thread = some response) :
    ∃ m < moves.length, moves[m]? = some (.run service thread) ∧ ∃ request env,
      Serves (exec (move d) moves .empty).2.hosts request env service thread ∧
        (d.serve ⟨service, request⟩ env
          (exec (move d) (moves.take m) .empty).2.hosts.serial).1 = response := by
  induction moves using List.reverseRecOn with
  | nil => cases service <;> cases hdecision
  | append_singleton moves m ih =>
    have hkeep := hostMove_move (d := d) m (exec (move d) moves .empty).2
    rw [exec_concat] at hdecision ⊢
    rcases decision_move (sound_exec moves) hdecision with
      hbefore | ⟨rfl, request, env, hserves, hserve⟩
    · obtain ⟨i, hi, hget, request, env, hserves, hserve⟩ := ih hbefore
      refine ⟨i, by rw [List.length_append]; exact Nat.lt_succ_of_lt hi, ?_, request, env,
        hkeep.serves hserves, ?_⟩
      · rw [List.getElem?_append_left hi, hget]
      · rwa [List.take_append_of_le_length hi.le]
    · refine ⟨moves.length, by simp, List.getElem?_concat_length, request, env,
        hkeep.serves hserves, ?_⟩
      rwa [List.take_left]

/-- **Run lemma**: beside every run there is one of the deployment whose handlers act at once. -/
theorem exists_atomic (d : Deployment J V) (moves : List Move) :
    ∃ atomic : List (List Platform.Move),
      Beside (move d) (Emits d) .empty moves atomic ∧ ∀ n, ∃ fate,
      (exec d.move (atomic.take n).flatten .empty).2 =
        foretell d fate (exec (move d) (moves.take n) .empty).2 := by
  have hempty : ∀ fate, Platform.Traffic.empty = foretell d fate .empty := fun fate => rfl
  have hstep : ∀ m t fate', Traffic.Sound d t → ∃ fate ms, Emits d t m ms ∧
      ∀ a, a = foretell d fate t →
        (exec d.move ms a).2 = foretell d fate' (move d m t).2 := by
    intro m t fate' hs
    obtain ⟨fate, ms, hemits, hforetell⟩ := foretells hs m fate'
    refine ⟨fate, ms, hemits, ?_⟩
    rintro a rfl
    exact hforetell.symm
  obtain ⟨atomic, hbeside, -, hcuts⟩ := exec_foresight (move d) d.move (Emits d) (Traffic.Sound d)
    (fun fate t a => a = foretell d fate t) traffic_sound_empty (fun m t hs => hs.move m) hempty
    hstep moves fun _ => none
  exact ⟨atomic, hbeside, hcuts⟩

/-- **Handlers on threads act at once.**  Beside every run there is a run of the deployment whose
handlers act at once, move by move, such that at every cut as many inbound requests have arrived
there, one that has been answered is the same there, with its attempts and its answer, every thread
that has returned gives the response that its request gets of the stores there at a moment at which
the thread took a step, and behind a free lock are the stores there. -/
theorem threads_refine (d : Deployment J V) (moves : List Move) :
    ∃ atomic : List (List Platform.Move), Beside (move d) (Emits d) .empty moves atomic ∧ ∀ n,
      let t := (exec (move d) (moves.take n) .empty).2
      let a := fun m => (exec d.move (atomic.take m).flatten .empty).2
      t.flights.length = (a n).flights.length ∧
      (∀ (k : ℕ) x, t.flights[k]? = some x → (x.flight.answer d.bff).isSome →
        (a n).flights[k]? = some x.flight) ∧
      (∀ service thread response, response? d t.hosts service thread = some response →
        ∃ m < n, moves[m]? = some (.run service thread) ∧ ∃ request env,
          Serves t.hosts request env service thread ∧
            (d.serve ⟨service, request⟩ env (a m).stores).1 = response) ∧
      (t.hosts.uc.locked = false → t.hosts.uc.shared = (a n).stores.uc) ∧
      (t.hosts.flow.locked = false → t.hosts.flow.shared = (a n).stores.flow) := by
  obtain ⟨atomic, hbeside, hcuts⟩ := exists_atomic d moves
  have hstores : ∀ m, (exec d.move (atomic.take m).flatten .empty).2.stores =
      (exec (move d) (moves.take m) .empty).2.hosts.serial := by
    intro m
    obtain ⟨fate, hcut⟩ := hcuts m
    rw [hcut, foretell_stores]
  refine ⟨atomic, hbeside, fun n => ?_⟩
  obtain ⟨fate, hcut⟩ := hcuts n
  have hs := sound_exec (d := d) (moves.take n)
  refine ⟨?_, fun k x hget hx => ?_, fun service thread response hresponse => ?_, ?_, ?_⟩
  · simp only [hcut, length_foretell]
  · simp only [hcut]
    exact flight_foretell hs hget hx
  · obtain ⟨m, hm, hget, request, env, hserves, hserve⟩ :=
      exists_settled (hs.hosts.decision_of_response? hresponse)
    rw [List.length_take] at hm
    have hmn : m < n := by omega
    refine ⟨m, hmn, ?_, request, env, hserves, ?_⟩
    · rwa [List.getElem?_take_of_lt hmn] at hget
    · rw [List.take_take, min_eq_left hmn.le] at hserve
      simp only [hstores]
      exact hserve
  · intro hfree
    simp only [hstores]
    exact hs.hosts.uc.free hfree
  · intro hfree
    simp only [hstores]
    exact hs.hosts.flow.free hfree

end Novon.Platform.Threads
