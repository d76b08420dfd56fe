import Novon.Data.Equiv.Decided
import Novon.Flow.Equiv.Threads
import Novon.Platform.Threads
import Novon.Uc.Equiv.Threads

/-!
# The services on their thread pools

A request is answered at once, whatever the stores, or it is given a thread of its own (`accepts`).
What the thread answers and what it does to the stores is settled with the step that takes the lock:
it is what the request asks of the stores that the sections entered before lead to (`advances`).
-/

namespace Novon.Platform.Threads

open Bff

variable {J V : Type} {d : Deployment J V} {h h' : Hosts}

/-! ### The services -/

/-- The stores that the sections entered so far lead to. -/
def Hosts.serial (h : Hosts) : Stores :=
  ⟨Pool.serialState Uc.Threads.script .empty h.uc,
    Pool.serialState Flow.Threads.script .empty h.flow⟩

/-- The response of a thread, once it has taken the lock. -/
def decision (d : Deployment J V) (h : Hosts) : Service → ℕ → Option Response
  | .uc, t => (Pool.decided Uc.Threads.script .empty h.uc t).map (Lossy.render d.ucBody)
  | .flow, t => (Pool.decided Flow.Threads.script .empty h.flow t).map (Lossy.render d.flowBody)

/-- The thread serves this request. -/
def Serves (h : Hosts) (request : Request) (env : Env) : Service → ℕ → Prop
  | .uc, t => ∃ call th, Uc.route request = .call call ∧ h.uc.threads[t]? = some (⟨call, env⟩, th)
  | .flow, t =>
    ∃ call th, Flow.route request = .call call ∧ h.flow.threads[t]? = some (⟨call, env⟩, th)

/-- What holds whatever the schedulers do: each service keeps to its lock, and every thread serves
some request. -/
structure Hosts.Sound (h : Hosts) : Prop where
  uc : Pool.LockInv Uc.Threads.script .empty h.uc
  flow : Pool.LockInv Flow.Threads.script .empty h.flow
  ucRequest : ∀ (t : ℕ) (i : Uc.Step) th, h.uc.threads[t]? = some (i, th) →
    ∃ request, Uc.route request = .call i.call
  flowRequest : ∀ (t : ℕ) (i : Flow.Threads.Request) th, h.flow.threads[t]? = some (i, th) →
    ∃ request, Flow.route request = .call i.call

theorem sound_empty : Hosts.empty.Sound where
  uc := Pool.lockInv_init
  flow := Pool.lockInv_init
  ucRequest := by simp [Hosts.empty, Pool.init]
  flowRequest := by simp [Hosts.empty, Pool.init]

/-- One of the services makes a move; a thread is started for a request only. -/
inductive HostMove (h : Hosts) : Hosts → Prop where
  | refl : HostMove h h
  | uc (m : Novon.Move Uc.Step)
      (hm : ∀ i, m = .start i → ∃ request, Uc.route request = .call i.call) :
      HostMove h { h with uc := (Pool.step (Pool.underLock Uc.Threads.script) m h.uc).2 }
  | flow (m : Novon.Move Flow.Threads.Request)
      (hm : ∀ i, m = .start i → ∃ request, Flow.route request = .call i.call) :
      HostMove h { h with flow := (Pool.step (Pool.underLock Flow.Threads.script) m h.flow).2 }

theorem hostMove_advance (service : Service) (t : ℕ) : HostMove h (advance service t h) := by
  cases service with
  | uc => exact .uc (.run t) nofun
  | flow => exact .flow (.run t) nofun

theorem hostMove_accept (d : Deployment J V) (sent : Sent) (env : Env) :
    HostMove h (accept d sent env h).2 := by
  obtain ⟨service, request⟩ := sent
  cases service with
  | uc =>
    cases hroute : Uc.route request with
    | call call =>
      simp only [accept, hroute]
      refine .uc (.start ⟨call, env⟩) fun i hi => ?_
      cases hi
      exact ⟨request, hroute⟩
    | unrouted | static | invalid =>
      simp only [accept, hroute]
      exact .refl
  | flow =>
    cases hroute : Flow.route request with
    | call call =>
      simp only [accept, hroute]
      refine .flow (.start ⟨call, env⟩) fun i hi => ?_
      cases hi
      exact ⟨request, hroute⟩
    | unrouted | static | invalid =>
      simp only [accept, hroute]
      exact .refl

theorem HostMove.sound (hmove : HostMove h h') (hs : h.Sound) : h'.Sound := by
  cases hmove with
  | refl => exact hs
  | uc m hm =>
    refine ⟨hs.uc.step m, hs.flow, fun u i th hu => ?_, hs.flowRequest⟩
    rcases Pool.exists_of_step _ hu with hi | ⟨u', th', hu'⟩
    · exact hm i hi
    · exact hs.ucRequest u' i th' hu'
  | flow m hm =>
    refine ⟨hs.uc, hs.flow.step m, hs.ucRequest, fun u i th hu => ?_⟩
    rcases Pool.exists_of_step _ hu with hi | ⟨u', th', hu'⟩
    · exact hm i hi
    · exact hs.flowRequest u' i th' hu'

/-- A thread keeps serving the request that it was started for. -/
theorem HostMove.serves (hmove : HostMove h h') {request : Request} {env : Env}
    {service : Service} {t : ℕ} (hserves : Serves h request env service t) :
    Serves h' request env service t := by
  cases hmove with
  | refl => exact hserves
  | uc m hm =>
    cases service with
    | flow => exact hserves
    | uc =>
      obtain ⟨call, th, hroute, ht⟩ := hserves
      obtain ⟨th', ht', -⟩ := Pool.getElem?_threads_step _ m ht
      exact ⟨call, th', hroute, ht'⟩
  | flow m hm =>
    cases service with
    | uc => exact hserves
    | flow =>
      obtain ⟨call, th, hroute, ht⟩ := hserves
      obtain ⟨th', ht', -⟩ := Pool.getElem?_threads_step _ m ht
      exact ⟨call, th', hroute, ht'⟩

theorem serve_uc {request : Request} {call : UcCall} (hroute : Uc.route request = .call call)
    (env : Env) (s : Stores) :
    d.serve ⟨.uc, request⟩ env s =
      (Lossy.render d.ucBody ((Uc.Threads.script ⟨call, env⟩).eval s.uc).1,
        { s with uc := ((Uc.Threads.script ⟨call, env⟩).eval s.uc).2 }) := by
  simp only [Deployment.serve, Uc.serve, hroute, Routed.serve, Uc.Threads.eval_script, Uc.step]

theorem serve_flow {request : Request} {call : FlowCall}
    (hroute : Flow.route request = .call call) (env : Env) (s : Stores) :
    d.serve ⟨.flow, request⟩ env s =
      (Lossy.render d.flowBody ((Flow.Threads.script ⟨call, env⟩).eval s.flow).1,
        { s with flow := ((Flow.Threads.script ⟨call, env⟩).eval s.flow).2 }) := by
  simp only [Deployment.serve, Flow.serve, hroute, Routed.serve, Flow.Threads.eval_script,
    Flow.Threads.serve]

/-! ### One step of a thread -/

/-- A step settles nothing, or it settles the response of its thread and what its request does to
the stores. -/
inductive Advances (d : Deployment J V) (h : Hosts) (service : Service) (t : ℕ) (h' : Hosts) :
    Prop where
  | quiet (hserial : h'.serial = h.serial) (hdecision : decision d h' = decision d h)
  | enters (response : Response) (hserves : ∃ request env, Serves h request env service t)
      (hnew : decision d h service t = none)
      (hserve : ∀ request env, Serves h request env service t →
        d.serve ⟨service, request⟩ env h.serial = (response, h'.serial))
      (hdecision : ∀ service' u, decision d h' service' u =
        if service' = service ∧ u = t then some response else decision d h service' u)

/-- A step of one service, in the terms of its own pool: `decided` and `decided'` are what its
threads have settled before and after the step. -/
theorem Advances.of_settles {ρ : Type} {service : Service} {t : ℕ} (render : ρ → Response)
    {decided decided' : ℕ → Option ρ}
    (hbefore : ∀ u, decision d h service u = (decided u).map render)
    (hafter : ∀ u, decision d h' service u = (decided' u).map render)
    (hother : ∀ service' ≠ service, decision d h' service' = decision d h service')
    (hsettles : h'.serial = h.serial ∧ decided' = decided ∨
      ∃ reply request env, Serves h request env service t ∧ decided t = none ∧
        (∀ request env, Serves h request env service t →
          d.serve ⟨service, request⟩ env h.serial = (render reply, h'.serial)) ∧
        ∀ u, decided' u = if u = t then some reply else decided u) :
    Advances d h service t h' := by
  rcases hsettles with ⟨hserial, rfl⟩ | ⟨reply, request, env, hserves, hnew, hserve, hdecided⟩
  · refine .quiet hserial ?_
    ext1 service'
    by_cases hsame : service' = service
    · subst hsame
      ext1 u
      rw [hafter, hbefore]
    · exact hother service' hsame
  · refine .enters (render reply) ⟨request, env, hserves⟩ (by rw [hbefore, hnew]; rfl) hserve ?_
    intro service' u
    by_cases hsame : service' = service
    · subst hsame
      rw [hafter, hdecided, hbefore]
      by_cases hu : u = t <;> simp [hu]
    · rw [hother service' hsame, if_neg fun hboth => hsame hboth.1]

/-- **The moment at which a handler acts**: the step with which its thread takes the lock. -/
theorem advances (d : Deployment J V) (hs : h.Sound) (service : Service) (t : ℕ) :
    Advances d h service t (advance service t h) := by
  cases service with
  | uc =>
    refine .of_settles (Lossy.render d.ucBody) (fun _ => rfl) (fun _ => rfl) ?_ ?_
    · intro service' hne
      cases service' with
      | uc => exact absurd rfl hne
      | flow => rfl
    · rcases hs.uc.settles t with ⟨hserial, hdecided⟩ | ⟨i, th, hth, hnew, hserial, hdecided⟩
      · exact .inl ⟨congrArg (Stores.mk · _) hserial, hdecided⟩
      · obtain ⟨request, hroute⟩ := hs.ucRequest t i th hth
        refine .inr ⟨_, request, i.env, ⟨i.call, th, hroute, hth⟩, hnew, ?_, hdecided⟩
        rintro request' env' ⟨call, th', hroute', hth'⟩
        obtain ⟨rfl, rfl⟩ := Prod.mk.inj (Option.some.inj (hth.symm.trans hth'))
        rw [serve_uc hroute', Hosts.serial, Hosts.serial, advance, hserial]
  | flow =>
    refine .of_settles (Lossy.render d.flowBody) (fun _ => rfl) (fun _ => rfl) ?_ ?_
    · intro service' hne
      cases service' with
      | uc => rfl
      | flow => exact absurd rfl hne
    · rcases hs.flow.settles t with ⟨hserial, hdecided⟩ | ⟨i, th, hth, hnew, hserial, hdecided⟩
      · exact .inl ⟨congrArg (Stores.mk _) hserial, hdecided⟩
      · obtain ⟨request, hroute⟩ := hs.flowRequest t i th hth
        refine .inr ⟨_, request, i.env, ⟨i.call, th, hroute, hth⟩, hnew, ?_, hdecided⟩
        rintro request' env' ⟨call, th', hroute', hth'⟩
        obtain ⟨rfl, rfl⟩ := Prod.mk.inj (Option.some.inj (hth.symm.trans hth'))
        rw [serve_flow hroute', Hosts.serial, Hosts.serial, advance, hserial]

/-- What a thread returns was settled before. -/
theorem Hosts.Sound.decision_of_response? (hs : h.Sound) {service : Service} {t : ℕ}
    {response : Response} (hresponse : response? d h service t = some response) :
    decision d h service t = some response := by
  cases service with
  | uc =>
    obtain ⟨reply, hreply, rfl⟩ := Option.map_eq_some_iff.mp hresponse
    rw [decision, hs.uc.decided_of_reply? hreply]
    rfl
  | flow =>
    obtain ⟨reply, hreply, rfl⟩ := Option.map_eq_some_iff.mp hresponse
    rw [decision, hs.flow.decided_of_reply? hreply]
    rfl

/-! ### The arrival of a request -/

/-- A request is answered at once, whatever the stores, or it is given a thread of its own, which
has settled nothing. -/
inductive Accepts (d : Deployment J V) (h : Hosts) (sent : Sent) (env : Env) :
    Progress × Hosts → Prop where
  | served {t : ℕ} {h' : Hosts} (hserial : h'.serial = h.serial)
      (hdecision : decision d h' = decision d h)
      (hserves : Serves h' sent.request env sent.service t)
      (hnew : decision d h' sent.service t = none)
      (hfresh : ∀ request env, ¬ Serves h request env sent.service t) :
      Accepts d h sent env (.served sent.service t, h')
  | replied {response : Response} (hserve : ∀ env s, d.serve sent env s = (response, s)) :
      Accepts d h sent env (.replied response, h)

theorem accepts (hs : h.Sound) (sent : Sent) (env : Env) :
    Accepts d h sent env (accept d sent env h) := by
  obtain ⟨service, request⟩ := sent
  cases service with
  | uc =>
    cases hroute : Uc.route request with
    | call call =>
      simp only [accept, hroute]
      refine .served rfl rfl ⟨call, _, hroute, List.getElem?_concat_length⟩ ?_ ?_
      · exact congrArg (Option.map (Lossy.render d.ucBody)) hs.uc.decided_length
      · rintro request' env' ⟨call', th, -, hth⟩
        simp at hth
    | unrouted | static | invalid =>
      simp only [accept, hroute]
      refine .replied fun env s => ?_
      simp only [Deployment.serve, Uc.serve, hroute, Routed.serve]
  | flow =>
    cases hroute : Flow.route request with
    | call call =>
      simp only [accept, hroute]
      refine .served rfl rfl ⟨call, _, hroute, List.getElem?_concat_length⟩ ?_ ?_
      · exact congrArg (Option.map (Lossy.render d.flowBody)) hs.flow.decided_length
      · rintro request' env' ⟨call', th, -, hth⟩
        simp at hth
    | unrouted | static | invalid =>
      simp only [accept, hroute]
      refine .replied fun env s => ?_
      simp only [Deployment.serve, Flow.serve, hroute, Routed.serve]

end Novon.Platform.Threads
