import Mathlib.Data.List.Basic
import Mathlib.Data.List.Pairwise

/-!
# Calls over a network that loses and delays

Clients call a server that keeps records under keys.  A call sends a request, and may send it again
when it hears nothing in time or gets an answer that it retries, up to a limit.  The network may
lose any request or response and may hold one back for as long as it likes; it makes no copies.
-/

namespace Novon.Rpc

/-- What serving one request does to the records. -/
inductive KeyEffect (κ : Type*) where
  | idle
  | insert (k : κ)
  | alter (k : κ)
  | remove (k : κ)
  deriving DecidableEq

/-- The states before and after an effect. -/
def KeyEffect.Relates {σ κ β : Type*} (lookup : σ → κ → Option β) (s s' : σ) : KeyEffect κ → Prop
  | idle => s' = s
  | insert k => lookup s' k ≠ none ∧ ∀ k' ≠ k, lookup s' k' = lookup s k'
  | alter k => lookup s k ≠ none ∧ lookup s' k ≠ none ∧ ∀ k' ≠ k, lookup s' k' = lookup s k'
  | remove k => lookup s k ≠ none ∧ lookup s' k = none ∧ ∀ k' ≠ k, lookup s' k' = lookup s k'

/-- A server that keeps records under keys.  Serving a request reads an environment `ε`, from which
it may draw the key of a new record. -/
structure KeyedServer (Req ε ρ σ κ β : Type*) where
  serve : Req → ε → σ → ρ × σ
  lookup : σ → κ → Option β
  draws : Req → ε → Option κ
  effect : Req → ε → σ → KeyEffect κ
  effect_relates : ∀ r e s, (effect r e s).Relates lookup s (serve r e s).2
  draws_of_insert : ∀ r e s k, effect r e s = .insert k → draws r e = some k

/-- An effect on keys that are embedded in other keys. -/
def KeyEffect.map {κ κ' : Type*} (f : κ → κ') : KeyEffect κ → KeyEffect κ'
  | idle => idle
  | insert k => insert (f k)
  | alter k => alter (f k)
  | remove k => remove (f k)

theorem KeyEffect.exists_of_map_eq_insert {κ κ' : Type*} {f : κ → κ'} {effect : KeyEffect κ}
    {k' : κ'} (h : effect.map f = .insert k') : ∃ k, effect = .insert k ∧ f k = k' := by
  cases effect with
  | insert k => exact ⟨k, rfl, KeyEffect.insert.inj h⟩
  | idle | alter _ | remove _ => exact absurd h (by simp [KeyEffect.map])

/-- An effect that is allowed: whether anything may be inserted, and which keys may be altered or
removed. -/
def KeyEffect.Within {κ : Type*} (inserts : Prop) (alters removes : κ → Prop) : KeyEffect κ → Prop
  | idle => True
  | insert _ => inserts
  | alter k => alters k
  | remove k => removes k

/-- An effect of some runs, and none of the others. -/
theorem KeyEffect.Within.ite {κ : Type*} {inserts : Prop} {alters removes : κ → Prop}
    {effect : KeyEffect κ} (h : effect.Within inserts alters removes) (c : Prop) [Decidable c] :
    (if c then effect else idle).Within inserts alters removes := by
  split
  · exact h
  · exact True.intro

/-- Where only one key may be removed, nothing else happens. -/
theorem KeyEffect.Within.of_removal {κ : Type*} {inserts : Prop} {alters removes : κ → Prop} {k : κ}
    {effect : KeyEffect κ} (h : effect.Within inserts alters removes) (hinserts : ¬ inserts)
    (halters : ∀ k', ¬ alters k') (hremoves : ∀ k', removes k' → k' = k) :
    effect = .idle ∨ effect = .remove k := by
  cases effect with
  | idle => exact .inl rfl
  | insert _ => exact absurd h hinserts
  | alter k' => exact absurd h (halters k')
  | remove k' => exact .inr (congrArg remove (hremoves k' h))

/-- Two states with the records of two others among theirs have the effect that those have. -/
theorem KeyEffect.Relates.map {σ τ κ κ' β β' : Type*} {lookup : σ → κ → Option β}
    {lookup' : τ → κ' → Option β'} {f : κ → κ'} {g : β → β'} {s s' : σ} {t t' : τ}
    {effect : KeyEffect κ} (h : effect.Relates lookup s s') (hidle : s' = s → t' = t)
    (hbefore : ∀ k, lookup' t (f k) = (lookup s k).map g)
    (hafter : ∀ k, lookup' t' (f k) = (lookup s' k).map g)
    (hother : ∀ k', (∀ k, f k ≠ k') → lookup' t' k' = lookup' t k') :
    (effect.map f).Relates lookup' t t' := by
  have hframe : ∀ k, (∀ k' ≠ k, lookup s' k' = lookup s k') →
      ∀ k' ≠ f k, lookup' t' k' = lookup' t k' := by
    intro k hk k' hk'
    by_cases hf : ∃ k₀, f k₀ = k'
    · obtain ⟨k₀, rfl⟩ := hf
      rw [hafter, hbefore, hk k₀ fun h => hk' (h ▸ rfl)]
    · exact hother k' fun k₀ h => hf ⟨k₀, h⟩
  cases effect with
  | idle => exact hidle h
  | insert k => exact ⟨by simpa [hafter] using h.1, hframe k h.2⟩
  | alter k =>
    exact ⟨by simpa [hbefore] using h.1, by simpa [hafter] using h.2.1, hframe k h.2.2⟩
  | remove k =>
    exact ⟨by simpa [hbefore] using h.1, by simpa [hafter] using h.2.1, hframe k h.2.2⟩

variable {Req ε ρ σ κ β : Type*}

/-- Two servers side by side. -/
def KeyedServer.prod {Req' ρ' σ' κ' β' : Type*} (server : KeyedServer Req ε ρ σ κ β)
    (server' : KeyedServer Req' ε ρ' σ' κ' β') :
    KeyedServer (Req ⊕ Req') ε (ρ ⊕ ρ') (σ × σ') (κ ⊕ κ') (β ⊕ β') where
  serve
    | .inl r, e, s => (.inl (server.serve r e s.1).1, (server.serve r e s.1).2, s.2)
    | .inr r, e, s => (.inr (server'.serve r e s.2).1, s.1, (server'.serve r e s.2).2)
  lookup
    | s, .inl k => (server.lookup s.1 k).map .inl
    | s, .inr k => (server'.lookup s.2 k).map .inr
  draws
    | .inl r, e => (server.draws r e).map .inl
    | .inr r, e => (server'.draws r e).map .inr
  effect
    | .inl r, e, s => (server.effect r e s.1).map .inl
    | .inr r, e, s => (server'.effect r e s.2).map .inr
  effect_relates
    | .inl r, e, s => (server.effect_relates r e s.1).map (fun h => Prod.ext h rfl)
        (fun _ => rfl) (fun _ => rfl) fun
          | .inl k, hk => absurd rfl (hk k)
          | .inr _, _ => rfl
    | .inr r, e, s => (server'.effect_relates r e s.2).map (fun h => Prod.ext rfl h)
        (fun _ => rfl) (fun _ => rfl) fun
          | .inr k, hk => absurd rfl (hk k)
          | .inl _, _ => rfl
  draws_of_insert
    | .inl r, e, s, _, h => by
      obtain ⟨k, heff, rfl⟩ := KeyEffect.exists_of_map_eq_insert h
      exact congrArg (Option.map Sum.inl) (server.draws_of_insert r e s.1 k heff)
    | .inr r, e, s, _, h => by
      obtain ⟨k, heff, rfl⟩ := KeyEffect.exists_of_map_eq_insert h
      exact congrArg (Option.map Sum.inr) (server'.draws_of_insert r e s.2 k heff)

section Prod

variable {Req' ρ' σ' κ' β' : Type*} (server : KeyedServer Req ε ρ σ κ β)
  (server' : KeyedServer Req' ε ρ' σ' κ' β') (env : ε) (s : σ × σ')

theorem KeyedServer.effect_prod_inl (request : Req) :
    (server.prod server').effect (.inl request) env s =
      (server.effect request env s.1).map .inl := rfl

theorem KeyedServer.effect_prod_inr (request : Req') :
    (server.prod server').effect (.inr request) env s =
      (server'.effect request env s.2).map .inr := rfl

end Prod

/-- A call: its request, how many attempts it may make, how many it has made, and whether it waits
for the answer to the last one. -/
structure Call (Req : Type*) where
  request : Req
  limit : ℕ
  attempt : ℕ
  waiting : Bool

/-- One served request: the call it was sent for, and what the server found. -/
structure Entry (Req ε σ : Type*) where
  call : ℕ
  request : Req
  env : ε
  before : σ

/-- The state of the server, of the clients and of the network.  A message carries the number of its
call and that of its attempt. -/
structure Net (Req ε ρ σ κ : Type*) where
  server : σ
  calls : List (Call Req)
  requests : List (ℕ × ℕ)
  responses : List (ℕ × ℕ × ρ)
  drawn : List κ
  log : List (Entry Req ε σ)

namespace Net

/-- A client goes on after attempt `call.attempt` of call `c`: it sends the next one if it retries
and may, and is done otherwise. -/
def afterAttempt (net : Net Req ε ρ σ κ) (c : ℕ) (call : Call Req) (retry : Bool) :
    Net Req ε ρ σ κ :=
  if retry && call.attempt < call.limit then
    { net with
      calls := net.calls.set c { call with attempt := call.attempt + 1 }
      requests := (c, call.attempt + 1) :: net.requests }
  else
    { net with calls := net.calls.set c { call with waiting := false } }

def init (s : σ) : Net Req ε ρ σ κ := ⟨s, [], [], [], [], []⟩

/-- One step.  `issues` says which requests clients call with, and with which limits; `retry` which
answers they retry. -/
inductive Step (server : KeyedServer Req ε ρ σ κ β) (issues : Req → ℕ → Prop) (retry : ρ → Bool)
    (net : Net Req ε ρ σ κ) : Net Req ε ρ σ κ → Prop where
  /-- A client starts a call and sends its request. -/
  | start {request : Req} {limit : ℕ} (hissue : issues request limit) :
      Step server issues retry net { net with
        calls := net.calls ++ [⟨request, limit, 1, true⟩]
        requests := (net.calls.length, 1) :: net.requests }
  | loseRequest {l₁ l₂ : List (ℕ × ℕ)} {m : ℕ × ℕ} (h : net.requests = l₁ ++ m :: l₂) :
      Step server issues retry net { net with requests := l₁ ++ l₂ }
  | loseResponse {l₁ l₂ : List (ℕ × ℕ × ρ)} {m : ℕ × ℕ × ρ} (h : net.responses = l₁ ++ m :: l₂) :
      Step server issues retry net { net with responses := l₁ ++ l₂ }
  /-- A request arrives, at whatever time, and is served.  A key that is drawn is new. -/
  | deliver {l₁ l₂ : List (ℕ × ℕ)} {c k : ℕ} {call : Call Req} {env : ε}
      (h : net.requests = l₁ ++ (c, k) :: l₂) (hcall : net.calls[c]? = some call)
      (hfresh : ∀ key, server.draws call.request env = some key → key ∉ net.drawn) :
      Step server issues retry net { net with
        server := (server.serve call.request env net.server).2
        requests := l₁ ++ l₂
        responses := (c, k, (server.serve call.request env net.server).1) :: net.responses
        drawn := (server.draws call.request env).toList ++ net.drawn
        log := net.log ++ [⟨c, call.request, env, net.server⟩] }
  /-- The answer to the last attempt arrives while the client waits for it. -/
  | receive {l₁ l₂ : List (ℕ × ℕ × ρ)} {c : ℕ} {call : Call Req} {reply : ρ}
      (h : net.responses = l₁ ++ (c, call.attempt, reply) :: l₂)
      (hcall : net.calls[c]? = some call) (hwaiting : call.waiting = true) :
      Step server issues retry net
        ({ net with responses := l₁ ++ l₂ }.afterAttempt c call (retry reply))
  /-- The answer to an attempt that the client has given up arrives. -/
  | discard {l₁ l₂ : List (ℕ × ℕ × ρ)} {c k : ℕ} {call : Call Req} {reply : ρ}
      (h : net.responses = l₁ ++ (c, k, reply) :: l₂) (hcall : net.calls[c]? = some call)
      (hlate : call.waiting = false ∨ k ≠ call.attempt) :
      Step server issues retry net { net with responses := l₁ ++ l₂ }
  /-- A client gives up its last attempt. -/
  | timeout {c : ℕ} {call : Call Req} (hcall : net.calls[c]? = some call)
      (hwaiting : call.waiting = true) : Step server issues retry net (net.afterAttempt c call true)

/-- The states of all runs from a server in state `s`. -/
inductive Reachable (server : KeyedServer Req ε ρ σ κ β) (issues : Req → ℕ → Prop)
    (retry : ρ → Bool) (s : σ) : Net Req ε ρ σ κ → Prop where
  | init : Reachable server issues retry s (init s)
  | step {net net' : Net Req ε ρ σ κ} (h : Reachable server issues retry s net)
      (hstep : Step server issues retry net net') : Reachable server issues retry s net'

end Net

/-! ### The log -/

variable (server : KeyedServer Req ε ρ σ κ β)

/-- What a served request did. -/
def Entry.effect (e : Entry Req ε σ) : KeyEffect κ := server.effect e.request e.env e.before

/-- The state a served request left. -/
def Entry.after (e : Entry Req ε σ) : σ := (server.serve e.request e.env e.before).2

/-- A key whose record is removed is neither removed again nor inserted again. -/
def Final (log : List (Entry Req ε σ)) : Prop :=
  log.Pairwise fun e e' => ∀ k, e.effect server = .remove k →
    e'.effect server ≠ .remove k ∧ e'.effect server ≠ .insert k

/-- What at-most-once means for a network whose server started in state `s`. -/
structure AtMostOnce [DecidableEq κ] (s : σ) (net : Net Req ε ρ σ κ) : Prop where
  /-- The server's states are `s` and what the served requests left, in order. -/
  chain : net.log.map Entry.before ++ [net.server] = s :: net.log.map (Entry.after server)
  /-- A request is served for the call that sent it. -/
  owned : ∀ e ∈ net.log, ∃ call, net.calls[e.call]? = some call ∧ call.request = e.request
  /-- A served request has its effect and no other. -/
  relates : ∀ e ∈ net.log, (e.effect server).Relates server.lookup e.before (e.after server)
  /-- An insertion finds its key free. -/
  inserted : ∀ e ∈ net.log, ∀ k, e.effect server = .insert k → server.lookup e.before k = none
  /-- **At most one** of the requests served for a call has an effect. -/
  once : ∀ c, (net.log.countP fun e => e.call = c ∧ e.effect server ≠ .idle) ≤ 1
  /-- What has been removed is not removed again, nor inserted. -/
  final : Final server net.log

end Novon.Rpc
