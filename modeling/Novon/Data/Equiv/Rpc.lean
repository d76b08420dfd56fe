import Mathlib.Order.Lattice
import Novon.Data.Rpc

/-!
# At most one effect per call

No call changes the server's state twice, if every call that may send its request more than once
asks for the removal of one and the same key (`Net.Reachable.atMostOnce`).  A request that is sent
once is served at most once, since the network makes no copies.  A key is drawn fresh when its
record is inserted, so what has been removed never comes back, and a late attempt to remove it finds
nothing.
-/

namespace Novon.Rpc

variable {Req ε ρ σ κ β : Type*} (server : KeyedServer Req ε ρ σ κ β)

/-- A list in which no two elements have a property together has at most one element with it. -/
theorem countP_le_one {α : Type*} {p : α → Bool} {l : List α}
    (h : l.Pairwise fun a b => ¬ (p a = true ∧ p b = true)) : l.countP p ≤ 1 := by
  induction l with
  | nil => simp
  | cons a l ih =>
    rw [List.pairwise_cons] at h
    by_cases ha : p a = true
    · have hzero : l.countP p = 0 :=
        List.countP_eq_zero.mpr fun b hb hpb => h.1 b hb ⟨ha, hpb⟩
      rw [List.countP_cons_of_pos ha, hzero]
    · rw [List.countP_cons_of_neg ha]
      exact ih h.2

/-! ### The invariant -/

variable (issues : Req → ℕ → Prop) (retry : ρ → Bool) {s : σ} {net net' : Net Req ε ρ σ κ}

/-- The number of requests of call `c` that are under way or served. -/
def Net.sent (net : Net Req ε ρ σ κ) (c : ℕ) : ℕ :=
  net.requests.countP (fun m => m.1 = c) + net.log.countP fun e => e.call = c

/-- What holds in every state of a run. -/
structure Inv (s : σ) (net : Net Req ε ρ σ κ) : Prop where
  sent_le : ∀ c, net.sent c ≤ (net.calls[c]?.map Call.attempt).getD 0
  attempt_le : ∀ (c : ℕ) (call : Call Req), net.calls[c]? = some call →
    call.attempt ≤ max 1 call.limit ∧ issues call.request call.limit
  logged : ∀ e ∈ net.log, ∃ call, net.calls[e.call]? = some call ∧ call.request = e.request
  stored : ∀ k, server.lookup net.server k ≠ none → k ∈ net.drawn
  removed : ∀ e ∈ net.log, ∀ k, e.effect server = .remove k →
    k ∈ net.drawn ∧ server.lookup net.server k = none
  inserted : ∀ e ∈ net.log, ∀ k, e.effect server = .insert k → server.lookup e.before k = none
  final : Final server net.log
  chain : net.log.map Entry.before ++ [net.server] = s :: net.log.map (Entry.after server)

theorem inv_init (h : ∀ k, server.lookup s k = none) :
    Inv server issues s (Net.init s : Net Req ε ρ σ κ) where
  sent_le := by simp [Net.sent, Net.init]
  attempt_le := by simp [Net.init]
  logged := by simp [Net.init]
  stored := fun k hk => absurd (h k) hk
  removed := by simp [Net.init]
  inserted := by simp [Net.init]
  final := List.Pairwise.nil
  chain := rfl

/-- A step in which nothing is served: the server and the log stay, the calls keep their requests,
and every request under way has been counted as an attempt of its call. -/
theorem Inv.of_quiet (h : Inv server issues s net) (hserver : net'.server = net.server)
    (hdrawn : net'.drawn = net.drawn) (hlog : net'.log = net.log)
    (hsent : ∀ c, net'.sent c ≤ (net'.calls[c]?.map Call.attempt).getD 0)
    (hattempt : ∀ (c : ℕ) (call : Call Req), net'.calls[c]? = some call →
      call.attempt ≤ max 1 call.limit ∧ issues call.request call.limit)
    (hcalls : ∀ (c : ℕ) (call : Call Req), net.calls[c]? = some call →
      ∃ call', net'.calls[c]? = some call' ∧ call'.request = call.request) :
    Inv server issues s net' where
  sent_le := hsent
  attempt_le := hattempt
  logged := by
    rw [hlog]
    intro e he
    obtain ⟨call, hcall, hreq⟩ := h.logged e he
    obtain ⟨call', hcall', hreq'⟩ := hcalls e.call call hcall
    exact ⟨call', hcall', hreq'.trans hreq⟩
  stored := by
    rw [hserver, hdrawn]
    exact h.stored
  removed := by
    rw [hserver, hdrawn, hlog]
    exact h.removed
  inserted := by
    rw [hlog]
    exact h.inserted
  final := by
    rw [hlog]
    exact h.final
  chain := by
    rw [hserver, hlog]
    exact h.chain

theorem Inv.of_fewer (h : Inv server issues s net) (hserver : net'.server = net.server)
    (hdrawn : net'.drawn = net.drawn) (hlog : net'.log = net.log) (hcalls : net'.calls = net.calls)
    (hrequests : net'.requests.Sublist net.requests) : Inv server issues s net' := by
  refine h.of_quiet server issues hserver hdrawn hlog (fun c => ?_)
    (by rw [hcalls]; exact h.attempt_le) fun c call hcall => ⟨call, by rw [hcalls, hcall], rfl⟩
  have hle := h.sent_le c
  have hfewer := hrequests.countP_le (p := fun m => decide (m.1 = c))
  unfold Net.sent at hle ⊢
  rw [hlog, hcalls]
  omega

theorem Inv.start (h : Inv server issues s net) {request : Req} {limit : ℕ}
    (hissue : issues request limit) :
    Inv server issues s { net with
      calls := net.calls ++ [⟨request, limit, 1, true⟩]
      requests := (net.calls.length, 1) :: net.requests } := by
  refine h.of_quiet server issues rfl rfl rfl (fun c => ?_) (fun c call hcall => ?_)
    fun c call hcall => ?_
  · have hle := h.sent_le c
    unfold Net.sent at hle ⊢
    rcases Nat.lt_trichotomy c net.calls.length with hlt | rfl | hgt
    · -- an older call
      rw [List.countP_cons_of_neg (by simpa using by omega), List.getElem?_append_left hlt]
      exact hle
    · -- nothing has been sent for a call that does not exist yet
      rw [List.getElem?_eq_none (Nat.le_refl _)] at hle
      rw [List.countP_cons_of_pos (by simp), List.getElem?_concat_length]
      simp only [Option.map_none, Option.getD_none, Option.map_some, Option.getD_some] at hle ⊢
      omega
    · rw [List.getElem?_eq_none (by omega)] at hle
      rw [List.countP_cons_of_neg (by simpa using by omega), List.getElem?_eq_none (by simp; omega)]
      exact hle
  · rw [List.getElem?_append] at hcall
    split at hcall
    · exact h.attempt_le c call hcall
    · obtain rfl := List.mem_singleton.mp (List.mem_of_getElem? hcall)
      exact ⟨Nat.le_max_left _ _, hissue⟩
  · exact ⟨call, by
      rw [List.getElem?_append_left (List.getElem?_eq_some_iff.mp hcall).1, hcall], rfl⟩

theorem Inv.afterAttempt (h : Inv server issues s net) {c : ℕ} {call : Call Req}
    (hcall : net.calls[c]? = some call) (again : Bool) :
    Inv server issues s (net.afterAttempt c call again) := by
  have hlt : c < net.calls.length := (List.getElem?_eq_some_iff.mp hcall).1
  obtain ⟨hmax, hissue⟩ := h.attempt_le c call hcall
  -- whatever is put in its place, the call keeps its request
  have hkeep : ∀ (call' : Call Req), call'.request = call.request → ∀ (i : ℕ) (old : Call Req),
      net.calls[i]? = some old → ∃ new, (net.calls.set c call')[i]? = some new ∧
        new.request = old.request := by
    intro call' hreq i old hold
    by_cases hi : c = i
    · subst hi
      obtain rfl := Option.some.inj (hcall.symm.trans hold)
      exact ⟨call', by rw [List.getElem?_set_self hlt], hreq⟩
    · exact ⟨old, by rw [List.getElem?_set_ne hi, hold], rfl⟩
  have hothers : ∀ (call' : Call Req), call'.attempt ≤ max 1 call'.limit →
      issues call'.request call'.limit → ∀ (i : ℕ) (new : Call Req),
      (net.calls.set c call')[i]? = some new →
        new.attempt ≤ max 1 new.limit ∧ issues new.request new.limit := by
    intro call' hle hiss i new hnew
    by_cases hi : c = i
    · subst hi
      rw [List.getElem?_set_self hlt] at hnew
      obtain rfl := Option.some.inj hnew
      exact ⟨hle, hiss⟩
    · rw [List.getElem?_set_ne hi] at hnew
      exact h.attempt_le i new hnew
  unfold Net.afterAttempt
  split
  · next hmore =>
    have hlimit : call.attempt < call.limit := by
      simp only [Bool.and_eq_true, decide_eq_true_eq] at hmore
      exact hmore.2
    refine h.of_quiet server issues rfl rfl rfl (fun i => ?_)
      (hothers _ (by simpa using by omega) hissue) (hkeep _ rfl)
    have hle := h.sent_le i
    unfold Net.sent at hle ⊢
    by_cases hi : c = i
    · subst hi
      rw [hcall] at hle
      rw [List.countP_cons_of_pos (by simp), List.getElem?_set_self hlt]
      simp only [Option.map_some, Option.getD_some] at hle ⊢
      omega
    · rw [List.countP_cons_of_neg (by simpa using hi), List.getElem?_set_ne hi]
      exact hle
  · -- the call is done: nothing is sent
    refine h.of_quiet server issues rfl rfl rfl (fun i => ?_) (hothers _ hmax hissue) (hkeep _ rfl)
    have hle := h.sent_le i
    unfold Net.sent at hle ⊢
    by_cases hi : c = i
    · subst hi
      rw [hcall] at hle
      rw [List.getElem?_set_self hlt]
      exact hle
    · rw [List.getElem?_set_ne hi]
      exact hle

/-- A key in use after an effect was in use before it or has been inserted. -/
theorem KeyEffect.Relates.lookup_ne_none {lookup : σ → κ → Option β} {s s' : σ}
    {effect : KeyEffect κ} (h : effect.Relates lookup s s') {k : κ} (hk : lookup s' k ≠ none) :
    lookup s k ≠ none ∨ effect = .insert k := by
  cases effect with
  | idle =>
    obtain rfl : s' = s := h
    exact .inl hk
  | insert k₀ =>
    by_cases heq : k = k₀
    · exact .inr (heq ▸ rfl)
    · exact .inl (h.2 k heq ▸ hk)
  | alter k₀ =>
    by_cases heq : k = k₀
    · exact .inl (heq ▸ h.1)
    · exact .inl (h.2.2 k heq ▸ hk)
  | remove k₀ =>
    by_cases heq : k = k₀
    · exact absurd (heq ▸ h.2.1) hk
    · exact .inl (h.2.2 k heq ▸ hk)

/-- **Serving a request** that arrives. -/
theorem Inv.deliver (h : Inv server issues s net) {l₁ l₂ : List (ℕ × ℕ)} {c k : ℕ} {call : Call Req}
    {env : ε} (hreq : net.requests = l₁ ++ (c, k) :: l₂) (hcall : net.calls[c]? = some call)
    (hfresh : ∀ key, server.draws call.request env = some key → key ∉ net.drawn) :
    Inv server issues s { net with
      server := (server.serve call.request env net.server).2
      requests := l₁ ++ l₂
      responses := (c, k, (server.serve call.request env net.server).1) :: net.responses
      drawn := (server.draws call.request env).toList ++ net.drawn
      log := net.log ++ [⟨c, call.request, env, net.server⟩] } := by
  have hrel := server.effect_relates call.request env net.server
  have hdraws := server.draws_of_insert call.request env net.server
  -- a key that is inserted has not been in use
  have hunused : ∀ k, server.effect call.request env net.server = .insert k → k ∉ net.drawn :=
    fun k hk => hfresh k (hdraws k hk)
  constructor
  · -- the request moves from those under way to those served
    intro i
    have hle := h.sent_le i
    unfold Net.sent at hle ⊢
    rw [hreq] at hle
    by_cases hi : c = i
    · simp only [List.countP_append, List.countP_cons, hi, decide_true, if_true,
        List.countP_nil] at hle ⊢
      omega
    · simp only [List.countP_append, List.countP_cons, hi, decide_false, Bool.false_eq_true,
        if_false, List.countP_nil] at hle ⊢
      omega
  · exact h.attempt_le
  · intro e he
    rcases List.mem_append.mp he with he | he
    · exact h.logged e he
    · obtain rfl := List.mem_singleton.mp he
      exact ⟨call, hcall, rfl⟩
  · -- a key in use was in use before, or has just been drawn
    intro k hk
    rcases hrel.lookup_ne_none hk with hold | hnew
    · exact List.mem_append_right _ (h.stored k hold)
    · exact List.mem_append_left _ (by rw [hdraws k hnew]; exact List.mem_singleton_self k)
  · intro e he k hk
    rcases List.mem_append.mp he with he | he
    · obtain ⟨hdrawn, hnone⟩ := h.removed e he k hk
      refine ⟨List.mem_append_right _ hdrawn, ?_⟩
      by_contra hback
      exact (hrel.lookup_ne_none hback).elim (fun hold => hold hnone) fun hnew =>
        hunused k hnew hdrawn
    · obtain rfl := List.mem_singleton.mp he
      rw [show server.effect call.request env net.server = .remove k from hk] at hrel
      exact ⟨List.mem_append_right _ (h.stored k hrel.1), hrel.2.1⟩
  · intro e he k hk
    rcases List.mem_append.mp he with he | he
    · exact h.inserted e he k hk
    · obtain rfl := List.mem_singleton.mp he
      by_contra hold
      exact hunused k hk (h.stored k hold)
  · -- what has been removed is not in use, so it is not removed again
    refine List.pairwise_append.mpr ⟨h.final, List.pairwise_singleton _ _, ?_⟩
    intro e he e' he' k hk
    obtain rfl := List.mem_singleton.mp he'
    obtain ⟨hdrawn, hnone⟩ := h.removed e he k hk
    refine ⟨fun hagain => ?_, fun hback => hunused k hback hdrawn⟩
    rw [show server.effect call.request env net.server = .remove k from hagain] at hrel
    exact hrel.1 hnone
  · simp only [List.map_append, List.map_cons, List.map_nil]
    rw [h.chain]
    rfl

/-- **Step lemma.** -/
theorem Inv.step (h : Inv server issues s net) (hstep : net.Step server issues retry net') :
    Inv server issues s net' := by
  cases hstep with
  | start hissue => exact h.start server issues hissue
  | loseRequest hm =>
    refine h.of_fewer server issues rfl rfl rfl rfl ?_
    rw [hm]
    exact List.Sublist.append_left (List.sublist_cons_self _ _) _
  | loseResponse hm => exact h.of_fewer server issues rfl rfl rfl rfl (List.Sublist.refl _)
  | deliver hreq hcall hfresh => exact h.deliver server issues hreq hcall hfresh
  | @receive l₁ l₂ c call reply hm hcall _ =>
    have hless : Inv server issues s { net with responses := l₁ ++ l₂ } :=
      h.of_fewer server issues rfl rfl rfl rfl (List.Sublist.refl _)
    exact hless.afterAttempt server issues hcall (retry reply)
  | discard hm _ _ => exact h.of_fewer server issues rfl rfl rfl rfl (List.Sublist.refl _)
  | timeout hcall _ => exact h.afterAttempt server issues hcall true

/-- **Run lemma.** -/
theorem Net.Reachable.inv (hs : ∀ k, server.lookup s k = none)
    (h : net.Reachable server issues retry s) : Inv server issues s net := by
  induction h with
  | init => exact inv_init server issues hs
  | step _ hstep ih => exact ih.step server issues retry hstep

/-! ### At most one effect -/

/-- A request that changes nothing or removes one and the same record. -/
def OnlyRemoves (request : Req) : Prop :=
  ∃ k, ∀ env s, server.effect request env s = .idle ∨ server.effect request env s = .remove k

theorem OnlyRemoves.inl {Req' ρ' σ' κ' β' : Type*} {server : KeyedServer Req ε ρ σ κ β}
    {request : Req} (h : OnlyRemoves server request)
    (server' : KeyedServer Req' ε ρ' σ' κ' β') :
    OnlyRemoves (server.prod server') (.inl request) := by
  obtain ⟨k, hk⟩ := h
  refine ⟨.inl k, fun env s => ?_⟩
  rw [KeyedServer.effect_prod_inl]
  rcases hk env s.1 with hidle | hremove
  · exact .inl (congrArg (KeyEffect.map Sum.inl) hidle)
  · exact .inr (congrArg (KeyEffect.map Sum.inl) hremove)

theorem OnlyRemoves.inr {Req' ρ' σ' κ' β' : Type*} {server' : KeyedServer Req' ε ρ' σ' κ' β'}
    {request : Req'} (h : OnlyRemoves server' request)
    (server : KeyedServer Req ε ρ σ κ β) : OnlyRemoves (server.prod server') (.inr request) := by
  obtain ⟨k, hk⟩ := h
  refine ⟨.inr k, fun env s => ?_⟩
  rw [KeyedServer.effect_prod_inr]
  rcases hk env s.2 with hidle | hremove
  · exact .inl (congrArg (KeyEffect.map Sum.inr) hidle)
  · exact .inr (congrArg (KeyEffect.map Sum.inr) hremove)

variable [DecidableEq κ]

/-- **At most one effect per call**, if every call that may be sent again only removes a record. -/
theorem Inv.countP_effect_le (h : Inv server issues s net)
    (honce : ∀ request limit, issues request limit → limit ≤ 1 ∨ OnlyRemoves server request)
    (c : ℕ) : (net.log.countP fun e => e.call = c ∧ e.effect server ≠ .idle) ≤ 1 := by
  have hserved : (net.log.countP fun e => e.call = c) ≤
      (net.calls[c]?.map Call.attempt).getD 0 := by
    have hle := h.sent_le c
    unfold Net.sent at hle
    omega
  have hfewer : (net.log.countP fun e => e.call = c ∧ e.effect server ≠ .idle) ≤
      net.log.countP fun e => e.call = c :=
    List.countP_mono_left fun e _ he => by
      simp only [decide_eq_true_eq] at he ⊢
      exact he.1
  cases hcall : net.calls[c]? with
  | none =>
    rw [hcall] at hserved
    simp only [Option.map_none, Option.getD_none] at hserved
    omega
  | some call =>
    obtain ⟨hmax, hissue⟩ := h.attempt_le c call hcall
    rcases honce call.request call.limit hissue with hlimit | ⟨k, hremoves⟩
    · -- the request is sent once
      rw [hcall] at hserved
      simp only [Option.map_some, Option.getD_some] at hserved
      omega
    · -- every effect of the call removes the same record
      have heffect : ∀ e ∈ net.log, e.call = c → e.effect server ≠ .idle →
          e.effect server = .remove k := by
        intro e he hc hidle
        obtain ⟨call', hcall', hreq⟩ := h.logged e he
        rw [hc] at hcall'
        obtain rfl := Option.some.inj (hcall.symm.trans hcall')
        rw [Entry.effect, ← hreq] at hidle ⊢
        exact (hremoves e.env e.before).resolve_left hidle
      -- two of them would remove it twice, which `Final` excludes
      refine countP_le_one ?_
      refine List.Pairwise.imp_of_mem ?_ h.final
      intro e e' he he' hfinal hboth
      simp only [decide_eq_true_eq] at hboth
      obtain ⟨⟨hc, hidle⟩, hc', hidle'⟩ := hboth
      exact (hfinal k (heffect e he hc hidle)).1 (heffect e' he' hc' hidle')

/-- **At-most-once**, for a server that starts without records. -/
theorem Net.Reachable.atMostOnce (hs : ∀ k, server.lookup s k = none)
    (honce : ∀ request limit, issues request limit → limit ≤ 1 ∨ OnlyRemoves server request)
    (h : net.Reachable server issues retry s) : AtMostOnce server s net := by
  have hinv := h.inv server issues retry hs
  exact ⟨hinv.chain, hinv.logged, fun e _ => server.effect_relates e.request e.env e.before,
    hinv.inserted, hinv.countP_effect_le server issues honce, hinv.final⟩

end Novon.Rpc
