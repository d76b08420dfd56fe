import Novon.TestUtils.MockRouter

/-!
# What the call lists hold

In every run of a router, the calls of a registered route are the requests with its key since its
registration or, if it has been reset after that, since its last reset (`call_logs`).  The
registration is the first event that is answered with the route.

What one event does to the calls of one route is `step_calls`; `Tracked` carries it along a run.
-/

namespace Novon.TestUtils.MockRouter

variable {R E D W : Type}

/-- The event makes the route and registers it under the key, if it is the first one that is
answered with the route. -/
def Registers (key : Key) (ref : ℕ) (t : Event R E D W × Reply R E) : Prop :=
  ∃ method url, t = (.route method url, .route ref) ∧ routeKey method url = key

/-- The event resets the route, if it is registered. -/
def Resets (ref : ℕ) : Event R E D W → Prop
  | .resetRoute ref' => ref' = ref
  | .reset => True
  | _ => False

/-- The request of the event, if it has the key. -/
def requestOn (key : Key) : Event R E D W → Option (Request D)
  | .request request => if request.key = key then some request else none
  | _ => none

/-- The log of the route starts with this event, unless a later event resets the route. -/
def Starts (key : Key) (ref : ℕ) (before : List (Event R E D W × Reply R E))
    (start : Event R E D W × Reply R E) : Prop :=
  (Registers key ref start ∧ ∀ t ∈ before, t.2 ≠ .route ref) ∨
    (Resets ref start.1 ∧ ∃ t ∈ before, Registers key ref t)

/-- The calls are the requests with the key since the registration or the last reset. -/
def Logged (key : Key) (ref : ℕ) (trace : List (Event R E D W × Reply R E))
    (calls : List (Request D)) : Prop :=
  ∃ before start after, trace = before ++ start :: after ∧ Starts key ref before start ∧
    (∀ t ∈ after, ¬ Resets ref t.1) ∧ calls = after.filterMap fun t => requestOn key t.1

section Logged

variable {key : Key} {ref : ℕ} {trace : List (Event R E D W × Reply R E)}
  {calls : List (Request D)} {t : Event R E D W × Reply R E}

theorem Logged.concat (h : Logged key ref trace calls) (ht : ¬ Resets ref t.1) :
    Logged key ref (trace ++ [t]) (calls ++ (requestOn key t.1).toList) := by
  obtain ⟨before, start, after, htrace, hstart, hafter, hcalls⟩ := h
  refine ⟨before, start, after ++ [t], ?_, hstart, ?_, ?_⟩
  · rw [htrace, List.append_assoc, List.cons_append]
  · intro t' ht'
    rcases List.mem_append.mp ht' with hmem | hmem
    · exact hafter t' hmem
    · rw [List.mem_singleton.mp hmem]
      exact ht
  · rw [List.filterMap_append, ← hcalls]
    cases hrequest : requestOn key t.1 <;> simp [hrequest]

theorem Logged.registered (h : Logged key ref trace calls) :
    ∃ t ∈ trace, Registers key ref t := by
  obtain ⟨before, start, after, rfl, hstart, -, -⟩ := h
  rcases hstart with ⟨hregisters, -⟩ | ⟨-, t, ht, hregisters⟩
  · exact ⟨start, by simp, hregisters⟩
  · exact ⟨t, List.mem_append_left _ ht, hregisters⟩

theorem Logged.restart (h : Logged key ref trace calls) (ht : Resets ref t.1) :
    Logged key ref (trace ++ [t]) [] :=
  ⟨trace, t, [], rfl, .inr ⟨ht, h.registered⟩, by simp, rfl⟩

end Logged

/-! ### One event -/

variable (lib : UrlLib)

/-- A request is recorded by the route that has its key. -/
theorem request_calls {s : MockRouter R E D W} (request : Request D) {key : Key} {ref : ℕ}
    (h : s.routes.get? key = some ref) :
    ((s.handle lib request).2.objects ref).calls =
      (s.objects ref).calls ++ (if request.key = key then [request] else []) := by
  cases hfind : s.find request with
  | none =>
    have hkey : request.key ≠ key := by
      intro heq
      rw [find, heq, h] at hfind
      cases hfind
    rw [handle_of_find_none lib s hfind, if_neg hkey, List.append_nil]
  | some ref' =>
    rw [handle_of_find lib s hfind]
    by_cases hkey : request.key = key
    · have hsame : ref = ref' := by
        rw [find, hkey, h] at hfind
        exact Option.some.inj hfind
      rw [hsame, handOver_self, if_pos hkey, MockRoute.handle_calls]
    · have hother : ref ≠ ref' := by
        intro heq
        subst heq
        exact hkey (s.registered_injective _ _ ref hfind h)
      rw [handOver_of_ne lib s hother, if_neg hkey, List.append_nil]

/-- Registering leaves the routes that are registered, or makes this one. -/
theorem route_calls (method : String) (url : Url) {s : MockRouter R E D W} {key : Key} {ref : ℕ}
    (h : (s.route method url).2.routes.get? key = some ref) :
    (s.routes.get? key = some ref ∧
      ((s.route method url).2.objects ref).calls = (s.objects ref).calls) ∨
    ((s.route method url).1 = ref ∧ key = routeKey method url ∧ ref = s.made ∧
      ((s.route method url).2.objects ref).calls = []) := by
  cases hfind : s.routes.get? (routeKey method url) with
  | some ref' =>
    rw [route_of_registered s hfind] at h ⊢
    exact .inl ⟨h, rfl⟩
  | none =>
    rw [route_of_unregistered s hfind] at h ⊢
    rw [register_objects]
    rw [register_get?] at h
    split at h
    · next hkey =>
      cases h
      exact .inr ⟨rfl, hkey, rfl, by rw [if_pos rfl]; rfl⟩
    · have hold : ref ≠ s.made := Nat.ne_of_lt (s.registered_lt key ref h)
      exact .inl ⟨h, by rw [if_neg hold]⟩

/-- What an event does to a route that is registered afterwards: it resets it, or adds the request
if it has the key, or has just made it. -/
theorem step_calls (event : Event R E D W) (s : MockRouter R E D W) {key : Key} {ref : ℕ}
    (h : (step lib event s).2.routes.get? key = some ref) :
    (s.routes.get? key = some ref ∧ Resets ref event ∧
      ((step lib event s).2.objects ref).calls = []) ∨
    (s.routes.get? key = some ref ∧ ¬ Resets ref event ∧
      ((step lib event s).2.objects ref).calls =
        (s.objects ref).calls ++ (requestOn key event).toList) ∨
    (Registers key ref (event, (step lib event s).1) ∧ ref = s.made ∧
      ((step lib event s).2.objects ref).calls = []) := by
  cases event with
  | route method url =>
    rcases route_calls method url h with ⟨hregistered, hcalls⟩ | ⟨href, hkey, hmade, hcalls⟩
    · exact .inr (.inl ⟨hregistered, id, hcalls.trans (List.append_nil _).symm⟩)
    · have hreply : (step lib (.route method url) s).1 = .route ref := congrArg Reply.route href
      exact .inr (.inr ⟨⟨method, url, congrArg (Prod.mk _) hreply, hkey.symm⟩, hmade, hcalls⟩)
  | setReturnValue ref' value =>
    have hcalls := update_calls s ref' (f := .setReturnValue value) (fun _ => rfl) ref
    exact .inr (.inl ⟨h, id, hcalls.trans (List.append_nil _).symm⟩)
  | setSideEffect ref' value =>
    have hcalls := update_calls s ref' (f := .setSideEffect value) (fun _ => rfl) ref
    exact .inr (.inl ⟨h, id, hcalls.trans (List.append_nil _).symm⟩)
  | request request =>
    have hregistered : s.routes.get? key = some ref := by
      rw [← handle_routes lib s request]
      exact h
    refine .inr (.inl ⟨hregistered, id, ?_⟩)
    show ((s.handle lib request).2.objects ref).calls = _
    rw [request_calls lib request hregistered, requestOn]
    split <;> rfl
  | resetRoute ref' =>
    show _ ∧ ref' = ref ∧ ((s.update ref' _).objects ref).calls = _ ∨
      _ ∧ ¬ ref' = ref ∧ ((s.update ref' _).objects ref).calls = _ ++ [] ∨ _
    rw [update_objects, List.append_nil]
    by_cases hsame : ref' = ref
    · exact .inl ⟨h, hsame, by rw [if_pos hsame.symm]; rfl⟩
    · exact .inr (.inl ⟨h, hsame, by rw [if_neg (Ne.symm hsame)]⟩)
  | reset =>
    have hregistered : s.routes.get? key = some ref := by
      rw [← reset_routes s]
      exact h
    refine .inl ⟨hregistered, trivial, ?_⟩
    show (s.reset.objects ref).calls = []
    rw [reset_objects, if_pos (Dict.mem_values_iff.mpr ⟨key, hregistered⟩)]
    rfl
  | clear => cases h

/-! ### Runs -/

/-- What is known of a router after a trace. -/
structure Tracked (trace : List (Event R E D W × Reply R E))
    (s : MockRouter R E D W) : Prop where
  made : ∀ t ∈ trace, ∀ ref, t.2 = .route ref → ref < s.made
  logged : ∀ key ref, s.routes.get? key = some ref →
    Logged key ref trace (s.objects ref).calls

/-- Routes are not unmade, and a reply names one that has been made. -/
theorem step_made (event : Event R E D W) (s : MockRouter R E D W) :
    s.made ≤ (step lib event s).2.made ∧
      ∀ ref, (step lib event s).1 = .route ref → ref < (step lib event s).2.made := by
  cases event with
  | route method url =>
    show s.made ≤ (s.route method url).2.made ∧
      ∀ ref, Reply.route (s.route method url).1 = .route ref →
        ref < (s.route method url).2.made
    cases hfind : s.routes.get? (routeKey method url) with
    | some ref' =>
      rw [route_of_registered s hfind]
      refine ⟨Nat.le_refl _, fun ref h => ?_⟩
      cases h
      exact s.registered_lt _ ref' hfind
    | none =>
      rw [route_of_unregistered s hfind]
      refine ⟨Nat.le_succ _, fun ref h => ?_⟩
      cases h
      exact Nat.lt_succ_self _
  | request request => exact ⟨(handle_made lib s request).ge, fun ref h => nomatch h⟩
  | reset => exact ⟨(reset_made s).ge, fun ref h => nomatch h⟩
  | setReturnValue ref' value => exact ⟨Nat.le_refl _, fun ref h => nomatch h⟩
  | setSideEffect ref' value => exact ⟨Nat.le_refl _, fun ref h => nomatch h⟩
  | resetRoute ref' => exact ⟨Nat.le_refl _, fun ref h => nomatch h⟩
  | clear => exact ⟨Nat.le_refl _, fun ref h => nomatch h⟩

/-- **Step lemma.** -/
theorem Tracked.step {trace : List (Event R E D W × Reply R E)} {s : MockRouter R E D W}
    (h : Tracked trace s) (event : Event R E D W) :
    Tracked (trace ++ [(event, (step lib event s).1)]) (step lib event s).2 where
  made := by
    intro t ht ref href
    obtain ⟨hle, hnew⟩ := step_made lib event s
    rcases List.mem_append.mp ht with hmem | hmem
    · exact Nat.lt_of_lt_of_le (h.made t hmem ref href) hle
    · rw [List.mem_singleton.mp hmem] at href
      exact hnew ref href
  logged := by
    intro key ref hget
    rcases step_calls lib event s hget with ⟨hold, hresets, hcalls⟩ | ⟨hold, hkeeps, hcalls⟩ |
      ⟨hregisters, hnew, hcalls⟩
    · rw [hcalls]
      exact (h.logged key ref hold).restart hresets
    · rw [hcalls]
      exact (h.logged key ref hold).concat hkeeps
    · -- the number of a new route has not been given out before
      have hunnamed : ∀ t ∈ trace, t.2 ≠ .route ref := fun t ht href =>
        absurd (h.made t ht ref href) (by omega)
      rw [hcalls]
      exact ⟨trace, _, [], rfl, .inl ⟨hregisters, hunnamed⟩, by simp, rfl⟩

theorem tracked (env : Env R E W) (events : List (Event R E D W)) :
    Tracked (Run.trace (MockRouter.step lib) events (new env))
      (Run.exec (MockRouter.step lib) events (new env)).2 := by
  induction events using List.reverseRecOn with
  | nil => exact ⟨fun t ht => (nomatch ht), fun key ref h => (nomatch h)⟩
  | append_singleton events event ih =>
    rw [Run.trace_concat, Run.exec_concat]
    exact ih.step lib event

/-- **The call lists are complete.**  In every run, the calls of each registered route are the
requests with its key since its registration or its last reset; registering a URL again gives the
same route and changes nothing; and so does a request that no route matches, which raises an
`AssertionError`. -/
theorem call_logs (env : Env R E W) (events : List (Event R E D W)) :
    let s := (Run.exec (step lib) events (new env)).2
    (∀ key ref, s.routes.get? key = some ref →
      Logged key ref (Run.trace (step lib) events (new env)) (s.objects ref).calls) ∧
    (∀ method url ref, s.routes.get? (routeKey method url) = some ref →
      step lib (.route method url) s = (.route ref, s)) ∧
    (∀ request : Request D, s.routes.get? request.key = none →
      step lib (.request request) s =
        (.answer (.assertionError (unregistered lib request)), s)) := by
  intro s
  refine ⟨(tracked lib env events).logged, fun method url ref h => ?_, fun request h => ?_⟩
  · show (Reply.route (s.route method url).1, (s.route method url).2) = _
    rw [route_of_registered s h]
  · show (Reply.answer (s.handle lib request).1, (s.handle lib request).2) = _
    rw [handle_of_find_none lib s h]

end Novon.TestUtils.MockRouter
