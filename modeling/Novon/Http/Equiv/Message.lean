import Novon.Http.Message

/-!
# Serving a routed request

What a service answers is what one of its handlers answers, or an answer of the web framework, which
neither changes the state nor is a 5xx.
-/

namespace Novon

variable {κ ρ σ : Type} (framework : Framework ρ) {handle : κ → Env → σ → Reply ρ × σ}
  (request : Request)

/-- Without a route a request is redirected or refused. -/
theorem Framework.unrouted_bounds :
    300 ≤ (framework.unrouted request).statusCode ∧
      (framework.unrouted request).statusCode < 500 := by
  have hmem := framework.unrouted_status request
  simp only [List.mem_cons, List.not_mem_nil, or_false] at hmem
  omega

namespace Routed

/-- If no handler answers with a 5xx, no request is answered with one. -/
theorem serve_status_lt (hhandle : ∀ call env s, (handle call env s).1.statusCode < 500)
    (routed : Routed κ) (env : Env) (s : σ) :
    (routed.serve framework handle request env s).1.statusCode < 500 := by
  cases routed with
  | unrouted => exact (framework.unrouted_bounds request).2
  | static content => exact (by decide : (200 : ℤ) < 500)
  | invalid =>
    have hstatus := framework.invalid_status request
    show (framework.invalid request).statusCode < 500
    omega
  | call call => exact hhandle call env s

/-- If the handlers that a request may be routed to only read, serving it only reads. -/
theorem serve_read {routed : Routed κ} {env env' : Env} {s : σ}
    (hread : ∀ call, routed = .call call → handle call env s = ((handle call env' s).1, s)) :
    routed.serve framework handle request env s =
      ((routed.serve framework handle request env' s).1, s) := by
  cases routed with
  | unrouted | static _ | invalid => rfl
  | call call => exact hread call rfl

end Routed

end Novon
