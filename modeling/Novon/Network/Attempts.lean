import Novon.Network.Lossy

/-!
# Attempts at an operation

A call of a service makes attempts until one is answered or no further one is allowed.  To its
caller it is an operation on the state of the service: every attempt performs it, whether or not the
caller hears of it.
-/

namespace Novon

/-- What becomes of an attempt. -/
inductive Delivery where
  /-- The service serves it and the response comes back. -/
  | answered (env : Env)
  | lost (loss : Loss)

/-- The exception of a loss. -/
def Loss.exc : Loss → TransportError
  | request exc | response _ exc => exc

/-- An operation, with what its caller sees when it is answered and when it is not. -/
structure Operation (σ α : Type) where
  perform : Env → σ → α × σ
  unreached : TransportError → α

namespace Operation

variable {σ α : Type} (op : Operation σ α)

/-- What a lost attempt leaves behind. -/
def lossEffect (s : σ) : Loss → σ
  | .request _ => s
  | .response env _ => (op.perform env s).2

/-- An attempt with `left` further ones: what the caller sees, or how many are left after it. -/
def attempt (left : ℕ) (s : σ) : Delivery → (α ⊕ ℕ) × σ
  | .answered env => let r := op.perform env s; (.inl r.1, r.2)
  | .lost loss =>
    (match left with
      | 0 => .inl (op.unreached loss.exc)
      | left + 1 => .inr left,
      op.lossEffect s loss)

/-- All attempts from number `k` on, with `left` after it: the first that is answered decides, and
when the last is lost the service counts as unreached. -/
def conduct (deliveries : ℕ → Delivery) : ℕ → ℕ → σ → α × σ
  | left, k, s =>
    match deliveries k with
    | .answered env => op.perform env s
    | .lost loss =>
      match left with
      | 0 => (op.unreached loss.exc, op.lossEffect s loss)
      | left + 1 => conduct deliveries left (k + 1) (op.lossEffect s loss)

end Operation

end Novon
