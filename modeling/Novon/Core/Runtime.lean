import Mathlib.Data.Stream.Init
import Novon.Core.Uuid
import Novon.Data.Handler

/-!
# What a service draws from and does while it handles requests

`uuid4()` takes the next of a stream of UUIDs.  The things that others see of a run are recorded as
events, and stay recorded when a handler raises.
-/

namespace Novon

/-- The UUIDs still to come, and what has happened so far. -/
structure Runtime (ω : Type) where
  uuids : Stream' Uuid
  events : List ω

namespace Runtime

variable {ε ω α : Type}

/-- `str(uuid4())`. -/
def uuid4 : Handler ε (Runtime ω) String :=
  fun s => (.ok s.uuids.head.text, { s with uuids := s.uuids.tail })

def emit (event : ω) : Handler ε (Runtime ω) Unit :=
  .modify fun s => { s with events := s.events ++ [event] }

@[simp] theorem run_uuid4 (s : Runtime ω) :
    (uuid4 : Handler ε (Runtime ω) String).run s =
      (.ok s.uuids.head.text, { s with uuids := s.uuids.tail }) := rfl

@[simp] theorem run_emit (event : ω) (s : Runtime ω) :
    (emit event : Handler ε (Runtime ω) Unit).run s =
      (.ok (), { s with events := s.events ++ [event] }) := rfl

end Runtime

end Novon
