/-!
# Shared auth dependency

`packages/auth`: the placeholder implementation.
-/

namespace Novon

/-- Resolve the current user from the request. -/
def getCurrentUser : String := "anonymous"

end Novon
