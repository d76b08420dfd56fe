import Novon.Auth
import Novon.Data.Percent
import Novon.Http.Message
import Novon.Uc.Routes

/-!
# The UC service on the wire

The route table of `routes.py` in declaration order, and the binding of a request's path, query
and body to the arguments of the handler it is dispatched to.
-/

namespace Novon.Uc

inductive Endpoint where
  | healthz
  | me
  | listUsers
  | getUserByUsername
  | getUser
  | createUser
  | updateUser
  | deleteUser
  deriving DecidableEq, Repr

/-- The decorated handlers, in declaration order. -/
def routeTable : List (Route Endpoint) :=
  [⟨"GET", [.lit "", .lit "healthz"], .healthz⟩,
    ⟨"GET", [.lit "", .lit "me"], .me⟩,
    ⟨"GET", [.lit "", .lit "users"], .listUsers⟩,
    ⟨"GET", [.lit "", .lit "users", .lit "by-username"], .getUserByUsername⟩,
    ⟨"GET", [.lit "", .lit "users", .param "user_id"], .getUser⟩,
    ⟨"POST", [.lit "", .lit "users"], .createUser⟩,
    ⟨"PATCH", [.lit "", .lit "users", .param "user_id"], .updateUser⟩,
    ⟨"DELETE", [.lit "", .lit "users", .param "user_id"], .deleteUser⟩]

/-- The ids that stand where the path of a static route has a literal segment. -/
def staticIds : List String := ["by-username", "by-username\n"]

/-- Binds the arguments of a handler.  Path arguments are as many as the route has parameters. -/
def bind (request : Request) : Endpoint → List String → Routed UcCall
  | .healthz, _ => .static [("status", "ok")]
  | .me, _ => .static [("user", getCurrentUser)]
  | .listUsers, _ => .call .listUsers
  | .getUserByUsername, _ =>
    match request.queryParam "username" with
    | some username => .call (.getUserByUsername username)
    | none => .invalid
  | .getUser, [userId] => .call (.getUser userId)
  | .createUser, _ =>
    match request.parseBody UserCreate.validate with
    | some payload => .call (.createUser payload)
    | none => .invalid
  | .updateUser, [userId] =>
    match request.parseBody UserUpdate.validate with
    | some payload => .call (.updateUser userId payload)
    | none => .invalid
  | .deleteUser, [userId] => .call (.deleteUser userId)
  -- never reached: a match has as many arguments as parameters
  | _, _ => .invalid

/-- The handler that a request is dispatched to, with its path arguments. -/
def target (request : Request) : Option (Endpoint × List String) :=
  (Percent.unquote request.path).bind (Router.dispatch routeTable request.method)

/-- Finds what a request asks for. -/
def route (request : Request) : Routed UcCall :=
  match target request with
  | some (endpoint, args) => bind request endpoint args
  | none => .unrouted

def serve (framework : Framework UserResponse) (request : Request) (env : Env) (s : Store) :
    Reply UserResponse × Store :=
  (route request).serve framework handle request env s

end Novon.Uc
