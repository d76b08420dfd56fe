import Novon.UcApi.Client

/-!
# What the wrapper makes of each UC call

The wrapper never raises on the arguments of a typed call, and sends exactly this.
-/

namespace Novon.UcServiceClient

/-- The path that a call asks for. -/
def path : UcCall → String
  | .getUser userId | .updateUser userId _ | .deleteUser userId => "/users/" ++ Percent.quote userId
  | .getUserByUsername _ => "/users/by-username"
  | .listUsers | .createUser _ => "/users"

/-- The body of a call: all fields of a create, the explicitly set ones of a PATCH. -/
def json : UcCall → Option Json
  | .createUser payload => some (.object (modelDump false payload.fields))
  | .updateUser _ payload => some (.object (modelDump true payload.fields))
  | _ => none

/-- The query arguments of a call. -/
def params : UcCall → Option (Dict String Arg)
  | .getUserByUsername username => some (.ofList [("username", .str username)])
  | _ => none

/-- What the wrapper makes of a call. -/
def outboundCall (call : UcCall) : OutboundCall where
  method := (endpoint call).method
  path := path call
  json := json call
  params := params call
  responseModel := (Feign.resolveReturnContract (endpoint call).responseType).2
  expectsNone := (Feign.resolveReturnContract (endpoint call).responseType).1

theorem outbound_eq (lib : HttpLib) (call : UcCall) :
    outbound lib call = .ok (outboundCall call) := by
  have hempty : ∀ s : String, s ++ "" = s := fun s => String.append_empty
  unfold outboundCall
  cases call with
  | getUser userId =>
    rw [path, ← hempty (Percent.quote userId)]
    rfl
  | getUserByUsername username => rfl
  | listUsers => rfl
  | createUser payload => rfl
  | updateUser userId payload =>
    rw [path, ← hempty (Percent.quote userId)]
    rfl
  | deleteUser userId =>
    rw [path, ← hempty (Percent.quote userId)]
    rfl

/-- The request that a call sends. -/
def sent (lib : HttpLib) (headers : Dict String String) (call : UcCall) : Request :=
  Feign.send lib headers (outboundCall call)

theorem request_eq (lib : HttpLib) (headers : Dict String String) (call : UcCall) :
    request lib headers call = .ok (sent lib headers call) := by
  rw [request, outbound_eq]
  rfl

end Novon.UcServiceClient
