import Novon.Flow.Server
import Novon.FlowApi.Client
import Novon.Uc.Server
import Novon.UcApi.Client

/-!
# One exchange

A client sends the request of a call and the server serves it.
-/

namespace Novon

/-- One exchange with the UC service. -/
def Uc.exchange (lib : HttpLib) (framework : Framework UserResponse)
    (headers : Dict String String) (call : UcCall) (env : Env) (s : Uc.Store) :
    Except WrapperError (Reply UserResponse × Uc.Store) :=
  (UcServiceClient.request lib headers call).map fun request => Uc.serve framework request env s

/-- One exchange with the Flow service. -/
def Flow.exchange (lib : HttpLib) (framework : Framework FlowResponse)
    (headers : Dict String String) (call : FlowCall) (env : Env) (s : Flow.Store) :
    Except WrapperError (Reply FlowResponse × Flow.Store) :=
  (FlowServiceClient.request lib headers call).map fun request =>
    Flow.serve framework request env s

end Novon
