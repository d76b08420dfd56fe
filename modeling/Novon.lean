import Novon.Bff.Equiv.ByUsername
import Novon.Bff.Equiv.ErrorBodies
import Novon.Core.Equiv.Application
import Novon.Core.Equiv.BodyByType
import Novon.Core.Equiv.DotSegments
import Novon.Core.Equiv.ErrorMapping
import Novon.Core.Equiv.FailFast
import Novon.Core.Equiv.HeaderMerge
import Novon.Core.Equiv.NestedModels
import Novon.Core.Equiv.Nullability
import Novon.Core.Equiv.PathSubstitution
import Novon.Core.Equiv.Retry
import Novon.Core.Equiv.Sendable
import Novon.Core.Equiv.ServiceErrorHandlers
import Novon.Core.Equiv.Transmission
import Novon.Core.Equiv.TypeAdapter
import Novon.FlowApi.Equiv.Methods
import Novon.Network.Equiv.AtMostOnce
import Novon.Network.Equiv.Chain
import Novon.Network.Equiv.Transparency
import Novon.Platform.Equiv.Answered
import Novon.Platform.Equiv.Remote
import Novon.Platform.Equiv.Shown
import Novon.Platform.Equiv.Linearizable
import Novon.Store.Equiv.LifeCycle
import Novon.Store.Equiv.WellFormed
import Novon.TestUtils.Equiv.CallLog
import Novon.TestUtils.Equiv.Client
import Novon.TestUtils.Equiv.Configured
import Novon.TestUtils.Equiv.Matching
import Novon.TestUtils.Equiv.Replay
import Novon.Uc.Equiv.Reference
import Novon.UcApi.Equiv.Methods
import Novon.Wire.Equiv.Dispatch
import Novon.Wire.Equiv.Patch
