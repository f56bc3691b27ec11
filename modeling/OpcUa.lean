import OpcUa.Library.LittleEndian
import OpcUa.Types
import OpcUa.TypeTable
import OpcUa.CalcSizeCore
import OpcUa.EncodeCore
import OpcUa.DecodeCore
import OpcUa.Wire
import OpcUa.SingleBuffer
import OpcUa.LeafRoundTrip
import OpcUa.DiagnosticInfoRoundTrip
import OpcUa.CalcSizeExact
import OpcUa.DecodeSafety
import OpcUa.RoundTripCore
import OpcUa.RoundTripParts
import OpcUa.RoundTrip
import OpcUa.VariantRoundTrip
import OpcUa.DataSetMessageCore
import OpcUa.NetworkMessageCore
import OpcUa.NetworkMessageWire
import OpcUa.NetworkMessageSize
import OpcUa.NetworkMessageComplete
import OpcUa.ChunkedBuffers
import OpcUa.ChunkedEncoding
import OpcUa.SecureChannelCore
import OpcUa.Library.RolloverCounter
import OpcUa.SecureChannelChecks
import OpcUa.SequenceNumbers
import OpcUa.Reassembly
import OpcUa.SecureChannelSend
import OpcUa.SymmetricRoundTrip
import OpcUa.ServerCore
import OpcUa.ServerSteps
import OpcUa.ServerRuns
import OpcUa.ServerSecurity
import OpcUa.Replay
import OpcUa.Library.Framing
import OpcUa.ConnectionChunks
import OpcUa.Library.DoubleHashing
import OpcUa.NodeMapCore
import OpcUa.Library.LucasCertificates
import OpcUa.NodeMap
import OpcUa.Library.StubQueue
import OpcUa.TimerCore
import OpcUa.Timer
import OpcUa.Library.OwnedQueue
import OpcUa.SubscriptionCore
import OpcUa.SessionCore
import OpcUa.NotificationQueues
import OpcUa.SubscriptionOperations
import OpcUa.Publishing
import OpcUa.SessionSteps
import OpcUa.SessionRuns
import OpcUa.Delivery
import OpcUa.Retransmission
import OpcUa.PublishRequests
import OpcUa.SubscriptionLimit
import OpcUa.Library.CrossLinks
import OpcUa.SessionManagerCore
import OpcUa.SessionManager
import OpcUa.AccessControl
import OpcUa.TokenRenewal
import OpcUa.ChannelExpiry
import OpcUa.AddressSpaceCore
import OpcUa.Browse
import OpcUa.Library.GroupedSet
import OpcUa.NodeManagementCore
import OpcUa.ReferenceSet
import OpcUa.ClientSubscriptions
import OpcUa.DataChange
import OpcUa.DataSetWriterCore
import OpcUa.DeltaFrames
import OpcUa.EventCore
import OpcUa.EventDelivery
import OpcUa.InstanceIsolation
import OpcUa.NodeAddition
import OpcUa.NotificationDispatch
import OpcUa.PubSubIntegrity
import OpcUa.PubSubRuns
import OpcUa.PublishCallback
import OpcUa.TypeGuards
import OpcUa.VariableRuns
import OpcUa.Library.KeyedList
import OpcUa.Library.NewestFirst
import OpcUa.Library.SinglyLinked
import OpcUa.Library.RowMajor
import OpcUa.Library.GatherScatter
import OpcUa.Library.GuardedRuns
import OpcUa.MulticastCore
import OpcUa.MulticastTable
import OpcUa.MulticastRuns
import OpcUa.FindServers
import OpcUa.NodeEditing
import OpcUa.NodeCopy
import OpcUa.ItemSettings
import OpcUa.MonitoringFilters
import OpcUa.EventRegistrationCore
import OpcUa.EventRegistration
import OpcUa.VariantRangeCore
import OpcUa.VariantRanges
import OpcUa.VariantRangeWrites
import OpcUa.PublishBookkeepingCore
import OpcUa.PublishBookkeeping
import OpcUa.AsyncCallsCore
import OpcUa.AsyncCalls
import OpcUa.VariantRangeBounds
import OpcUa.Library.BlockPadding
import OpcUa.DecryptBounds
import OpcUa.ChunkSpace
import OpcUa.OpnRoundTrip
import OpcUa.FailedSends
import OpcUa.SessionActivation
import OpcUa.ChannelClosing
import OpcUa.TimerInterleaving
import OpcUa.FreshIdentifiers
import OpcUa.ReferenceAtomicity
import OpcUa.TypeHierarchy
import OpcUa.Library.FloatRounding
import OpcUa.Deadband
import OpcUa.QueueOverflow
import OpcUa.OverflowMarks
import OpcUa.BrowsePathCore
import OpcUa.BrowsePaths
import OpcUa.ContinuationPoints
import OpcUa.ContinuationPointRuns
import OpcUa.Library.AcyclicReach
import OpcUa.DeletionEnds
import OpcUa.NodeAttributeCore
import OpcUa.AttributeAtomicity
import OpcUa.Library.DecimalText
import OpcUa.NumericRangeCore
import OpcUa.NumericRange
import OpcUa.EndpointUrlCore
import OpcUa.EndpointUrl
import OpcUa.Library.RoundRobin
import OpcUa.PublishAttempts
import OpcUa.SubscriptionLifetime
import OpcUa.LateSubscriptions
import OpcUa.IdentifierRoundTrip
import OpcUa.ArrayFilter
import OpcUa.ExtensionObjectBodies
import OpcUa.DataValueRoundTrip
import OpcUa.DataSetMessageRoundTrip
import OpcUa.SelectClauses
import OpcUa.ServiceDomain
import OpcUa.MessageCleanup
