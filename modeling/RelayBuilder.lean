import RelayBuilder.Interleave.Triple
import RelayBuilder.Interleave.Pool
import RelayBuilder.Interleave.Protocol
import RelayBuilder.Interleave.Exclusive
import RelayBuilder.Interleave.Locks
import RelayBuilder.Buckets
import RelayBuilder.Nostr
import RelayBuilder.SubscriptionIndex
import RelayBuilder.IndexView
import RelayBuilder.IndexSteps
import RelayBuilder.IndexMethods
import RelayBuilder.IndexCandidates
import RelayBuilder.IndexDistribution
import RelayBuilder.IndexRuns
import RelayBuilder.IndexRepeats
import RelayBuilder.Interleave.Alone
import RelayBuilder.MessageSender
import RelayBuilder.SubscriptionRegistry
import RelayBuilder.IndexContents
import RelayBuilder.IndexRepresentation
import RelayBuilder.Interleave.Script
import RelayBuilder.RelayCalls
import RelayBuilder.RelayDatabase
import RelayBuilder.SubscriptionCoordinator
import RelayBuilder.RelayMiddleware
import RelayBuilder.Broadcasting
import RelayBuilder.EventAnswers
import RelayBuilder.Outbound
import RelayBuilder.Interleave.Exec
import RelayBuilder.Interleave.Tasks
import RelayBuilder.Interleave.InTurn
import RelayBuilder.Connection
import RelayBuilder.MiddlewareChain
import RelayBuilder.WebSocket
import RelayBuilder.RelayQuestions
import RelayBuilder.Authentication
import RelayBuilder.Visibility
import RelayBuilder.Requests
import RelayBuilder.RegistryMethods
import RelayBuilder.RegistryRuns
import RelayBuilder.RegistryActions
import RelayBuilder.RegistryHandles
import RelayBuilder.RegistryLedger
import RelayBuilder.RegistryProtocol
import RelayBuilder.RegistryCleanup
import RelayBuilder.RegistryProgress
import RelayBuilder.RegistryChanges
import RelayBuilder.RegistryDelivery
import RelayBuilder.Interleave.Once
import RelayBuilder.IndexVacancy
import RelayBuilder.RelayPool
import RelayBuilder.RequestOrder
import RelayBuilder.Expiration
import RelayBuilder.Negentropy
import RelayBuilder.HostNames
import RelayBuilder.JsonText
import RelayBuilder.Tenants
import RelayBuilder.ProtectedEvents
import RelayBuilder.AuthAnswers
import RelayBuilder.QuotaSlots
import RelayBuilder.StoredEvents
import RelayBuilder.BufferTask
import RelayBuilder.Acknowledgements
import RelayBuilder.ExportNames
import RelayBuilder.IdentityLayers
import RelayBuilder.EventIngester
import RelayBuilder.RelayUrls
import RelayBuilder.Pagination
import RelayBuilder.CommandOrder
import RelayBuilder.ResponseChannels
import RelayBuilder.DeadConnections
import RelayBuilder.EventTexts
import RelayBuilder.NewestMatches
import RelayBuilder.Subdomains
import RelayBuilder.FailureAnswers
import RelayBuilder.ChannelSize
import RelayBuilder.Interleave.Machine
import RelayBuilder.RateLimits
import RelayBuilder.ImportBatches
import RelayBuilder.KeyBytes
import RelayBuilder.DatabaseKeys
import RelayBuilder.IntegrityCheck
import RelayBuilder.KeptEvents
import RelayBuilder.Diagnostics
import RelayBuilder.BatchStats
import RelayBuilder.Interleave.Service
import RelayBuilder.CryptoHelper
import RelayBuilder.Interleave.Guarded
import RelayBuilder.Interleave.Succession
import RelayBuilder.RegistryChannels
import RelayBuilder.Handover
import RelayBuilder.LiveHandover
