import Actjs.Transition
import Actjs.Json
import Actjs.Mailbox
import Actjs.Storage
import Actjs.ActorClass
import Actjs.Host
import Actjs.HostStep
import Actjs.Flow
import Actjs.Lifecycle
import Actjs.MailboxOrder
import Actjs.InFlight
import Actjs.SerialTurns
import Actjs.TellAccounting
import Actjs.InboxReplay
import Actjs.Snapshots
import Actjs.SnapshotSteps
import Actjs.SnapshotDrivers
import Actjs.Subscribers
import Actjs.Beside
import Actjs.Lives
import Actjs.EventSourcing
import Actjs.Drivers
import Actjs.EventLog
import Actjs.Fencing
import Actjs.SnapshotCache
import Actjs.Idempotency
import Actjs.ReplayIsolation
import Actjs.Capability
import Actjs.Opening
import Actjs.Writes
import Actjs.EventDelivery
import Actjs.SseResume
import Actjs.Flushing
import Actjs.Carrying
import Actjs.FinalFlush
import Actjs.RetriedSaves
import Actjs.Directory
import Actjs.ReminderDispatcher
import Actjs.JsonText
import Actjs.ReminderRecovery
import Actjs.StrictAudit
import Actjs.PlainObject
import Actjs.Handlers
import Actjs.Auth
import Actjs.AuthSoundness
import Actjs.Upgrades
import Actjs.StickyVersions
import Actjs.Tombstone
import Actjs.Listeners
import Actjs.ReadGating
import Actjs.Audience
import Actjs.Promises
import Actjs.Ownership
import Actjs.Transparency
import Actjs.ActiveCap
import Actjs.SetMap
import Actjs.SubscriptionRegistry
import Actjs.Connections
import Actjs.Loop
import Actjs.Resolver
import Actjs.ResolverConflict
import Actjs.ResolverOrder
import Actjs.Optimistic
import Actjs.ClientRpc
import Actjs.ClientCalls
import Actjs.OfflineQueue
import Actjs.ClientSubscriptions
import Actjs.SubscriptionServer
import Actjs.SubscriptionRecords
import Actjs.SubscriptionSteps
import Actjs.SubscriptionContinuity
import Actjs.OrderedMap
import Actjs.ClassRegistry
import Actjs.Loader
import Actjs.RegistryAgreement
import Actjs.RegistryDriver
import Actjs.ClassSource
import Actjs.JsonQuote
import Actjs.OwnProperties
import Actjs.ManifestSha
import Actjs.Codegen
import Actjs.CodegenSkip
import Actjs.Holders
import Actjs.Bindings
import Actjs.BindingRefs
import Actjs.LoaderRefs
import Actjs.AtomicTurns
import Actjs.ReplayDistance
import Actjs.Draining
import Actjs.OneClass
import Actjs.MemoryInbox
import Actjs.ReminderQueue
import Actjs.LoaderCache
import Actjs.TokenBucket
import Actjs.IdleBuckets
import Actjs.RateLimiter
import Actjs.Blocklist
import Actjs.Base64
import Actjs.CapabilityToken
import Actjs.Der
import Actjs.EcdsaSignature
import Actjs.ImportGate
import Actjs.MailboxHistory
import Actjs.ResolverTermination
import Actjs.LineDiff
import Actjs.OfflineBackends
import Actjs.SelectedStore
import Actjs.TransportFrames
import Actjs.CallMetrics
import Actjs.EarlyNotifications
import Actjs.NatRounding
import Actjs.RpcFrames
import Actjs.SplitOrder
import Actjs.SemVer
import Actjs.SemverCompare
import Actjs.InboxOrder
import Actjs.TellOrder
import Actjs.TellEffects
import Actjs.Standing
import Actjs.CrashRecovery
import Actjs.LogRecovery
import Actjs.ExactlyOnce
import Actjs.Descent
import Actjs.WorkLeft
import Actjs.Progress
import Actjs.AtRest
import Actjs.RpcConnection
import Actjs.RpcExchange
import Actjs.Hex
import Actjs.ManifestStore
import Actjs.ManifestUsage
import Actjs.PinRequests
import Actjs.ManifestPins
