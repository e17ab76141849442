import Cynara.Library.Strings
import Cynara.Library.Records
import Cynara.Library.Numerals
import Cynara.Library.Integers
import Cynara.Library.Decoder
import Cynara.Library.Layout
import Cynara.Library.Maps
import Cynara.Library.Index
import Cynara.Library.Outcome
import Cynara.Library.Relations
import Cynara.Library.FileSystem
import Cynara.Library.Crash
import Cynara.Library.ChunkRing
import Cynara.Library.NodeList
import Cynara.Library.Bitmap
import Cynara.Library.Runs
import Cynara.Library.Recency
import Cynara.Library.Refinement
import Cynara.Library.Ledger
import Cynara.Library.Exchange
import Cynara.Library.Nested
import Cynara.Types.Policy
import Cynara.Types.ErrorCodes
import Cynara.Types.Bucket
import Cynara.Storage.Backend
import Cynara.Storage.Storage
import Cynara.Storage.Links
import Cynara.Storage.Check
import Cynara.Storage.Effects
import Cynara.Storage.Erase
import Cynara.Storage.Termination
import Cynara.Storage.Serializer
import Cynara.Storage.TypeFields
import Cynara.Storage.Database
import Cynara.Storage.ChecksumStream
import Cynara.Storage.RoundTrip
import Cynara.Storage.BucketFiles
import Cynara.Storage.Consistency
import Cynara.Storage.Erasure
import Cynara.Storage.Backup
import Cynara.Storage.Save
import Cynara.Storage.CrashSafety
import Cynara.Storage.Loading
import Cynara.Storage.Faults
import Cynara.Storage.CutWrites
import Cynara.Storage.Damage
import Cynara.Service.Admin
import Cynara.Service.DefaultPolicy
import Cynara.Service.Restart
import Cynara.Service.Idempotence
import Cynara.Service.Isolation
import Cynara.Sockets.BinaryQueue
import Cynara.Sockets.Socket
import Cynara.Sockets.SocketManager
import Cynara.Protocol.Frame
import Cynara.Protocol.Codec
import Cynara.Protocol.Responses
import Cynara.Protocol.Requests
import Cynara.Protocol.Messages
import Cynara.Protocol.Framing
import Cynara.Protocol.SocketClient
import Cynara.Client.Sockets
import Cynara.Client.CapacityCache
import Cynara.Types.Keys
import Cynara.Client.Coherence
import Cynara.Client.SequenceContainer
import Cynara.Client.AsyncLogic
import Cynara.Client.SyncLogic
import Cynara.Client.Revocation
import Cynara.Client.AsyncEffects
import Cynara.Client.Monitoring
import Cynara.Client.AsyncChecks
import Cynara.Client.AsyncRuns
import Cynara.Client.AsyncConnection
import Cynara.Client.AsyncCache
import Cynara.Dialogue.Channel
import Cynara.Dialogue.Exchanges
import Cynara.Dialogue.Serving
import Cynara.Dialogue.Replies
import Cynara.Service.CheckLogic
import Cynara.Service.CheckEffects
import Cynara.Service.CheckRuns
import Cynara.Service.Registers
import Cynara.Service.Talkers
import Cynara.Service.Verdicts
import Cynara.Service.PluginManager
import Cynara.Service.Endpoint
import Cynara.Dialogue.Discards
import Cynara.Monitor.EntriesQueue
import Cynara.Monitor.Filling
import Cynara.Monitor.QueueRefinement
import Cynara.Monitor.EntriesManager
import Cynara.Monitor.Cursors
import Cynara.Monitor.Delivery
import Cynara.Monitor.Finishing
import Cynara.Monitor.MonitorLogic
import Cynara.Admin.Interface
import Cynara.Admin.Locking
import Cynara.Helpers.CredsCommons
import Cynara.Cyad.PolicyTypeTranslator
import Cynara.Cyad.AdminPolicyParser
import Cynara.Cyad.CommandsDispatcher
