import HyperDHT.Routing.Closest
import HyperDHT.Protomux.Cork
import HyperDHT.Protomux.EarlyData
import HyperDHT.Protomux.Tables
import HyperDHT.Protomux.AfterDestroy
import HyperDHT.Protomux.Lifetimes
import HyperDHT.Protomux.Reopen
import HyperDHT.Query.Frontier
import HyperDHT.Rpc.Tids
import HyperDHT.Rpc.Congestion
import HyperDHT.Rpc.Session
import HyperDHT.Handlers.Survival
import HyperDHT.Handlers.RecordWriter
import HyperDHT.Handlers.Signables
import HyperDHT.Handlers.StoreBounds
import HyperDHT.Handlers.LruIndex
import HyperDHT.Handlers.RateLimits
import HyperDHT.Handlers.TokenWindow
import HyperDHT.Handlers.Storage
import HyperDHT.Handlers.WellFormed
import HyperDHT.Ops.Sustained
import HyperDHT.Ops.Authenticity
import HyperDHT.Ops.MutableGet
import HyperDHT.Announcer.Freshness
import HyperDHT.Announcer.Withdrawal
import HyperDHT.Server.Tables
import HyperDHT.Server.Duplicates
import HyperDHT.Connect.Exhaustion
import HyperDHT.Connect.Paths
import HyperDHT.Connect.Agreement
import HyperDHT.Holepunch.RandomProbes
import HyperDHT.Holepunch.Accounting
import HyperDHT.Holepunch.Verified
import HyperDHT.Holepunch.Throttle
import HyperDHT.BlindRelay.Delivery
import HyperDHT.BlindRelay.Callbacks
import HyperDHT.BlindRelay.Bookkeeping
import HyperDHT.BlindRelay.Capacity
import HyperDHT.BlindRelay.Malformed
import HyperDHT.BlindRelay.Shutdown
import HyperDHT.Pools.TieBreak
import HyperDHT.Pools.Routes
import HyperDHT.Noise.Agreement
import HyperDHT.SecretStream.MuxStream
import HyperDHT.Protomux.Malformed
import HyperDHT.Connect.Router
import HyperDHT.Connect.Narrowing
import HyperDHT.Holepunch.Validation
import HyperDHT.Noise.Failure
import HyperDHT.Protomux.Agreement
import HyperDHT.Compact.AddressText
import HyperDHT.Routing.Rebuild
import HyperDHT.NatSampler.Accounting
import HyperDHT.Async.Flush
import HyperDHT.Async.Sleeper
import HyperDHT.Health.Monitor
import HyperDHT.Holepunch.PoolRuns
import HyperDHT.Connect.LocalMatch
import HyperDHT.Connect.RelayCache
import HyperDHT.SecretStream.Unordered
import HyperDHT.Routing.Metric
import HyperDHT.Connect.PeerHandshake
import HyperDHT.Handlers.Provenance
import HyperDHT.Handlers.Retention
