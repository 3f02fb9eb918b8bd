import Thalweg.Daemon.Atomicity
import Thalweg.Daemon.BoundedFrames
import Thalweg.Daemon.Canonicalization
import Thalweg.Daemon.Closure
import Thalweg.Daemon.Convergence
import Thalweg.Daemon.Causality
import Thalweg.Daemon.Comparison
import Thalweg.Daemon.Decisions
import Thalweg.Daemon.DurableWaits
import Thalweg.Daemon.Exclusion
import Thalweg.Daemon.Handover
import Thalweg.Daemon.Handshake
import Thalweg.Daemon.Idempotency
import Thalweg.Daemon.Isolation
import Thalweg.Daemon.SyncExchanges
import Thalweg.Daemon.KeySpace
import Thalweg.Daemon.LocalIngest
import Thalweg.Daemon.MembershipFile
import Thalweg.Daemon.MeshWakes
import Thalweg.Daemon.MigratedReads
import Thalweg.Daemon.Ordering
import Thalweg.Daemon.Outcome
import Thalweg.Daemon.PeerAddress
import Thalweg.Daemon.PublicSiphons
import Thalweg.Daemon.Readability
import Thalweg.Daemon.RequestedEvents
import Thalweg.Daemon.Silence
import Thalweg.Daemon.StoreInvariant
import Thalweg.Daemon.Subscriptions
import Thalweg.Daemon.Sync
import Thalweg.Daemon.Termination
import Thalweg.Daemon.ResolveOnce
import Thalweg.Daemon.Timestamps
import Thalweg.Daemon.Transcripts
import Thalweg.Ipc.Pipelining
import Thalweg.Registry.Backoff
import Thalweg.Registry.Cursor
import Thalweg.Registry.Overlap
import Thalweg.Registry.ReloadOrder
import Thalweg.Registry.Replay
import Thalweg.Registry.SnapshotFile
import Thalweg.Data.Utf8Decoder
import Thalweg.SdkJs.Connections
import Thalweg.SdkJs.EarlyEvents
import Thalweg.SdkJs.Siphon
import Thalweg.SdkPython.Correlation
import Thalweg.SdkPython.Exchange
import Thalweg.SdkPython.Subscriptions
import Thalweg.Lab.Retry
