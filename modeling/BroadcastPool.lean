import BroadcastPool.Lib.Prog
import BroadcastPool.Lib.Interleave
import BroadcastPool.Lib.Ledger
import BroadcastPool.Lib.Sequence
import BroadcastPool.Lib.Text
import BroadcastPool.Db.Models
import BroadcastPool.Env
import BroadcastPool.Crypto
import BroadcastPool.Db.RowMac
import BroadcastPool.Db.Statements
import BroadcastPool.Config
import BroadcastPool.Api.Settings
import BroadcastPool.Pool.ChainHealth
import BroadcastPool.Pool.VirtualMempool
import BroadcastPool.Pool.World
import BroadcastPool.Db.Database
import BroadcastPool.Pool.Manager
import BroadcastPool.Pool.Broadcaster
import BroadcastPool.Pool.Scheduler
import BroadcastPool.Pool.TableOps
import BroadcastPool.ElectrumServer.Ingest
import BroadcastPool.Activity
import BroadcastPool.Life
import BroadcastPool.Sample
import BroadcastPool.Proofs.Db.RowMac
import BroadcastPool.Proofs.Rules
import BroadcastPool.Proofs.Work
import BroadcastPool.Proofs.Db.Frame
import BroadcastPool.Proofs.Db.Seal
import BroadcastPool.Proofs.Db.Selection
import BroadcastPool.Proofs.FalseAlarm
import BroadcastPool.Proofs.TamperEvidence
import BroadcastPool.Proofs.SafeMode
import BroadcastPool.Proofs.Terminal
import BroadcastPool.Proofs.MacCoverage
import BroadcastPool.Proofs.MacInput
import BroadcastPool.Proofs.Mempool.Waiting
import BroadcastPool.Proofs.Mempool.Obligations
import BroadcastPool.Proofs.Mempool.Restart
import BroadcastPool.Proofs.Mempool.Agrees
import BroadcastPool.Proofs.Serving
import BroadcastPool.Proofs.HalfDone
import BroadcastPool.Proofs.HaltOrder
import BroadcastPool.Lib.Json
import BroadcastPool.Pool.WalletView
import BroadcastPool.ElectrumServer.Requests
import BroadcastPool.ElectrumServer.VirtualHeaders
import BroadcastPool.ElectrumServer.Headers
import BroadcastPool.Proofs.Electrum.History
import BroadcastPool.Proofs.Electrum.Status
import BroadcastPool.Proofs.Electrum.Coins
import BroadcastPool.Proofs.Electrum.Tracking
import BroadcastPool.Proofs.VirtualBlock.Fetchable
import BroadcastPool.Proofs.VirtualBlock.Steps
import BroadcastPool.Proofs.VirtualBlock.Range
import BroadcastPool.Proofs.Releasable
import BroadcastPool.Proofs.StuckRow
import BroadcastPool.Proofs.VirtualBlock.Ingested
import BroadcastPool.Proofs.VirtualBlock.Captures
import BroadcastPool.Proofs.Archived
import BroadcastPool.Proofs.ArchiveKey
import BroadcastPool.Pool.LocktimeView
import BroadcastPool.Proofs.Locktime
import BroadcastPool.Proofs.ChainClock
import BroadcastPool.Pool.ChainTip
import BroadcastPool.Proofs.ChainTip
import BroadcastPool.Lib.Lease
import BroadcastPool.Proofs.ArchiveKeyLifetime
import BroadcastPool.Proofs.UserDecision
import BroadcastPool.Proofs.Content
import BroadcastPool.Proofs.Accepted
import BroadcastPool.Proofs.Mempool.Announced
import BroadcastPool.Pool.Rejection
import BroadcastPool.Proofs.LockColumn
import BroadcastPool.Proofs.BroadcastNow
import BroadcastPool.Proofs.MissedRelease
import BroadcastPool.Proofs.SparedRow
import BroadcastPool.Proofs.Retry
import BroadcastPool.Proofs.PriceGate
import BroadcastPool.Api.SaveConfig
import BroadcastPool.Proofs.SaveConfig
import BroadcastPool.Lib.Utf8
import BroadcastPool.Lib.Outcome
import BroadcastPool.ElectrumServer.Session
import BroadcastPool.Proofs.Electrum.Lines
import BroadcastPool.Proofs.Electrum.Answered
import BroadcastPool.Proofs.Electrum.ByteStream
import BroadcastPool.Proofs.Electrum.Crash
import BroadcastPool.Proofs.Electrum.Acknowledged
import BroadcastPool.Proofs.Electrum.OneStatus
import BroadcastPool.Proofs.Electrum.Relayed
import BroadcastPool.Proofs.Electrum.LineOrder
import BroadcastPool.Proofs.VirtualBlock.HeaderChain
import BroadcastPool.Pool.Extraction
import BroadcastPool.Proofs.Mempool.Extraction
import BroadcastPool.Lib.Median
import BroadcastPool.Rpc.Electrum
import BroadcastPool.Proofs.Rpc.MedianTime
import BroadcastPool.Lib.Checked
import BroadcastPool.Proofs.Electrum.Amounts
import BroadcastPool.Proofs.Delays
import BroadcastPool.Api.Import
import BroadcastPool.Proofs.Import
import BroadcastPool.Proofs.LegacyRows
import BroadcastPool.Proofs.BlockedRetention
import BroadcastPool.Proofs.TxidColumn
import BroadcastPool.Proofs.Mempool.Entries
import BroadcastPool.Lib.Unlisted
import BroadcastPool.Proofs.Electrum.Injection
import BroadcastPool.Proofs.Electrum.StatusText
import BroadcastPool.Lib.Decimal
import BroadcastPool.Lib.Calendar
import BroadcastPool.Proofs.TimeOrder
import BroadcastPool.Proofs.Electrum.Relay
import BroadcastPool.Proofs.Electrum.Pushes
import BroadcastPool.Proofs.Electrum.Replies
import BroadcastPool.Proofs.Electrum.Chunks
import BroadcastPool.Proofs.Releases
import BroadcastPool.Proofs.Provenance
import BroadcastPool.Proofs.Confirmed
import BroadcastPool.Proofs.PriceFeed
import BroadcastPool.Proofs.Balance
import BroadcastPool.Proofs.Notify.Dispatcher
import BroadcastPool.Proofs.Keyfile
import BroadcastPool.Discovery
import BroadcastPool.Proofs.Discovery
import BroadcastPool.Proofs.Contacts
