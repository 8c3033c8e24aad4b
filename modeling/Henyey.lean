import Henyey.Scp.Agreement
import Henyey.Scp.Externalization
import Henyey.Ledger.Clusters
import Henyey.Buckets.MergeLaws
import Henyey.Buckets.HotArchiveRestart
import Henyey.TxQueue.Admitting
import Henyey.TxQueue.Greedy
import Henyey.TxSet.Phase
import Henyey.Fees.Balance
import Henyey.Herder.Restoring
import Henyey.Herder.Combining
import Henyey.Ledger.SorobanRuns
import Henyey.Execution.EntryStore
import Henyey.Execution.Protection
import Henyey.Upgrading.StateSizeWindow
import Henyey.Overlay.Balance
import Henyey.History.CrashSafety
import Henyey.Herder.NoneStranded
import Henyey.Scp.ClosestBlocking
import Henyey.Scp.Ballot.Counters
import Henyey.Scp.Ballot.Recovery
import Henyey.Scp.Ballot.CommitIntervals
import Henyey.Herder.ValidityRuns
import Henyey.Soroban.ModuleCacheRuns
import Henyey.Auth.AuthenticatedChannel
import Henyey.Overlay.MutualDialRuns
import Henyey.Scp.CanonicalForm
import Henyey.Dex.Adjustment
import Henyey.Dex.PoolShares
import Henyey.Offers.Overlay
import Henyey.Ttl.Ledger
import Henyey.Catchup.CatchupRange
import Henyey.Herder.QuorumTracker
import Henyey.Catchup.ReverseWalk
