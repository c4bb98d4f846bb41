import Bunting.LedgerOperations
import Bunting.Snapshot
import Bunting.Prices
import Bunting.Phases
import Bunting.KillSwitch
import Bunting.Latency
import Bunting.RunClock
import Bunting.Failures
import Bunting.Timer
import Bunting.BnpWire
import Bunting.FixHistory
import Bunting.CommitJournal
import Bunting.BnpIdentity
import Bunting.Execution
import Bunting.Uncrossing
import Bunting.ConsolidatedTape
import Bunting.Outbound
import Bunting.PnlBook
