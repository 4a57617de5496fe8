import EscrowFlow.Accounting.EventLog
import EscrowFlow.Accounting.Solvency
import EscrowFlow.Accounting.Fairness
import EscrowFlow.Arbitration.Quorum
import EscrowFlow.Arbitration.Emergency
import EscrowFlow.Arbitration.Exit
import EscrowFlow.Arbitration.Destinations
import EscrowFlow.Arbitration.Consent
import EscrowFlow.Sync.Overlap
import EscrowFlow.Sync.Outcomes
import EscrowFlow.Sync.Arbitrators
import EscrowFlow.Sync.Proposals
import EscrowFlow.Sync.Recipients
import EscrowFlow.Sync.Cursor
import EscrowFlow.Sync.Released
import EscrowFlow.Sync.Totals
import EscrowFlow.Sync.Progress
import EscrowFlow.Sync.Rebuild
import EscrowFlow.Platform.Assignment
import EscrowFlow.Platform.Binding
import EscrowFlow.Platform.Disputing
import EscrowFlow.Platform.InOrder
import EscrowFlow.Platform.Funding
import EscrowFlow.Platform.Gateway
import EscrowFlow.Platform.CancelPanel
import EscrowFlow.Platform.Completion
