import CallGuard.Json.Printer
import CallGuard.Json.Reader
import CallGuard.Clock
import CallGuard.Backoff
import CallGuard.Settings.Table
import CallGuard.CallError
import CallGuard.Recovery
import CallGuard.Ledger
import CallGuard.Scenario
import CallGuard.Outline
import CallGuard.Scenario.Parts
import CallGuard.Proofs.Circuit.Breaker
import CallGuard.Proofs.Circuit.SharedLabel
import CallGuard.Proofs.Tally
import CallGuard.Proofs.Frames
import CallGuard.Proofs.Stopping
import CallGuard.Proofs.Ledger.Overlap
import CallGuard.Proofs.Ledger.Recorded
import CallGuard.Proofs.Ledger.OneContext
import CallGuard.Proofs.Dispatch.Isolation
import CallGuard.Proofs.Dispatch.Pinned
import CallGuard.Proofs.Dispatch.Precedence
import CallGuard.Proofs.Classification
import CallGuard.Proofs.Declarations
import CallGuard.Proofs.Recovery.Choice
import CallGuard.Proofs.UniformDelay
import CallGuard.Proofs.Dispatch.DefaultKeys
import CallGuard.Proofs.Dispatch.Refusals
import CallGuard.Proofs.Capacity
import CallGuard.Proofs.Ledger.Refresh
import CallGuard.Proofs.Reports
import CallGuard.Proofs.Circuit.History
import CallGuard.Proofs.Hierarchy
import CallGuard.Proofs.Recovery.Discovery
import CallGuard.Proofs.Circuit.Windows
import CallGuard.Proofs.Grounds
