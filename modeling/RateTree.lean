import RateTree.Bench
import RateTree.Capabilities
import RateTree.CommandLine.Execute
import RateTree.Host.Files
import RateTree.Host.Vfio
import RateTree.Limiter
import RateTree.Main
import RateTree.RateQuery
import RateTree.Reading
import RateTree.Script.Run
import RateTree.Proofs.Checks
import RateTree.Proofs.NodeStore
import RateTree.Proofs.WellFormed
import RateTree.Proofs.Rebinding
import RateTree.Proofs.Commits.Create
import RateTree.Proofs.Commits.Update
import RateTree.Proofs.Commits.Delete
import RateTree.Proofs.Allocation
import RateTree.Proofs.Runs
import RateTree.Proofs.Invariant
import RateTree.Proofs.Conservation
import RateTree.Proofs.Pools
import RateTree.Proofs.LinkedDevice
import RateTree.Proofs.Links
import RateTree.Proofs.Rings
import RateTree.Proofs.Owners
import RateTree.Proofs.Mirror
import RateTree.Proofs.BenchDevice
import RateTree.Proofs.LinkTables
import RateTree.Proofs.Atomicity
import RateTree.Proofs.Agreement
import RateTree.Proofs.Wire
import RateTree.Proofs.Programming
import RateTree.Proofs.DirectBench
import RateTree.Proofs.FirmwareAgreement
import RateTree.Proofs.Cascade
import RateTree.Proofs.Peaks
import RateTree.Proofs.PlanErrors
import RateTree.Proofs.Readiness
import RateTree.Proofs.Retrying
import RateTree.Proofs.TokenWorth
import RateTree.Proofs.PlanFaults
import RateTree.Proofs.Commitments
import RateTree.Proofs.Admission
import RateTree.Proofs.Recreation
import RateTree.Proofs.Tracing
import RateTree.Proofs.Effects
import RateTree.Proofs.Teardown
import RateTree.Proofs.RingRates
import RateTree.Proofs.RateReplies
import RateTree.Proofs.Frames
import RateTree.Proofs.Isolation
import RateTree.Proofs.Reordering
import RateTree.Proofs.InStep
import RateTree.Proofs.MailboxExchange
import RateTree.Proofs.MailboxRefinement
import RateTree.Proofs.Representation
import RateTree.Proofs.Reports
import RateTree.Proofs.RoundTrips
import RateTree.Proofs.Streams
import RateTree.Proofs.PooledMemory
import RateTree.Proofs.BlockOwnership
import RateTree.Proofs.Journals
import RateTree.Proofs.MappedMemory
import RateTree.Proofs.Steadiness
import RateTree.Proofs.Spending
import RateTree.Proofs.ScriptRuns
import RateTree.Proofs.UntrustedDevice
import RateTree.Proofs.FreshAnswers
import RateTree.Proofs.Translation
import RateTree.Proofs.Planting
import RateTree.Proofs.Occupancy
import RateTree.Proofs.TokenOrder
import RateTree.Proofs.TokenAccuracy
import RateTree.Proofs.FunctionNumbers
import RateTree.Proofs.NodeReferences
import RateTree.Proofs.SlotHistories
import RateTree.Proofs.PoolHistories
import RateTree.Proofs.Restoration
import RateTree.Proofs.LinkReports
import RateTree.Proofs.LedgerWords
