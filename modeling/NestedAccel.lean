import NestedAccel.Word
import NestedAccel.Text
import NestedAccel.Memory
import NestedAccel.Machine.Csr
import NestedAccel.Machine.Interrupt
import NestedAccel.Machine.Field
import NestedAccel.Machine.Registers
import NestedAccel.Csr.Slot
import NestedAccel.Csr.Rule
import NestedAccel.Csr.Table
import NestedAccel.Sbi.Status
import NestedAccel.Sbi.Call
import NestedAccel.Counters
import NestedAccel.Config
import NestedAccel.Area.Fence
import NestedAccel.Area.Context
import NestedAccel.Area.Selection
import NestedAccel.Area.Region
import NestedAccel.Request
import NestedAccel.Check
import NestedAccel.Console
import NestedAccel.Effect
import NestedAccel.World
import NestedAccel.Sync.Slots
import NestedAccel.Sync.Fences
import NestedAccel.Sync.Call
import NestedAccel.Batch.Descriptor
import NestedAccel.Batch.Run
import NestedAccel.Session
import NestedAccel.Hart
import NestedAccel.Platform.Registry
import NestedAccel.Platform.Ecall
import NestedAccel.Simulation.Environment
import NestedAccel.Proofs.Computation
import NestedAccel.Proofs.World
import NestedAccel.Proofs.Legal
import NestedAccel.Proofs.Footprint
import NestedAccel.Proofs.Handle
import NestedAccel.Proofs.Steps
import NestedAccel.Proofs.Reachable
import NestedAccel.Proofs.TrustBoundary
import NestedAccel.Proofs.TrapReturn
import NestedAccel.Proofs.Registry
import NestedAccel.Proofs.Isolation
import NestedAccel.Proofs.Bitmap
import NestedAccel.Proofs.Scan
import NestedAccel.Proofs.DeferredWrites
import NestedAccel.Proofs.Validation
import NestedAccel.Proofs.Retry
import NestedAccel.Proofs.FenceList
import NestedAccel.Proofs.FenceRuns
import NestedAccel.Proofs.FenceCalls
import NestedAccel.Proofs.FenceTraffic
import NestedAccel.Proofs.BatchRequests
import NestedAccel.Proofs.DisabledInjection
import NestedAccel.Proofs.Applied
import NestedAccel.Proofs.Drain
import NestedAccel.Proofs.BatchTally
import NestedAccel.Proofs.SyncedSlots
import NestedAccel.Proofs.SyncCounters
import NestedAccel.Proofs.Accesses
import NestedAccel.Proofs.Registration
import NestedAccel.Proofs.Abandonment
import NestedAccel.Proofs.HeldRanges
import NestedAccel.Proofs.MappedAccess
import NestedAccel.Proofs.Turns
import NestedAccel.Proofs.BatchOutcome
import NestedAccel.Proofs.CallCodec
import NestedAccel.Proofs.Delivery
import NestedAccel.Proofs.Lockstep
import NestedAccel.Proofs.BatchSplit
import NestedAccel.Proofs.BatchStatuses
import NestedAccel.Proofs.BatchDirect
import NestedAccel.Proofs.ModeLock
import NestedAccel.Proofs.ReturnSteps
import NestedAccel.Proofs.Departure
import NestedAccel.Proofs.HstatusSwap
import NestedAccel.Proofs.CallCounters
import NestedAccel.Proofs.RunCounters
import NestedAccel.Proofs.CsrAddressing
import NestedAccel.Proofs.ReturnCodec
import NestedAccel.Proofs.FenceEncoding
import NestedAccel.Proofs.CapturedScans
import NestedAccel.Proofs.SlotGroups
import NestedAccel.Proofs.SlotCursor
import NestedAccel.Proofs.MaskedSyncs
import NestedAccel.Proofs.OverlapTest
