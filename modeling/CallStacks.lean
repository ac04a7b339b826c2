import CallStacks.Frozen.Freezer
import CallStacks.Green.Program
import CallStacks.Proofs.ArenaContents
import CallStacks.Proofs.StoreRuns
import CallStacks.Proofs.Threads
import CallStacks.Proofs.Roster
import CallStacks.Proofs.StoreFrames
import CallStacks.Proofs.RingSteps
import CallStacks.Proofs.ChainSteps
import CallStacks.Proofs.RosterChanges
import CallStacks.Proofs.ChainInstall
import CallStacks.Proofs.RosterRuns
import CallStacks.Proofs.CollectorVisits
import CallStacks.Proofs.FloorUpkeep
import CallStacks.Proofs.Thawing
import CallStacks.Proofs.CaptureWalk
import CallStacks.Proofs.BufferMoves
import CallStacks.Proofs.Reachability
import CallStacks.Proofs.WellLinked
import CallStacks.Proofs.Collections
import CallStacks.Proofs.PointerTracking
import CallStacks.Proofs.CaptureMoves
import CallStacks.Proofs.CopiedBytes
import CallStacks.Proofs.CaptureRelocation
import CallStacks.Proofs.Sparing
import CallStacks.Proofs.ResumedBytes
import CallStacks.Proofs.PointerMoves
import CallStacks.Proofs.RoundTrip
import CallStacks.Proofs.Readiness
import CallStacks.Proofs.OperationRuns
import CallStacks.Proofs.Survival
import CallStacks.Proofs.FloorBounds
import CallStacks.Proofs.FloorSafety
import CallStacks.Proofs.UnagedScans
import CallStacks.Proofs.Aging
import CallStacks.Proofs.CaptureBounds
import CallStacks.Proofs.BoundedPlaces
import CallStacks.Proofs.RecordedPlaces
import CallStacks.Proofs.RosterMoves
import CallStacks.Proofs.ChainIndependence
import CallStacks.Proofs.RosterRefinement
import CallStacks.Proofs.Waking
import CallStacks.Proofs.CollectorWrites
import CallStacks.Proofs.FrozenBytes
import CallStacks.Proofs.KeptWords
import CallStacks.Proofs.StoreParts
import CallStacks.Proofs.SlotGenerations
import CallStacks.Proofs.HandleAnswers
import CallStacks.Proofs.Tallies
import CallStacks.Proofs.ToldRoots
import CallStacks.Proofs.ToldWords
import CallStacks.Proofs.CaptureReports
import CallStacks.Proofs.SegmentRecycling
import CallStacks.Proofs.GreenRuns
import CallStacks.Proofs.GreenPrograms
import CallStacks.Proofs.BalancedTransitions
import CallStacks.Proofs.GreenSteps
import CallStacks.Proofs.StackSnapshots
import CallStacks.Proofs.RingVerification
import CallStacks.Proofs.Rejuvenating
import CallStacks.Proofs.SettledFloors
import CallStacks.Proofs.RepeatedSlots
import CallStacks.Proofs.EscapingPointers
import CallStacks.Proofs.ArenaSlots
import CallStacks.Proofs.ArenaHistory
import CallStacks.Proofs.GrowthLanding
import CallStacks.Proofs.CaptureFailures
import CallStacks.Proofs.CaptureSelection
import CallStacks.Proofs.CaptureMeasures
import CallStacks.Proofs.ByteCounts
import CallStacks.Proofs.GreenRequests
import CallStacks.Proofs.OsSwitches
import CallStacks.Proofs.SegmentPeaks
import CallStacks.Proofs.RefusedCalls
import CallStacks.Proofs.LoweredFloors
import CallStacks.Proofs.BufferAccesses
import CallStacks.Proofs.ShiftedPointers
import CallStacks.Proofs.SlotCodes
