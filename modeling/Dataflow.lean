import Dataflow.TimingIndependence
import Dataflow.PoolConservation
import Dataflow.Chain
import Dataflow.ChainExecution
import Dataflow.DirtySoundness
import Dataflow.Simulator
import Dataflow.SimulatorCapacity
import Dataflow.SimulatorLoops
import Dataflow.ByteRanges
import Dataflow.Store
import Dataflow.PeerCore
import Dataflow.PeerNetwork
import Dataflow.PeerFrames
import Dataflow.PeerWorld
import Dataflow.PeerLedger
import Dataflow.PeerOwnership
import Dataflow.PeerExactlyOnce
import Dataflow.PeerAcknowledgement
import Dataflow.PeerTransfers
import Dataflow.Snapshot
import Dataflow.ServiceVerbs
import Dataflow.ParkRule
import Dataflow.StoreLeases
import Dataflow.Dispatcher
import Dataflow.VerbFootprint
import Dataflow.DispatchOrder
import Dataflow.RestoreAtomicity
import Dataflow.SnapshotPlacement
import Dataflow.FreshRestore
import Dataflow.SnapshotRoundTrip
import Dataflow.SlabLedger
import Dataflow.SlabPlane
import Dataflow.SlabAccounting
import Dataflow.SlabSafety
import Dataflow.InboundPermission
import Dataflow.ChunkLanding
import Dataflow.SendOrder
import Dataflow.SendProgress
import Dataflow.LeaseCounting
import Dataflow.Duplex
import Dataflow.DuplexProgress
import Dataflow.DataFeed
import Dataflow.Packer
import Dataflow.PackerResume
import Dataflow.ShapedNames
import Dataflow.ShapedProgram
import Dataflow.DraftValidity
import Dataflow.ShapedChain
import Dataflow.ShapedBuild
import Dataflow.LoweredProgram
import Dataflow.GradientFlow
import Dataflow.Wire
import Dataflow.ClientCalls
import Dataflow.RunCancellation
import Dataflow.RunSettlement
import Dataflow.LinkGlare
import Dataflow.Prefetch
import Dataflow.AdmissionBound
import Dataflow.PlannerVerdicts
import Dataflow.Policies
import Dataflow.MinGrow
import Dataflow.RecomputePlanning
import Dataflow.StaticExtent
import Dataflow.Checkpointing
import Dataflow.PlanConversion
import Dataflow.OptimizerPolicy
import Dataflow.CaptureReplay
import Dataflow.RuntimeSlab
