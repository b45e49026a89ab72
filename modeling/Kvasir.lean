import Kvasir.Lib.Histories
import Kvasir.Lib.Ranks
import Kvasir.Lib.Scanner
import Kvasir.Lib.Streams
import Kvasir.Lib.Refinement
import Kvasir.Lib.Termination
import Kvasir.Protocol
import Kvasir.Store
import Kvasir.LockedStore
import Kvasir.Server
import Kvasir.LockedServer
import Kvasir.Command
import Kvasir.Bridge
import Kvasir.BridgedServer
import Kvasir.LockedBridge
import Kvasir.Page
import Kvasir.Bench
import Kvasir.Measure
import Kvasir.Clock
import Kvasir.Proofs.ProtocolParse
import Kvasir.Proofs.Grammar
import Kvasir.Proofs.ShutdownSafety
import Kvasir.Proofs.ServerDrain
import Kvasir.Proofs.TerminatedLines
import Kvasir.Proofs.PairedReplies
import Kvasir.Proofs.Linearizable
import Kvasir.Proofs.DisjointKeys
import Kvasir.Proofs.KeyReach
import Kvasir.Proofs.CrlfValues
import Kvasir.Proofs.LockedRefinement
import Kvasir.Proofs.LockedProgress
import Kvasir.Proofs.LockedServing
import Kvasir.Proofs.LockedLinearizable
import Kvasir.Proofs.LockedDrain
import Kvasir.Proofs.Transcripts
import Kvasir.Proofs.HandlerAlone
import Kvasir.Proofs.HandlerWork
import Kvasir.Proofs.ServerBounds
import Kvasir.Proofs.CommandLifecycle
import Kvasir.Proofs.CommandExit
import Kvasir.Proofs.BridgeForwards
import Kvasir.Proofs.BridgeTransparent
import Kvasir.Proofs.BridgedServing
import Kvasir.Proofs.BridgedLinearizable
import Kvasir.Proofs.BridgedAvailability
import Kvasir.Proofs.LockedBridging
import Kvasir.Proofs.PageAgrees
import Kvasir.Proofs.PageDrawer
import Kvasir.Proofs.PageRows
import Kvasir.Proofs.BenchTimer
import Kvasir.Proofs.BenchReturns
import Kvasir.Proofs.BenchLatencies
import Kvasir.Proofs.BenchAgrees
import Kvasir.Proofs.BenchClients
import Kvasir.Proofs.Percentile
import Kvasir.Proofs.KeyNames
import Kvasir.Proofs.CountLists
import Kvasir.Proofs.WorkloadLists
import Kvasir.Proofs.ClockExact
