import OpSuccinct.TransitionRuns
import OpSuccinct.CallFrames
import OpSuccinct.ForeignCalls
import OpSuccinct.ChainLock
import OpSuccinct.CheckedArith
import OpSuccinct.ByteWords
import OpSuccinct.Evm
import OpSuccinct.FaultGame
import OpSuccinct.FaultGameSteps
import OpSuccinct.FaultGameOutcome
import OpSuccinct.FaultGameBonds
import OpSuccinct.FaultGameTerminal
import OpSuccinct.FaultGameTree
import OpSuccinct.FaultGameRegistry
import OpSuccinct.L2OutputOracle
import OpSuccinct.L2OutputChain
import OpSuccinct.L2OutputOrder
import OpSuccinct.L2OutputPreRoot
import OpSuccinct.FallibleScan
import OpSuccinct.GameScan
import OpSuccinct.ProposalScan
import OpSuccinct.ProposalParent
import OpSuccinct.LoopRuns
import OpSuccinct.BootInfo
import OpSuccinct.RangeDriver
import OpSuccinct.RangeProgram
import OpSuccinct.AggregationProgram
import OpSuccinct.PublicValues
import OpSuccinct.Settlement
import OpSuccinct.SettlementRuns
import OpSuccinct.IntervalLists
import OpSuccinct.IntervalTilings
import OpSuccinct.WorkerFleet
import OpSuccinct.BlockRanges
import OpSuccinct.RequestsDb
import OpSuccinct.Proposer
import OpSuccinct.AggregationHost
import OpSuccinct.AggregationAgreement
import OpSuccinct.ProposerTasks
import OpSuccinct.ProposerSteps
import OpSuccinct.ProposerLifeCycle
import OpSuccinct.ProposerRanges
import OpSuccinct.RangeCoverage
import OpSuccinct.RangeChunks
import OpSuccinct.AggregationChain
import OpSuccinct.FulfilledProofs
import OpSuccinct.RequestVersions
import OpSuccinct.CompletedRequests
import OpSuccinct.ProvingWorld
import OpSuccinct.MadeProofs
import OpSuccinct.CloneArgs
import OpSuccinct.GameArguments
import OpSuccinct.WitnessReplay
import OpSuccinct.GameDefense
import OpSuccinct.ValidityGames
import OpSuccinct.GameResolution
import OpSuccinct.RelayedProofs
import OpSuccinct.CheckpointedHeads
import OpSuccinct.GapFinding
import OpSuccinct.BlobRequests
import OpSuccinct.L2OutputDeletion
import OpSuccinct.L2OutputLookup
import OpSuccinct.L2OutputFallback
import OpSuccinct.AccessManager
import OpSuccinct.BondSolvency
import OpSuccinct.CreditView
import OpSuccinct.BondScan
import OpSuccinct.RangeCursor
import OpSuccinct.JobBoard
import OpSuccinct.FaultTasks
import OpSuccinct.FaultTaskMoves
import OpSuccinct.FaultTaskRuns
import OpSuccinct.Bisection
import OpSuccinct.DataFetcher
import OpSuccinct.BlockByTimestamp
import OpSuccinct.SafeL1Head
import OpSuccinct.OrderedWindows
import OpSuccinct.Blobstream
import OpSuccinct.CelestiaSearch
import OpSuccinct.SpanBatches
import OpSuccinct.GameWindows
import OpSuccinct.InFlight
import OpSuccinct.ProofConversion
import OpSuccinct.DisputeSafety
import OpSuccinct.DisputeProgress
import OpSuccinct.ProvenOutputs
import OpSuccinct.ProvenGames
import OpSuccinct.BondAwards
import OpSuccinct.OldestFirst
import OpSuccinct.ChallengerRuns
import OpSuccinct.WitnessSoundness
import OpSuccinct.RequestMoves
import OpSuccinct.ProposerLimits
import OpSuccinct.AggregationRequests
import OpSuccinct.SharedDatabase
import OpSuccinct.HonestProposals
import OpSuccinct.BondClaims
import OpSuccinct.TodoList
