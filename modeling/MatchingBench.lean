import MatchingBench.Correctness
import MatchingBench.Harness.Marshalling
import MatchingBench.Harness.Dispatch
import MatchingBench.Harness.Audit
import MatchingBench.Harness.Drainer
import MatchingBench.Reference
import MatchingBench.Baselines.QuantCup
import MatchingBench.Baselines.Liquibook
import MatchingBench.Baselines.LiquibookRefinement
import MatchingBench.Pgellert.ReportCount
import MatchingBench.Pgellert.Reconstruction
import MatchingBench.Baselines.QuantCupRefinement
import MatchingBench.Baselines.LadderCores
import MatchingBench.Baselines.Agreement
import MatchingBench.Baselines.Validation
import MatchingBench.Baselines.ExchangeCoreRefinement
import MatchingBench.Baselines.ExchangeCoreValidation
import MatchingBench.Cheats.QueryDrain
import MatchingBench.Cheats.Replay
import MatchingBench.Lib.Serving
import MatchingBench.Lib.Draws
import MatchingBench.Workload.Generator
import MatchingBench.Workload.Structure
import MatchingBench.Lib.Levels
import MatchingBench.Lib.TextScan
import MatchingBench.Oracles.BookDump
import MatchingBench.Oracles.CppOrderbook
import MatchingBench.Oracles.CppOrderbookRefinement
import MatchingBench.Oracles.HroptatyrClob
import MatchingBench.Oracles.HroptatyrClobRefinement
import MatchingBench.Oracles.Llc993
import MatchingBench.Oracles.Llc993Refinement
import MatchingBench.Oracles.LadderCores
import MatchingBench.Oracles.Agreement
import MatchingBench.Lib.Json
import MatchingBench.Lib.JsonText
import MatchingBench.Lib.LittleEndian
import MatchingBench.Workload.File
import MatchingBench.Canonical.CheatAdapter
import MatchingBench.Lib.Grouping
import MatchingBench.Lib.PythonText
import MatchingBench.Canonical.ExplainDivergence
import MatchingBench.Harness.ReferenceHash
import MatchingBench.Scripts.ConformanceCheck
import MatchingBench.Harness.CommandLine
import MatchingBench.Harness.ResultFile
import MatchingBench.Scripts.EdgeCases
import MatchingBench.Scripts.Certification
import MatchingBench.Lib.ByteBuffer
import MatchingBench.Baselines.ExchangeCore
import MatchingBench.Baselines.ExchangeCoreStage
import MatchingBench.Baselines.ExchangeCoreBatch
import MatchingBench.Baselines.ExchangeCorePriceTime
import MatchingBench.Baselines.ExchangeCoreDelivery
import MatchingBench.Baselines.ExchangeCoreCapacity
import MatchingBench.Scripts.ValidateSeeds
import MatchingBench.Scripts.ValidateSeedsAccounting
import MatchingBench.Workload.Arrivals
import MatchingBench.Workload.Lifetimes
import MatchingBench.Workload.Loaded
import MatchingBench.Workload.Bounds
import MatchingBench.AdditionalReferences
import MatchingBench.Lib.Shell
import MatchingBench.Harness.WorkloadCache
import MatchingBench.Workload.Prices
import MatchingBench.Pgellert.Lifecycles
import MatchingBench.Pgellert.ModifyRule
import MatchingBench.Pgellert.FifoBookRuns
import MatchingBench.Baselines.QuantCupAlignment
import MatchingBench.Baselines.LiquibookTables
import MatchingBench.Scripts.LoadPublished
import MatchingBench.Scripts.HashReaders
import MatchingBench.Canonical.Sha256
import MatchingBench.Harness.Deliveries
import MatchingBench.Harness.Verdict
import MatchingBench.Harness.Contract
import MatchingBench.Harness.SharedLibrary
import MatchingBench.Harness.Printed
import MatchingBench.Scripts.RunChallenge
import MatchingBench.Scripts.ChallengeVerdict
import MatchingBench.Scripts.WorstCase
