import StagedGraph.CommandLine
import StagedGraph.Decimal.Binary
import StagedGraph.Decimal.Layout
import StagedGraph.Decimal.Nearest
import StagedGraph.Decimal.Reader
import StagedGraph.Decimal.Shortest
import StagedGraph.Dump.Emitter
import StagedGraph.Dump.Printer
import StagedGraph.Environment
import StagedGraph.EvalError
import StagedGraph.Execution
import StagedGraph.Flow
import StagedGraph.Graph.Basic
import StagedGraph.Graph.Builder
import StagedGraph.Graph.EntryText
import StagedGraph.Graph.Walk
import StagedGraph.Heap
import StagedGraph.Interpreter
import StagedGraph.Journal
import StagedGraph.Main
import StagedGraph.Name
import StagedGraph.NameMap
import StagedGraph.Native
import StagedGraph.Operators
import StagedGraph.Proofs.Acceptance
import StagedGraph.Proofs.Backtraces
import StagedGraph.Proofs.BigSteps
import StagedGraph.Proofs.BodyEntries
import StagedGraph.Proofs.BuilderHistory
import StagedGraph.Proofs.Building
import StagedGraph.Proofs.CallOrder
import StagedGraph.Proofs.CompleteResults
import StagedGraph.Proofs.Confinement
import StagedGraph.Proofs.CountDown
import StagedGraph.Proofs.DeadStatements
import StagedGraph.Proofs.DumpLines
import StagedGraph.Proofs.DumpStructure
import StagedGraph.Proofs.FirstCycle
import StagedGraph.Proofs.FirstDefect
import StagedGraph.Proofs.FrameBindings
import StagedGraph.Proofs.Fuel
import StagedGraph.Proofs.FunctionBuilders
import StagedGraph.Proofs.Interning
import StagedGraph.Proofs.Levels
import StagedGraph.Proofs.LoopExits
import StagedGraph.Proofs.LoopScopes
import StagedGraph.Proofs.LoopTests
import StagedGraph.Proofs.NativeFailures
import StagedGraph.Proofs.Nesting
import StagedGraph.Proofs.OperatorCalls
import StagedGraph.Proofs.PlainPrinting
import StagedGraph.Proofs.Printing
import StagedGraph.Proofs.Reentry
import StagedGraph.Proofs.Results
import StagedGraph.Proofs.RunLaws
import StagedGraph.Proofs.RunningSum
import StagedGraph.Proofs.ScopeStacks
import StagedGraph.Proofs.ScopeTrees
import StagedGraph.Proofs.ScopeWays
import StagedGraph.Proofs.SelfDefinition
import StagedGraph.Proofs.SideBySide
import StagedGraph.Proofs.Solver.Aborts
import StagedGraph.Proofs.Solver.AliasedKernels
import StagedGraph.Proofs.Solver.ConjugateDirections
import StagedGraph.Proofs.Solver.Convergence
import StagedGraph.Proofs.Solver.DenseLayout
import StagedGraph.Proofs.Solver.Direct
import StagedGraph.Proofs.Solver.Exact
import StagedGraph.Proofs.Solver.Operands
import StagedGraph.Proofs.Solver.Phrases
import StagedGraph.Proofs.Solver.Refinement
import StagedGraph.Proofs.Solver.Refusals
import StagedGraph.Proofs.Solver.Reruns
import StagedGraph.Proofs.Solver.Residuals
import StagedGraph.Proofs.Solver.Reuse
import StagedGraph.Proofs.Solver.Simulation
import StagedGraph.Proofs.Solver.StagedText
import StagedGraph.Proofs.Termination
import StagedGraph.Proofs.Trees
import StagedGraph.Proofs.VerificationEnds
import StagedGraph.Proofs.VerifierState
import StagedGraph.Proofs.Visits
import StagedGraph.Run
import StagedGraph.Scalar
import StagedGraph.Scope
import StagedGraph.Solver.Config
import StagedGraph.Solver.Kernels
import StagedGraph.Solver.Operator
import StagedGraph.Solver.Staged
import StagedGraph.Solver.Staging
import StagedGraph.Text.Hidden
import StagedGraph.Text.Quoted
import StagedGraph.Value
import StagedGraph.Verifier
