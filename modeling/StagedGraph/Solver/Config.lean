import StagedGraph.Dump.Printer
import StagedGraph.Execution
import StagedGraph.Solver.Operator

/-!
# Systems, settings and errors of the solver

What the conjugate-gradient solver is given, what it reports, and why it may refuse.
-/

namespace StagedGraph.Solver

/-- A linear system `operator * solution = rhs`. The solution's buffer holds the first guess
and takes the answer; a position may follow it. -/
structure System (R : Type) where
  operator : LinearOperator R
  rhs : BufferId
  solution : BufferId
  position : Option BufferId

/-- The settings of a solve: at most `maxIters` iterations; it has converged once the squared
residual is down to `epsilon` squared times its first value; and after a solve the position,
if a time step is set, advances by the time step times the solution. -/
structure Config (R : Type) where
  maxIters : UInt32
  epsilon : R
  dt : Option R

/-- At most fifty iterations, a relative tolerance of `10 ^ -6`, and no position. -/
def Config.default : Config Float := ⟨50, 1e-6, none⟩

/-- What a solve reports. -/
structure Report (R : Type) where
  iterations : UInt32
  residualSq : R
  converged : Bool
deriving DecidableEq

/-- Why a solver was not made or a solve has no report. -/
inductive SolverError where
  | dimensionMismatch (buffer : String) (expected got : Nat)
  | missingPosition
  | missingResult (name : String)
  | stopped (why : Stop)
  | print (e : PrintError)
deriving DecidableEq, Repr

/-- The text of a solver's error. -/
def SolverError.message : SolverError → String
  | dimensionMismatch buffer expected got =>
    s!"`{buffer}` has length {got}, operator dimension is {expected}"
  | missingPosition => "a position update was configured but no position buffer was given"
  | missingResult name => s!"execution left `{name}` unbound or of the wrong kind"
  | stopped (.error e) => e.fault.message
  | stopped .aborted => "a native aborted"
  | stopped .outOfFuel => "the run was not finished"
  | print e => e.message

end StagedGraph.Solver
