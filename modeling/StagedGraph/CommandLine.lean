import StagedGraph.Decimal.Reader
import StagedGraph.Solver.Staged

/-!
# The command line

The command solves a model problem: the tridiagonal matrix of a given dimension with 4 on
the diagonal and -1 beside it, a right side of ones, a first guess of zeros. Options are
read from left to right; a later one overrides an earlier one, and the first that cannot be
read ends the command.
-/

namespace StagedGraph.CommandLine

open StagedGraph.Solver

/-- How the command ends. -/
inductive Exit where
  | success
  | failure
  | aborted
deriving DecidableEq, Repr

/-- The number that a command ends with. -/
def Exit.code : Exit → UInt8
  | success => 0
  | failure => 1
  | aborted => 101

/-- What the command wrote, and how it ended. -/
structure Transcript where
  exit : Exit
  stdout : String
  stderr : String
deriving DecidableEq, Repr

/-- What the options ask for. -/
structure Options where
  config : Config Float
  dim : UInt64
  dump : Bool

/-- The options of a command without arguments. -/
def Options.default : Options := ⟨Config.default, 8, false⟩

/-- The line that explains the options. -/
def usage : String := "Usage: cgraph-cg [--dim N] [--max-iters N] [--epsilon E] [--dump]\n"

/-- Sets the option behind a flag that takes a value; the outer `none` is for a flag that
takes none, the inner one for a value that cannot be read. -/
def Options.set? (o : Options) (flag value : String) : Option (Option Options) :=
  if flag = "--dim" then
    some ((Decimal.readNat? (UInt64.size - 1) value).map fun n =>
      { o with dim := UInt64.ofNat n })
  else if flag = "--max-iters" then
    some ((Decimal.readNat? (UInt32.size - 1) value).map fun n =>
      { o with config := { o.config with maxIters := UInt32.ofNat n } })
  else if flag = "--epsilon" then
    some ((Decimal.readFloat? value).map fun x => { o with config := { o.config with epsilon := x } })
  else none

/-- Whether a flag takes a value. -/
def takesValue (flag : String) : Bool :=
  flag = "--dim" || flag = "--max-iters" || flag = "--epsilon"

/-- Reads the options, or ends the command. -/
def parse (o : Options) : List String → Except Transcript Options
  | [] => .ok o
  | [arg] =>
    if arg = "--dump" then .ok { o with dump := true }
    else if takesValue arg then .error ⟨.failure, "", s!"missing value for {arg}\n"⟩
    else if arg = "-h" ∨ arg = "--help" then .error ⟨.success, "", usage⟩
    else .error ⟨.failure, "", s!"unknown argument: {arg}\n" ++ usage⟩
  | arg :: value :: rest =>
    if arg = "--dump" then parse { o with dump := true } (value :: rest)
    else
      match o.set? arg value with
      | some (some o) => parse o rest
      | some none => .error ⟨.failure, "", s!"invalid value for {arg}: {value}\n"⟩
      | none =>
        if arg = "-h" ∨ arg = "--help" then .error ⟨.success, "", usage⟩
        else .error ⟨.failure, "", s!"unknown argument: {arg}\n" ++ usage⟩

/-- The lines of a report and its solution. -/
def reportText (r : Report Float) (solution : List Float) : String :=
  let converged := if r.converged then "true" else "false"
  let residual := Layout.scientific.float r.residualSq
  s!"iterations: {r.iterations}, residual^2: {residual}, converged: {converged}\n"
    ++ "solution: " ++ vectorText solution ++ "\n"

/-- What a solver's error writes: its message and the functions being executed. -/
def errorText (e : SolverError) : String :=
  let trace := match e with
    | .stopped (.error e) => traceText e.trace
    | _ => ""
  s!"error: {e.message}\n" ++ trace

/-- Ends the command for a solver's error. -/
def refuse (stdout : String) (e : SolverError) : Transcript :=
  match e with
  | .stopped .aborted => ⟨.aborted, stdout, "a native aborted\n"⟩
  | e => ⟨.failure, stdout, errorText e⟩

/-- Solves the model problem that the options describe; it aborts where the matrix of the
problem cannot be made. -/
def solve (o : Options) (fuel : Nat) : Transcript :=
  match DenseMatrix.tridiagonal? o.dim (4 : Float) (-1) with
  | none => ⟨.aborted, "", "the matrix is too large\n"⟩
  | some matrix =>
    let h := Heap.empty
    let (rhs, h) := h.alloc (List.replicate o.dim.toNat 1)
    let (solution, h) := h.alloc (List.replicate o.dim.toNat 0)
    match stage ⟨matrix.toOperator, rhs, solution, none⟩ o.config h with
    | .error e => refuse "" e
    | .ok (solver, h) =>
      match if o.dump then solver.dump else .ok "" with
      | .error e => refuse "" e
      | .ok text =>
        match solver.run fuel h with
        | (.ok report, h) => ⟨.success, text ++ reportText report (h.read solution), ""⟩
        | (.error e, _) => refuse text e

/-- More fuel than a run can spend that ends in anybody's lifetime. -/
def ampleFuel : Nat := UInt64.size / 4

/-- The command with these arguments. -/
def command (args : List String) (fuel : Nat) : Transcript :=
  match parse .default args with
  | .error t => t
  | .ok o => solve o fuel

end StagedGraph.CommandLine
