import StagedGraph.Solver.Staging

/-!
# The staged solver

A solver is staged once for a system and its settings and may then run many times. Staging
checks the lengths of the buffers and allocates three of its own; a run executes the staged
program on the buffers as they are and reports from the bindings that it leaves.
-/

namespace StagedGraph.Solver

variable {R : Type}

/-- A solver: the program and its root, the buffer of the solution and the tolerance. -/
structure Staged (R : Type) where
  program : Program R (Heap R)
  root : BlockId
  solution : BufferId
  epsilon : R

/-- Refuses a buffer whose length is not the operator's dimension. -/
def checkLength (h : Heap R) (name : String) (dim : Nat) (b : BufferId) : Except SolverError Unit :=
  if h.length b = dim then .ok () else .error (.dimensionMismatch name dim (h.length b))

/-- The position update that the settings ask for. A position without a time step is left
alone; a time step without a position is refused. -/
def positionUpdate (h : Heap R) (dim : Nat) : Option R → Option BufferId →
    Except SolverError (Option (R × BufferId))
  | some dt, some x => (checkLength h "position" dim x).map fun _ => some (dt, x)
  | some _, none => .error .missingPosition
  | none, _ => .ok none

/-- Stages a solver; its own buffers are new and hold zeros. -/
def stage [Scalar R] (system : System R) (config : Config R) (h : Heap R) :
    Except SolverError (Staged R × Heap R) := do
  let dim := system.operator.dim
  checkLength h "rhs" dim system.rhs
  checkLength h "solution" dim system.solution
  let position ← positionUpdate h dim config.dt system.position
  let (buffers, h) := Workspace.allocate system.rhs system.solution dim h
  let staged := stagedProgram system.operator config buffers position
  return (⟨staged.2, staged.1, system.solution, config.epsilon⟩, h)

/-- The number bound to a name. -/
def boundScalar [Scalar R] (bs : Bindings R) (name : String) : Except SolverError R :=
  match (bs.find? name).bind Value.toScalar? with
  | some x => .ok x
  | none => .error (.missingResult name)

/-- The count of iterations, in 32 bits. -/
def boundCount (bs : Bindings R) (name : String) : Except SolverError UInt32 :=
  match (bs.find? name).bind Value.toInt64? with
  | some n =>
    if 0 ≤ n.toInt ∧ n.toInt < UInt32.size then .ok (UInt32.ofNat n.toInt.toNat)
    else .error (.missingResult name)
  | none => .error (.missingResult name)

/-- Whether `x` is smaller than `y` or equal to it. -/
def atMost [Scalar R] (x y : R) : Bool := (Scalar.compare? x y).any Ordering.isLE

/-- The report on the bindings that a run left. -/
def report [Scalar R] (bs : Bindings R) (epsilon : R) : Except SolverError (Report R) := do
  let iterations ← boundCount bs "iter"
  let residualSq ← boundScalar bs "r_2_new"
  let initialSq ← boundScalar bs "r_2_init"
  return ⟨iterations, residualSq, atMost residualSq (initialSq * epsilon * epsilon)⟩

namespace Staged

/-- Runs a solver on the buffers. -/
def run [Scalar R] (s : Staged R) (fuel : Nat) (h : Heap R) : Except SolverError (Report R) × Heap R :=
  match s.program.execute .default fuel s.root h with
  | (.ok bs, h) => (report bs s.epsilon, h)
  | (.error why, h) => (.error (.stopped why), h)

/-- The dump of the staged program. -/
def dump (s : Staged R) : Except SolverError String := (s.program.print s.root).mapError .print

end Staged

end StagedGraph.Solver
