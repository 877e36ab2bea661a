import StagedGraph.Graph.Builder
import StagedGraph.Solver.Operator

/-!
# Vector kernels

The natives on buffers that a staged solver uses. A kernel is a sequence of steps on the buffers.
It checks its arguments from left to right and their lengths after that; it reads all its
operands before it writes, so that the buffer written may be one of the buffers read. A kernel that
refuses its arguments hands back the buffers as they are by then.
-/

namespace StagedGraph

namespace Kernel

variable {R : Type}

/-- Why a kernel does not finish. -/
inductive Refusal where
  | failed (message : String)
  | aborted
deriving DecidableEq, Repr

/-- A step of a kernel. What was written before a refusal stays written. -/
abbrev Step (R : Type) := EStateM Refusal (Heap R)

/-- The buffer that stands as argument `i`. -/
def bufferArg (kernel : String) (args : List (Value R)) (i : Nat) : Step R BufferId :=
  match args[i]?.bind Value.toBuffer? with
  | some b => pure b
  | none => throw (.failed s!"`{kernel}` expects a buffer as argument {i}")

/-- The number that stands as argument `i`. -/
def scalarArg [Scalar R] (kernel : String) (args : List (Value R)) (i : Nat) : Step R R :=
  match args[i]?.bind Value.toScalar? with
  | some x => pure x
  | none => throw (.failed s!"`{kernel}` expects a number as argument {i}")

/-- Refuses two lengths that differ. -/
def sameLength (kernel : String) (expected got : Nat) : Step R Unit :=
  if expected = got then pure ()
  else throw (.failed s!"`{kernel}` length mismatch: {expected} vs {got}")

/-- The number of entries of a buffer, now. -/
def length (b : BufferId) : Step R Nat := fun h => .ok (h.length b) h

/-- The contents of a buffer, now. -/
def read (b : BufferId) : Step R (List R) := fun h => .ok (h.read b) h

/-- Replaces the contents of a buffer. -/
def write (b : BufferId) (xs : List R) : Step R Unit := fun h => .ok () (h.write b xs)

/-- `ans := a + k * b`, entry by entry. -/
def axpy [Scalar R] (args : List (Value R)) : Step R (Value R) := do
  let ans ← bufferArg "axpy" args 0
  let a ← bufferArg "axpy" args 1
  let k ← scalarArg "axpy" args 2
  let b ← bufferArg "axpy" args 3
  sameLength "axpy" (← length ans) (← length a)
  sameLength "axpy" (← length ans) (← length b)
  write ans (List.zipWith (fun x y => x + k * y) (← read a) (← read b))
  return .void

/-- The sum of the products of the entries of two buffers. -/
def dot [Scalar R] (args : List (Value R)) : Step R (Value R) := do
  let a ← bufferArg "dot" args 0
  let b ← bufferArg "dot" args 1
  sameLength "dot" (← length a) (← length b)
  return .float (Scalar.dot (← read a) (← read b))

/-- `dst := src`. -/
def copy (args : List (Value R)) : Step R (Value R) := do
  let dst ← bufferArg "copy" args 0
  let src ← bufferArg "copy" args 1
  sameLength "copy" (← length dst) (← length src)
  write dst (← read src)
  return .void

/-- `out := op x`. -/
def matvec (op : LinearOperator R) (args : List (Value R)) : Step R (Value R) := do
  let out ← bufferArg "matvec" args 0
  let x ← bufferArg "matvec" args 1
  sameLength "matvec" op.dim (← length x)
  sameLength "matvec" op.dim (← length out)
  match op.apply (← read x) with
  | some y =>
    write out y
    return .void
  | none => throw .aborted

/-- What a kernel yields as a native, and the buffers after it. -/
def outcome : EStateM.Result Refusal (Heap R) (Value R) → NativeOutcome R × Heap R
  | .ok v h => (.value v, h)
  | .error (.failed message) h => (.failed message, h)
  | .error .aborted h => (.aborted, h)

/-- A kernel as a native of the buffers. -/
def native (name : String) (arity : Nat) (kernel : List (Value R) → Step R (Value R)) :
    Native R (Heap R) :=
  ⟨name, .fixed arity, fun args h => outcome (kernel args h)⟩

end Kernel

/-- The kernels of a program. -/
structure Kernels where
  axpy : NativeId
  dot : NativeId
  copy : NativeId
  matvec : NativeId
deriving DecidableEq, Repr

/-- Registers the kernels, those of an operator among them, as natives of a host of which
the buffers are a part. -/
def Kernels.register {R H : Type} [Scalar R] (embed : Native R (Heap R) → Native R H)
    (op : LinearOperator R) : Build R H Kernels := do
  let axpy ← Build.native (embed (Kernel.native "axpy" 4 Kernel.axpy))
  let dot ← Build.native (embed (Kernel.native "dot" 2 Kernel.dot))
  let copy ← Build.native (embed (Kernel.native "copy" 2 Kernel.copy))
  let matvec ← Build.native (embed (Kernel.native "matvec" 2 (Kernel.matvec op)))
  return ⟨axpy, dot, copy, matvec⟩

end StagedGraph
