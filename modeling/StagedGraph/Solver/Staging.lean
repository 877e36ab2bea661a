import StagedGraph.Operators
import StagedGraph.Solver.Config
import StagedGraph.Solver.Kernels

/-!
# Staging conjugate gradients

The method of conjugate gradients as a program graph. With `A` the operator, `b` the right
side, `v` the solution, and three buffers of the solver's own, `r`, `p` and `mul_ans`:

    mul(x) { mul_ans := A x; return mul_ans }
    r := b - mul(v);  p := r;  d = p
    r_2 = r . r;  r_2_init = r_2;  r_2_new = r_2;  iter = 0
    if r_2_init > 0 {
      while iter < max_iters {
        iter = iter + 1
        q = mul(d)
        alpha = r_2_new / (d . q)
        v := v + alpha * d;  r := r + (-alpha) * q
        r_2 = r_2_new;  r_2_new = r . r
        if r_2_new <= r_2_init * epsilon^2 { break }
        beta = r_2_new / r_2
        d := r + beta * d
      }
    }
    x := x + dt * v

The last line is there only if a time step is set. Vectors are written in place by the
kernels; variables hold buffers and numbers.
-/

namespace StagedGraph.Solver

variable {R H : Type}

/-- The variables of the staged program. -/
structure Vars where
  d : Var
  q : Var
  r2 : Var
  r2Init : Var
  r2New : Var
  alpha : Var
  beta : Var
  iter : Var

/-- Adds the variables. -/
def Vars.make : Build R H Vars := do
  let d ← Build.var "d"
  let q ← Build.var "q"
  let r2 ← Build.var "r_2"
  let r2Init ← Build.var "r_2_init"
  let r2New ← Build.var "r_2_new"
  let alpha ← Build.var "alpha"
  let beta ← Build.var "beta"
  let iter ← Build.var "iter"
  return ⟨d, q, r2, r2Init, r2New, alpha, beta, iter⟩

/-- The buffers that the staged program works on. -/
structure Workspace where
  rhs : BufferId
  solution : BufferId
  residual : BufferId
  direction : BufferId
  product : BufferId
deriving DecidableEq, Repr

namespace Workspace

/-- The buffers of a system of this dimension, with three new ones that hold zeros. -/
def allocate [Scalar R] (rhs solution : BufferId) (dim : Nat) (h : Heap R) : Workspace × Heap R :=
  let zeros := List.replicate dim Scalar.zero
  let (residual, h) := h.alloc zeros
  let (direction, h) := h.alloc zeros
  let (product, h) := h.alloc zeros
  (⟨rhs, solution, residual, direction, product⟩, h)

/-- The buffers of a workspace. -/
def all (w : Workspace) : List BufferId := [w.rhs, w.solution, w.residual, w.direction, w.product]

end Workspace

/-- What the parts of the staged program refer to. -/
structure Parts where
  ops : Operators
  kernels : Kernels
  vars : Vars
  buffers : Workspace

namespace Parts

/-- The function that applies the operator, and the statement that defines it. -/
def stageMul (c : Parts) : Build R H (FuncId × Stmt) := do
  let x ← Build.var "x"
  let mul ← Build.func "mul" [x]
  let answer ← Build.literal (.buffer c.buffers.product)
  let apply ← Build.call c.kernels.matvec [answer, x.expr]
  Build.pushBody mul (.expr apply)
  Build.pushBody mul (.returnValue (some answer))
  let definition ← Build.sealFunc mul
  return (mul, definition)

/-- The statements before the loop. -/
def stageSetup [Scalar R] (c : Parts) (root : BlockId) (mul : FuncId) : Build R H Unit := do
  let r ← Build.literal (.buffer c.buffers.residual)
  let b ← Build.literal (.buffer c.buffers.rhs)
  let v ← Build.literal (.buffer c.buffers.solution)
  let p ← Build.literal (.buffer c.buffers.direction)
  let minusOne ← Build.literal (.float (Scalar.ofInt64 (-1)))
  let product ← Build.apply mul [v]
  let residual ← Build.call c.kernels.axpy [r, b, minusOne, product]
  Build.push root (.expr residual)
  let copy ← Build.call c.kernels.copy [p, r]
  Build.push root (.expr copy)
  Build.push root (.assign c.vars.d.name p)
  let norm ← Build.call c.kernels.dot [r, r]
  Build.push root (.assign c.vars.r2.name norm)
  Build.push root (.assign c.vars.r2Init.name c.vars.r2.expr)
  Build.push root (.assign c.vars.r2New.name c.vars.r2.expr)
  let zero ← Build.literal (.int 0)
  Build.push root (.assign c.vars.iter.name zero)

/-- The loop, with the block of its body. -/
def stageLoop [Scalar R] (c : Parts) (config : Config R) (mul : FuncId) : Build R H Stmt := do
  let ops := c.ops
  let vars := c.vars
  let r ← Build.literal (.buffer c.buffers.residual)
  let v ← Build.literal (.buffer c.buffers.solution)
  let body ← Build.block
  let step ← Build.increment vars.iter (ops.id .add)
  Build.push body step
  let product ← Build.apply mul [vars.d.expr]
  Build.push body (.assign vars.q.name product)
  let curvature ← Build.call c.kernels.dot [vars.d.expr, vars.q.expr]
  let quotient ← Build.call (ops.id .div) [vars.r2New.expr, curvature]
  Build.push body (.assign vars.alpha.name quotient)
  let updateV ← Build.call c.kernels.axpy [v, v, vars.alpha.expr, vars.d.expr]
  Build.push body (.expr updateV)
  let minusAlpha ← Build.neg vars.alpha.expr
  let updateR ← Build.call c.kernels.axpy [r, r, minusAlpha, vars.q.expr]
  Build.push body (.expr updateR)
  Build.push body (.assign vars.r2.name vars.r2New.expr)
  let norm ← Build.call c.kernels.dot [r, r]
  Build.push body (.assign vars.r2New.name norm)
  let tolerance ← Build.literal (.float (config.epsilon * config.epsilon))
  let threshold ← Build.call (ops.id .mul) [vars.r2Init.expr, tolerance]
  let converged ← Build.call (ops.id .le) [vars.r2New.expr, threshold]
  let stop ← Build.block
  Build.push stop .breakLoop
  Build.push body (.ifThen converged stop)
  let ratio ← Build.call (ops.id .div) [vars.r2New.expr, vars.r2.expr]
  Build.push body (.assign vars.beta.name ratio)
  let updateD ← Build.call c.kernels.axpy [vars.d.expr, r, vars.beta.expr, vars.d.expr]
  Build.push body (.expr updateD)
  let limit ← Build.literal (.int (Int64.ofNat config.maxIters.toNat))
  let cond ← Build.call (ops.id .lt) [vars.iter.expr, limit]
  return .whileLoop cond body

/-- The statement that advances the position. -/
def stageAdvance (c : Parts) (root : BlockId) (dt : R) (position : BufferId) : Build R H Unit := do
  let x ← Build.literal (.buffer position)
  let step ← Build.literal (.float dt)
  let v ← Build.literal (.buffer c.buffers.solution)
  let advance ← Build.call c.kernels.axpy [x, x, step, v]
  Build.push root (.expr advance)

/-- The whole program; yields its root. -/
def stage [Scalar R] (c : Parts) (config : Config R) (position : Option (R × BufferId)) :
    Build R H BlockId := do
  let root ← Build.block
  let (mul, definition) ← c.stageMul
  Build.push root definition
  c.stageSetup root mul
  let zero ← Build.literal (.float Scalar.zero)
  let nonzero ← Build.call (c.ops.id .gt) [c.vars.r2Init.expr, zero]
  let guarded ← Build.block
  let iterate ← c.stageLoop config mul
  Build.push guarded iterate
  Build.push root (.ifThen nonzero guarded)
  match position with
  | some (dt, x) => c.stageAdvance root dt x
  | none => pure ()
  return root

end Parts

/-- The program that solves with an operator on these buffers, and its root. -/
def stagedProgram [Scalar R] (operator : LinearOperator R) (config : Config R) (buffers : Workspace)
    (position : Option (R × BufferId)) : BlockId × Program R (Heap R) :=
  let build : Build R (Heap R) BlockId := do
    let ops ← Operators.register
    let kernels ← Kernels.register id operator
    let vars ← Vars.make
    Parts.stage ⟨ops, kernels, vars, buffers⟩ config position
  build.run Program.empty

end StagedGraph.Solver
