import Mathlib.Data.List.Permutation
import StagedGraph.Proofs.Trees
import StagedGraph.Solver.Staged

/-!
# The text of the staged program

Staging adds entries to the tables of a program. What it adds up to is the program in the
head of the staging module, which is spelled out here as trees. The staged root unfolds into
exactly that text (`stagedText_at`), and the names, the natives and the one function of the
text are those that it is meant to have (`Meant`).
-/

namespace StagedGraph.Solver

variable {R : Type}

namespace Text

/-! ### Words -/

def d : Name := ⟨1⟩
def q : Name := ⟨2⟩
def r2 : Name := ⟨3⟩
def r2Init : Name := ⟨4⟩
def r2New : Name := ⟨5⟩
def alpha : Name := ⟨6⟩
def beta : Name := ⟨7⟩
def iter : Name := ⟨8⟩
def x : Name := ⟨9⟩

def axpy : NativeId := ⟨9⟩
def dot : NativeId := ⟨10⟩
def copy : NativeId := ⟨11⟩
def matvec : NativeId := ⟨12⟩

/-- The function that applies the operator. -/
def mul : FuncId := ⟨0⟩

/-- The native of an operator. -/
def native (o : Operator) : NativeId := ⟨o.index⟩

/-- A buffer. -/
def buffer (b : BufferId) : Term R := .literal (.buffer b)

/-- A number. -/
def number (k : R) : Term R := .literal (.float k)

/-- A call of a native. -/
def call (n : NativeId) (args : List (Term R)) : Term R := .invoke (.native n) args

/-- A call of the function that applies the operator. -/
def product (t : Term R) : Term R := .invoke (.callable mul) [t]

/-! ### Sentences -/

variable [Scalar R] (config : Config R) (w : Workspace)

/-- The body of the function that applies the operator. -/
def mulBody : List (Code R) :=
  [ .expr (call matvec [buffer w.product, .var x]),
    .returnValue (buffer w.product) ]

/-- What comes before the loop. -/
def setup : List (Code R) :=
  [ .funcDef mul [x] (mulBody w),
    .expr (call axpy [buffer w.residual, buffer w.rhs, number (Scalar.ofInt64 (-1)),
      product (buffer w.solution)]),
    .expr (call copy [buffer w.direction, buffer w.residual]),
    .assign d (buffer w.direction),
    .assign r2 (call dot [buffer w.residual, buffer w.residual]),
    .assign r2Init (.var r2),
    .assign r2New (.var r2),
    .assign iter (.literal (.int 0)) ]

/-- The count goes up, and the operator is applied to the direction. -/
def apply : List (Code R) :=
  [ .assign iter (call (native .add) [.var iter, .literal (.int 1)]),
    .assign q (product (.var d)) ]

/-- The length of the step. -/
def measure : Code R :=
  .assign alpha (call (native .div) [.var r2New, call dot [.var d, .var q]])

/-- The step, and the squared residual after it. -/
def move : List (Code R) :=
  [ .expr (call axpy [buffer w.solution, buffer w.solution, .var alpha, .var d]),
    .expr (call axpy [buffer w.residual, buffer w.residual, .neg (.var alpha), .var q]),
    .assign r2 (.var r2New),
    .assign r2New (call dot [buffer w.residual, buffer w.residual]) ]

/-- The way out of the loop. -/
def stop : Code R :=
  .ifThen (call (native .le) [.var r2New,
      call (native .mul) [.var r2Init, number (config.epsilon * config.epsilon)]])
    [.breakLoop]

/-- How much of the direction is kept. -/
def weigh : Code R := .assign beta (call (native .div) [.var r2New, .var r2])

/-- The next direction. -/
def turn : Code R := .expr (call axpy [.var d, buffer w.residual, .var beta, .var d])

/-- The end of an iteration. -/
def finish : List (Code R) := [stop config, weigh, turn w]

/-- The body of the loop. -/
def body : List (Code R) := apply ++ measure :: (move w ++ finish config w)

/-- The loop. -/
def iterate : Code R :=
  .whileLoop (call (native .lt) [.var iter, .literal (.int (Int64.ofNat config.maxIters.toNat))])
    (body config w)

/-- The loop, unless the residual is zero. -/
def guarded : Code R :=
  .ifThen (call (native .gt) [.var r2Init, number Scalar.zero]) [iterate config w]

/-- The step of the position, if there is one. -/
def advance : Option (R × BufferId) → List (Code R)
  | some (dt, position) =>
    [.expr (call axpy [buffer position, buffer position, number dt, buffer w.solution])]
  | none => []

end Text

variable [Scalar R]

/-- The staged program as it is meant to read. -/
def stagedText (config : Config R) (w : Workspace) (position : Option (R × BufferId)) :
    List (Code R) :=
  Text.setup w ++ Text.guarded config w :: Text.advance w position

/-- What the words of the text stand for in a program. -/
structure Meant (p : Program R (Heap R)) (op : LinearOperator R) (w : Workspace) : Prop where
  operators : ∀ o, p.native (Text.native o) = Operator.native o
  axpy : p.native Text.axpy = Kernel.native "axpy" 4 Kernel.axpy
  dot : p.native Text.dot = Kernel.native "dot" 2 Kernel.dot
  copy : p.native Text.copy = Kernel.native "copy" 2 Kernel.copy
  matvec : p.native Text.matvec = Kernel.native "matvec" 2 (Kernel.matvec op)
  mul_sealed : (p.func Text.mul).isSealed = true
  mul_params : (p.func Text.mul).params = [Text.x]
  mul_body : Code.AtBlock p (Text.mulBody w) (p.func Text.mul).body
  strings : p.interner.strings =
    ["", "d", "q", "r_2", "r_2_init", "r_2_new", "alpha", "beta", "iter", "x", "mul"]

section Staged

variable (op : LinearOperator R) (config : Config R) (w : Workspace) (position : Option (R × BufferId))

theorem staged_text :
    (stagedProgram op config w none).2.blockCode? 6 (stagedProgram op config w none).1 =
      some (stagedText config w none) := by
  cbv

theorem staged_text_position (dt : R) (x : BufferId) :
    (stagedProgram op config w (some (dt, x))).2.blockCode? 6
        (stagedProgram op config w (some (dt, x))).1 =
      some (stagedText config w (some (dt, x))) := by
  cbv

/-- **The staged program reads as its text.** -/
theorem stagedText_at :
    Code.AtBlock (stagedProgram op config w position).2 (stagedText config w position)
      (stagedProgram op config w position).1 := by
  rcases position with _ | ⟨dt, x⟩
  · exact Program.blockCode?_at (staged_text op config w)
  · exact Program.blockCode?_at (staged_text_position op config w dt x)

theorem staged_natives :
    (stagedProgram op config w position).2.natives =
      (Operator.all.map Operator.native ++ [Kernel.native "axpy" 4 Kernel.axpy,
        Kernel.native "dot" 2 Kernel.dot, Kernel.native "copy" 2 Kernel.copy,
        Kernel.native "matvec" 2 (Kernel.matvec op)]).toArray := by
  rcases position with _ | ⟨dt, x⟩ <;> cbv

theorem staged_funcs :
    (stagedProgram op config w position).2.funcs = #[⟨⟨10⟩, [Text.x], ⟨1⟩, true⟩] := by
  rcases position with _ | ⟨dt, x⟩ <;> cbv

theorem staged_mulBody :
    (stagedProgram op config w position).2.blockCode? 3 ⟨1⟩ = some (Text.mulBody w) := by
  rcases position with _ | ⟨dt, x⟩ <;> cbv

theorem staged_strings :
    (stagedProgram op config w position).2.interner.strings =
      ["", "d", "q", "r_2", "r_2_init", "r_2_new", "alpha", "beta", "iter", "x", "mul"] := by
  rcases position with _ | ⟨dt, x⟩ <;> cbv

theorem staged_verify :
    (stagedProgram op config w position).2.verify (stagedProgram op config w position).1 = .ok () := by
  rcases position with _ | ⟨dt, x⟩ <;> cbv

/-- The words of the text mean in the staged program what they are meant to. -/
theorem staged_meant : Meant (stagedProgram op config w position).2 op w := by
  have hfunc : (stagedProgram op config w position).2.func Text.mul =
      ⟨⟨10⟩, [Text.x], ⟨1⟩, true⟩ := by
    rw [Program.func, staged_funcs]
    rfl
  refine ⟨fun o => ?_, ?_, ?_, ?_, ?_, ?_, ?_, ?_, staged_strings op config w position⟩
  · rw [Program.native, staged_natives]
    cases o <;> rfl
  · rw [Program.native, staged_natives]
    rfl
  · rw [Program.native, staged_natives]
    rfl
  · rw [Program.native, staged_natives]
    rfl
  · rw [Program.native, staged_natives]
    rfl
  · rw [hfunc]
  · rw [hfunc]
  · rw [hfunc]
    exact Program.blockCode?_at (staged_mulBody op config w position)

end Staged

end StagedGraph.Solver
