import StagedGraph.Graph.EntryText

/-!
# Walking a program

The order in which a walk meets the entries of a program: the statements of a block one by
one, a condition before its block, a function's body where the function is defined. An
invocation leads to its arguments and not to what it calls. A block that is still being
walked is not entered again.
-/

namespace StagedGraph

/-- What a walk meets. -/
inductive Visit where
  | block (b : BlockId)
  | cycle (b : BlockId)
  | stmt (tag : String)
  | expr (e : ExprId) (shape : String)
  | func (f : FuncId)
deriving DecidableEq, Repr

/-- The text of a meeting. -/
def Visit.text : Visit → String
  | block b => s!"block {b.index}"
  | cycle b => s!"cycle {b.index}"
  | stmt tag => s!"stmt {tag}"
  | expr e shape => s!"expr {e.index} {shape}"
  | func f => s!"func {f.index}"

/-- The word for the shape of an expression. -/
def Expr.shape {R : Type} : Expr R → String
  | literal _ => "literal"
  | var _ => "var"
  | invoke _ _ => "invoke"
  | neg _ => "neg"

namespace Program

variable {R H : Type}

/-- The walk through an expression and its operands. -/
def walkExpr (p : Program R H) : Nat → ExprId → List Visit
  | 0, _ => []
  | fuel + 1, e =>
    .expr e (p.expr e).shape :: (p.expr e).operands.flatMap (walkExpr p fuel)

/-- The walk through a statement, given the walks through its parts. -/
def walkStmt (expr : ExprId → List Visit) (block : BlockId → List Visit)
    (func : FuncId → List Visit) (s : Stmt) : List Visit :=
  .stmt s.tag ::
    match s with
    | .expr e => expr e
    | .assign _ e => expr e
    | .ifThen cond thenBlock => expr cond ++ block thenBlock
    | .whileLoop cond body => expr cond ++ block body
    | .breakLoop => []
    | .returnValue none => []
    | .returnValue (some e) => expr e
    | .funcDef f => .func f :: func f

/-- The walk through a block under the blocks of a path. -/
def walkBlock (p : Program R H) : Nat → List BlockId → BlockId → List Visit
  | 0, _, _ => []
  | fuel + 1, path, b =>
    if b ∈ path then [.cycle b]
    else
      let inner := walkBlock p fuel (b :: path)
      let expr := walkExpr p (p.exprs.size + 1)
      .block b :: (p.block b).flatMap (walkStmt expr inner fun f => inner (p.func f).body)

/-- Everything that a walk from a block meets, in order. -/
def walk (p : Program R H) (b : BlockId) : List Visit := p.walkBlock (p.blocks.size + 1) [] b

end Program

end StagedGraph
