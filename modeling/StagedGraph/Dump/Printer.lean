import StagedGraph.Dump.Emitter
import StagedGraph.Graph.EntryText

/-!
# Printing program graphs

A dump shows a block and all that is nested in it, one entry a line, each indented by its
depth. A definition shows the body of its function; a call shows only the name of its
callee and its arguments; a literal does not show its value.

A printer walks through the block and keeps on the way how deep it is, which blocks it is
inside of, and the error that it met, if any. It lives on between visits, and a visit resets
what the walk before may have left behind. A block that is nested inside itself has no dump.
A printer that meets such a block goes on to the end of the walk without entering anything,
and then goes back to the text that it had before, so that it holds the dumps of the blocks
that have one.
-/

namespace StagedGraph

/-- Why a block was not printed. -/
inductive PrintError where
  /-- The block is nested inside itself. -/
  | cycle (block : BlockId)
  /-- The walk is deeper than the program has entries; no program that was built by adding
  entries is. -/
  | tooDeep
deriving DecidableEq, Repr

/-- The text of a printing error. -/
def PrintError.message : PrintError → String
  | cycle b => "block " ++ b.dump ++ " is nested inside itself"
  | tooDeep => "the program is nested too deeply"

/-- A printer. -/
structure Printer where
  /-- The width of one level of indentation. -/
  width : Nat
  /-- What was printed so far. -/
  out : Emitter
  depth : Nat
  /-- The blocks that are being printed, the innermost first. -/
  path : List BlockId
  /-- The first error of the current visit. -/
  error : Option PrintError
deriving DecidableEq, Repr

namespace Printer

variable {R H : Type}

/-- Each level is indented by two spaces unless another width is asked for. -/
def defaultWidth : Nat := 2

/-- A printer between visits. -/
def idle (width : Nat) (out : Emitter) : Printer := ⟨width, out, 0, [], none⟩

/-- A printer that has printed nothing. -/
def new (width : Nat) : Printer := idle width Emitter.empty

/-! ### Steps of the walk -/

/-- A step of a printer. -/
abbrev Step := StateM Printer Unit

/-- Writes a line at the current depth. -/
def writeLine (s : String) : Step :=
  modify fun pr => { pr with out := ((pr.out.indent (pr.depth * pr.width)).emit s).newline }

/-- Takes a step one level deeper. -/
def nested (x : Step) : Step := do
  modify fun pr => { pr with depth := pr.depth + 1 }
  x
  modify fun pr => { pr with depth := pr.depth - 1 }

/-- A line, and what belongs under it. -/
def headed (label : String) (x : Step) : Step := do
  writeLine label
  nested x

/-- Meets an error, which is kept if it is the first. -/
def fail (e : PrintError) : Step := modify fun pr => { pr with error := pr.error.or (some e) }

/-- Takes a step if no error was met. -/
def unlessFailed (x : Step) : Step := do
  if (← get).error.isNone then x

/-- The line of a definition: the name of the function and those of its parameters. -/
def funcHeader (p : Program R H) (f : FuncId) : String :=
  "FuncDef " ++ p.funcName f ++ "(" ++ String.intercalate ", " ((p.func f).params.map p.text) ++ ")"

/-- Visits an expression: a line for it, and its operands one deeper. -/
def visitExpr (p : Program R H) : Nat → ExprId → Step
  | 0, _ => fail .tooDeep
  | fuel + 1, e =>
    match p.expr e with
    | .literal _ => writeLine "Literal <opaque>"
    | .var x => writeLine ("Var " ++ p.text x)
    | .neg operand => headed "Neg" (visitExpr p fuel operand)
    | .invoke callee args =>
      headed ("Invoke " ++ p.calleeName callee) (args.forM (visitExpr p fuel))

/-- Visits a statement, given how its parts are visited. -/
def visitStmt (p : Program R H) (expr : ExprId → Step) (block : BlockId → Step) (s : Stmt) : Step :=
  unlessFailed <| match s with
    | .expr e => headed "ExprStmt" (expr e)
    | .assign x e => headed ("Assign " ++ p.text x) (expr e)
    | .ifThen cond b => headed "If" do
      headed "cond:" (expr cond)
      headed "then:" (block b)
    | .whileLoop cond b => headed "While" do
      headed "cond:" (expr cond)
      headed "body:" (block b)
    | .breakLoop => writeLine "Break"
    | .returnValue none => writeLine "Return"
    | .returnValue (some e) => headed "Return" (expr e)
    | .funcDef f => headed (funcHeader p f) (block (p.func f).body)

/-- Visits a block, which is on the path until the visit ends. -/
def visitBlock (p : Program R H) : Nat → BlockId → Step
  | 0, _ => fail .tooDeep
  | fuel + 1, b => unlessFailed do
    if b ∈ (← get).path then fail (.cycle b)
    else
      modify fun pr => { pr with path := b :: pr.path }
      headed "BasicBlock" ((p.block b).forM
        (visitStmt p (visitExpr p (p.exprs.size + 1)) (visitBlock p fuel)))
      modify fun pr => { pr with path := pr.path.erase b }

/-! ### Visits -/

/-- How a visit ends, and the printer after it: an error is taken out of the printer, and what was
printed since the visit started is taken back. -/
def ending (mark : Nat) (pr : Printer) : Except PrintError Unit × Printer :=
  match pr.error with
  | none => (.ok (), pr)
  | some e => (.error e, { pr with error := none, out := (pr.out.rewind mark).getD pr.out })

/-- Prints a block, or leaves the printed text as it was. -/
def visit (pr : Printer) (p : Program R H) (b : BlockId) : Except PrintError Unit × Printer :=
  let walk := visitBlock p (p.blocks.size + 1) b
  ending pr.out.mark (walk.run { pr with depth := 0, path := [], error := none }).2

end Printer

/-- The dump of a block. -/
def Program.print {R H : Type} (p : Program R H) (b : BlockId) : Except PrintError String :=
  match (Printer.new Printer.defaultWidth).visit p b with
  | (.ok (), pr) => .ok pr.out.text
  | (.error e, _) => .error e

end StagedGraph
