import StagedGraph.Graph.Basic

/-!
# Building program graphs

A program grows by adding entries; each operation yields the number of what it added. The
body of a function is appended to through the function and only until it is sealed. Blocks
and bodies only grow, and an expression never changes.

Who builds a function holds its builder, and gives it away when the function is sealed. The operations
here take the number of the function instead, which can be kept; they refuse what could only be done
with a builder that was given away.

`Build` strings the operations together: a construction takes the program as it is so far to a result
and the program with what was added.
-/

namespace StagedGraph

/-- Why a statement was not appended or a function not sealed. -/
inductive BuildError where
  /-- The block is the body of a function. -/
  | ownedBody
  /-- The function was sealed before, and its builder was given away then. -/
  | alreadySealed
deriving DecidableEq, Repr

/-- The message of a refused append. -/
def BuildError.message : BuildError → String
  | ownedBody => "function bodies are appended through FuncDef"
  | alreadySealed => "the function is sealed"

/-- A variable: its name and the expression that reads it. -/
structure Var where
  name : Name
  expr : ExprId
deriving DecidableEq, Repr

namespace Program

variable {R H : Type}

/-- Interns a string. -/
def intern (p : Program R H) (s : String) : Name × Program R H :=
  let (x, t) := p.interner.intern s
  (x, { p with interner := t })

/-- Adds an expression. -/
def addExpr (p : Program R H) (e : Expr R) : ExprId × Program R H :=
  (⟨p.exprs.size⟩, { p with exprs := p.exprs.push e })

/-- Adds an expression that reads a variable; each read is an expression of its own. -/
def addVar (p : Program R H) (s : String) : Var × Program R H :=
  let (x, p) := p.intern s
  let (e, p) := p.addExpr (.var x)
  (⟨x, e⟩, p)

/-- Registers a native. -/
def addNative (p : Program R H) (n : Native R H) : NativeId × Program R H :=
  (⟨p.natives.size⟩, { p with natives := p.natives.push n })

/-- Adds a block without statements. -/
def addBlock (p : Program R H) (owner : Option FuncId) : BlockId × Program R H :=
  (⟨p.blocks.size⟩, { p with blocks := p.blocks.push ⟨[], owner⟩ })

/-- Adds a function and the empty block that is its body. The block comes first, the name
is interned after it. -/
def addFunc (p : Program R H) (name : String) (params : List Name) : FuncId × Program R H :=
  let f : FuncId := ⟨p.funcs.size⟩
  let (body, p) := p.addBlock (some f)
  let (x, p) := p.intern name
  (f, { p with funcs := p.funcs.push ⟨x, params, body, false⟩ })

/-- Puts a statement at the end of a block, whoever owns the block. -/
def push (p : Program R H) (b : BlockId) (s : Stmt) : Program R H :=
  { p with blocks := p.blocks.modify b.index fun k => { k with stmts := k.stmts ++ [s] } }

/-- Puts a statement at the end of a block that is no function's body. -/
def append (p : Program R H) (b : BlockId) (s : Stmt) : Except BuildError (Program R H) :=
  if (p.blocks.getD b.index ⟨[], none⟩).owner.isNone then .ok (p.push b s) else .error .ownedBody

/-- Puts a statement at the end of a function's body. A refusal stands for an append through a
builder that nobody has any more. -/
def appendBody (p : Program R H) (f : FuncId) (s : Stmt) : Except BuildError (Program R H) :=
  if (p.func f).isSealed then .error .alreadySealed else .ok (p.push (p.func f).body s)

/-- Marks a function as sealed, whether it was or not. -/
def markSealed (p : Program R H) (f : FuncId) : Program R H :=
  { p with funcs := p.funcs.modify f.index fun k => { k with isSealed := true } }

/-- Seals a function and yields the statement that defines it. It is done once: a refusal stands for a
second use of a builder that was given away the first time. -/
def sealFunc (p : Program R H) (f : FuncId) : Except BuildError (Stmt × Program R H) :=
  if (p.func f).isSealed then .error .alreadySealed else .ok (.funcDef f, p.markSealed f)

/-- Adds the expressions of `x + 1` and yields the statement that assigns it to `x`. -/
def increment (p : Program R H) (x : Var) (add : NativeId) : Stmt × Program R H :=
  let (one, p) := p.addExpr (.literal (.int 1))
  let (sum, p) := p.addExpr (.invoke (.native add) [x.expr, one])
  (.assign x.name sum, p)

end Program

/-- A construction that yields an `α`. -/
def Build (R H α : Type) := Program R H → α × Program R H

namespace Build

variable {R H α β : Type}

/-- The construction that adds nothing. -/
@[always_inline, inline]
def pure (a : α) : Build R H α := fun p => (a, p)

/-- One construction after another. -/
@[always_inline, inline]
def bind (x : Build R H α) (f : α → Build R H β) : Build R H β := fun p =>
  let (a, p) := x p
  f a p

instance : Monad (Build R H) where
  pure := Build.pure
  bind := Build.bind

/-- What is constructed from a program on. -/
def run (x : Build R H α) (p : Program R H) : α × Program R H := x p

/-- A literal. -/
def literal (v : Value R) : Build R H ExprId := fun p => p.addExpr (.literal v)

/-- A variable with this name. -/
def var (s : String) : Build R H Var := fun p => p.addVar s

/-- A call of a native. -/
def call (n : NativeId) (args : List ExprId) : Build R H ExprId := fun p =>
  p.addExpr (.invoke (.native n) args)

/-- A call of a function. -/
def apply (f : FuncId) (args : List ExprId) : Build R H ExprId := fun p =>
  p.addExpr (.invoke (.callable f) args)

/-- A negation. -/
def neg (e : ExprId) : Build R H ExprId := fun p => p.addExpr (.neg e)

/-- A native. -/
def native (n : Native R H) : Build R H NativeId := fun p => p.addNative n

/-- An empty block of no function. -/
def block : Build R H BlockId := fun p => p.addBlock none

/-- A function with these parameters. -/
def func (name : String) (params : List Var) : Build R H FuncId := fun p =>
  p.addFunc name (params.map Var.name)

/-- A statement at the end of a block. -/
def push (b : BlockId) (s : Stmt) : Build R H Unit := fun p => ((), p.push b s)

/-- A statement at the end of a function's body. -/
def pushBody (f : FuncId) (s : Stmt) : Build R H Unit := fun p => ((), p.push (p.func f).body s)

/-- The end of a function's construction. -/
def sealFunc (f : FuncId) : Build R H Stmt := fun p => (.funcDef f, p.markSealed f)

/-- The statement that adds one to a variable. -/
def increment (x : Var) (add : NativeId) : Build R H Stmt := fun p => p.increment x add

end Build

end StagedGraph
