import StagedGraph.NameMap
import StagedGraph.Native

/-!
# Program graphs

A program is a set of numbered tables: names, expressions, blocks of statements, functions
and natives. Expressions and statements refer to one another by number, so that a graph may
share expressions and blocks, and a function may call itself.

A number that was never issued reads as a harmless entry: the literal `void`, the empty
block, a function without parameters that is not sealed, a native that refuses every call.
-/

namespace StagedGraph

/-- The tables of a program whose entries are referred to by number. -/
inductive Table where
  | expr
  | block
  | func
  | native
deriving DecidableEq, Repr

/-- The number of an entry in a table. -/
structure Ref (t : Table) where
  index : Nat
deriving DecidableEq, Repr, Inhabited

instance (t : Table) : LawfulBEq (Ref t) := inferInstance

/-- The number of an expression. -/
abbrev ExprId := Ref .expr

/-- The number of a block. -/
abbrev BlockId := Ref .block

/-- The number of a function. -/
abbrev FuncId := Ref .func

/-- The number of a native. -/
abbrev NativeId := Ref .native

/-- What an expression invokes. -/
inductive Callee where
  | native (id : NativeId)
  | callable (id : FuncId)
deriving DecidableEq, Repr

/-- An expression. Its operands are entries of the same table. -/
inductive Expr (R : Type) where
  | literal (v : Value R)
  | var (x : Name)
  | invoke (callee : Callee) (args : List ExprId)
  | neg (operand : ExprId)
deriving Repr, DecidableEq

/-- A statement. Nested blocks are entries of the table of blocks. -/
inductive Stmt where
  | expr (e : ExprId)
  | assign (target : Name) (value : ExprId)
  | ifThen (cond : ExprId) (thenBlock : BlockId)
  | whileLoop (cond : ExprId) (body : BlockId)
  | breakLoop
  | returnValue (value : Option ExprId)
  | funcDef (f : FuncId)
deriving Repr, DecidableEq

/-- A list of statements; the body of a function belongs to that function. -/
structure Block where
  stmts : List Stmt
  owner : Option FuncId
deriving Repr, DecidableEq

/-- A function. Its body may still grow until it is sealed. -/
structure Func where
  name : Name
  params : List Name
  body : BlockId
  isSealed : Bool
deriving Repr, DecidableEq

/-- A program over scalars `R` for a host with states `H`. -/
structure Program (R H : Type) where
  interner : Interner
  exprs : Array (Expr R)
  blocks : Array Block
  funcs : Array Func
  natives : Array (Native R H)

namespace Expr

variable {R : Type}

/-- The operands of an expression, from left to right. -/
def operands : Expr R → List ExprId
  | literal _ => []
  | var _ => []
  | invoke _ args => args
  | neg e => [e]

end Expr

namespace Stmt

/-- The name of a statement's kind. -/
def tag : Stmt → String
  | expr _ => "ExprStmt"
  | assign _ _ => "Assign"
  | ifThen _ _ => "If"
  | whileLoop _ _ => "While"
  | breakLoop => "Break"
  | returnValue _ => "Return"
  | funcDef _ => "FuncDef"

end Stmt

namespace Program

variable {R H : Type}

/-- The program without entries. -/
def empty : Program R H := ⟨Interner.empty, #[], #[], #[], #[]⟩

/-- The expression with this number. -/
def expr (p : Program R H) (e : ExprId) : Expr R := p.exprs.getD e.index (.literal .void)

/-- The statements of a block. -/
def block (p : Program R H) (b : BlockId) : List Stmt := (p.blocks.getD b.index ⟨[], none⟩).stmts

/-- The function with this number. -/
def func (p : Program R H) (f : FuncId) : Func :=
  p.funcs.getD f.index ⟨Name.empty, [], ⟨p.blocks.size⟩, false⟩

/-- The native with this number. -/
def native (p : Program R H) (n : NativeId) : Native R H :=
  p.natives.getD n.index (.pure "" .variadic fun _ => .failed "")

/-- The string behind a name of the program. -/
def text (p : Program R H) (x : Name) : String := p.interner.lookup x

/-- The name under which a function was defined. -/
def funcName (p : Program R H) (f : FuncId) : String := p.text (p.func f).name

/-- The name of a native, or of a function. -/
def calleeName (p : Program R H) : Callee → String
  | .native n => (p.native n).name
  | .callable f => p.funcName f

end Program

end StagedGraph
