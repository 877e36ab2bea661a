import StagedGraph.Graph.Basic
import StagedGraph.Text.Quoted

/-!
# Dumps of single entries

The texts of the entries of a program, with their kinds and the numbers they refer to. They
show one entry each and follow no number.
-/

namespace StagedGraph

/-- The name of a table's numbers. -/
def Table.label : Table → String
  | expr => "ExprId"
  | block => "BlockId"
  | func => "FuncId"
  | native => "NativeId"

/-- The text of a number, with the table it belongs to. -/
def Ref.dump {t : Table} (r : Ref t) : String := t.label ++ "(" ++ toString r.index ++ ")"

/-- The text of a record: its name and its fields in braces. -/
def recordText (name : String) (fields : List (String × String)) : String :=
  name ++ " \x7b " ++ String.intercalate ", " (fields.map fun f => f.1 ++ ": " ++ f.2) ++ " \x7d"

/-- The text of a callee. -/
def Callee.dump : Callee → String
  | native n => "Native(" ++ n.dump ++ ")"
  | callable f => "Callable(" ++ f.dump ++ ")"

/-- The text of an expression. A buffer in a literal shows its length only. -/
def Expr.dump (h : Heap Float) : Expr Float → String
  | literal v => "Literal(" ++ v.dump h ++ ")"
  | var x => "Var(" ++ x.dump ++ ")"
  | invoke callee args =>
    recordText "Invoke" [("callee", callee.dump),
      ("args", "[" ++ String.intercalate ", " (args.map Ref.dump) ++ "]")]
  | neg e => "Neg(" ++ e.dump ++ ")"

/-- The text of a statement. -/
def Stmt.dump : Stmt → String
  | expr e => "Expr(" ++ e.dump ++ ")"
  | assign x e => recordText "Assign" [("target", x.dump), ("value", e.dump)]
  | ifThen c b => recordText "If" [("cond", c.dump), ("then_block", b.dump)]
  | whileLoop c b => recordText "While" [("cond", c.dump), ("body", b.dump)]
  | breakLoop => "Break"
  | returnValue none => "Return(None)"
  | returnValue (some e) => "Return(Some(" ++ e.dump ++ "))"
  | funcDef f => "FuncDef(" ++ f.dump ++ ")"

/-- The text of a native: its name and its arity; its operation is not shown. -/
def Native.dump {R H : Type} (n : Native R H) : String :=
  "NativeFunc \x7b name: " ++ Text.quoted n.name ++ ", arity: " ++ n.arity.dump ++ ", .. \x7d"

end StagedGraph
