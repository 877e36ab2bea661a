import StagedGraph.Graph.Builder

/-!
# Operators

The arithmetic and the comparisons that programs use, as natives of any host. An operator
takes two operands. A truth value counts as the integer one or zero. Two integers give an
integer, exactly or not at all; with a number among the operands both are taken as numbers.
Division is that of numbers, for integers too.
-/

namespace StagedGraph

/-- The integer `n` in 64 bits, if it has a place there. -/
def int64? (n : Int) : Option Int64 :=
  if Int64.minValue.toInt ≤ n ∧ n ≤ Int64.maxValue.toInt then some (Int64.ofInt n) else none

/-- An operand as the operators see it. -/
inductive Operand (R : Type) where
  | int (n : Int64)
  | float (x : R)
deriving Repr, DecidableEq

namespace Operand

variable {R : Type}

/-- The operand that a value is, if it is one. -/
def ofValue? : Value R → Option (Operand R)
  | .int n => some (.int n)
  | .bool b => some (.int (if b then 1 else 0))
  | .float x => some (.float x)
  | .void => none
  | .buffer _ => none

/-- The number of an operand. -/
def toScalar [Scalar R] : Operand R → R
  | int n => Scalar.ofInt64 n
  | float x => x

end Operand

/-- The operators. -/
inductive Operator where
  | add
  | sub
  | mul
  | div
  | lt
  | le
  | gt
  | ge
  | eq
deriving DecidableEq, Repr

namespace Operator

/-- The operators in the order in which they are registered. -/
def all : List Operator := [add, sub, mul, div, lt, le, gt, ge, eq]

/-- The place of an operator in that order. -/
def index : Operator → Nat
  | add => 0
  | sub => 1
  | mul => 2
  | div => 3
  | lt => 4
  | le => 5
  | gt => 6
  | ge => 7
  | eq => 8

/-- The name under which an operator is registered. -/
def name : Operator → String
  | add => "add"
  | sub => "sub"
  | mul => "mul"
  | div => "div"
  | lt => "lt"
  | le => "le"
  | gt => "gt"
  | ge => "ge"
  | eq => "eq"

variable {R : Type} [Scalar R]

/-- The operands among the arguments: there are two, and the first that is no operand is
the one complained about. -/
def operands (op : Operator) : List (Value R) → Except String (Operand R × Operand R)
  | [a, b] =>
    match Operand.ofValue? a, Operand.ofValue? b with
    | some x, some y => .ok (x, y)
    | none, _ => .error s!"`{op.name}` expects scalar operands, got {a.kind}"
    | some _, none => .error s!"`{op.name}` expects scalar operands, got {b.kind}"
  | args => .error s!"`{op.name}` expects 2 operands, got {args.length}"

/-- Arithmetic: exact on two integers, that of numbers otherwise. -/
def arith (op : Operator) (onInt : Int → Int → Int) (onFloat : R → R → R) (args : List (Value R)) :
    Except String (Value R) :=
  match op.operands args with
  | .error message => .error message
  | .ok (.int a, .int b) =>
    match int64? (onInt a.toInt b.toInt) with
    | some n => .ok (.int n)
    | none => .error s!"integer overflow in `{op.name}`"
  | .ok (x, y) => .ok (.float (onFloat x.toScalar y.toScalar))

/-- Division of numbers; a divisor equal to zero is refused. -/
def quotient (args : List (Value R)) : Except String (Value R) :=
  match div.operands args with
  | .error message => .error message
  | .ok (x, y) =>
    if Scalar.isZero (y.toScalar : R) then .error "division by zero"
    else .ok (.float (x.toScalar / y.toScalar))

/-- The order of two operands: as integers if both are, otherwise as numbers. -/
def order? : Operand R → Operand R → Option Ordering
  | .int a, .int b => some (compare a.toInt b.toInt)
  | x, y => Scalar.compare? x.toScalar y.toScalar

/-- A comparison; operands without an order compare false. -/
def comparison (op : Operator) (accept : Ordering → Bool) (args : List (Value R)) :
    Except String (Value R) :=
  match op.operands args with
  | .error message => .error message
  | .ok (x, y) => .ok (.bool ((order? x y).any accept))

/-- What an operator makes of its arguments. -/
def eval : Operator → List (Value R) → Except String (Value R)
  | add => arith add (· + ·) (· + ·)
  | sub => arith sub (· - ·) (· - ·)
  | mul => arith mul (· * ·) (· * ·)
  | div => quotient
  | lt => comparison lt Ordering.isLT
  | le => comparison le Ordering.isLE
  | gt => comparison gt Ordering.isGT
  | ge => comparison ge Ordering.isGE
  | eq => comparison eq Ordering.isEq

/-- An operator as a native. -/
def native {H : Type} (op : Operator) : Native R H :=
  .pure op.name (.fixed 2) fun args =>
    match op.eval args with
    | .ok v => .value v
    | .error message => .failed message

end Operator

/-- The operators of a program, registered in a row. -/
structure Operators where
  first : NativeId
deriving DecidableEq, Repr

namespace Operators

/-- The native of an operator. -/
def id (ops : Operators) (op : Operator) : NativeId := ⟨ops.first.index + op.index⟩

/-- Registers all operators. -/
def register {R H : Type} [Scalar R] : Build R H Operators := do
  let first ← Build.native (Operator.native .add)
  for op in Operator.all.drop 1 do
    discard (Build.native (Operator.native op))
  return ⟨first⟩

end Operators

end StagedGraph
