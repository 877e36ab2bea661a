import StagedGraph.EvalError
import StagedGraph.Scalar

/-!
# Control flow

How a statement hands over to what follows it, what a loop does about that, which values
count as true, and the negation of a value.
-/

namespace StagedGraph

/-- How a statement ended. -/
inductive Flow (R : Type) where
  | normal
  | breakLoop
  | returned (v : Value R)
deriving Repr, DecidableEq

namespace Flow

variable {R : Type}

/-- Whether the next statement is to be executed. -/
def isNormal : Flow R → Bool
  | normal => true
  | _ => false

end Flow

/-- What a loop does after its body. -/
inductive LoopAction (R : Type) where
  | next
  | leave
  | exit (flow : Flow R)
deriving Repr, DecidableEq

/-- A loop goes on after a normal end, a break ends the loop itself, and a return goes on
outwards. -/
def Flow.loopAction {R : Type} : Flow R → LoopAction R
  | normal => .next
  | breakLoop => .leave
  | returned v => .exit (.returned v)

/-- Whether the iterations of a loop run in the scope around it or in a scope each. -/
inductive LoopScope where
  | shared
  | perIteration
deriving DecidableEq, Repr

/-- The text of a loop policy. -/
def LoopScope.dump : LoopScope → String
  | shared => "Shared"
  | perIteration => "PerIteration"

namespace Value

variable {R : Type} [Scalar R]

/-- A number is true unless it equals zero, so a NaN is true; `void` and buffers are no
conditions. -/
def truth : Value R → Except Fault Bool
  | bool b => .ok b
  | int n => .ok (n != 0)
  | float x => .ok (!Scalar.isZero x)
  | v => .error (.typeMismatch "bool or number" v.kind)

/-- The negation of an integer, if it has one in 64 bits, or of a number. -/
def negated : Value R → Except Fault (Value R)
  | int n => if n = Int64.minValue then .error (.integerOverflow "negation") else .ok (.int (-n))
  | float x => .ok (.float (-x))
  | v => .error (.typeMismatch "number" v.kind)

end Value

end StagedGraph
