import StagedGraph.Native

/-!
# Evaluation errors

A run that fails says why, and which functions were being executed when the failure arose.
A structural error is a fault of the program's shape, which no input can mend.
-/

namespace StagedGraph

/-- Why an evaluation failed. -/
inductive Fault where
  | undefinedVariable (name : String)
  | arityMismatch (callee : String) (expected got : Nat)
  | breakOutsideLoop
  | returnOutsideCallable
  | unsealedCallable (name : String)
  | cyclicBlock
  | typeMismatch (expected got : String)
  | integerOverflow (operation : String)
  | native (name message : String)
deriving DecidableEq, Repr

namespace Fault

/-- The text of a fault. -/
def message : Fault → String
  | undefinedVariable name => s!"undefined variable: {name}"
  | arityMismatch callee expected got => s!"`{callee}` expects {expected} argument(s), got {got}"
  | breakOutsideLoop => "break outside of a loop"
  | returnOutsideCallable => "return outside of a callable"
  | unsealedCallable name => s!"callable `{name}` invoked before its definition was sealed"
  | cyclicBlock => "block is nested inside itself"
  | typeMismatch expected got => s!"type mismatch: expected {expected}, got {got}"
  | integerOverflow operation => s!"integer overflow in {operation}"
  | native name message => s!"native `{name}` failed: {message}"

/-- Whether a fault is one of the program's shape. -/
def isStructural : Fault → Bool
  | undefinedVariable _ => true
  | arityMismatch _ _ _ => true
  | breakOutsideLoop => true
  | returnOutsideCallable => true
  | unsealedCallable _ => true
  | cyclicBlock => true
  | typeMismatch _ _ => false
  | integerOverflow _ => false
  | native _ _ => false

/-- The message of the native behind a fault. -/
def nativeMessage? : Fault → Option String
  | native _ message => some message
  | _ => none

end Fault

/-- A fault and the names of the functions that were being executed, the outermost first. -/
structure EvalError where
  fault : Fault
  trace : List String
deriving DecidableEq, Repr

namespace EvalError

/-- A fault outside every function. -/
def ofFault (f : Fault) : EvalError := ⟨f, []⟩

/-- Adds a trace to an error that has none. -/
def withTrace (e : EvalError) (trace : List String) : EvalError :=
  if e.trace.isEmpty then { e with trace := trace } else e

@[simp] theorem withTrace_fault (e : EvalError) (trace : List String) :
    (e.withTrace trace).fault = e.fault := by
  rw [withTrace]
  split <;> rfl

end EvalError

/-- The text of a trace: a heading and one numbered line a function; nothing for no function. -/
def traceText (trace : List String) : String :=
  if trace.isEmpty then ""
  else
    "call stack:\n" ++
      String.join (trace.mapIdx fun i name => "  " ++ toString i ++ ": " ++ name ++ "\n")

end StagedGraph
