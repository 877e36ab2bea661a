import StagedGraph.Value

/-!
# Natives

A native is an operation of the host that programs call by number. It gets the values of
its arguments and the state of the host, and it yields a value, refuses with a message, or
aborts the whole run. The state of the host is a parameter: the interpreter passes it on
and never looks into it.
-/

namespace StagedGraph

/-- How many arguments a native takes. -/
inductive Arity where
  | fixed (n : Nat)
  | variadic
deriving DecidableEq, Repr

namespace Arity

/-- Whether a call with this many arguments is allowed. -/
def accepts : Arity → Nat → Bool
  | fixed n, count => n == count
  | variadic, _ => true

/-- The number of arguments, where it is fixed. -/
def fixed? : Arity → Option Nat
  | fixed n => some n
  | variadic => none

/-- The text of an arity. -/
def dump : Arity → String
  | fixed n => "Fixed(" ++ toString n ++ ")"
  | variadic => "Variadic"

end Arity

/-- What a call of a native yields. -/
inductive NativeOutcome (R : Type) where
  | value (v : Value R)
  | failed (message : String)
  | aborted
deriving Repr, DecidableEq

/-- An operation of a host with states `H`. -/
structure Native (R H : Type) where
  name : String
  arity : Arity
  op : List (Value R) → H → NativeOutcome R × H

namespace Native

variable {R H : Type}

/-- A native that neither reads nor changes the host. -/
def pure (name : String) (arity : Arity) (f : List (Value R) → NativeOutcome R) : Native R H :=
  ⟨name, arity, fun args host => (f args, host)⟩

/-- A native of a part of the host, as a native of the whole host. -/
def lift {K : Type} (get : H → K) (set : K → H → H) (n : Native R K) : Native R H :=
  ⟨n.name, n.arity, fun args host =>
    let (outcome, part) := n.op args (get host)
    (outcome, set part host)⟩

end Native

end StagedGraph
