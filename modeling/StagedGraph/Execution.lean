import StagedGraph.Verifier

/-!
# Executing programs

An execution verifies a program and then runs it in a fresh state. Its result is what the
global scope binds at the end, under the strings of the names and in their order. A program
that is refused by the verifier leaves the host as it was.
-/

namespace StagedGraph

/-- What an execution is configured by. -/
structure ExecutionConfig where
  loopScope : LoopScope
deriving DecidableEq, Repr

namespace ExecutionConfig

/-- Iterations share the scope around their loop unless a policy is asked for. -/
def default : ExecutionConfig := ⟨.shared⟩

/-- The text of a configuration. -/
def dump (c : ExecutionConfig) : String :=
  "VmConfig \x7b loop_scope: " ++ c.loopScope.dump ++ " \x7d"

end ExecutionConfig

/-- The bindings that an execution leaves, by name. -/
abbrev Bindings (R : Type) := List (String × Value R)

namespace Bindings

variable {R : Type}

/-- The value bound to a name. -/
def find? (bs : Bindings R) (name : String) : Option (Value R) := bs.lookup name

end Bindings

/-- Verifies a program and runs it in a fresh state with this host. The result is the
bindings at the end; the state is the one that the run ends in, and still the fresh one if
there was no run. -/
def Program.executeIn {R H : Type} [Scalar R] (p : Program R H) (config : ExecutionConfig)
    (fuel : Nat) (root : BlockId) (host : H) : Except Stop (Bindings R) × RunState R H :=
  match p.verify root with
  | .error stop => (.error stop, .fresh host)
  | .ok () =>
    match Interpreter.run p config.loopScope fuel root (.fresh host) with
    | (.ok (), s) => (.ok (p.interner.named s.env.globals), s)
    | (.error stop, s) => (.error stop, s)

/-- Verifies a program, runs it in a fresh state with this host, and yields its bindings. -/
def Program.execute {R H : Type} [Scalar R] (p : Program R H) (config : ExecutionConfig)
    (fuel : Nat) (root : BlockId) (host : H) : Except Stop (Bindings R) × H :=
  let (result, s) := p.executeIn config fuel root host
  (result, s.host)

end StagedGraph
