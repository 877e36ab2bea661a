import StagedGraph.Environment
import StagedGraph.EvalError
import StagedGraph.Graph.Basic

/-!
# Runs

A run goes through states: the environment, the functions being executed, the state of the
host, and a record of what the run has done so far. A step of a run yields a result or stops
the run, and leaves a state in either case. A run stops for an error, because a native
aborted, or because the fuel that bounds it is used up; the last is no outcome of the
program and keeps its own name.
-/

namespace StagedGraph

/-- Something that a run did and that others can notice. -/
inductive Event (R : Type) where
  | called (n : NativeId) (args : List (Value R)) (outcome : NativeOutcome R)
  | assigned (x : Name) (v : Value R)
deriving Repr, DecidableEq

/-- Why a run stopped before its end. -/
inductive Stop where
  | error (e : EvalError)
  | aborted
  | outOfFuel
deriving Repr, DecidableEq

/-- Where a run stands. -/
structure RunState (R H : Type) where
  env : Environment R
  /-- The functions being executed, the innermost first. -/
  calls : List FuncId
  host : H
  /-- What the run did, the latest first. -/
  history : List (Event R)

/-- The state before a run: nothing is bound but in the host. -/
def RunState.fresh {R H : Type} (host : H) : RunState R H := ⟨Environment.empty, [], host, []⟩

/-- A step of a run that yields an `α`. -/
def Run (R H α : Type) := RunState R H → Except Stop α × RunState R H

namespace Run

variable {R H α β : Type}

/-- The step that does nothing. -/
@[always_inline, inline]
def pure (a : α) : Run R H α := fun s => (.ok a, s)

/-- One step after another; the second is not taken if the first stops the run. -/
@[always_inline, inline]
def bind (x : Run R H α) (f : α → Run R H β) : Run R H β := fun s =>
  match x s with
  | (.ok a, s) => f a s
  | (.error stop, s) => (.error stop, s)

instance : Monad (Run R H) where
  pure := Run.pure
  bind := Run.bind

/-- Stops the run. -/
def stop (why : Stop) : Run R H α := fun s => (.error why, s)

/-- Stops the run for a fault that arose here. -/
def fail (f : Fault) : Run R H α := stop (.error (.ofFault f))

/-- A result, or a stop for a fault that arose here. -/
@[inline]
def ofExcept : Except Fault α → Run R H α
  | .ok a => pure a
  | .error f => fail f

/-- The value of a variable. -/
def lookup (p : Program R H) (x : Name) : Run R H (Value R) := fun s =>
  match s.env.lookup x with
  | some v => (.ok v, s)
  | none => fail (.undefinedVariable (p.text x)) s

/-- Assigns to a variable. -/
def assign (x : Name) (v : Value R) : Run R H Unit := fun s =>
  (.ok (), { s with env := s.env.assign x v, history := .assigned x v :: s.history })

/-- Binds parameters in the current scope. -/
def bindParams (params : List Name) (args : List (Value R)) : Run R H Unit := fun s =>
  (.ok (), { s with env := s.env.bind params args })

/-- Takes a step in a scope of its own, which is closed however the step ends. -/
@[inline]
def inScope (kind : ScopeKind) (x : Run R H α) : Run R H α := fun s =>
  let (r, s) := x { s with env := s.env.push kind }
  (r, { s with env := s.env.pop })

/-- Takes a step as the execution of a function. An error that has no trace yet gets the
names of the functions being executed. The function is taken off the stack of calls at the
end; a step that aborts has no end. -/
@[inline]
def inCall (p : Program R H) (f : FuncId) (x : Run R H α) : Run R H α := fun s =>
  match x { s with calls := f :: s.calls } with
  | (.ok a, s) => (.ok a, { s with calls := s.calls.tail })
  | (.error (.error e), s) =>
    (.error (.error (e.withTrace (s.calls.reverse.map p.funcName))), { s with calls := s.calls.tail })
  | (.error other, s) => (.error other, s)

@[simp] theorem pure_apply (a : α) (s : RunState R H) : (Pure.pure a : Run R H α) s = (.ok a, s) := rfl

theorem bind_apply (x : Run R H α) (f : α → Run R H β) (s : RunState R H) :
    (x >>= f) s = match x s with
      | (.ok a, s) => f a s
      | (.error stop, s) => (.error stop, s) := rfl

theorem bind_apply_ok {x : Run R H α} {f : α → Run R H β} {s s' : RunState R H} {a : α}
    (h : x s = (.ok a, s')) : (x >>= f) s = f a s' := by
  rw [bind_apply, h]

theorem bind_apply_error {x : Run R H α} {f : α → Run R H β} {s s' : RunState R H} {why : Stop}
    (h : x s = (.error why, s')) : (x >>= f) s = (.error why, s') := by
  rw [bind_apply, h]

/-- Of two steps that stop, the first stops, or the second after it. -/
theorem bind_eq_error {x : Run R H α} {f : α → Run R H β} {s u : RunState R H} {why : Stop}
    (h : (x >>= f) s = (.error why, u)) :
    x s = (.error why, u) ∨ ∃ a t, x s = (.ok a, t) ∧ f a t = (.error why, u) := by
  rw [bind_apply] at h
  rcases hx : x s with ⟨why' | a, t⟩
  · rw [hx] at h
    cases h
    exact .inl rfl
  · rw [hx] at h
    exact .inr ⟨a, t, rfl, h⟩

end Run

end StagedGraph
