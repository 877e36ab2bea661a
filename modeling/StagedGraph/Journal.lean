import StagedGraph.Solver.Kernels
import StagedGraph.Operators

/-!
# A host that keeps a journal

A host made of buffers and a journal. Its natives write down the arguments they are called
with, answer with a constant or with the number of their arguments, or refuse: always, or at
one call that is chosen when they are registered. The operators and the kernels are natives
of this host too.
-/

namespace StagedGraph

/-- What the natives of the host wrote down, and how often those that count were called. -/
structure Journal (R : Type) where
  /-- The argument lists, the latest first. -/
  entries : List (List (Value R))
  counters : Array Nat

/-- Buffers and a journal. -/
structure JournalHost (R : Type) where
  heap : Heap R
  journal : Journal R

namespace JournalHost

variable {R : Type}

/-- The host without buffers and with nothing written down. -/
def empty : JournalHost R := ⟨Heap.empty, ⟨[], #[]⟩⟩

/-- Writes an argument list down. -/
def note (host : JournalHost R) (args : List (Value R)) : JournalHost R :=
  { host with journal := { host.journal with entries := args :: host.journal.entries } }

/-- The argument lists written down, the earliest first, and the host with none. -/
def takeEntries (host : JournalHost R) : List (List (Value R)) × JournalHost R :=
  (host.journal.entries.reverse, { host with journal := { host.journal with entries := [] } })

/-- A new counter at zero, and its place. -/
def addCounter (host : JournalHost R) : Nat × JournalHost R :=
  (host.journal.counters.size,
    { host with journal := { host.journal with counters := host.journal.counters.push 0 } })

/-- Counts one more, and yields the count. -/
def count (host : JournalHost R) (place : Nat) : Nat × JournalHost R :=
  let n := host.journal.counters.getD place 0 + 1
  (n, { host with
    journal := { host.journal with counters := host.journal.counters.setIfInBounds place n } })

/-- A native of the buffers as one of this host. -/
def ofHeap (n : Native R (Heap R)) : Native R (JournalHost R) :=
  n.lift JournalHost.heap fun h host => { host with heap := h }

/-- Writes its arguments down and yields nothing. -/
def recorder (name : String) (arity : Arity) : Native R (JournalHost R) :=
  ⟨name, arity, fun args host => (.value .void, host.note args)⟩

/-- Writes its arguments down and yields the first of them, if there is one. -/
def firstOf (name : String) (arity : Arity) : Native R (JournalHost R) :=
  ⟨name, arity, fun args host => (.value (args.headD .void), host.note args)⟩

/-- Yields the same value at every call. -/
def constant (name : String) (arity : Arity) (v : Value R) : Native R (JournalHost R) :=
  .pure name arity fun _ => .value v

/-- Yields the number of its arguments. -/
def argumentCount (name : String) (arity : Arity) : Native R (JournalHost R) :=
  .pure name arity fun args => .value (.int (Int64.ofNat args.length))

/-- Refuses every call. -/
def refusal (name : String) (arity : Arity) (message : String) : Native R (JournalHost R) :=
  .pure name arity fun _ => .failed message

/-- Counts its calls from one: it refuses call `n`, and yields the count at every other. -/
def refusalAt (name : String) (arity : Arity) (place n : Nat) : Native R (JournalHost R) :=
  ⟨name, arity, fun _ host =>
    let (count, host) := host.count place
    if count = n then (.failed s!"call {n}", host) else (.value (.int (Int64.ofNat count)), host)⟩

/-- Another native under a name and an arity of its own. -/
def renamed (name : String) (arity : Arity) (n : Native R (JournalHost R)) :
    Native R (JournalHost R) :=
  { n with name := name, arity := arity }

end JournalHost

end StagedGraph
