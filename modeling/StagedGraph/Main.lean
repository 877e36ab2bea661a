import StagedGraph.CommandLine

/-!
# The program

Writes what the command writes and ends as it ends.
-/

/-- Runs the command with the arguments of the process. -/
def main (args : List String) : IO UInt32 := do
  let t := StagedGraph.CommandLine.command args StagedGraph.CommandLine.ampleFuel
  IO.print t.stdout
  IO.eprint t.stderr
  return t.exit.code.toUInt32
