import Roster.Demo

/-!
# The program

Runs the demonstration and prints what it shows.
-/

def main : IO UInt32 := do
  IO.print Roster.Demo.run.output
  return Roster.Demo.run.exitCode
