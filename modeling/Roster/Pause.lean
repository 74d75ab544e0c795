import Roster.Delay

/-!
# Pauses

What a store does between being asked for a user and reading its directory. The plain pause waits
for the store's delay; the others stand in for it and let a caller decide how each wait ends. A
pause ends with a `Verdict`: it ran its length, it was interrupted, or it broke.
-/

namespace Roster

namespace Pause

inductive Fault where
  /-- The pause itself failed. -/
  | broken
  /-- There is no pause to call. -/
  | missing
deriving DecidableEq

def Fault.message : Fault → String
  | broken => "sleeper failed"
  | missing => "bad_function_call"

inductive Verdict where
  | completed
  | interrupted
  | broken (fault : Fault)
deriving DecidableEq

def Verdict.ofCompletes (completes : Bool) : Verdict := if completes then completed else interrupted

inductive Response where
  /-- It ends at once. -/
  | ends (v : Verdict)
  /-- It waits for the delay to pass or for a stop. -/
  | sleeps
  /-- It waits to be released. -/
  | blocks
deriving DecidableEq

structure Call where
  delay : Delay
  /-- Whether a stop can ever be requested. -/
  stoppable : Bool
  /-- Whether a stop has been requested already. -/
  stopped : Bool
deriving DecidableEq

inductive Release where
  | saying (completes : Bool)
  /-- It completes unless a stop has been requested by then. -/
  | heeding
deriving DecidableEq

def Release.verdict (r : Release) (stopped : Bool) : Verdict :=
  match r with
  | saying completes => .ofCompletes completes
  | heeding => .ofCompletes (!stopped)

end Pause

inductive Pause where
  /-- Waits for the delay; a stop interrupts it. -/
  | timed
  /-- Ends at once, always the same way. -/
  | steady (completes : Bool)
  /-- Ends at once and completes unless a stop has been requested. -/
  | heedful
  /-- Ends at once, the n-th call as the n-th entry says; it completes once the entries are
  used up. -/
  | scripted (entries : List Pause.Verdict)
  /-- Is not there, so that calling it breaks. -/
  | missing
  /-- Blocks until it is released. -/
  | gated
deriving DecidableEq

namespace Pause

/-- What a pause does at a call, given how many calls came before and whether a stop has been
requested. -/
def respond (p : Pause) (earlier : Nat) (stopped : Bool) : Response :=
  match p with
  | timed => if stopped then .ends .interrupted else .sleeps
  | steady completes => .ends (.ofCompletes completes)
  | heedful => .ends (.ofCompletes (!stopped))
  | scripted entries => .ends (entries[earlier]?.getD .completed)
  | missing => .ends (.broken .missing)
  | gated => .blocks

/-- Whether the pause tells what it was called with. -/
def isObserved : Pause → Bool
  | timed | missing => false
  | steady _ | heedful | scripted _ | gated => true

def observe (p : Pause) (c : Call) : Option Call := if p.isObserved then some c else none

end Pause

end Roster
