import Roster.Lookup
import Roster.Wait

/-!
# Timing a lookup

One lookup in a directory with a single user, waited for from start to end: what it came to, and
whether the delay had passed by then.
-/

namespace Roster.Lookup

structure Timing where
  outcome : Outcome
  reachesDelay : Bool
deriving DecidableEq

def afterWait (d : Directory) (id : UInt64) (w : Wait) : Outcome :=
  conclude d id (.ofCompletes w.completes)

/-- Looks an id up where only `user` is stored. A stop is requested at `stopAt`, if ever. -/
def time (user : User) (id : UInt64) (delay : Option Int) (stopAt : Option Nat) :
    Except Delay.Fault Timing :=
  match Delay.ofWish delay with
  | .error f => .error f
  | .ok d =>
    let w : Wait := ⟨d.ms, stopAt⟩
    .ok ⟨afterWait (Directory.empty.insert user) id w, w.reachesDelay⟩

end Roster.Lookup
