import Roster.Directory.Basic
import Roster.Failure.Basic
import Roster.Pause

/-!
# Lookups

A lookup asks for the user under an id and is answered once its pause has ended. If the pause
completed, the answer is what the directory holds *at that moment*; if it was interrupted, the
lookup fails as cancelled, whatever the directory holds; if it broke, that is what comes out.

A lookup knows the stop source it belongs to. Whether it listens to that source is a matter of its
own: one that was started without a token has a source too, which others may share, but never
hears it.
-/

namespace Roster

open Log (Event)

namespace Lookup

inductive Outcome where
  | found (user : Option User)
  | failed (failure : Failure)
  | broken (fault : Pause.Fault)
deriving DecidableEq

def cancelled (id : UInt64) : Failure := .ofKind .cancelled "Lookup cancelled" id

/-- What a lookup of an id ends with when its pause ends, given the directory at that moment. -/
def conclude (d : Directory) (id : UInt64) : Pause.Verdict → Outcome
  | .completed => .found (d.find? id)
  | .interrupted => .failed (cancelled id)
  | .broken fault => .broken fault

def endEvents (id : UInt64) : Pause.Verdict → List Event
  | .interrupted => [.lookupCancelled id]
  | .completed | .broken _ => []

inductive Phase where
  /-- It waits for its delay to pass or for a stop. -/
  | sleeping
  /-- It waits to be released. -/
  | gated
  /-- It has ended, and nobody has asked for the outcome yet. -/
  | ended (outcome : Outcome)
  /-- It has ended, and the outcome was handed out. -/
  | collected (outcome : Outcome)
deriving DecidableEq

def phaseAfter (d : Directory) (id : UInt64) : Pause.Response → Phase
  | .ends v => .ended (conclude d id v)
  | .sleeps => .sleeping
  | .blocks => .gated

def callEvents (id : UInt64) : Pause.Response → List Event
  | .ends v => endEvents id v
  | .sleeps | .blocks => []

/-- The stop source that a lookup is to listen to. -/
inductive Token where
  /-- None: nothing can stop it. -/
  | none
  /-- A new source. -/
  | live
  /-- A new source on which a stop has been requested already. -/
  | stopped
  /-- The source of an earlier lookup. -/
  | shared (handle : Int)
deriving DecidableEq

end Lookup

structure Lookup where
  /-- The number of the store it reads. -/
  store : Nat
  id : UInt64
  /-- The number of its stop source. -/
  source : Nat
  /-- Whether it hears a stop on its source. -/
  listens : Bool
  phase : Lookup.Phase
deriving DecidableEq

namespace Lookup

def outcome? (l : Lookup) : Option Outcome :=
  match l.phase with
  | .sleeping | .gated => none
  | .ended o | .collected o => some o

def wakesOn (l : Lookup) (source : Nat) : Bool :=
  l.phase == .sleeping && l.listens && l.source == source

end Lookup

end Roster
