import Roster.Directory.Action
import Roster.Lookup

/-!
# The registry

All that is in use at once: stores, registrars that enter newcomers into a store, lookups, and the
sources on which lookups can be stopped. Each is known by its number, counted from zero in the
order of creation, and none is ever taken away.

A command may ask for any whole number. One below zero is nobody's, just as one that has not been
given out yet.
-/

namespace Roster

open Log (Event)

/-- A directory together with how its lookups wait. -/
structure Store where
  delay : Delay
  pause : Pause
  directory : Directory
  /-- How many lookups have called the pause. -/
  calls : Nat

namespace Store

def new (delay : Delay) (pause : Pause) : Store := ⟨delay, pause, .empty, 0⟩

def act (s : Store) (a : Action) : Store := { s with directory := s.directory.after a }

def called (s : Store) : Store := { s with calls := s.calls + 1 }

/-- What the pause does at the next call. -/
def response (s : Store) (stopped : Bool) : Pause.Response := s.pause.respond s.calls stopped

end Store

structure Registry where
  stores : List Store
  /-- For each registrar the number of its store. -/
  registrars : List Nat
  lookups : List Lookup
  /-- For each stop source whether a stop has been requested on it. -/
  sources : List Bool

namespace Registry

/-- Who is asked to act: a store, or a registrar that stands for one. -/
inductive Target where
  | store (n : Int)
  | registrar (n : Int)
deriving DecidableEq

inductive Command where
  /-- Opens a store, with the standard delay unless another is given. -/
  | openStore (delay : Option Int) (pause : Pause)
  /-- Appoints a registrar of a store. -/
  | appoint (store : Int)
  | act (target : Target) (action : Action)
  /-- Starts a lookup in a store. -/
  | lookup (store : Int) (id : UInt64) (token : Lookup.Token)
  /-- Requests a stop on the source of a lookup. -/
  | stop (handle : Int)
  /-- Lets go of a lookup that is held. -/
  | release (handle : Int) (how : Pause.Release)
  /-- Asks for the outcome of a lookup, which is handed out once. -/
  | collect (handle : Int)
deriving DecidableEq

inductive Reply where
  /-- The number of the new store. -/
  | opened (store : Nat)
  /-- The number of the new registrar. -/
  | appointed (registrar : Nat)
  | answered (answer : Answer)
  /-- The number of the new lookup, and what its pause tells of being called. -/
  | started (handle : Nat) (call : Option Pause.Call)
  /-- Whether this was the first request on the source. -/
  | stopped (first : Bool)
  | released
  | collected (outcome : Lookup.Outcome)
deriving DecidableEq

inductive Refusal where
  /-- There is no log to report to. -/
  | logDown
  | noStore
  | noRegistrar
  | noLookup
  /-- The outcome was handed out before. -/
  | alreadyCollected
  /-- The lookup was started without a token. -/
  | noSource
  /-- The lookup is not held. -/
  | notHeld
  /-- The lookup has not ended. -/
  | stillPending
deriving DecidableEq

def Refusal.message : Refusal → String
  | logDown => "logging is shut down"
  | noStore => "no such repo"
  | noRegistrar => "no such service"
  | noLookup => "no such handle"
  | alreadyCollected => "already awaited"
  | noSource => "lookup has no stop source"
  | notHeld => "nothing to release"
  | stillPending => "lookup still pending"

inductive Fault where
  | delay (fault : Delay.Fault)
  | refused (refusal : Refusal)
deriving DecidableEq

def Fault.message : Fault → String
  | delay f => f.message
  | refused r => r.message

def empty : Registry := ⟨[], [], [], []⟩

/-- The directory of a store; a number without a store has nobody in it. -/
def directory (r : Registry) (store : Nat) : Directory :=
  (r.stores[store]?).elim .empty Store.directory

/-- What is listed under a number: nothing below zero. -/
def under? {α : Type} (xs : List α) (n : Int) : Option α := n.toNat?.bind fun i => xs[i]?

/-- The number of the store that is asked to act. An unknown registrar has none. -/
def storeNumber? (r : Registry) : Target → Option Nat
  | .store n => n.toNat?
  | .registrar k => under? r.registrars k

def Target.refusal : Target → Refusal
  | store _ => .noStore
  | registrar _ => .noRegistrar

def isStopped (r : Registry) (source : Nat) : Bool := (r.sources[source]?).getD false

def hears (r : Registry) (l : Lookup) : Bool := l.listens && r.isStopped l.source

/-! ### Numbers -/

@[simp] theorem under?_natCast {α : Type} (xs : List α) (i : Nat) : under? xs i = xs[i]? := rfl

/-- A number below zero is nobody's. -/
theorem under?_of_neg {α : Type} (xs : List α) {n : Int} (h : n < 0) : under? xs n = none := by
  obtain ⟨k, rfl⟩ := Int.eq_negSucc_of_lt_zero h
  rfl

end Registry

end Roster
