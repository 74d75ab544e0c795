import Roster.Registry.Lookups

/-!
# Carrying out commands

`carryOut` is what a command does: one step after the other, until it is answered or breaks off.
`next`, `reply` and `events` are the registry it leaves, what it comes to and what it has reported,
also if it breaks off half way.

Beside it stand the store that a command concerns, whose size is part of every answer, and the id
that a command names there.
-/

namespace Roster.Registry

open Attempt (allow)
open Log (Event)
open Errand (look change tell undergo need demand)

/-- The longest delay, in milliseconds, that the start of a lookup sits out. -/
def patience : Nat := 200

def sitsOut (r : Registry) (n : Int) : Bool := (under? r.stores n).any (·.delay.ms ≤ patience)

def openStore (delay : Option Int) (pause : Pause) : Errand Reply := do
  let d ← allow .delay (Delay.ofWish delay)
  let r ← look
  change fun r => { r with stores := r.stores ++ [.new d pause] }
  return .opened r.stores.length

def appoint (n : Int) : Errand Reply := do
  let i ← need n.toNat? .noStore
  let r ← look
  demand (i < r.stores.length) .noStore
  change fun r => { r with registrars := r.registrars ++ [i] }
  return .appointed r.registrars.length

/-- Has a store act, or the store that a registrar stands for. -/
def act (t : Target) (a : Action) : Errand Reply := do
  let r ← look
  let n ← need (r.storeNumber? t) t.refusal
  let s ← need r.stores[n]? .noStore
  change fun r => { r with stores := r.stores.modify n (·.act a) }
  tell (s.directory.events a)
  return .answered (s.directory.answer a)

/-- Starts a lookup, and sits its delay out if that is short. -/
def lookup (n : Int) (id : UInt64) (token : Lookup.Token) : Errand Reply := do
  let r ← look
  let reply ← start n id token
  if r.sitsOut n then undergo (·.elapse r.lookups.length)
  return reply

def carryOut : Command → Errand Reply
  | .openStore delay pause => openStore delay pause
  | .appoint n => appoint n
  | .act t a => act t a
  | .lookup n id token => lookup n id token
  | .stop handle => stop handle
  | .release handle how => release handle how
  | .collect handle => collect handle

/-- The registry after a command, whether it was carried out or broke off. -/
def next (r : Registry) (c : Command) : Registry := ((carryOut c).on ⟨r, []⟩).2.registry

def reply (r : Registry) (c : Command) : Except Fault Reply := ((carryOut c).on ⟨r, []⟩).1

/-- What is reported on a command, up to its end or until it breaks off. -/
def events (r : Registry) (c : Command) : List Event := ((carryOut c).on ⟨r, []⟩).2.reported

/-- The number of the store that a command concerns. There need not be one under it. -/
def concerns? (r : Registry) : Command → Option Nat
  | .openStore _ _ => some r.stores.length
  | .appoint n => n.toNat?
  | .act t _ => r.storeNumber? t
  | .lookup n _ _ => n.toNat?
  | .stop handle | .release handle _ | .collect handle =>
    (under? r.lookups handle).map Lookup.store

def sizeAfter? (r : Registry) (c : Command) : Option Nat :=
  (r.concerns? c).bind fun n => ((r.next c).stores[n]?).map (·.directory.size)

/-- The id that a command names or hands out, with the number of the store where it does. -/
def names? (r : Registry) : Command → Option (Nat × UInt64)
  | .act t a =>
    (r.storeNumber? t).bind fun n =>
      (r.stores[n]?).bind fun s => (s.directory.about? a).map fun id => (n, id)
  | .lookup n id _ => n.toNat?.bind fun i => (r.stores[i]?).map fun _ => (i, id)
  | .openStore _ _ | .appoint _ | .stop _ | .release _ _ | .collect _ => none

end Roster.Registry
