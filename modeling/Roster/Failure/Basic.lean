import Roster.Failure.Kind

/-!
# Failures

A failure is a number, a text and the id it is about. The number is usually that of a `Kind`, but
any 32-bit number may stand there. To leave the program a failure becomes a `Failure.Record`,
which keeps all three as they are; a record that comes in is read by `Failure.ofRecord`, where a
number that belongs to no kind turns into `Kind.unknown`. So every failure read from a record has
a name.
-/

namespace Roster

structure Failure where
  code : Int32
  what : String
  id : UInt64
deriving DecidableEq

namespace Failure

/-- A failure as it travels: the same three fields, each of which may be left unset. -/
structure Record where
  code : Int32
  what : String
  id : UInt64
deriving DecidableEq

/-- The record with the given fields, where an unset number is zero and an unset text empty. -/
def Record.ofFields (code : Option Int32) (what : Option String) (id : Option UInt64) : Record where
  code := code.getD 0
  what := what.getD ""
  id := id.getD 0

def ofKind (kind : Kind) (what : String) (id : UInt64) : Failure where
  code := kind.code
  what := what
  id := id

/-- A failure of which only the kind is known: it is described by the kind's name. -/
def bare (kind : Kind) : Failure := ofKind kind kind.name 0

/-- A failure of which the number, and perhaps a text and an id, are given. Without a text it is
the bare failure of the kind with that number, so only the number of a kind will do; an id then
has no place. Without an id it concerns the id zero. -/
def ofFields? (code : Int32) (what : Option String) (id : Option UInt64) : Option Failure :=
  match what with
  | none => (Kind.ofCode? code).map bare
  | some text => some ⟨code, text, id.getD 0⟩

def name? (f : Failure) : Option String :=
  if f.code = 0 then some "OK"
  else if f.code = 1 then some "InvalidArgument"
  else if f.code = 6 then some "KeyNotFound"
  else if f.code = 9 then some "Internal"
  else if f.code = 10 then some "Cancelled"
  else if f.code = 128 then some "Unknown"
  else none

def toRecord (f : Failure) : Record := ⟨f.code, f.what, f.id⟩

/-- A failure read from a record: a number that no kind has counts as `Kind.unknown`. -/
def ofRecord (r : Record) : Failure where
  code :=
    if r.code = 0 ∨ r.code = 1 ∨ r.code = 6 ∨ r.code = 9 ∨ r.code = 10 ∨ r.code = 128 then r.code
    else Kind.unknown.code
  what := r.what
  id := r.id

end Failure

end Roster
