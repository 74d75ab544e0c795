import Roster.Directory.Basic

/-!
# Enrolment

Entering a new user. The newcomer's id is the number of users plus one (as a 64-bit word), whether
or not that id is free: an id in use gives rise to a warning, and its user is replaced.

An enrolment is three steps that each see the directory on their own: it takes a number, it checks
whether the number is in use, it stores the user. `Stage.advance` is one such step, so that
enrolments can be set going side by side. Left alone, the three steps amount to `Directory.enrol`
(`advance_three`).
-/

namespace Roster

open Log (Event)

/-- A request to enter someone new. -/
structure Enrolment where
  name : String
  email : String
deriving DecidableEq

def Enrolment.user (e : Enrolment) (id : UInt64) : User := ⟨id, e.name, e.email⟩

namespace Directory

def nextId (d : Directory) : UInt64 := UInt64.ofNat d.size + 1

def newcomer (d : Directory) (e : Enrolment) : User := e.user d.nextId

/-- The warning about an id that a newcomer is about to get, if it is in use. -/
def takenEvents (d : Directory) (id : UInt64) : List Event :=
  if d.contains id then [.idTaken id] else []

def entryEvents (d : Directory) (u : User) : List Event := [d.insertEvent u, .enrolled u]

def enrol (d : Directory) (e : Enrolment) : Directory := d.insert (d.newcomer e)

def enrolEvents (d : Directory) (e : Enrolment) : List Event :=
  d.takenEvents d.nextId ++ d.entryEvents (d.newcomer e)

end Directory

namespace Enrolment

inductive Stage where
  | requested
  | numbered (id : UInt64)
  | checked (id : UInt64)
  | entered (user : User)
deriving DecidableEq

structure Advance where
  directory : Directory
  stage : Stage
  events : List Event
deriving DecidableEq

/-- One step of an enrolment, on the directory as it then is. -/
def Stage.advance (e : Enrolment) (d : Directory) : Stage → Advance
  | requested => ⟨d, numbered d.nextId, []⟩
  | numbered id => ⟨d, checked id, d.takenEvents id⟩
  | checked id => ⟨d.insert (e.user id), entered (e.user id), d.entryEvents (e.user id)⟩
  | entered u => ⟨d, entered u, []⟩

/-- One more step, added to what earlier ones left behind. -/
def Advance.next (e : Enrolment) (a : Advance) : Advance :=
  let b := a.stage.advance e a.directory
  { b with events := a.events ++ b.events }

/-- Three steps with nothing in between are an enrolment. -/
theorem advance_three (e : Enrolment) (d : Directory) :
    ((Stage.requested.advance e d).next e).next e =
      ⟨d.enrol e, .entered (d.newcomer e), d.enrolEvents e⟩ := rfl

end Enrolment

end Roster
