import Roster.Enrolment

/-!
# Actions on a directory

Everything that can be asked of a directory at once: storing, reading, removing, counting and
entering newcomers. For each action `after` is the directory it leaves, `answer` what it answers
and `events` what it reports, all three functions of the directory before it. `about?` is the id
that an action names or, for a newcomer, hands out.
-/

namespace Roster

open Log (Event)

inductive Action where
  | put (user : User)
  | putRecord (record : User.Record)
  | get (id : UInt64)
  | getRecord (id : UInt64)
  | contains (id : UInt64)
  | erase (id : UInt64)
  | size
  | enrol (e : Enrolment)
  /-- Enters someone new, then renames the user that was answered, not the one in store. -/
  | enrolRenamed (e : Enrolment) (name : String)
deriving DecidableEq

inductive Answer where
  | done
  | found (user : Option User)
  | foundRecord (record : Option User.Record)
  | isHeld (held : Bool)
  | removed (user : Option User)
  | count (n : Nat)
  | enrolled (user : User)
  /-- The renamed user, the one in store, and whether they are equal. -/
  | renamed (changed : User) (stored : Option User) (same : Bool)
deriving DecidableEq

namespace Directory

def after (d : Directory) : Action → Directory
  | .put u => d.insert u
  | .putRecord r => d.insert (.ofRecord r)
  | .erase id => d.erase id
  | .enrol e => d.enrol e
  | .enrolRenamed e _ => d.enrol e
  | .get _ | .getRecord _ | .contains _ | .size => d

def answer (d : Directory) : Action → Answer
  | .put _ => .done
  | .putRecord _ => .done
  | .get id => .found (d.find? id)
  | .getRecord id => .foundRecord ((d.find? id).map User.toRecord)
  | .contains id => .isHeld (d.contains id)
  | .erase id => .removed (d.find? id)
  | .size => .count d.size
  | .enrol e => .enrolled (d.newcomer e)
  | .enrolRenamed e name =>
    let changed := (d.newcomer e).rename name
    let stored := (d.enrol e).find? (d.newcomer e).id
    .renamed changed stored (stored == some changed)

def events (d : Directory) : Action → List Event
  | .put u => [d.insertEvent u]
  | .putRecord r => [d.insertEvent (.ofRecord r)]
  | .erase id => d.eraseEvents id
  | .enrol e => d.enrolEvents e
  | .enrolRenamed e _ => d.enrolEvents e
  | .get _ | .getRecord _ | .contains _ | .size => []

/-- The id that an action names or hands out. -/
def about? (d : Directory) : Action → Option UInt64
  | .put u => some u.id
  | .putRecord r => some r.id
  | .get id | .getRecord id | .contains id | .erase id => some id
  | .size => none
  | .enrol _ | .enrolRenamed _ _ => some d.nextId

def afterAll (d : Directory) (as : List Action) : Directory := as.foldl after d

/-- An action leaves every id alone but the one it is about. -/
theorem find?_after_of_about?_ne {d : Directory} {a : Action} {id : UInt64}
    (h : d.about? a ≠ some id) : (d.after a).find? id = d.find? id := by
  cases a <;> simp_all [after, about?, enrol, newcomer, Enrolment.user, find?_insert, find?_erase,
    eq_comm]

end Directory

end Roster
