import Roster.Log.Level
import Roster.User.Basic

/-!
# Events worth a message

What the program reports as it works. An `Event` says what happened; its level and its wording are
functions of it, so the wording of every message stands in one place (`Event.text`). Ids and counts
are written in decimal and texts as they are, whatever characters they hold.
-/

namespace Roster.Log

structure Message where
  level : Level
  text : String
deriving DecidableEq

/-- Something the program reports. -/
inductive Event where
  /-- A user was stored under an id that was free. -/
  | stored (id : UInt64) (email : String)
  /-- A user was stored in place of another with the same id. -/
  | overwrote (id : UInt64) (email : String)
  /-- A user was removed. -/
  | removed (id : UInt64)
  /-- A lookup was asked for, to be answered after a delay in milliseconds. -/
  | lookupStarted (id : UInt64) (delay : Nat)
  /-- A lookup was given up before its delay had passed. -/
  | lookupCancelled (id : UInt64)
  /-- The id that a new user is about to get belongs to someone already. -/
  | idTaken (id : UInt64)
  /-- A new user was entered. -/
  | enrolled (user : User)
  /-- The program starts. -/
  | starting
  /-- A lookup that was waited for failed. -/
  | lookupFailed (what : String)
  /-- The number of users in store. -/
  | counted (n : Nat)
deriving DecidableEq

namespace Event

def decimal (id : UInt64) : String := toString id.toNat

def level : Event → Level
  | stored .. | overwrote .. | removed .. | lookupStarted .. => .debug
  | enrolled .. | starting | counted .. => .info
  | lookupCancelled .. | idTaken .. => .warn
  | lookupFailed .. => .err

def text : Event → String
  | stored id email =>
    "UserRepository::add: stored user " ++ decimal id ++ " (" ++ email ++ ")"
  | overwrote id email =>
    "UserRepository::add: overwrote user " ++ decimal id ++ " (" ++ email ++ ")"
  | removed id => "UserRepository::erase: removed user " ++ decimal id
  | lookupStarted id delay =>
    "UserRepository::getByIdAsync: lookup " ++ decimal id ++ " after " ++ toString delay ++ "ms"
  | lookupCancelled id => "UserRepository::getByIdAsync: lookup " ++ decimal id ++ " cancelled"
  | idTaken id => "UserService::createUser: id " ++ decimal id ++ " already taken, overwriting"
  | enrolled user =>
    "UserService::createUser: created user " ++ decimal user.id ++ " name=" ++ user.name
      ++ " email=" ++ user.email
  | starting => "USTORE! Starting..."
  | lookupFailed what => "Async lookup failed: " ++ what
  | counted n => "Stored users: " ++ toString n

def message (e : Event) : Message := ⟨e.level, e.text⟩

end Event

end Roster.Log
