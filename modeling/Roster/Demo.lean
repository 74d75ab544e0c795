import Roster.Session.Basic
import Roster.Text.Layout

/-!
# A demonstration

The log is set up for debugging, two users are enrolled, one is read at once and the other is
looked up, the roles are named, the users are counted, and the log is shut down.
-/

namespace Roster.Demo

open Log (Event Message)

structure Report where
  exitCode : UInt32
  output : String
  messages : List Message
  log : Log.Setup
deriving DecidableEq

/-- The session once the log is set up. -/
def opening : Session := Session.initial.after (.install { level := some .debug } true)

def steps : List Session.Step :=
  [ .command (.openStore none .timed),
    .command (.appoint 0),
    .command (.act (.registrar 0) (.enrol ⟨"Ann", "ann@x.com"⟩)),
    .command (.act (.registrar 0) (.enrol ⟨"Bob", "bob@x.com"⟩)),
    .command (.act (.store 0) (.get 1)),
    .command (.lookup 0 2 .none),
    .command (.collect 0) ]

def closing : Session := opening.afterAll steps

def firstUser : Option User := (closing.registry.directory 0).find? 1

def lookedUp : Option Lookup.Outcome := (closing.registry.lookups[0]?).bind Lookup.outcome?

def line (u : User) : String :=
  Event.decimal u.id ++ " " ++ u.name ++ " " ++ u.email ++ "\n"

/-- The lines that a lookup shows: none if it failed or found nobody. -/
def lookupLines : Option Lookup.Outcome → String
  | some (.found (some u)) => line u
  | _ => ""

/-- The reports that a lookup gives rise to: one if it failed. -/
def lookupEvents : Option Lookup.Outcome → List Event
  | some (.failed f) => [.lookupFailed f.what]
  | _ => []

def rolesLine : String :=
  "roles: " ++ " ".intercalate (Role.all.map fun r => Text.shown (.role r)) ++ "\n"

def run : Report where
  exitCode := 0
  output := firstUser.elim "" line ++ lookupLines lookedUp ++ rolesLine
  messages :=
    opening.log.record [.starting]
      ++ (opening.reports steps).flatMap Session.Report.messages
      ++ closing.log.record
        (lookupEvents lookedUp ++ [.counted (closing.registry.directory 0).size])
  log := (closing.after .shutdown).log

/-- Both users are found. -/
example : run.output = "1 Ann ann@x.com\n2 Bob bob@x.com\nroles: Admin User Guest\n" := by
  decide

end Roster.Demo
