import Roster.Lookup.Timed

/-!
# Writers and readers side by side

Several writers share out a list of users: writer `t` of `n` stores the users at the positions
`t`, `t + n`, `t + 2 n` and so on, in that order. Meanwhile ids are looked up without delay. A
schedule says whose turn it is; each turn is one user stored or one id read.
-/

namespace Roster

open Lookup (Outcome)

namespace Race

inductive Turn where
  /-- A writer stores its next user, if it has one left. -/
  | write (writer : Nat)
  | read (id : UInt64)
deriving DecidableEq

/-- The directory so far, and for each writer the users it has yet to store. -/
structure State where
  directory : Directory
  queues : List (List User)
deriving DecidableEq

def share (users : List User) (n writer : Nat) : List User :=
  users.zipIdx.filterMap fun (u, i) => if i % n = writer then some u else none

/-- The start: nothing is stored, and the users are shared out among `n` writers. -/
def start (users : List User) (n : Nat) : State where
  directory := .empty
  queues := (List.range n).map (share users n)

/-- What a lookup without delay comes to. -/
def read (d : Directory) (id : UInt64) : Outcome := Lookup.afterWait d id ⟨0, none⟩

def State.after (s : State) : Turn → State
  | .write t =>
    match s.queues[t]? with
    | some (u :: rest) => ⟨s.directory.insert u, s.queues.set t rest⟩
    | some [] | none => s
  | .read _ => s

def State.afterAll (s : State) : List Turn → State
  | [] => s
  | t :: rest => (s.after t).afterAll rest

/-- What the lookups of a schedule come to, each with the id it asked for. -/
def State.readings (s : State) : List Turn → List (UInt64 × Outcome)
  | [] => []
  | .read id :: rest => (id, Race.read s.directory id) :: s.readings rest
  | .write t :: rest => (s.after (.write t)).readings rest

def State.isOver (s : State) : Bool := s.queues.all List.isEmpty

/-- Whether a lookup of an id came to nothing or to exactly the listed user. -/
def isSane (users : List User) (reading : UInt64 × Outcome) : Bool :=
  reading.2 == .found none
    || users.any fun u => u.id == reading.1 && reading.2 == .found (some u)

/-- The writers take turns in order, and after each turn the id just written is read. -/
def schedule (users : List User) (n : Nat) : List Turn :=
  users.zipIdx.flatMap fun (u, i) => [.write (i % n), .read u.id]

structure Report where
  /-- Whether every lookup on the way was sane. -/
  sane : Bool
  size : Nat
  /-- For each user what a new lookup of its id comes to. -/
  after : List Outcome
deriving DecidableEq

def report (users : List User) (n : Nat) (turns : List Turn) : Report :=
  let final := (start users n).afterAll turns
  { sane := ((start users n).readings turns).all (isSane users)
    size := final.directory.size
    after := users.map fun u => Race.read final.directory u.id }

def run (users : List User) (n : Nat) : Report := report users n (schedule users n)

end Race

end Roster
