import Roster.Attempt
import Roster.Log.Event
import Roster.Log.Settings

/-!
# The state of the log

Which logger is active, what is registered under the program's own name, the pool that writes
messages out, and how often a logger was flushed.

Installing settings replaces the active logger and registers the new one. The pool is created by
the first installation and stays until the log is shut down, whatever queue later settings ask for.
An installation takes one step after the other and may break off at several of them: when the
settings are checked and when the sinks are opened, one by one.
-/

namespace Roster.Log

inductive Sink where
  | console
  /-- A file that is followed by the next once it is full. -/
  | file (path : String) (maxSize maxFiles : Nat)
deriving DecidableEq

structure Logger where
  name : String
  level : Level
  sinks : List Sink
deriving DecidableEq

/-- The threads that write messages out, and how many messages may wait for them. -/
structure Pool where
  queue : Nat
  threads : Nat
deriving DecidableEq

inductive Fault where
  | settings (f : Settings.Fault)
  /-- The file cannot be opened. -/
  | sink
deriving DecidableEq

def Fault.message : Fault → String
  | settings f => f.message
  | sink => "cannot open log file"

/-- The name that the program's own logger is registered under. -/
def loggerName : String := "ustore"

namespace Settings

/-- The places that settings send messages to: the console, then the file if there is one. -/
def sinks (s : Settings) : List Sink :=
  .console :: if s.hasFile then [.file s.file s.maxFileSize s.maxFiles] else []

def logger (s : Settings) : Logger := ⟨loggerName, s.level, s.sinks⟩

def pool (s : Settings) : Pool := ⟨s.queueSize, 1⟩

end Settings

structure Setup where
  /-- The logger that messages go to. -/
  active : Option Logger
  /-- The logger registered under `loggerName`. -/
  registered : Option Logger
  pool : Option Pool
  /-- How many times a logger was flushed. -/
  flushes : Nat
deriving DecidableEq

namespace Setup

/-- The state at the start: a bare recorder that lets everything through. -/
def initial : Setup where
  active := some ⟨"capture", .trace, []⟩
  registered := none
  pool := none
  flushes := 0

def isRegistered (s : Setup) : Bool := s.active.isSome && s.active == s.registered

/-- Opens a sink, if it can be opened. The console always can, a file if `fileOpens`. -/
def openSink (fileOpens : Bool) : Sink → Attempt Setup Fault Unit
  | .console => pure ()
  | .file _ _ _ => Attempt.demand (fileOpens = true) .sink

def providePool (p : Pool) : Attempt Setup Fault Unit :=
  modify fun s => { s with pool := some (s.pool.getD p) }

/-- Puts a logger in charge, which also registers it. -/
def putInCharge (l : Logger) : Attempt Setup Fault Unit :=
  modify fun s => { s with active := some l, registered := some l }

/-- Installs settings: first the sinks are opened, then the pool is there, then the logger is put in
charge. -/
def install (wish : Settings.Wish) (fileOpens : Bool) : Attempt Setup Fault Unit := do
  let settings ← Attempt.allow .settings (Settings.ofWish wish)
  forM settings.sinks (openSink fileOpens)
  -- Nothing can break off any more.
  providePool settings.pool
  putInCharge settings.logger

/-- Ends logging: what is registered under the program's name is flushed, and everything is
dropped. -/
def shutdown (s : Setup) : Setup where
  active := none
  registered := none
  pool := none
  flushes := s.flushes + if s.registered.isSome then 1 else 0

def isDown (s : Setup) : Bool := s.active.isNone

def admits (s : Setup) (m : Message) : Bool := s.active.any (·.level ≤ m.level)

def record (s : Setup) (events : List Event) : List Message :=
  (events.map Event.message).filter s.admits

end Setup

end Roster.Log
