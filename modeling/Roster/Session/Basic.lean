import Roster.Log.Setup
import Roster.Registry.Command

/-!
# Sessions

A session is the registry and the log side by side, taken through a list of steps. A command
changes the registry and never the log; a step on the log never changes the registry. The log has
one say over commands: once it is shut down they are refused, until it is installed again.

Each step has a `Report`: its result, the size of the store it concerns, the messages that pass the
log as it stands before the step, and the id it names.
-/

namespace Roster

open Log (Event Message)

structure Session where
  registry : Registry
  log : Log.Setup

namespace Session

inductive Step where
  | command (c : Registry.Command)
  /-- Installs settings of the log; `fileOpens` says whether a log file can be opened. -/
  | install (wish : Log.Settings.Wish) (fileOpens : Bool)
  /-- Shuts the log down. -/
  | shutdown
deriving DecidableEq

inductive Result where
  | command (reply : Except Registry.Fault Registry.Reply)
  /-- Whether the installation succeeded, and the log after it. -/
  | installed (result : Except Log.Fault Unit) (log : Log.Setup)
  /-- The log after it was shut down. -/
  | shutDown (log : Log.Setup)

structure Report where
  result : Result
  size : Option Nat
  messages : List Message
  /-- The store and the id that the step named or handed out. -/
  named : Option (Nat × UInt64)

def initial : Session := ⟨.empty, .initial⟩

/-- The log after an attempt to install settings, whether it succeeds or not. -/
def logAfterInstall (log : Log.Setup) (wish : Log.Settings.Wish) (fileOpens : Bool) : Log.Setup :=
  ((Log.Setup.install wish fileOpens).on log).2

def after (s : Session) : Step → Session
  | .command c => if s.log.isDown then s else { s with registry := s.registry.next c }
  | .install wish fileOpens => { s with log := logAfterInstall s.log wish fileOpens }
  | .shutdown => { s with log := s.log.shutdown }

def commandReport (s : Session) (c : Registry.Command) : Report where
  result := .command (s.registry.reply c)
  size := s.registry.sizeAfter? c
  messages := s.log.record (s.registry.events c)
  named := s.registry.names? c

/-- The report on a command that is refused because the log is down. -/
def downReport : Report := ⟨.command (.error (.refused .logDown)), none, [], none⟩

def report (s : Session) : Step → Report
  | .command c => if s.log.isDown then downReport else s.commandReport c
  | .install wish fileOpens =>
    ⟨.installed ((Log.Setup.install wish fileOpens).on s.log).1
      (logAfterInstall s.log wish fileOpens), none, [], none⟩
  | .shutdown => ⟨.shutDown s.log.shutdown, none, [], none⟩

/-! ### Runs -/

def afterAll (s : Session) : List Step → Session
  | [] => s
  | step :: rest => (s.after step).afterAll rest

def reports (s : Session) : List Step → List Report
  | [] => []
  | step :: rest => s.report step :: (s.after step).reports rest

@[simp] theorem afterAll_nil (s : Session) : s.afterAll [] = s := rfl

@[simp] theorem afterAll_cons (s : Session) (step : Step) (rest : List Step) :
    s.afterAll (step :: rest) = (s.after step).afterAll rest := rfl

@[simp] theorem reports_nil (s : Session) : s.reports [] = [] := rfl

@[simp] theorem reports_cons (s : Session) (step : Step) (rest : List Step) :
    s.reports (step :: rest) = s.report step :: (s.after step).reports rest := rfl

/-- The run of two lists, one after the other, is the run of the second from where the first
ended. -/
theorem afterAll_append (s : Session) (xs ys : List Step) :
    s.afterAll (xs ++ ys) = (s.afterAll xs).afterAll ys := by
  induction xs generalizing s with
  | nil => rfl
  | cons x xs ih => exact ih (s.after x)

theorem reports_append (s : Session) (xs ys : List Step) :
    s.reports (xs ++ ys) = s.reports xs ++ (s.afterAll xs).reports ys := by
  induction xs generalizing s with
  | nil => rfl
  | cons x xs ih =>
    show s.report x :: (s.after x).reports (xs ++ ys) = _
    rw [ih (s.after x)]
    rfl

/-- Every step has one report. -/
theorem length_reports (s : Session) (steps : List Step) :
    (s.reports steps).length = steps.length := by
  induction steps generalizing s with
  | nil => rfl
  | cons x xs ih => simp [ih]

end Session

end Roster
