import Roster.Log.Level

/-!
# Settings of the log

How the log is to be set up: the level it starts at, the file it is also written to, the limits on
that file, and how many messages may queue. `Settings.make` refuses settings that cannot work. The
limits on the file count only when there is a file; of several faults the first in the order
queue, file size, number of files is the one reported.
-/

namespace Roster.Log

/-- How the log is to be set up. An empty file name asks for the console alone. -/
structure Settings where
  level : Level
  file : String
  /-- The size in bytes at which a file is closed and the next begun. -/
  maxFileSize : Nat
  /-- How many files are kept. -/
  maxFiles : Nat
  /-- How many messages may wait to be written. -/
  queueSize : Nat
deriving DecidableEq

namespace Settings

inductive Fault where
  | queueSize
  | fileSize
  | fileCount
deriving DecidableEq

def Fault.message : Fault → String
  | queueSize => "Log queue size must be > zero."
  | fileSize => "Max log file size must be > zero."
  | fileCount => "Max log files must be > zero."

/-- What is given of the settings; the rest is standard. -/
structure Wish where
  level : Option Level := none
  file : Option String := none
  maxFileSize : Option Nat := none
  maxFiles : Option Nat := none
  queueSize : Option Nat := none
deriving DecidableEq

def hasFile (s : Settings) : Bool := s.file != ""

/-- The first fault of settings, in the order queue, file size, number of files. -/
def fault? (s : Settings) : Option Fault :=
  if s.queueSize = 0 then some .queueSize
  else if s.hasFile && s.maxFileSize = 0 then some .fileSize
  else if s.hasFile && s.maxFiles = 0 then some .fileCount
  else none

def make (level : Level) (file : String) (maxFileSize maxFiles queueSize : Nat) :
    Except Fault Settings :=
  let s : Settings := ⟨level, file, maxFileSize, maxFiles, queueSize⟩
  match s.fault? with
  | some f => .error f
  | none => .ok s

/-- The settings that a wish asks for: level `info`, the console alone, three files of five
mebibytes and a queue of 8192 messages wherever it is silent. -/
def ofWish (w : Wish) : Except Fault Settings :=
  make (w.level.getD .info) (w.file.getD "") (w.maxFileSize.getD (5 * 1024 * 1024))
    (w.maxFiles.getD 3) (w.queueSize.getD 8192)

end Settings

end Roster.Log
