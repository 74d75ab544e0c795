/-!
# Levels of the log

Every message has a level, and so has every logger: a logger lets a message through when the
message's level is at least its own. `off` is above all messages, so a logger at `off` is silent.
-/

namespace Roster.Log

/-- How much a message matters, from least to most. -/
inductive Level where
  | trace
  | debug
  | info
  | warn
  | err
  | critical
  | off
deriving DecidableEq

namespace Level

def all : List Level := [trace, debug, info, warn, err, critical, off]

def rank : Level → Nat
  | trace => 0
  | debug => 1
  | info => 2
  | warn => 3
  | err => 4
  | critical => 5
  | off => 6

instance : LE Level := ⟨fun a b => a.rank ≤ b.rank⟩

instance (a b : Level) : Decidable (a ≤ b) := inferInstanceAs (Decidable (a.rank ≤ b.rank))

def name : Level → String
  | trace => "trace"
  | debug => "debug"
  | info => "info"
  | warn => "warn"
  | err => "err"
  | critical => "critical"
  | off => "off"

def ofName? (word : String) : Option Level := all.find? (·.name == word)

/-! ### The order -/

theorem le_def {a b : Level} : a ≤ b ↔ a.rank ≤ b.rank := Iff.rfl

/-- A logger at `trace` lets everything through. -/
@[simp] theorem trace_le (a : Level) : trace ≤ a := Nat.zero_le _

end Level

end Roster.Log
