/-!
# Delays

How long a lookup waits before it reads. A delay is a whole number of milliseconds and never
negative; a number from outside is checked once, where it comes in.
-/

namespace Roster

structure Delay where
  ms : Nat
deriving DecidableEq

namespace Delay

inductive Fault where
  | negative
deriving DecidableEq

def Fault.message : Fault → String
  | negative => "Lookup delay must be >= zero."

/-- The delay of stores that ask for no other. -/
def standard : Delay := ⟨100⟩

def ofInt (ms : Int) : Except Fault Delay :=
  if ms < 0 then .error .negative else .ok ⟨ms.toNat⟩

def ofWish (ms : Option Int) : Except Fault Delay :=
  match ms with
  | some n => ofInt n
  | none => .ok standard

end Delay

end Roster
