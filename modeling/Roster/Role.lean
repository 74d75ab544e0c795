import Roster.Failure.Basic

/-!
# Roles

The three roles a user can have, with the names they are printed with and read from. Reading is
exact: any text other than a role's name is refused, and the failure quotes the text unchanged.
-/

namespace Roster

inductive Role where
  | admin
  | member
  | guest
deriving DecidableEq

namespace Role

/-- Every role, in the order of their numbers. -/
def all : List Role := [admin, member, guest]

def name : Role → String
  | admin => "Admin"
  | member => "User"
  | guest => "Guest"

def number : Role → Nat
  | admin => 0
  | member => 1
  | guest => 2

def ofNumber? (n : Nat) : Option Role := all.find? (·.number == n)

/-- The failure that answers a text which names no role. -/
def unknown (text : String) : Failure :=
  .ofKind .invalidArgument ("Unknown user role: " ++ text) 0

def parse (text : String) : Except Failure Role :=
  if text = "Admin" then .ok admin
  else if text = "User" then .ok member
  else if text = "Guest" then .ok guest
  else .error (unknown text)

@[simp] theorem ofNumber?_number (r : Role) : ofNumber? r.number = some r := by
  cases r <;> rfl

end Role

end Roster
