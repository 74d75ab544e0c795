import Roster.User.Basic

/-!
# Copies of a user

Users are values: a copy can be changed without touching what it was copied from, and a user that
is handed over arrives as it was. `Copies.make` takes two users through a copy, a change of the
copy, a hand-over and a change of the receiver, and keeps every value seen on the way.
-/

namespace Roster.User

/-- Every value seen while one user is copied and handed over to the place of another. -/
structure Copies where
  /-- Whether the copy equalled its source before it was changed. -/
  same : Bool
  /-- The copy, after its name was changed. -/
  copy : User
  /-- The source, after the copy was changed. -/
  source : User
  /-- The source, handed over. -/
  moved : User
  /-- What stood at the receiving place before. -/
  before : User
  /-- What stands there in the end: the user handed over, with the copy's name as its email. -/
  target : User
  /-- Whether the changed copy differs from the user handed over. -/
  differs : Bool
deriving DecidableEq

/-- Copies `a`, calls the copy by its name with an exclamation mark, hands `a` over to the place of
`b`, and gives the user there the copy's new name as its email. -/
def Copies.make (a b : User) : Copies :=
  let copy := a
  let changed := copy.rename (copy.name ++ "!")
  let moved := a
  { same := copy == a
    copy := changed
    source := a
    moved := moved
    before := b
    target := moved.withEmail changed.name
    differs := changed != moved }

end Roster.User
