/-!
# Users

A user is an id, a name and an email; two users are equal when all three are. A `User.Record` is
the form in which a user travels: a record may arrive with fields unset, and an unset field reads
as zero or as the empty text.
-/

namespace Roster

structure User where
  id : UInt64
  name : String
  email : String
deriving DecidableEq

namespace User

structure Record where
  id : UInt64
  name : String
  email : String
deriving DecidableEq

/-- The record with the given fields, where an unset id is zero and an unset text empty. -/
def Record.ofFields (id : Option UInt64) (name email : Option String) : Record where
  id := id.getD 0
  name := name.getD ""
  email := email.getD ""

def toRecord (u : User) : Record := ⟨u.id, u.name, u.email⟩

def ofRecord (r : Record) : User := ⟨r.id, r.name, r.email⟩

def rename (u : User) (name : String) : User := { u with name := name }

def withEmail (u : User) (email : String) : User := { u with email := email }

/-! ### Records and users -/

@[simp] theorem ofRecord_toRecord (u : User) : ofRecord u.toRecord = u := rfl

@[simp] theorem toRecord_ofRecord (r : Record) : (ofRecord r).toRecord = r := rfl

@[simp] theorem id_ofRecord (r : Record) : (ofRecord r).id = r.id := rfl

@[simp] theorem id_rename (u : User) (name : String) : (u.rename name).id = u.id := rfl

end User

end Roster
