import Std.Data.ExtTreeMap
import Roster.Log.Event

/-!
# The directory of users

Users kept under their ids. Storing a user under an id that is in use replaces the one before, so
an id has at most one user, and the last one stored is the one found.

The view of a directory is `find?`: what each id has. Every operation below has an equation through
it, and two directories with the same view are equal (`Directory.ext_find?`).
-/

namespace Roster

/-- Users, each kept under its id. -/
structure Directory where
  entries : Std.ExtTreeMap UInt64 User compare
deriving DecidableEq

namespace Directory

open Log (Event)

def empty : Directory := ⟨∅⟩

def find? (d : Directory) (id : UInt64) : Option User := d.entries[id]?

def contains (d : Directory) (id : UInt64) : Bool := d.entries.contains id

def size (d : Directory) : Nat := d.entries.size

/-- The ids in use, in rising order. -/
def ids (d : Directory) : List UInt64 := d.entries.keys

/-- Stores a user under its own id, in place of any that was there. -/
def insert (d : Directory) (u : User) : Directory := ⟨d.entries.insert u.id u⟩

def erase (d : Directory) (id : UInt64) : Directory := ⟨d.entries.erase id⟩

/-! ### What is reported -/

def insertEvent (d : Directory) (u : User) : Event :=
  if d.contains u.id then .overwrote u.id u.email else .stored u.id u.email

def eraseEvents (d : Directory) (id : UInt64) : List Event :=
  if d.contains id then [.removed id] else []

/-! ### The view of each operation -/

/-- Directories that find the same user under every id are equal. -/
theorem ext_find? {d e : Directory} (h : ∀ id, d.find? id = e.find? id) : d = e := by
  obtain ⟨m⟩ := d
  obtain ⟨n⟩ := e
  have hmn : m = n := Std.ExtTreeMap.ext_getElem? h
  rw [hmn]

@[simp] theorem find?_empty (id : UInt64) : empty.find? id = none := by
  simp [empty, find?]

@[simp] theorem size_empty : empty.size = 0 := by
  simp [empty, size]

/-- An id is in use exactly when a user is found under it. -/
theorem contains_eq_isSome_find? (d : Directory) (id : UInt64) :
    d.contains id = (d.find? id).isSome := by
  simp [contains, find?]

/-- The user stored is found under its id; under every other id nothing changes. -/
theorem find?_insert (d : Directory) (u : User) (id : UInt64) :
    (d.insert u).find? id = if id = u.id then some u else d.find? id := by
  simp only [find?, insert, Std.ExtTreeMap.getElem?_insert, Std.compare_eq_iff_eq]
  simp only [eq_comm]

/-- Nothing is found under an id once it is erased; under every other id nothing changes. -/
theorem find?_erase (d : Directory) (id₀ id : UInt64) :
    (d.erase id₀).find? id = if id = id₀ then none else d.find? id := by
  simp only [find?, erase, Std.ExtTreeMap.getElem?_erase, Std.compare_eq_iff_eq]
  simp only [eq_comm]

/-- Storing a user adds one exactly when its id was free. -/
theorem size_insert (d : Directory) (u : User) :
    (d.insert u).size = if d.contains u.id then d.size else d.size + 1 := by
  simp only [size, insert, contains, Std.ExtTreeMap.size_insert, Std.ExtTreeMap.contains_iff_mem]

/-- Erasing takes one away exactly when the id was in use. -/
theorem size_erase (d : Directory) (id : UInt64) :
    (d.erase id).size = if d.contains id then d.size - 1 else d.size := by
  simp only [size, erase, contains, Std.ExtTreeMap.size_erase, Std.ExtTreeMap.contains_iff_mem]

end Directory

end Roster
