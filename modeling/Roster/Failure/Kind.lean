/-!
# Kinds of failure

The six kinds of failure that have a number and a name of their own. The numbers are sparse, so
reading one back (`Kind.ofCode?`) is a search through the kinds and not a cast: it succeeds exactly
on the numbers that `Kind.code` gives out (`ofCode?_eq_some_iff`).
-/

namespace Roster.Failure

/-- What went wrong, as far as the program tells failures apart. -/
inductive Kind where
  | ok
  | invalidArgument
  | keyNotFound
  | internal
  | cancelled
  | unknown
deriving DecidableEq

namespace Kind

def all : List Kind := [ok, invalidArgument, keyNotFound, internal, cancelled, unknown]

/-- The number a kind is known by outside the program. -/
def code : Kind → Int32
  | ok => 0
  | invalidArgument => 1
  | keyNotFound => 6
  | internal => 9
  | cancelled => 10
  | unknown => 128

def name : Kind → String
  | ok => "OK"
  | invalidArgument => "InvalidArgument"
  | keyNotFound => "KeyNotFound"
  | internal => "Internal"
  | cancelled => "Cancelled"
  | unknown => "Unknown"

def ofCode? (c : Int32) : Option Kind := all.find? (·.code == c)

/-! ### Numbers and kinds -/

theorem mem_all (k : Kind) : k ∈ all := by cases k <;> decide

theorem code_inj {k l : Kind} : k.code = l.code ↔ k = l := by
  cases k <;> cases l <;> decide

/-- A number is read as a kind exactly when it is that kind's number. -/
theorem ofCode?_eq_some_iff {c : Int32} {k : Kind} : ofCode? c = some k ↔ k.code = c := by
  constructor
  · intro h
    simpa using List.find?_some h
  · intro h
    subst h
    cases k <;> decide

@[simp] theorem ofCode?_code (k : Kind) : ofCode? k.code = some k :=
  ofCode?_eq_some_iff.2 rfl

end Kind

end Roster.Failure
