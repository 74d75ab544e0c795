import Std.Data.ExtTreeSet
import Roster.Session.Basic

/-!
# The closing list of a session

After the last step every store is listed: each id that a step named or handed out there, once and
in rising order, with the user it has in the end.
-/

namespace Roster.Session

/-- A line of the closing list: an id and what it has. -/
abbrev Line := UInt64 × Option User

/-- The ids that reports name in a store, each once. -/
def namedIds (reports : List Report) (store : Nat) : Std.ExtTreeSet UInt64 compare :=
  .ofList (reports.filterMap fun r =>
    r.named.bind fun (n, id) => if n = store then some id else none) compare

/-- What a directory has under each of some ids, in rising order of the ids. -/
def linesOf (d : Directory) (ids : Std.ExtTreeSet UInt64 compare) : List Line :=
  ids.toList.map fun id => (id, d.find? id)

/-- The closing list: for each store the ids named there. -/
def listing (r : Registry) (reports : List Report) : List (List Line) :=
  r.stores.mapIdx fun n s => linesOf s.directory (namedIds reports n)

structure Transcript where
  reports : List Report
  listing : List (List Line)

def play (steps : List Step) : Transcript :=
  let reports := initial.reports steps
  ⟨reports, listing (initial.afterAll steps).registry reports⟩

end Roster.Session
