import Roster.Attempt
import Roster.Failure.Kind
import Roster.Failure.Basic
import Roster.User.Basic
import Roster.User.Copies
import Roster.Role
import Roster.Text.Layout
import Roster.Log.Level
import Roster.Log.Event
import Roster.Log.Settings
import Roster.Log.Setup
import Roster.Directory.Basic
import Roster.Directory.Action
import Roster.Enrolment
import Roster.Delay
import Roster.Wait
import Roster.Pause
import Roster.Lookup
import Roster.Registry.Basic
import Roster.Registry.Errand
import Roster.Registry.Lookups
import Roster.Registry.Command
import Roster.Lookup.Timed
import Roster.Session.Basic
import Roster.Session.Listing
import Roster.Race
import Roster.Demo
import Roster.Main
import Roster.Proofs.Attempt
import Roster.Proofs.Directory.Ids
import Roster.Proofs.Directory.Exchange
import Roster.Proofs.Directory.History
import Roster.Proofs.Log.Wording
import Roster.Proofs.Log.Reading
import Roster.Proofs.Log.Template
import Roster.Proofs.Registry.Errands
import Roster.Proofs.Registry.Run
import Roster.Proofs.Registry.History
import Roster.Proofs.Registry.Retelling
import Roster.Proofs.Lookup.Outcome
import Roster.Proofs.Lookup.Settlement
import Roster.Proofs.Lookup.Requests
import Roster.Proofs.Lookup.Stops
import Roster.Proofs.Registry.Targets
import Roster.Proofs.Enrolment.Series
import Roster.Proofs.Session.LogHistory
import Roster.Proofs.Session.LogStates
import Roster.Proofs.Session.Transparency
import Roster.Proofs.Race
import Roster.Proofs.Directory.Dense
import Roster.Proofs.Enrolment.Collisions
import Roster.Proofs.Enrolment.Rush
import Roster.Proofs.Session.Reads
import Roster.Proofs.Lookup.Calls
import Roster.Proofs.Session.PauseCalls
import Roster.Proofs.Session.Reordering
import Roster.Proofs.Session.ClosingList
import Roster.Proofs.Session.Failures
import Roster.Proofs.Session.Isolation
import Roster.Proofs.Enrolment.Entry
import Roster.Proofs.Registry.Records
import Roster.Proofs.Failure.Records
import Roster.Proofs.Role
import Roster.Proofs.Text.Layout
