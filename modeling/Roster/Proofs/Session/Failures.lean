import Roster.Proofs.Registry.Run
import Roster.Proofs.Session.Transparency

/-!
# Steps that fail leave no trace

A step fails if a delay is below zero, if settings of the log have a fault or their file cannot be
opened, or if a command is refused. What a step has done by the time it fails stays done, but it has
not done anything: commands and installations make all their checks first
(`Registry.clean_carryOut`, `Log.Setup.clean_install`). So a step that fails leaves the session as
it was (`after_of_fails`), with all stores, registrars, lookups and stop sources, the calls that the
pauses have had, and the log, and nothing later can tell whether it was ever taken.

An outcome that is handed out is no failure of its step, not even if the pause broke.
-/

namespace Roster.Session

open Log (Settings Setup)

def Result.isFailure : Result → Bool
  | .command (.error _) => true
  | .installed (.error _) _ => true
  | .command (.ok _) | .installed (.ok _) _ | .shutDown _ => false

def fails (s : Session) (step : Step) : Bool := (s.report step).result.isFailure

/-- The steps that succeed, each from where the ones before it have led. -/
def succeeding (s : Session) : List Step → List Step
  | [] => []
  | step :: rest => (if s.fails step then [] else [step]) ++ (s.after step).succeeding rest

/-! ## One step -/

theorem fails_of_perform {s : Session} {c : Registry.Command} (hup : s.log.isDown = false)
    {e : Registry.Effect} (h : s.registry.perform c = .ok e) : s.fails (.command c) = false := by
  rw [fails, report_command_of_up hup, commandReport, Registry.reply_of_perform h]
  rfl

theorem fails_of_accepted {wish : Settings.Wish} {fileOpens : Bool} {settings : Settings}
    (h : Settings.accepted? wish fileOpens = some settings) (s : Session) :
    s.fails (.install wish fileOpens) = false := by
  rw [fails, report, Setup.on_install_of_accepted h]
  rfl

/-- **A step that fails leaves the session as it was.** -/
theorem after_of_fails {s : Session} {step : Step} (h : s.fails step = true) :
    s.after step = s := by
  cases step with
  | command c =>
    cases hdown : s.log.isDown with
    | true =>
      rw [after, hdown]
      rfl
    | false =>
      cases hperf : s.registry.perform c with
      | ok e =>
        rw [fails_of_perform hdown hperf] at h
        cases h
      | error f => rw [after_command_of_up hdown, Registry.next_of_refused hperf]
  | install wish fileOpens =>
    cases hs : Settings.accepted? wish fileOpens with
    | some settings =>
      rw [fails_of_accepted hs] at h
      cases h
    | none => exact after_install_of_refused hs s
  | shutdown => cases h

theorem messages_of_fails {s : Session} {step : Step} (h : s.fails step = true) :
    (s.report step).messages = [] := by
  cases step with
  | command c =>
    cases hdown : s.log.isDown with
    | true =>
      rw [report, hdown]
      rfl
    | false =>
      cases hperf : s.registry.perform c with
      | ok e =>
        rw [fails_of_perform hdown hperf] at h
        cases h
      | error f =>
        rw [report_command_of_up hdown, commandReport, Registry.events_of_refused hperf]
        rfl
  | install wish fileOpens => rfl
  | shutdown => rfl

/-! ## Many steps -/

theorem afterAll_succeeding (s : Session) (steps : List Step) :
    s.afterAll (s.succeeding steps) = s.afterAll steps := by
  induction steps generalizing s with
  | nil => rfl
  | cons step steps ih =>
    rw [succeeding, afterAll_cons]
    split
    · next hfails =>
      rw [List.nil_append, after_of_fails hfails]
      exact ih s
    · exact ih (s.after step)

theorem reports_succeeding (s : Session) (steps : List Step) :
    s.reports (s.succeeding steps) =
      (s.reports steps).filter fun report => !report.result.isFailure := by
  induction steps generalizing s with
  | nil => rfl
  | cons step steps ih =>
    rw [succeeding, reports_cons, List.filter_cons]
    cases hfails : s.fails step with
    | true =>
      -- The step is left out on the one side and its report on the other; both go on from `s`.
      have hreport : (s.report step).result.isFailure = true := hfails
      rw [hreport, after_of_fails hfails]
      exact ih s
    | false =>
      have hreport : (s.report step).result.isFailure = false := hfails
      rw [hreport]
      exact congrArg (s.report step :: ·) (ih (s.after step))

/-- **A step that fails might as well not have been taken.** Whatever the session and wherever in it
the step stands, the session is the same right after it as right before, and the step has logged
nothing. Without the step the session ends the same, and every other step has the report that it
had: its result, the size and the messages. All of this holds as well if every step that fails is
left out at once. -/
theorem failures_leave_no_trace (steps : List Step) :
    (∀ before step after, steps = before ++ step :: after →
      (initial.afterAll before).fails step = true →
        initial.afterAll (before ++ [step]) = initial.afterAll before ∧
        ((initial.afterAll before).report step).messages = [] ∧
        initial.afterAll (before ++ after) = initial.afterAll steps ∧
        initial.reports (before ++ after) = (initial.reports steps).eraseIdx before.length) ∧
    initial.afterAll (initial.succeeding steps) = initial.afterAll steps ∧
    initial.reports (initial.succeeding steps) =
      (initial.reports steps).filter fun report => !report.result.isFailure := by
  refine ⟨?_, afterAll_succeeding initial steps, reports_succeeding initial steps⟩
  rintro before step after rfl hfails
  have hsame := after_of_fails hfails
  refine ⟨?_, messages_of_fails hfails, ?_, ?_⟩
  · rw [afterAll_concat, hsame]
  · rw [afterAll_append, afterAll_append, afterAll_cons, hsame]
  · have hlen : (initial.reports before).length = before.length := length_reports initial before
    rw [reports_append, reports_append, reports_cons, hsame,
      List.eraseIdx_append_of_length_le (Nat.le_of_eq hlen), hlen, Nat.sub_self]
    rfl

/-- A session with failures of every kind between two lookups that share a script. -/
def faultySteps : List Step :=
  [ .command (.openStore none (.scripted [.interrupted, .completed])),
    .command (.lookup 0 7 .none),
    .command (.openStore (some (-1)) .gated),
    .install { queueSize := some 0 } true,
    .install { file := some "a.log" } false,
    .command (.lookup 0 7 (.shared 4)),
    .command (.appoint 1),
    .command (.lookup 0 7 .none) ]

/-- The third to the seventh step fail. The fifth breaks off half way, with the console open and the
file not, and leaves the log without a pool; the last one gets the second entry of the script as it
would without them. -/
theorem failures_leave_no_trace_scripted :
    (initial.afterAll (faultySteps.take 4)).fails
      (.install { file := some "a.log" } false) = true ∧
    initial.afterAll (faultySteps.take 5) = initial.afterAll (faultySteps.take 4) ∧
    (initial.afterAll (faultySteps.take 5)).fails (.command (.lookup 0 7 (.shared 4))) = true ∧
    initial.afterAll (faultySteps.take 6) = initial.afterAll (faultySteps.take 5) ∧
    initial.succeeding faultySteps = faultySteps.take 2 ++ faultySteps.drop 7 ∧
    initial.reports (faultySteps.take 2 ++ faultySteps.drop 7) =
      (initial.reports faultySteps).filter fun report => !report.result.isFailure := by
  have hsink : (initial.afterAll (faultySteps.take 4)).fails
      (.install { file := some "a.log" } false) = true := by decide
  have hshared : (initial.afterAll (faultySteps.take 5)).fails
      (.command (.lookup 0 7 (.shared 4))) = true := by decide
  have hsucceeding : initial.succeeding faultySteps = faultySteps.take 2 ++ faultySteps.drop 7 := by
    decide
  obtain ⟨hone, _, hall⟩ := failures_leave_no_trace faultySteps
  rw [hsucceeding] at hall
  exact ⟨hsink, (hone (faultySteps.take 4) _ (faultySteps.drop 5) rfl hsink).1, hshared,
    (hone (faultySteps.take 5) _ (faultySteps.drop 6) rfl hshared).1, hsucceeding, hall⟩

end Roster.Session
