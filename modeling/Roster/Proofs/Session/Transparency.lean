import Roster.Proofs.Log.Wording
import Roster.Proofs.Session.LogHistory
import Roster.Session.Listing

/-!
# The log leaves the registry alone

A session and the same session without its steps on the log go side by side: as long as the log is
up, both have the same registry at every command, and so answer it alike. They differ in the
messages only, of which the log of the first drops those below its level.

`Alike` is what the two sessions have in common. A command taken by both keeps it
(`Alike.after_command`), and so does an attempt at installing taken by the first alone
(`Alike.after_install`).
-/

namespace Roster

open Log (Event Message)

namespace Session

open Log (Setup Settings Level)

def Step.isCommand : Step → Bool
  | .command _ => true
  | .install _ _ | .shutdown => false

def commands (steps : List Step) : List Step := steps.filter Step.isCommand

/-- The level of the last settings brought into force, and `trace` without any. -/
def threshold (steps : List Step) : Level := (installed steps).getLast?.elim .trace Settings.level

@[simp] theorem commands_nil : commands [] = [] := rfl

@[simp] theorem commands_command (c : Registry.Command) (steps : List Step) :
    commands (.command c :: steps) = .command c :: commands steps := rfl

@[simp] theorem commands_install (wish : Settings.Wish) (fileOpens : Bool) (steps : List Step) :
    commands (.install wish fileOpens :: steps) = commands steps := rfl

theorem commands_append (xs ys : List Step) : commands (xs ++ ys) = commands xs ++ commands ys :=
  List.filter_append xs ys

theorem getElem?_reports (s : Session) (before : List Step) (step : Step) (after : List Step) :
    (s.reports (before ++ step :: after))[before.length]? =
      some ((s.afterAll before).report step) := by
  have hlen : (s.reports before).length = before.length := length_reports s before
  rw [reports_append, List.getElem?_append_right (Nat.le_of_eq hlen), hlen, Nat.sub_self]
  rfl

/-! ## Two sessions side by side -/

/-- Two sessions with the same registry, in both of which the log is up. -/
structure Alike (s t : Session) : Prop where
  registry : s.registry = t.registry
  up : s.log.isDown = false
  up' : t.log.isDown = false

theorem alike_initial : Alike initial initial := ⟨rfl, rfl, rfl⟩

theorem after_command_of_up {s : Session} (h : s.log.isDown = false) (c : Registry.Command) :
    s.after (.command c) = { s with registry := s.registry.next c } := by
  rw [after, h]
  rfl

theorem report_command_of_up {s : Session} (h : s.log.isDown = false) (c : Registry.Command) :
    s.report (.command c) = s.commandReport c := by
  rw [report, h]
  rfl

theorem Alike.after_command {s t : Session} (h : Alike s t) (c : Registry.Command) :
    Alike (s.after (.command c)) (t.after (.command c)) := by
  rw [after_command_of_up h.up, after_command_of_up h.up']
  exact ⟨congrArg (·.next c) h.registry, h.up, h.up'⟩

/-- An attempt at installing leaves the log up, whether it succeeds or not. -/
theorem Alike.after_install {s t : Session} (h : Alike s t) (wish : Settings.Wish)
    (fileOpens : Bool) : Alike (s.after (.install wish fileOpens)) t := by
  cases hs : Settings.accepted? wish fileOpens with
  | none =>
    rw [after_install_of_refused hs]
    exact h
  | some settings =>
    rw [after_install_of_accepted hs]
    exact ⟨h.registry, rfl, h.up'⟩

/-- **A session stays alike without its steps on the log**, as long as it shuts nothing down. -/
theorem Alike.afterAll {s t : Session} (h : Alike s t) {steps : List Step}
    (hup : Step.shutdown ∉ steps) : Alike (s.afterAll steps) (t.afterAll (commands steps)) := by
  induction steps generalizing s t with
  | nil => exact h
  | cons step steps ih =>
    rw [List.mem_cons, not_or] at hup
    cases step with
    | command c => exact ih (h.after_command c) hup.2
    | install wish fileOpens => exact ih (h.after_install wish fileOpens) hup.2
    | shutdown => exact absurd rfl hup.1

/-- Alike sessions name the same ids, since an attempt at installing names none. -/
theorem Alike.named {s t : Session} (h : Alike s t) {steps : List Step}
    (hup : Step.shutdown ∉ steps) :
    (s.reports steps).filterMap Report.named =
      (t.reports (commands steps)).filterMap Report.named := by
  induction steps generalizing s t with
  | nil => rfl
  | cons step steps ih =>
    rw [List.mem_cons, not_or] at hup
    cases step with
    | command c =>
      have hnamed : (s.report (.command c)).named = (t.report (.command c)).named := by
        rw [report_command_of_up h.up, report_command_of_up h.up']
        exact congrArg (·.names? c) h.registry
      rw [commands_command, reports_cons, reports_cons, List.filterMap_cons, List.filterMap_cons,
        hnamed, ih (h.after_command c) hup.2]
    | install wish fileOpens =>
      rw [commands_install, reports_cons, List.filterMap_cons_none rfl]
      exact ih (h.after_install wish fileOpens) hup.2
    | shutdown => exact absurd rfl hup.1

theorem namedIds_congr {xs ys : List Report}
    (h : xs.filterMap Report.named = ys.filterMap Report.named) (store : Nat) :
    namedIds xs store = namedIds ys store := by
  have hsplit : ∀ (g : Nat × UInt64 → Option UInt64) (zs : List Report),
      (zs.filterMap fun r => r.named.bind g) = (zs.filterMap Report.named).filterMap g := by
    intro g zs
    rw [List.filterMap_filterMap]
  rw [namedIds, namedIds, hsplit, hsplit, h]

/-! ## Messages -/

theorem log_afterAll_commands (s : Session) (steps : List Step) :
    (s.afterAll (commands steps)).log = s.log := by
  induction steps generalizing s with
  | nil => rfl
  | cons step steps ih =>
    cases step with
    | command c => rw [commands_command, afterAll_cons, ih, log_after_command]
    | install wish fileOpens => exact ih s
    | shutdown => exact ih s

/-- The level of the log is that of the last settings installed. -/
theorem active_afterAll {steps : List Step} (hup : Step.shutdown ∉ steps) :
    ∃ logger, (initial.afterAll steps).log.active = some logger ∧
      logger.level = threshold steps := by
  have hactive := (follows_afterAll steps).active
  rw [if_neg hup] at hactive
  rw [threshold]
  cases hlast : (installed steps).getLast? with
  | none =>
    rw [hlast] at hactive
    exact ⟨_, hactive, rfl⟩
  | some settings =>
    rw [hlast] at hactive
    exact ⟨_, hactive, rfl⟩

theorem record_afterAll {steps : List Step} (hup : Step.shutdown ∉ steps) (events : List Event) :
    (initial.afterAll steps).log.record events =
      (Setup.initial.record events).filter (threshold steps ≤ ·.level) := by
  obtain ⟨logger, hactive, hlevel⟩ := active_afterAll hup
  rw [Setup.record_of_active hactive, Setup.record_initial, hlevel]

/-- **The log never influences the registry.** In a session that shuts nothing down, leave out every
attempt at installing.

* Each command has the result, the size and the named id that it had before, and of the messages
  that it logs now the session as it was logs exactly those not below the level of the last settings
  brought into force by then.
* In the end the registry is the same, and so is the closing list.
* The log is then the one of the start, which lets everything through. -/
theorem registry_ignores_log (steps : List Step) (hup : Step.shutdown ∉ steps) :
    (∀ before c after, steps = before ++ .command c :: after →
      ∃ full bare,
        (initial.reports steps)[before.length]? = some full ∧
        (initial.reports (commands steps))[(commands before).length]? = some bare ∧
        full.result = bare.result ∧ full.size = bare.size ∧ full.named = bare.named ∧
        full.messages = bare.messages.filter (threshold before ≤ ·.level)) ∧
    (initial.afterAll steps).registry = (initial.afterAll (commands steps)).registry ∧
    (play steps).listing = (play (commands steps)).listing ∧
    (initial.afterAll (commands steps)).log = Setup.initial := by
  have hend := alike_initial.afterAll hup
  refine ⟨?_, hend.registry, ?_, log_afterAll_commands initial steps⟩
  · intro before c after hsteps
    have hbefore : Step.shutdown ∉ before := by
      intro hmem
      apply hup
      rw [hsteps]
      exact List.mem_append_left _ hmem
    have halike := alike_initial.afterAll hbefore
    refine ⟨(initial.afterAll before).commandReport c,
      (initial.afterAll (commands before)).commandReport c, ?_, ?_, ?_, ?_, ?_, ?_⟩
    · rw [hsteps, getElem?_reports, report_command_of_up halike.up]
    · rw [hsteps, commands_append, commands_command, getElem?_reports,
        report_command_of_up halike.up']
    · exact congrArg (fun r => Result.command (r.reply c)) halike.registry
    · exact congrArg (·.sizeAfter? c) halike.registry
    · exact congrArg (·.names? c) halike.registry
    · show (initial.afterAll before).log.record ((initial.afterAll before).registry.events c) =
        ((initial.afterAll (commands before)).log.record
          ((initial.afterAll (commands before)).registry.events c)).filter _
      rw [record_afterAll hbefore, log_afterAll_commands, halike.registry]
      rfl
  · show listing _ (initial.reports steps) = listing _ (initial.reports (commands steps))
    have hids : namedIds (initial.reports steps) = namedIds (initial.reports (commands steps)) :=
      funext fun store => namedIds_congr (alike_initial.named hup) store
    rw [listing, listing, hend.registry, hids]

/-- A session whose level goes up to `warn` and stays there when an attempt fails. -/
def hushedSteps : List Step :=
  [ .command (.openStore none .gated),
    .command (.appoint 0),
    .command (.act (.store 0) (.put ⟨2, "Bob", "bob@x.com"⟩)),
    .install { level := some .warn } true,
    .install { level := some .trace, queueSize := some 0 } true,
    .command (.act (.registrar 0) (.enrol ⟨"Ann", "ann@x.com"⟩)) ]

theorem registry_ignores_log_hushed :
    Step.shutdown ∉ hushedSteps ∧
      ∃ full bare,
        (initial.reports hushedSteps)[5]? = some full ∧
        (initial.reports (commands hushedSteps))[3]? = some bare ∧
        full.size = bare.size ∧
        full.messages = [(Event.idTaken 2).message] := by
  have hup : Step.shutdown ∉ hushedSteps := by decide
  obtain ⟨full, bare, hfull, hbare, _, hsize, _, hmessages⟩ :=
    (registry_ignores_log hushedSteps hup).1 (hushedSteps.take 5) _ [] rfl
  refine ⟨hup, full, bare, hfull, hbare, hsize, ?_⟩
  have hlogged : ((initial.reports (commands hushedSteps))[3]?).map Report.messages =
      some [(Event.idTaken 2).message, (Event.overwrote 2 "ann@x.com").message,
        (Event.enrolled ⟨2, "Ann", "ann@x.com"⟩).message] := by decide
  have hbare' : (initial.reports (commands hushedSteps))[3]? = some bare := hbare
  rw [hbare'] at hlogged
  rw [hmessages, Option.some.inj hlogged]
  decide

end Session

end Roster
