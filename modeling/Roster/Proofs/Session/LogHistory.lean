import Mathlib.Data.List.Induction
import Roster.Proofs.Attempt
import Roster.Session.Basic

/-!
# The log over a session

What a session leaves of the log, told from its attempts at installing and its shutdowns alone.

* `Step.installs?`: the settings that a step brings into force, if it is an attempt that succeeds;
* `installed steps`: the settings brought into force since the last shutdown, oldest first;
* `flushed steps`: how many shutdowns found a logger registered.

The last of the settings installed decides the logger, the first decides the pool. `Follows` says so
of a list of steps and a log. One more step keeps it (`Follows.concat`), so it holds after every
session (`follows_afterAll`).
-/

namespace Roster

namespace Log

/-- The settings that an attempt brings into force: they must have no fault, and the file must open
if there is one. -/
def Settings.accepted? (wish : Settings.Wish) (fileOpens : Bool) : Option Settings :=
  match Settings.ofWish wish with
  | .ok s => if s.file = "" ∨ fileOpens = true then some s else none
  | .error _ => none

namespace Setup

variable {wish : Settings.Wish} {fileOpens : Bool}

/-- The log with the logger of settings in charge; the pool is that of before, if there was one. -/
def adopt (s : Setup) (settings : Settings) : Setup where
  active := some settings.logger
  registered := some settings.logger
  pool := some (s.pool.getD settings.pool)
  flushes := s.flushes

theorem looks_openSink (fileOpens : Bool) (sink : Sink) : (openSink fileOpens sink).Looks := by
  cases sink with
  | console => exact Attempt.looks_pure ()
  | file _ _ _ => exact Attempt.looks_demand _ _

/-- **No installation changes the log before it breaks off**: the settings have been checked and
all the sinks are open by the time the pool is created. -/
theorem clean_install (wish : Settings.Wish) (fileOpens : Bool) :
    (install wish fileOpens).Clean :=
  (Attempt.looks_allow _ _).bind fun settings =>
    (Attempt.looks_forM (looks_openSink fileOpens) settings.sinks).bind fun _ =>
      ((Attempt.sure_modify _).bind fun _ => Attempt.sure_modify _).clean

/-- All sinks can be opened unless there is a file that cannot. -/
theorem on_openSinks (settings : Settings) (fileOpens : Bool) (log : Setup) :
    (forM settings.sinks (openSink fileOpens)).on log =
      (if settings.file = "" ∨ fileOpens = true then .ok () else .error .sink, log) := by
  by_cases hfile : settings.file = ""
  · simp [Settings.sinks, Settings.hasFile, hfile, openSink]
  · simp [Settings.sinks, Settings.hasFile, hfile, openSink, Attempt.on_demand]

theorem on_install_of_accepted {settings : Settings}
    (h : Settings.accepted? wish fileOpens = some settings) (log : Setup) :
    (install wish fileOpens).on log = (.ok (), log.adopt settings) := by
  unfold Settings.accepted? at h
  split at h
  · next s hs =>
    split at h
    · next hopens =>
      cases h
      simp [install, hs, on_openSinks, hopens, providePool, putInCharge, adopt]
    · cases h
  · cases h

theorem on_install_of_refused (h : Settings.accepted? wish fileOpens = none) (log : Setup) :
    ∃ f, (install wish fileOpens).on log = (.error f, log) := by
  -- The steps tell the fault; that the log is then as it was comes from their order.
  have hfault : ∃ f, ((install wish fileOpens).on log).1 = .error f := by
    unfold Settings.accepted? at h
    split at h
    · next s hs =>
      split at h
      · cases h
      · next hcloses =>
        exact ⟨.sink, by simp [install, hs, on_openSinks, hcloses]⟩
    · next f hf => exact ⟨.settings f, by simp [install, hf]⟩
  obtain ⟨f, hf⟩ := hfault
  exact ⟨f, Prod.ext hf (clean_install wish fileOpens log f hf)⟩

end Setup

end Log

namespace Session

open Log (Setup Settings)

/-! ## The history -/

def Step.installs? : Step → Option Settings
  | .install wish fileOpens => Settings.accepted? wish fileOpens
  | .command _ | .shutdown => none

/-- The settings brought into force since the last shutdown, or since the start, oldest first. -/
def installed (steps : List Step) : List Settings :=
  (steps.reverse.takeWhile (· ≠ .shutdown)).reverse.filterMap Step.installs?

/-- How many shutdowns of a session came while a logger was registered. -/
def flushed (steps : List Step) : Nat :=
  (List.range steps.length).countP fun i =>
    steps[i]? = some .shutdown ∧ (initial.afterAll (steps.take i)).log.registered.isSome

@[simp] theorem installed_nil : installed [] = [] := rfl

@[simp] theorem installed_concat_shutdown (steps : List Step) :
    installed (steps ++ [.shutdown]) = [] := by
  simp [installed]

theorem installed_concat {step : Step} (h : step ≠ .shutdown) (steps : List Step) :
    installed (steps ++ [step]) = installed steps ++ step.installs?.toList := by
  have hkept : (steps ++ [step]).reverse.takeWhile (· ≠ .shutdown) =
      step :: steps.reverse.takeWhile (· ≠ .shutdown) := by
    rw [List.reverse_append, List.reverse_singleton, List.singleton_append]
    exact List.takeWhile_cons_of_pos (decide_eq_true h)
  rw [installed, hkept, List.reverse_cons, List.filterMap_append, installed]
  cases hs : step.installs? <;> simp [hs]

theorem afterAll_concat (s : Session) (steps : List Step) (step : Step) :
    s.afterAll (steps ++ [step]) = (s.afterAll steps).after step :=
  afterAll_append s steps [step]

theorem flushed_concat (steps : List Step) (step : Step) :
    flushed (steps ++ [step]) = flushed steps +
      if step = .shutdown ∧ (initial.afterAll steps).log.registered.isSome then 1 else 0 := by
  have hearlier : ∀ i ∈ List.range steps.length,
      (decide ((steps ++ [step])[i]? = some .shutdown ∧
          (initial.afterAll ((steps ++ [step]).take i)).log.registered.isSome) = true ↔
        decide (steps[i]? = some .shutdown ∧
          (initial.afterAll (steps.take i)).log.registered.isSome) = true) := by
    intro i hi
    have hlt : i < steps.length := List.mem_range.mp hi
    rw [List.getElem?_append_left hlt, List.take_append_of_le_length (Nat.le_of_lt hlt)]
  rw [flushed, List.length_append, List.length_singleton, List.range_succ, List.countP_append,
    List.countP_congr hearlier, List.countP_singleton, List.getElem?_concat_length, List.take_left,
    flushed]
  simp only [Option.some.injEq, decide_eq_true_eq]

/-! ## One step -/

theorem log_after_command (s : Session) (c : Registry.Command) :
    (s.after (.command c)).log = s.log := by
  rw [after]
  split <;> rfl

theorem after_install_of_accepted {wish : Settings.Wish} {fileOpens : Bool} {settings : Settings}
    (h : Settings.accepted? wish fileOpens = some settings) (s : Session) :
    s.after (.install wish fileOpens) = { s with log := s.log.adopt settings } := by
  rw [after, logAfterInstall, Setup.on_install_of_accepted h]

theorem after_install_of_refused {wish : Settings.Wish} {fileOpens : Bool}
    (h : Settings.accepted? wish fileOpens = none) (s : Session) :
    s.after (.install wish fileOpens) = s := by
  obtain ⟨f, hf⟩ := Setup.on_install_of_refused h s.log
  rw [after, logAfterInstall, hf]

/-- The log is the one that the steps so far have led to. -/
structure Follows (steps : List Step) (log : Setup) : Prop where
  active : log.active = (installed steps).getLast?.elim
    (if .shutdown ∈ steps then none else Setup.initial.active) fun s => some s.logger
  registered : log.registered = (installed steps).getLast?.map Settings.logger
  pool : log.pool = (installed steps).head?.map Settings.pool
  flushes : log.flushes = flushed steps

theorem follows_nil : Follows [] Setup.initial := ⟨rfl, rfl, rfl, rfl⟩

/-- A step that installs nothing and shuts nothing down adds nothing to the history. -/
theorem Follows.concat_of_idle {steps : List Step} {log : Setup} (h : Follows steps log)
    {step : Step} (hup : step ≠ .shutdown) (hidle : step.installs? = none) :
    Follows (steps ++ [step]) log := by
  have hinstalled : installed (steps ++ [step]) = installed steps := by
    rw [installed_concat hup, hidle, Option.toList_none, List.append_nil]
  have hmem : Step.shutdown ∈ steps ++ [step] ↔ Step.shutdown ∈ steps := by
    simp [Ne.symm hup]
  have hflushed : flushed (steps ++ [step]) = flushed steps := by
    simp [flushed_concat, hup]
  constructor
  · simp only [hinstalled, hmem, h.active]
  · rw [hinstalled, h.registered]
  · rw [hinstalled, h.pool]
  · rw [hflushed, h.flushes]

/-- **One more step keeps the log in line with the history.** -/
theorem Follows.concat {steps : List Step} (h : Follows steps (initial.afterAll steps).log)
    (step : Step) : Follows (steps ++ [step]) ((initial.afterAll steps).after step).log := by
  cases step with
  | command c =>
    rw [log_after_command]
    exact h.concat_of_idle (by simp) rfl
  | install wish fileOpens =>
    cases hs : Settings.accepted? wish fileOpens with
    | none =>
      rw [after_install_of_refused hs]
      exact h.concat_of_idle (by simp) hs
    | some settings =>
      rw [after_install_of_accepted hs]
      have hinstalled : installed (steps ++ [.install wish fileOpens]) =
          installed steps ++ [settings] := by
        rw [installed_concat (by simp), Step.installs?, hs, Option.toList_some]
      constructor
      · rw [hinstalled, List.getLast?_concat]
        rfl
      · rw [hinstalled, List.getLast?_concat]
        rfl
      · -- The pool that is there stays; without one the new settings are the first.
        rw [hinstalled]
        show some ((initial.afterAll steps).log.pool.getD settings.pool) = _
        rw [h.pool, List.head?_append]
        cases (installed steps).head? <;> rfl
      · rw [flushed_concat, if_neg (by simp)]
        exact h.flushes
  | shutdown =>
    show Follows _ (initial.afterAll steps).log.shutdown
    constructor
    · simp [Setup.shutdown]
    · simp [Setup.shutdown]
    · simp [Setup.shutdown]
    · rw [flushed_concat, Setup.shutdown, h.flushes]
      simp

theorem follows_afterAll (steps : List Step) : Follows steps (initial.afterAll steps).log := by
  induction steps using List.reverseRecOn with
  | nil => exact follows_nil
  | append_singleton steps step ih =>
    rw [afterAll_concat]
    exact ih.concat step

/-! ## Whole sessions -/

theorem flushed_of_not_mem {steps : List Step} (h : Step.shutdown ∉ steps) : flushed steps = 0 := by
  rw [flushed, List.countP_eq_zero]
  intro i _ hi
  exact h (List.mem_of_getElem? (of_decide_eq_true hi).1)

/-- **The log after a session is the one that its history dictates.** The steps may be attempts at
installing, shutdowns and commands in any order.

* If nothing was installed since the last shutdown, or since the start, nothing is active,
  registered or pooled; without any shutdown the log is as it was at the start.
* Otherwise the active logger is the registered one, with the level and the sinks of the last
  settings installed, while the pool is that of the first.
* A logger was flushed by each shutdown that found one registered.
* An attempt succeeds exactly if its settings are accepted, and one that fails leaves the session as
  it was. -/
theorem log_follows_history (steps : List Step) :
    let log := (initial.afterAll steps).log
    (installed steps = [] →
      (.shutdown ∉ steps → log = Setup.initial) ∧
      (.shutdown ∈ steps → log.active = none ∧ log.registered = none ∧ log.pool = none)) ∧
    (∀ first last, (installed steps).head? = some first →
      (installed steps).getLast? = some last →
        log.registered = log.active ∧
        log.active = some ⟨"ustore", last.level,
          .console :: if last.file = "" then [] else
            [.file last.file last.maxFileSize last.maxFiles]⟩ ∧
        log.pool = some ⟨first.queueSize, 1⟩) ∧
    log.flushes = ((List.range steps.length).countP fun i =>
      steps[i]? = some .shutdown ∧
        (initial.afterAll (steps.take i)).log.registered.isSome) ∧
    (∀ before wish fileOpens after, steps = before ++ .install wish fileOpens :: after →
      ∃ result,
        ((initial.afterAll before).report (.install wish fileOpens)).result =
          .installed result (initial.afterAll (before ++ [.install wish fileOpens])).log ∧
        (result = .ok () ↔ (Settings.accepted? wish fileOpens).isSome = true) ∧
        (∀ f, result = .error f →
          initial.afterAll (before ++ [.install wish fileOpens]) = initial.afterAll before)) := by
  intro log
  have h : Follows steps log := follows_afterAll steps
  refine ⟨?_, ?_, h.flushes, ?_⟩
  · intro hnone
    have hactive := h.active
    have hregistered := h.registered
    have hpool := h.pool
    rw [hnone] at hactive hregistered hpool
    refine ⟨?_, ?_⟩
    · intro hup
      have hflushes := h.flushes
      rw [flushed_of_not_mem hup] at hflushes
      simp only [List.getLast?_nil, Option.elim_none, if_neg hup] at hactive
      show (⟨log.active, log.registered, log.pool, log.flushes⟩ : Setup) = _
      rw [hactive, hregistered, hpool, hflushes]
      rfl
    · intro hdown
      simp only [List.getLast?_nil, Option.elim_none, if_pos hdown] at hactive
      exact ⟨hactive, hregistered, hpool⟩
  · intro first last hfirst hlast
    have hactive := h.active
    have hregistered := h.registered
    have hpool := h.pool
    rw [hlast] at hactive hregistered
    rw [hfirst] at hpool
    refine ⟨hregistered.trans hactive.symm, ?_, hpool⟩
    rw [hactive]
    simp [Settings.logger, Settings.sinks, Settings.hasFile, Log.loggerName]
  · intro before wish fileOpens after _
    rw [afterAll_concat]
    cases hs : Settings.accepted? wish fileOpens with
    | none =>
      obtain ⟨f, hf⟩ := Setup.on_install_of_refused hs (initial.afterAll before).log
      refine ⟨.error f, ?_, by simp, fun _ _ => after_install_of_refused hs _⟩
      rw [report, hf]
      rfl
    | some settings =>
      have hok := Setup.on_install_of_accepted hs (initial.afterAll before).log
      refine ⟨.ok (), ?_, by simp, fun f hf => by cases hf⟩
      rw [report, hok]
      rfl

/-- Settings are installed before and after a shutdown; the last attempt fails at its file. -/
def reinstalled : List Step :=
  [ .install { level := some .trace, queueSize := some 8 } true,
    .shutdown,
    .install { queueSize := some 16 } true,
    .install { level := some .err, queueSize := some 32 } true,
    .install { level := some .off, file := some "a.log" } false ]

/-- The queue is that of the first settings since the shutdown, the level that of the last that were
accepted, and the shutdown has flushed the logger of the very first. -/
theorem log_follows_history_reinstalled :
    let log := (initial.afterAll reinstalled).log
    (installed reinstalled).head?.map Settings.queueSize = some 16 ∧
    (installed reinstalled).getLast?.map Settings.level = some .err ∧
    log.registered = log.active ∧
    log.active = some ⟨"ustore", .err, [.console]⟩ ∧
    log.pool = some ⟨16, 1⟩ ∧
    log.flushes = 1 ∧
    initial.afterAll reinstalled = initial.afterAll (reinstalled.take 4) := by
  intro log
  have hfirst : (installed reinstalled).head? = some ⟨.info, "", 5242880, 3, 16⟩ := by decide
  have hlast : (installed reinstalled).getLast? = some ⟨.err, "", 5242880, 3, 32⟩ := by decide
  obtain ⟨_, hinstalled, hflushes, hattempts⟩ := log_follows_history reinstalled
  obtain ⟨hregistered, hactive, hpool⟩ := hinstalled _ _ hfirst hlast
  obtain ⟨result, hresult, _, hfailed⟩ := hattempts (reinstalled.take 4) _ _ [] rfl
  refine ⟨by rw [hfirst]; rfl, by rw [hlast]; rfl, hregistered, hactive, hpool,
    hflushes.trans (by decide), ?_⟩
  cases hresult
  exact hfailed .sink rfl

end Session

end Roster
