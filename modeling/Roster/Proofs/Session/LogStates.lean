import Roster.Proofs.Session.LogHistory

/-!
# What the log can be like

Settings are checked once, when they are made, and an installation takes no others. So whatever a
session does, the log stands on settings that can work.

* `Settings.make_eq_ok_iff`: settings are made exactly if they can work (`IsWorkable`), and are then
  as they were given. Otherwise the refusal is worded by the first of the `checks` that fails
  (`Settings.make_eq_error_iff`).
* `isWorkable_of_mem_installed`: only such settings are ever in force.
* `active_cases`, `queue_pos`: so the active logger writes to the console alone, or to the console
  and a file that can hold something (`AreUsable`), and messages can queue.

Every logger of that kind is reached, and one attempt is enough (`log_after_toWish`).
-/

namespace Roster

namespace Log

namespace Settings

/-! ## Making settings -/

/-- What settings have to pass, in the order in which it is looked at, each with the wording of its
refusal. -/
def checks (s : Settings) : List (Bool × String) :=
  [ (0 < s.queueSize, "Log queue size must be > zero."),
    (s.file = "" ∨ 0 < s.maxFileSize, "Max log file size must be > zero."),
    (s.file = "" ∨ 0 < s.maxFiles, "Max log files must be > zero.") ]

def firstRefusal? (s : Settings) : Option String :=
  (s.checks.find? fun check => !check.1).map Prod.snd

/-- Settings that can work: something can queue, and if there is a file something fits into it. -/
def IsWorkable (s : Settings) : Prop :=
  0 < s.queueSize ∧ (s.file = "" ∨ 0 < s.maxFileSize ∧ 0 < s.maxFiles)

theorem isWorkable_iff_checks {s : Settings} :
    s.IsWorkable ↔ ∀ check ∈ s.checks, check.1 = true := by
  simp [IsWorkable, checks, or_and_left]

/-- **A fault is worded like the first check that fails.** -/
theorem message_of_fault? (s : Settings) : s.fault?.map Fault.message = s.firstRefusal? := by
  simp only [fault?, firstRefusal?, checks, hasFile, Nat.pos_iff_ne_zero]
  by_cases hqueue : s.queueSize = 0
  · simp [hqueue, Fault.message]
  by_cases hfile : s.file = ""
  · -- Without a file the limits do not count, on either side.
    simp [hqueue, hfile]
  by_cases hsize : s.maxFileSize = 0
  · simp [hqueue, hfile, hsize, Fault.message]
  by_cases hfiles : s.maxFiles = 0
  · simp [hqueue, hfile, hsize, hfiles, Fault.message]
  · simp [hqueue, hfile, hsize, hfiles]

theorem firstRefusal?_eq_none_iff {s : Settings} : s.firstRefusal? = none ↔ s.IsWorkable := by
  rw [firstRefusal?, Option.map_eq_none_iff, List.find?_eq_none, isWorkable_iff_checks]
  simp

theorem fault?_eq_none_iff {s : Settings} : s.fault? = none ↔ s.IsWorkable := by
  rw [← firstRefusal?_eq_none_iff, ← message_of_fault?, Option.map_eq_none_iff]

section

variable {level : Level} {file : String} {maxFileSize maxFiles queueSize : Nat}

/-- **Settings are made exactly if they can work**, and nothing is changed about them. -/
theorem make_eq_ok_iff {s : Settings} :
    make level file maxFileSize maxFiles queueSize = .ok s ↔
      s = ⟨level, file, maxFileSize, maxFiles, queueSize⟩ ∧ s.IsWorkable := by
  rw [make]
  split
  · next f hf =>
    constructor
    · intro h
      cases h
    · rintro ⟨rfl, hs⟩
      rw [fault?_eq_none_iff.mpr hs] at hf
      cases hf
  · next hnone =>
    constructor
    · intro h
      cases h
      exact ⟨rfl, fault?_eq_none_iff.mp hnone⟩
    · rintro ⟨rfl, _⟩
      rfl

/-- **Settings are refused in the words of the first check that they fail.** -/
theorem make_eq_error_iff {message : String} :
    (∃ f, make level file maxFileSize maxFiles queueSize = .error f ∧ f.message = message) ↔
      firstRefusal? ⟨level, file, maxFileSize, maxFiles, queueSize⟩ = some message := by
  rw [make, ← message_of_fault?, Option.map_eq_some_iff]
  split
  · next f hf => simp [hf]
  · next hnone => simp [hnone]

/-- Of several faults the queue is named first. -/
example : ofWish { file := some "a.log", maxFiles := some 0, queueSize := some 0 }
    = .error .queueSize := rfl

/-- Without a file its limits do not matter. -/
example : ofWish { maxFileSize := some 0, maxFiles := some 0 }
    = .ok ⟨.info, "", 0, 0, 8192⟩ := rfl

end

/-! ## Settings in force -/

theorem isWorkable_of_accepted {wish : Wish} {fileOpens : Bool} {s : Settings}
    (h : accepted? wish fileOpens = some s) : s.IsWorkable := by
  unfold accepted? at h
  split at h
  · next made hmade =>
    split at h
    · cases h
      exact (make_eq_ok_iff.mp hmade).2
    · cases h
  · cases h

/-- The wish that leaves nothing of the settings to the standard. -/
def toWish (s : Settings) : Wish :=
  ⟨some s.level, some s.file, some s.maxFileSize, some s.maxFiles, some s.queueSize⟩

theorem accepted?_toWish {s : Settings} (h : s.IsWorkable) : accepted? s.toWish true = some s := by
  have hmade : ofWish s.toWish = .ok s := make_eq_ok_iff.mpr ⟨rfl, h⟩
  rw [accepted?, hmade]
  simp

end Settings

/-- Places that messages can be sent to: the console alone, or the console and then a file that has
a name and can hold something. -/
inductive AreUsable : List Sink → Prop
  | console : AreUsable [.console]
  | file {path : String} {maxSize maxFiles : Nat} (hpath : path ≠ "") (hsize : 0 < maxSize)
      (hfiles : 0 < maxFiles) : AreUsable [.console, .file path maxSize maxFiles]

theorem Settings.sinks_of_no_file {s : Settings} (h : s.file = "") : s.sinks = [.console] := by
  simp [sinks, hasFile, h]

theorem Settings.sinks_of_file {s : Settings} (h : s.file ≠ "") :
    s.sinks = [.console, .file s.file s.maxFileSize s.maxFiles] := by
  simp [sinks, hasFile, h]

theorem Settings.areUsable_sinks {s : Settings} (h : s.IsWorkable) : AreUsable s.sinks := by
  by_cases hfile : s.file = ""
  · rw [sinks_of_no_file hfile]
    exact .console
  · obtain ⟨hsize, hfiles⟩ := h.2.resolve_left hfile
    rw [sinks_of_file hfile]
    exact .file hfile hsize hfiles

/-- Usable places are those of some settings that can work, whatever the level and the queue. -/
theorem AreUsable.exists_settings {sinks : List Sink} (h : AreUsable sinks) (level : Level)
    {queue : Nat} (hqueue : 0 < queue) :
    ∃ s : Settings, s.IsWorkable ∧ s.logger = ⟨loggerName, level, sinks⟩ ∧ s.pool = ⟨queue, 1⟩ := by
  cases h with
  | console => exact ⟨⟨level, "", 0, 0, queue⟩, ⟨hqueue, .inl rfl⟩, rfl, rfl⟩
  | @file path maxSize maxFiles hpath hsize hfiles =>
    refine ⟨⟨level, path, maxSize, maxFiles, queue⟩, ⟨hqueue, .inr ⟨hsize, hfiles⟩⟩, ?_, rfl⟩
    rw [Settings.logger, Settings.sinks_of_file hpath]

end Log

namespace Session

open Log (AreUsable Settings Setup)

/-- **Only settings that can work are ever in force.** -/
theorem isWorkable_of_mem_installed {steps : List Step} {s : Settings} (h : s ∈ installed steps) :
    s.IsWorkable := by
  obtain ⟨step, _, hstep⟩ := List.mem_filterMap.mp h
  cases step with
  | install wish fileOpens => exact Settings.isWorkable_of_accepted hstep
  | command _ | shutdown => cases hstep

/-! ## States of the log -/

theorem queue_pos {steps : List Step} {pool : Log.Pool}
    (h : (initial.afterAll steps).log.pool = some pool) : 0 < pool.queue := by
  rw [(follows_afterAll steps).pool] at h
  obtain ⟨first, hfirst, rfl⟩ := Option.map_eq_some_iff.mp h
  exact (isWorkable_of_mem_installed (List.mem_of_head? hfirst)).1

/-- **The active logger of a session**: none once the log was shut down, the one at the start before
that, or one that sends messages to usable places. -/
theorem active_cases (steps : List Step) :
    let log := (initial.afterAll steps).log
    log.active = none ∧ .shutdown ∈ steps ∨
      log.active = Setup.initial.active ∧ .shutdown ∉ steps ∨
      ∃ level sinks, log.active = some ⟨Log.loggerName, level, sinks⟩ ∧ AreUsable sinks := by
  intro log
  have hactive : log.active = _ := (follows_afterAll steps).active
  cases hlast : (installed steps).getLast? with
  | none =>
    rw [hlast, Option.elim_none] at hactive
    by_cases hdown : .shutdown ∈ steps
    · rw [if_pos hdown] at hactive
      exact .inl ⟨hactive, hdown⟩
    · rw [if_neg hdown] at hactive
      exact .inr (.inl ⟨hactive, hdown⟩)
  | some last =>
    rw [hlast, Option.elim_some] at hactive
    have hworks : last.IsWorkable := isWorkable_of_mem_installed (List.mem_of_getLast? hlast)
    exact .inr (.inr ⟨last.level, last.sinks, hactive, Settings.areUsable_sinks hworks⟩)

/-- Settings that can work are in force after one attempt from the start. -/
theorem log_after_toWish {s : Settings} (h : s.IsWorkable) :
    (initial.afterAll [.install s.toWish true]).log =
      ⟨some s.logger, some s.logger, some s.pool, 0⟩ := by
  rw [afterAll_cons, after_install_of_accepted (Settings.accepted?_toWish h)]
  rfl

/-- **Only settings that can work take effect.**

* Settings are made of any level, file, limits and queue exactly if the queue is above zero and,
  where there is a file, both limits are too; they are then as given. Otherwise they are refused in
  the words of the first check that fails, in the order queue, file size, number of files.
* So in every session, with attempts that succeed or fail, shutdowns and commands in any order, a
  pool that there is can queue something. There is no active logger after a shutdown, or the one at
  the start, which sends messages nowhere, or one that sends them to the console alone or to the
  console and a file with a name and limits above zero.
* Nothing of this is out of reach: some session has the program's logger active at a given level,
  with given places and a given queue, exactly if the queue is above zero and the places are
  usable. -/
theorem only_workable_settings_take_effect :
    (∀ level file maxFileSize maxFiles queueSize,
      let given : Settings := ⟨level, file, maxFileSize, maxFiles, queueSize⟩
      let made := Settings.make level file maxFileSize maxFiles queueSize
      (∀ s, made = .ok s ↔
        s = given ∧ 0 < queueSize ∧ (file = "" ∨ 0 < maxFileSize ∧ 0 < maxFiles)) ∧
      (∀ message, (∃ f, made = .error f ∧ f.message = message) ↔
        (([ (0 < queueSize, "Log queue size must be > zero."),
            (file = "" ∨ 0 < maxFileSize, "Max log file size must be > zero."),
            (file = "" ∨ 0 < maxFiles, "Max log files must be > zero.") ] :
          List (Bool × String)).find? fun check => !check.1).map Prod.snd = some message)) ∧
    (∀ steps,
      let log := (initial.afterAll steps).log
      (∀ pool, log.pool = some pool → 0 < pool.queue) ∧
      (log.active = none ∧ .shutdown ∈ steps ∨
        log.active = some ⟨"capture", .trace, []⟩ ∧ .shutdown ∉ steps ∨
        ∃ level sinks, log.active = some ⟨"ustore", level, sinks⟩ ∧ AreUsable sinks)) ∧
    (∀ level sinks queue,
      (∃ steps, (initial.afterAll steps).log.active = some ⟨"ustore", level, sinks⟩ ∧
        (initial.afterAll steps).log.pool = some ⟨queue, 1⟩) ↔ 0 < queue ∧ AreUsable sinks) := by
  refine ⟨?_, ?_, ?_⟩
  · intro level file maxFileSize maxFiles queueSize given made
    refine ⟨?_, fun message => Settings.make_eq_error_iff⟩
    intro s
    rw [Settings.make_eq_ok_iff]
    apply and_congr_right
    rintro rfl
    rfl
  · intro steps log
    exact ⟨fun pool hpool => queue_pos hpool, active_cases steps⟩
  · intro level sinks queue
    constructor
    · rintro ⟨steps, hactive, hpool⟩
      refine ⟨queue_pos hpool, ?_⟩
      rcases active_cases steps with ⟨hnone, _⟩ | ⟨hstart, _⟩ | ⟨level', sinks', hlogger, husable⟩
      · rw [hnone] at hactive
        cases hactive
      · -- The logger at the start has another name.
        rw [hstart] at hactive
        exact absurd hactive (by simp [Setup.initial])
      · rw [hlogger] at hactive
        cases hactive
        exact husable
    · rintro ⟨hqueue, husable⟩
      obtain ⟨s, hs, hlogger, hpool⟩ := husable.exists_settings level hqueue
      refine ⟨[.install s.toWish true], ?_⟩
      rw [log_after_toWish hs, hlogger, hpool]
      exact ⟨rfl, rfl⟩

/-- One attempt that succeeds, among others with a fault in each of the fields or a file that cannot
be opened, and a shutdown. -/
def rockySteps : List Step :=
  [ .install { queueSize := some 0 } true,
    .install { file := some "a.log", maxFiles := some 0 } true,
    .shutdown,
    .install { file := some "a.log" } false,
    .install { file := some "b.log", maxFileSize := some 1, maxFiles := some 2,
               queueSize := some 4 } true,
    .install { file := some "c.log", maxFileSize := some 0, queueSize := some 9 } true ]

/-- Of three faults the queue is named, of two the size of the file. Of the attempts above one has
left something, and a file without the console is never reached. -/
theorem only_workable_settings_take_effect_rocky :
    (∃ f, Settings.make .info "a.log" 0 0 0 = .error f ∧
      f.message = "Log queue size must be > zero.") ∧
    (∃ f, Settings.make .info "a.log" 0 0 1 = .error f ∧
      f.message = "Max log file size must be > zero.") ∧
    Settings.make .info "" 0 0 1 = .ok ⟨.info, "", 0, 0, 1⟩ ∧
    (initial.afterAll rockySteps).log.pool = some ⟨4, 1⟩ ∧ 0 < (⟨4, 1⟩ : Log.Pool).queue ∧
    (initial.afterAll rockySteps).log.active =
      some ⟨"ustore", .info, [.console, .file "b.log" 1 2]⟩ ∧
    AreUsable [.console, .file "b.log" 1 2] ∧
    ¬ ∃ steps,
      (initial.afterAll steps).log.active = some ⟨"ustore", .info, [.file "b.log" 1 2]⟩ ∧
      (initial.afterAll steps).log.pool = some ⟨4, 1⟩ := by
  obtain ⟨hmake, hlog, hreach⟩ := only_workable_settings_take_effect
  have hpool : (initial.afterAll rockySteps).log.pool = some ⟨4, 1⟩ := by decide
  have hactive : (initial.afterAll rockySteps).log.active =
      some ⟨"ustore", .info, [.console, .file "b.log" 1 2]⟩ := by decide
  refine ⟨((hmake _ _ _ _ _).2 _).mpr (by decide), ((hmake _ _ _ _ _).2 _).mpr (by decide),
    ((hmake _ _ _ _ _).1 _).mpr ⟨rfl, by decide⟩, hpool, (hlog rockySteps).1 _ hpool, hactive,
    ((hreach _ _ _).mp ⟨rockySteps, hactive, hpool⟩).2, ?_⟩
  intro hbare
  cases ((hreach _ _ _).mp hbare).2

end Session

end Roster
