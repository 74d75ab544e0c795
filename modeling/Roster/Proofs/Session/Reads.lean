import Roster.Proofs.Enrolment.Series
import Roster.Proofs.Registry.Targets
import Roster.Proofs.Session.Transparency

/-!
# Reads leave no trace for writers

A session and the same session without its reads go side by side. Reading, and all that belongs to a
lookup from its start to the handing out of its outcome, changes no directory and no registrar, and
the other steps look at nothing else: so these are answered and reported alike.

`Registry.Agree` is what the two registries have in common. A read taken by the first alone keeps it
(`agree_next_of_isRead`), and so does a write taken by both (`Agree.perform`), which then comes to
the same.
-/

namespace Roster

open Log (Event Message)

namespace Registry

/-- Whether a command only reads, or belongs to the life of a lookup. -/
def Command.isRead : Command → Bool
  | .act _ a => a.isRead
  | .lookup _ _ _ | .stop _ | .release _ _ | .collect _ => true
  | .openStore _ _ | .appoint _ => false

def directories (r : Registry) : List Directory := r.stores.map Store.directory

/-- Two registries with the same directories and registrars. -/
structure Agree (r r' : Registry) : Prop where
  directories : r.directories = r'.directories
  registrars : r.registrars = r'.registrars

theorem Agree.refl (r : Registry) : r.Agree r := ⟨rfl, rfl⟩

theorem Agree.trans {r r' r'' : Registry} (h : r.Agree r') (h' : r'.Agree r'') : r.Agree r'' :=
  ⟨h.directories.trans h'.directories, h.registrars.trans h'.registrars⟩

/-! ## Reads -/

theorem directories_modify (r : Registry) (n : Nat) {f : Store → Store}
    {g : Directory → Directory} (hf : ∀ s, (f s).directory = g s.directory) :
    (r.stores.modify n f).map Store.directory = r.directories.modify n g := by
  apply List.ext_getElem?
  intro i
  rw [directories, List.getElem?_map, List.getElem?_modify, List.getElem?_modify,
    List.getElem?_map]
  cases r.stores[i]? with
  | none => rfl
  | some s => by_cases hi : n = i <;> simp [hi, hf]

theorem directories_modify_id (r : Registry) (n : Nat) {f : Store → Store}
    (hf : ∀ s, (f s).directory = s.directory) :
    (r.stores.modify n f).map Store.directory = r.directories := by
  rw [directories_modify r n (g := id) hf]
  exact List.modify_id n _

theorem agree_launch {r : Registry} {token : Lookup.Token} {a : Attachment}
    (ha : r.attach token = .ok a) (i : Nat) (s : Store) (id : UInt64) :
    (launch a i s id).registry.Agree r := by
  refine ⟨?_, registrars_launch ha i s id⟩
  show (a.registry.stores.modify i Store.called).map Store.directory = r.directories
  rw [stores_attach ha]
  exact directories_modify_id r i fun _ => rfl

theorem agree_elapse (r : Registry) (handle : Nat) : (r.elapse handle).1.Agree r :=
  ⟨congrArg (List.map Store.directory) (stores_elapse r handle), registrars_elapse r handle⟩

/-- **A read changes no directory and no registrar**, whatever becomes of the lookups it touches. -/
theorem agree_next_of_isRead {c : Command} (h : c.isRead = true) (r : Registry) :
    (r.next c).Agree r := by
  cases hperf : r.perform c with
  | error f =>
    rw [next_of_refused hperf]
    exact .refl r
  | ok e =>
    rw [next_of_perform hperf]
    cases performed_of_perform hperf with
    | opened _ => cases h
    | appointed _ _ => cases h
    | acted _ _ =>
      exact ⟨directories_modify_id r _ fun s => (Directory.after_of_isRead h s.directory).1, rfl⟩
    | launched _ _ ha _ => exact agree_launch ha _ _ _
    | satOut _ _ ha _ => exact (agree_elapse _ _).trans (agree_launch ha _ _ _)
    | stopped _ _ _ => exact ⟨rfl, rfl⟩
    | released _ _ _ => exact ⟨rfl, rfl⟩
    | collected _ _ _ => exact ⟨rfl, rfl⟩

/-! ## Writes -/

theorem getElem?_directories (r : Registry) (n : Nat) :
    r.directories[n]? = (r.stores[n]?).map Store.directory :=
  List.getElem?_map

theorem sizeAfter?_eq (r : Registry) (c : Command) :
    r.sizeAfter? c =
      (r.concerns? c).bind fun n => ((r.next c).directories[n]?).map Directory.size := by
  simp only [sizeAfter?, getElem?_directories, Option.map_map]
  rfl

theorem names?_act (r : Registry) (t : Target) (a : Action) :
    r.names? (.act t a) =
      (r.storeNumber? t).bind fun n =>
        (r.directories[n]?).bind fun d => (d.about? a).map fun id => (n, id) := by
  simp only [names?, getElem?_directories, Option.bind_map]
  rfl

namespace Agree

variable {r r' : Registry}

theorem length_stores (h : r.Agree r') : r.stores.length = r'.stores.length := by
  have hlen := congrArg List.length h.directories
  rwa [Registry.directories, Registry.directories, List.length_map, List.length_map] at hlen

theorem storeNumber? (h : r.Agree r') (t : Target) : r.storeNumber? t = r'.storeNumber? t :=
  SameTargets.storeNumber? ⟨h.length_stores, h.registrars⟩ t

/-- Where the one has a store, so has the other, with the same directory. -/
theorem store_cases (h : r.Agree r') (n : Nat) :
    (r.stores[n]? = none ∧ r'.stores[n]? = none) ∨
    ∃ s s', r.stores[n]? = some s ∧ r'.stores[n]? = some s' ∧ s.directory = s'.directory := by
  have hmap : (r.stores[n]?).map Store.directory = (r'.stores[n]?).map Store.directory := by
    rw [← getElem?_directories, ← getElem?_directories, h.directories]
  cases hs : r.stores[n]? with
  | none =>
    rw [hs, Option.map_none, eq_comm, Option.map_eq_none_iff] at hmap
    exact .inl ⟨rfl, hmap⟩
  | some s =>
    rw [hs, Option.map_some, eq_comm, Option.map_eq_some_iff] at hmap
    obtain ⟨s', hs', hd⟩ := hmap
    exact .inr ⟨s, s', rfl, hs', hd.symm⟩

/-- A command comes to the same in one registry and in another: it is answered alike, reports alike
and leaves registries in agreement. -/
structure AlikeOn (r r' : Registry) (c : Command) : Prop where
  reply : r.reply c = r'.reply c
  events : r.events c = r'.events c
  next : (r.next c).Agree (r'.next c)

theorem alike_of_refused (h : r.Agree r') {c : Command} {f : Fault}
    (hperf : r.perform c = .error f) (hperf' : r'.perform c = .error f) : AlikeOn r r' c where
  reply := by rw [reply_of_refused hperf, reply_of_refused hperf']
  events := by rw [events_of_refused hperf, events_of_refused hperf']
  next := by
    rw [next_of_refused hperf, next_of_refused hperf']
    exact h

theorem alike_of_perform {c : Command} {e e' : Effect} (hperf : r.perform c = .ok e)
    (hperf' : r'.perform c = .ok e') (hreply : e.reply = e'.reply) (hevents : e.events = e'.events)
    (hregistry : e.registry.Agree e'.registry) : AlikeOn r r' c where
  reply := by rw [reply_of_perform hperf, reply_of_perform hperf', hreply]
  events := by rw [events_of_perform hperf, events_of_perform hperf', hevents]
  next := by
    rw [next_of_perform hperf, next_of_perform hperf']
    exact hregistry

theorem openStore (h : r.Agree r') (delay : Option Int) (pause : Pause) :
    AlikeOn r r' (.openStore delay pause) := by
  cases hd : Delay.ofWish delay with
  | error f =>
    exact h.alike_of_refused (perform_openStore_of_fault hd pause)
      (perform_openStore_of_fault hd pause)
  | ok d =>
    apply alike_of_perform (perform_openStore hd pause) (perform_openStore hd pause)
    · exact congrArg Reply.opened h.length_stores
    · rfl
    · refine ⟨?_, h.registrars⟩
      simp only [Registry.directories, List.map_append]
      exact congrArg (· ++ _) h.directories

theorem appoint (h : r.Agree r') (n : Int) : AlikeOn r r' (.appoint n) := by
  by_cases hthere : ∃ i, n.toNat? = some i ∧ i < r.stores.length
  · obtain ⟨i, hn, hi⟩ := hthere
    apply alike_of_perform (perform_appoint hn hi) (perform_appoint hn (h.length_stores ▸ hi))
    · exact congrArg (Reply.appointed ·.length) h.registrars
    · rfl
    · exact ⟨h.directories, congrArg (· ++ [i]) h.registrars⟩
  · have hmissing : ∀ i, n.toNat? = some i → ¬ i < r.stores.length :=
      fun i hn hi => hthere ⟨i, hn, hi⟩
    exact h.alike_of_refused (perform_appoint_of_no_store hmissing)
      (perform_appoint_of_no_store (h.length_stores ▸ hmissing))

theorem act (h : r.Agree r') (t : Target) (a : Action) : AlikeOn r r' (.act t a) := by
  have hnumber := h.storeNumber? t
  cases hn : r.storeNumber? t with
  | none =>
    exact h.alike_of_refused (perform_act_of_no_target hn a)
      (perform_act_of_no_target (hnumber ▸ hn) a)
  | some n =>
    have hn' : r'.storeNumber? t = some n := hnumber ▸ hn
    rcases h.store_cases n with ⟨hs, hs'⟩ | ⟨s, s', hs, hs', hd⟩
    · exact h.alike_of_refused (perform_act_of_no_store hn hs a)
        (perform_act_of_no_store hn' hs' a)
    · apply alike_of_perform (perform_act hn hs a) (perform_act hn' hs' a)
      · exact congrArg (Reply.answered <| ·.answer a) hd
      · exact congrArg (·.events a) hd
      · refine ⟨?_, h.registrars⟩
        have hmodify := fun r : Registry =>
          directories_modify r n (f := (·.act a)) (g := (·.after a)) fun _ => rfl
        exact (hmodify r).trans ((congrArg _ h.directories).trans (hmodify r').symm)

/-- **A command that is no read comes to the same in both.** -/
theorem alike (h : r.Agree r') {c : Command} (hc : c.isRead = false) : AlikeOn r r' c := by
  cases c with
  | openStore delay pause => exact h.openStore delay pause
  | appoint n => exact h.appoint n
  | act t a => exact h.act t a
  | lookup n id token => cases hc
  | stop n => cases hc
  | release n how => cases hc
  | collect n => cases hc

theorem sizeAfter? (h : r.Agree r') {c : Command} (hc : c.isRead = false) :
    r.sizeAfter? c = r'.sizeAfter? c := by
  have hconcerns : r.concerns? c = r'.concerns? c := by
    cases c with
    | openStore delay pause => exact congrArg some h.length_stores
    | appoint n => rfl
    | act t a => exact h.storeNumber? t
    | lookup n id token => cases hc
    | stop n => cases hc
    | release n how => cases hc
    | collect n => cases hc
  rw [sizeAfter?_eq, sizeAfter?_eq, hconcerns, (h.alike hc).next.directories]

theorem names? (h : r.Agree r') {c : Command} (hc : c.isRead = false) :
    r.names? c = r'.names? c := by
  cases c with
  | openStore delay pause => rfl
  | appoint n => rfl
  | act t a => rw [names?_act, names?_act, h.storeNumber? t, h.directories]
  | lookup n id token => cases hc
  | stop n => cases hc
  | release n how => cases hc
  | collect n => cases hc

end Agree

end Registry

namespace Session

def Step.isRead : Step → Bool
  | .command c => c.isRead
  | .install _ _ | .shutdown => false

def writes (steps : List Step) : List Step := steps.filter (!·.isRead)

theorem writes_append (xs ys : List Step) : writes (xs ++ ys) = writes xs ++ writes ys :=
  List.filter_append xs ys

theorem writes_cons_of_isRead {step : Step} (h : step.isRead = true) (steps : List Step) :
    writes (step :: steps) = writes steps := by
  rw [writes, List.filter_cons, h]
  rfl

theorem writes_cons {step : Step} (h : step.isRead = false) (steps : List Step) :
    writes (step :: steps) = step :: writes steps := by
  rw [writes, List.filter_cons, h]
  rfl

/-! ## Two sessions side by side -/

/-- Two sessions with the same log and with registries in agreement. -/
structure Agree (s t : Session) : Prop where
  registry : s.registry.Agree t.registry
  log : s.log = t.log

namespace Agree

variable {s t : Session}

theorem after_of_isRead (h : Agree s t) {step : Step} (hstep : step.isRead = true) :
    Agree (s.after step) t := by
  cases step with
  | command c =>
    refine ⟨?_, (log_after_command s c).trans h.log⟩
    rw [after]
    split
    · exact h.registry
    · exact (Registry.agree_next_of_isRead hstep s.registry).trans h.registry
  | install wish fileOpens => cases hstep
  | shutdown => cases hstep

theorem after (h : Agree s t) {step : Step} (hstep : step.isRead = false) :
    Agree (s.after step) (t.after step) := by
  cases step with
  | command c =>
    rw [Session.after, Session.after, h.log]
    split
    · exact h
    · exact ⟨(h.registry.alike hstep).next, rfl⟩
  | install wish fileOpens => exact ⟨h.registry, congrArg (logAfterInstall · wish fileOpens) h.log⟩
  | shutdown => exact ⟨h.registry, congrArg Log.Setup.shutdown h.log⟩

/-- What is no read is reported alike. -/
theorem report (h : Agree s t) {step : Step} (hstep : step.isRead = false) :
    s.report step = t.report step := by
  cases step with
  | command c =>
    have halike := h.registry.alike hstep
    rw [Session.report, Session.report, commandReport, commandReport, h.log, halike.reply,
      halike.events, h.registry.sizeAfter? hstep, h.registry.names? hstep]
  | install wish fileOpens => rw [Session.report, Session.report, h.log]
  | shutdown => rw [Session.report, Session.report, h.log]

/-- **A session stays in agreement with the same session without its reads.** -/
theorem afterAll (h : Agree s t) (steps : List Step) :
    Agree (s.afterAll steps) (t.afterAll (writes steps)) := by
  induction steps generalizing s t with
  | nil => exact h
  | cons step steps ih =>
    cases hread : step.isRead with
    | true =>
      rw [writes_cons_of_isRead hread]
      exact ih (h.after_of_isRead hread)
    | false =>
      rw [writes_cons hread]
      exact ih (h.after hread)

end Agree

/-- **Reads and lookups make no difference to writers.** Leave out every read of a session and every
step in the life of a lookup, whatever becomes of the lookups.

* Each other step has the report that it had before: its result, the size of the store, the messages
  and the id that it names.
* In the end every store has the same directory. -/
theorem writers_ignore_reads (steps : List Step) :
    (∀ before step after, steps = before ++ step :: after → step.isRead = false →
      ∃ report,
        (initial.reports steps)[before.length]? = some report ∧
        (initial.reports (writes steps))[(writes before).length]? = some report) ∧
    (initial.afterAll steps).registry.stores.map Store.directory =
      (initial.afterAll (writes steps)).registry.stores.map Store.directory := by
  have hagree : ∀ steps, Agree (initial.afterAll steps) (initial.afterAll (writes steps)) :=
    Agree.afterAll ⟨.refl _, rfl⟩
  refine ⟨?_, (hagree steps).registry.directories⟩
  intro before step after hsteps hstep
  refine ⟨(initial.afterAll before).report step, ?_, ?_⟩
  · rw [hsteps, getElem?_reports]
  · rw [hsteps, writes_append, writes_cons hstep, getElem?_reports, (hagree before).report hstep]

/-- Newcomers are entered and users removed around reads and around a lookup that is held, stopped
and collected. -/
def watchedSteps : List Step :=
  [ .command (.openStore none .gated),
    .command (.appoint 0),
    .command (.lookup 0 1 .live),
    .command (.act (.registrar 0) (.enrol ⟨"Ann", "ann@x.com"⟩)),
    .command (.act (.store 0) (.get 1)),
    .command (.stop 0),
    .command (.act (.registrar 0) (.enrol ⟨"Bob", "bob@x.com"⟩)),
    .command (.release 0 .heeding),
    .command (.collect 0),
    .command (.act (.store 0) (.erase 1)),
    .command (.act (.registrar 0) (.enrol ⟨"Cleo", "cleo@x.com"⟩)) ]

/-- The last newcomer takes the id of the second, with a warning, whether anybody was looking or
not. -/
theorem writers_ignore_reads_watched :
    Step.isRead (.command (.act (.registrar 0) (.enrol ⟨"Cleo", "cleo@x.com"⟩))) = false ∧
    (writes watchedSteps).length = 6 ∧
    (∃ report,
      (initial.reports watchedSteps)[10]? = some report ∧
      (initial.reports (writes watchedSteps))[5]? = some report ∧
      report.size = some 1 ∧ report.messages.length = 3) ∧
    (initial.afterAll watchedSteps).registry.stores.map Store.directory =
      (initial.afterAll (writes watchedSteps)).registry.stores.map Store.directory := by
  obtain ⟨hreports, hdirectories⟩ := writers_ignore_reads watchedSteps
  obtain ⟨report, hreport, hsame⟩ := hreports (watchedSteps.take 10) _ [] rfl rfl
  refine ⟨rfl, rfl, ⟨report, hreport, hsame, ?_⟩, hdirectories⟩
  cases hreport
  decide

end Session

end Roster
