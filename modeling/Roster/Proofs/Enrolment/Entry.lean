import Roster.Proofs.Enrolment.Collisions
import Roster.Proofs.Log.Template
import Roster.Proofs.Registry.Targets
import Roster.Proofs.Session.Transparency

/-!
# One newcomer

A single enrolment, whoever is in the store. The check whether the id is taken and the storing look
at the directory on their own, one for the warning and the other for what is reported of the
storing; both come to the same, since nothing happens in between (`Directory.enrolEvents_eq`).

`newcomer_entered` puts the answer, the store and the messages of the enrolment side by side. The
messages are given twice: word by word, and as the templates that are filled with the number, the
name and the email.
-/

namespace Roster

open Log (Event Message fill)

/-! ## The log -/

namespace Log.Setup

variable {log : Setup}

theorem record_of_admits (h : ∀ m, log.admits m = true) (events : List Event) :
    log.record events = events.map Event.message := by
  rw [record, List.filter_eq_self]
  exact fun m _ => h m

theorem admits_initial (m : Message) : initial.admits m = true := by
  simp [admits, initial]

theorem isDown_of_admits (h : ∀ m, log.admits m = true) : log.isDown = false := by
  have hany := h ⟨.trace, ""⟩
  rw [isDown]
  cases hactive : log.active with
  | none =>
    rw [admits, hactive] at hany
    cases hany
  | some logger => rfl

end Log.Setup

/-! ## One action in a session -/

namespace Session

section

variable {s : Session} {t : Registry.Target} {k : Nat} (hup : s.log.isDown = false)
  (hreach : s.registry.Reaches t k)

include hup hreach

/-- The store that is reached answers, and another directory takes the place of its own. -/
theorem after_of_reaches (a : Action) :
    s.after (.command (.act t a)) =
      { s with
        registry := s.registry.setDirectory k ((s.registry.directory k).after a) } := by
  rw [after_command_of_up hup, Registry.next_act hreach]

theorem directory_after_act (a : Action) :
    (s.after (.command (.act t a))).registry.directory k = (s.registry.directory k).after a := by
  rw [after_of_reaches hup hreach, Registry.directory_setDirectory hreach.2]

theorem report_of_reaches (a : Action) :
    s.report (.command (.act t a)) =
      ⟨.command (.ok (.answered ((s.registry.directory k).answer a))),
        some ((s.registry.directory k).after a).size,
        s.log.record ((s.registry.directory k).events a),
        ((s.registry.directory k).about? a).map (k, ·)⟩ := by
  rw [report_command_of_up hup, commandReport, Registry.reply_act hreach,
    Registry.sizeAfter?_act hreach, Registry.events_act hreach, Registry.names?_of_reaches hreach]

/-- What the next action asked of the store itself is answered. -/
theorem result_after_act (a b : Action) :
    ((s.after (.command (.act t a))).report (.command (.act (.store k) b))).result =
      .command (.ok (.answered (((s.registry.directory k).after a).answer b))) := by
  have hstore : (s.after (.command (.act t a))).registry.Reaches (.store k) k := by
    rw [after_of_reaches hup hreach]
    exact Registry.Reaches.setDirectory ⟨rfl, hreach.2⟩ k _
  have hup' : (s.after (.command (.act t a))).log.isDown = false := by
    rw [after_of_reaches hup hreach]
    exact hup
  rw [report_of_reaches hup' hstore, directory_after_act hup hreach]

end

/-- A log that lets everything through has all that is reported. -/
theorem messages_of_admits {s : Session} {t : Registry.Target} {k : Nat}
    (hlog : ∀ m, s.log.admits m = true) (hreach : s.registry.Reaches t k) (a : Action) :
    (s.report (.command (.act t a))).messages =
      ((s.registry.directory k).events a).map Event.message := by
  rw [report_of_reaches (Log.Setup.isDown_of_admits hlog) hreach, Log.Setup.record_of_admits hlog]

end Session

/-! ## The newcomer -/

namespace Directory

theorem nextId_eq (d : Directory) : d.nextId = UInt64.ofNat (d.size + 1) := by
  rw [nextId, UInt64.ofNat_add]
  rfl

/-- The warning and the report of the storing agree on whether the id was in use. -/
theorem enrolEvents_eq (d : Directory) (e : Enrolment) :
    d.enrolEvents e =
      (if (d.find? d.nextId).isSome then [.idTaken d.nextId, .overwrote d.nextId e.email]
      else [.stored d.nextId e.email]) ++ [.enrolled (d.newcomer e)] := by
  have hevents := events_call d e
  rw [contains_eq_isSome_find?] at hevents
  rw [show d.enrolEvents e = (d.call e).events from rfl, hevents]
  split
  · rfl
  · rfl

end Directory

namespace Session

/-- **What entering a newcomer comes to.** Let a store hold `n` users, whichever they are, with
`n < 2⁶⁴ - 1`, and let the log let everything through.

* The user answered has the id `n + 1` and the name and the email asked for.
* It is what is found under `n + 1` afterwards. Under every other id nothing changes, and there is
  one user more unless `n + 1` was in use.
* The messages are a warning and the report of an overwriting if `n + 1` was in use and the report
  of a storing otherwise, and then the report of the newcomer.
* Each message is its template, with the number, the name and the email put in its places. -/
theorem newcomer_entered {s : Session} {t : Registry.Target} {k n : Nat}
    (hreach : s.registry.Reaches t k) (hlog : ∀ m, s.log.admits m = true)
    (hn : (s.registry.directory k).size = n) (hfit : n < 2 ^ 64 - 1) (name email : String) :
    let before := s.registry.directory k
    let entry : Step := .command (.act t (.enrol ⟨name, email⟩))
    let after := (s.after entry).registry.directory k
    let id := UInt64.ofNat (n + 1)
    let number := toString (n + 1)
    id.toNat = n + 1 ∧
    (s.report entry).result = .command (.ok (.answered (.enrolled ⟨id, name, email⟩))) ∧
    ((s.after entry).report (.command (.act (.store k) (.get id)))).result =
      .command (.ok (.answered (.found (some ⟨id, name, email⟩)))) ∧
    (∀ other, other ≠ id → after.find? other = before.find? other) ∧
    after.size = (if (before.find? id).isSome then n else n + 1) ∧
    (s.report entry).size = some after.size ∧
    (s.report entry).messages =
      (if (before.find? id).isSome then
        [ ⟨.warn, "UserService::createUser: id " ++ number ++ " already taken, overwriting"⟩,
          ⟨.debug, "UserRepository::add: overwrote user " ++ number ++ " (" ++ email ++ ")"⟩ ]
      else [⟨.debug, "UserRepository::add: stored user " ++ number ++ " (" ++ email ++ ")"⟩])
      ++ [⟨.info, "UserService::createUser: created user " ++ number ++ " name=" ++ name
          ++ " email=" ++ email⟩] ∧
    (s.report entry).messages.map Message.text =
      (if (before.find? id).isSome then
        [ fill "UserService::createUser: id \x7b\x7d already taken, overwriting" [number],
          fill "UserRepository::add: overwrote user \x7b\x7d (\x7b\x7d)" [number, email] ]
      else [fill "UserRepository::add: stored user \x7b\x7d (\x7b\x7d)" [number, email]])
      ++ [fill "UserService::createUser: created user \x7b\x7d name=\x7b\x7d email=\x7b\x7d"
          [number, name, email]] := by
  intro before entry after id number
  subst hn
  have hfit' : (s.registry.directory k).size + 1 < 2 ^ 64 := by omega
  have hup := Log.Setup.isDown_of_admits hlog
  have hid : before.nextId = id := before.nextId_eq
  have hnat : id.toNat = before.size + 1 := by
    rw [← hid]
    exact Directory.toNat_nextId hfit'
  have hnumber : Event.decimal id = number := congrArg toString hnat
  have hnewcomer : before.newcomer ⟨name, email⟩ = ⟨id, name, email⟩ := by
    rw [← hid]
    rfl
  have hinsert : before.after (.enrol ⟨name, email⟩) = before.insert ⟨id, name, email⟩ :=
    congrArg before.insert hnewcomer
  have hafter : after = before.insert ⟨id, name, email⟩ :=
    (directory_after_act hup hreach _).trans hinsert
  have hevents : before.enrolEvents ⟨name, email⟩ =
      (if (before.find? id).isSome then [.idTaken id, .overwrote id email]
      else [.stored id email]) ++ [.enrolled ⟨id, name, email⟩] := by
    rw [before.enrolEvents_eq, hnewcomer, hid]
  have hmessages : (s.report entry).messages =
      (before.enrolEvents ⟨name, email⟩).map Event.message :=
    messages_of_admits hlog hreach _
  refine ⟨hnat, ?_, ?_, ?_, ?_, ?_, ?_, ?_⟩
  · rw [report_of_reaches hup hreach, ← hnewcomer]
    rfl
  · rw [result_after_act hup hreach, hinsert, Directory.answer, Directory.find?_insert, if_pos rfl]
  · intro other hother
    rw [hafter, Directory.find?_insert, if_neg hother]
  · rw [hafter, Directory.size_insert, Directory.contains_eq_isSome_find?]
  · rw [report_of_reaches hup hreach, hinsert, hafter]
  · rw [hmessages, hevents, ← hnumber]
    split
    · rfl
    · rfl
  · have htexts : (s.report entry).messages.map Message.text =
        (before.enrolEvents ⟨name, email⟩).map Event.text := by
      rw [hmessages, List.map_map]
      rfl
    rw [htexts, hevents, ← hnumber, funext Event.text_eq_fill]
    split
    · rfl
    · rfl

/-- A store with a single user, whose id is the one that the next newcomer gets. -/
def crampedSteps : List Step :=
  [ .command (.openStore none .gated),
    .command (.appoint 0),
    .command (.act (.store 0) (.put ⟨2, "Bob", "bob@x.com"⟩)) ]

/-- The newcomer is called by what looks like a place to be filled. -/
theorem newcomer_entered_braces :
    let s := initial.afterAll crampedSteps
    let entry : Step := .command (.act (.registrar 0) (.enrol ⟨"\x7b\x7d", "a\x7b\x7db"⟩))
    s.registry.Reaches (.registrar 0) 0 ∧ (∀ m, s.log.admits m = true) ∧
    (s.registry.directory 0).size = 1 ∧
    ((s.after entry).registry.directory 0).size = 1 ∧
    (s.report entry).messages =
      [ ⟨.warn, "UserService::createUser: id 2 already taken, overwriting"⟩,
        ⟨.debug, "UserRepository::add: overwrote user 2 (a\x7b\x7db)"⟩,
        ⟨.info, "UserService::createUser: created user 2 name=\x7b\x7d email=a\x7b\x7db"⟩ ] := by
  intro s entry
  have hreach : s.registry.Reaches (.registrar 0) 0 := by decide
  have hlog : ∀ m, s.log.admits m = true := Log.Setup.admits_initial
  have hsize : (s.registry.directory 0).size = 1 := by decide
  have htaken : ((s.registry.directory 0).find? (UInt64.ofNat (1 + 1))).isSome = true := by decide
  obtain ⟨_, _, _, _, hafter, _, hmessages, _⟩ :=
    newcomer_entered hreach hlog hsize (by decide) "\x7b\x7d" "a\x7b\x7db"
  rw [if_pos htaken] at hafter hmessages
  exact ⟨hreach, hlog, hsize, hafter, hmessages⟩

end Session

end Roster
