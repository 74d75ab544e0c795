import Std.Data.String.ToNat
import Roster.Log.Setup

/-!
# Telling events from their messages

Different events may share a wording, since names and emails are written as they are. The warnings
carry an id and nothing else, so a warning tells its event: a message that reads like a warning was
logged for that warning (`message_eq_warning`). Counting a warning in the log is therefore counting
its event (`count_warning`), as long as the log lets everything through (`record_initial`).
-/

namespace Roster.Log.Event

/-- Whether the event is a warning: a lookup was cancelled, or an id was taken. -/
def isWarning : Event → Bool
  | lookupCancelled _ | idTaken _ => true
  | _ => false

/-- The level of a warning is `warn`, and no other event has it. -/
theorem level_eq_warn_iff {e : Event} : e.level = .warn ↔ e.isWarning = true := by
  cases e <;> simp [level, isWarning]

/-! ### The wording of the warnings -/

theorem text_lookupCancelled (id : UInt64) :
    (lookupCancelled id).text
      = "UserRepository::getByIdAsync: lookup " ++ decimal id ++ " cancelled" := rfl

theorem text_idTaken (id : UInt64) :
    (idTaken id).text
      = "UserService::createUser: id " ++ decimal id ++ " already taken, overwriting" := rfl

theorem decimal_inj {a b : UInt64} : decimal a = decimal b ↔ a = b := by
  constructor
  · intro h
    exact UInt64.toNat_inj.mp (Nat.repr_injective h)
  · rintro rfl
    rfl

/-- The two kinds of warning begin with different words. -/
theorem text_lookupCancelled_ne_idTaken (a b : UInt64) :
    (lookupCancelled a).text ≠ (idTaken b).text := by
  intro h
  have hchar := congrArg (fun s => s.toList[4]?) h
  simp only [text_lookupCancelled, text_idTaken, String.toList_append] at hchar
  rw [List.append_assoc, List.append_assoc, List.getElem?_append_left (by decide),
    List.getElem?_append_left (by decide)] at hchar
  -- 'R' of the one against 'S' of the other.
  revert hchar
  decide

/-- Warnings with the same wording are the same. -/
theorem eq_of_text_eq {v w : Event} (hv : v.isWarning = true) (hw : w.isWarning = true)
    (h : v.text = w.text) : v = w := by
  cases v with
  | lookupCancelled a =>
    cases w with
    | lookupCancelled b =>
      rw [text_lookupCancelled, text_lookupCancelled, String.append_left_inj,
        String.append_right_inj, decimal_inj] at h
      rw [h]
    | idTaken b => exact absurd h (text_lookupCancelled_ne_idTaken a b)
    | _ => cases hw
  | idTaken a =>
    cases w with
    | lookupCancelled b => exact absurd h.symm (text_lookupCancelled_ne_idTaken b a)
    | idTaken b =>
      rw [text_idTaken, text_idTaken, String.append_left_inj, String.append_right_inj,
        decimal_inj] at h
      rw [h]
    | _ => cases hw
  | _ => cases hv

/-- **A message that reads like a warning was logged for that warning.** -/
theorem message_eq_warning {e w : Event} (hw : w.isWarning = true) :
    e.message = w.message ↔ e = w := by
  constructor
  · intro h
    have hlevel : e.level = w.level := congrArg Message.level h
    have he : e.isWarning = true := by
      rw [← level_eq_warn_iff, hlevel, level_eq_warn_iff]
      exact hw
    exact eq_of_text_eq he hw (congrArg Message.text h)
  · rintro rfl
    rfl

/-- A warning stands in the log as often as it happened. -/
theorem count_warning {w : Event} (hw : w.isWarning = true) (events : List Event) :
    (events.map message).count w.message = events.count w := by
  rw [List.count_eq_countP, List.countP_map, List.count_eq_countP]
  apply List.countP_congr
  intro e _
  simp only [Function.comp_apply, beq_iff_eq]
  exact message_eq_warning hw

end Roster.Log.Event

namespace Roster.Log.Setup

/-- A logger lets the messages through that are not below its level. -/
theorem record_of_active {log : Setup} {logger : Logger} (h : log.active = some logger)
    (events : List Event) :
    log.record events = (events.map Event.message).filter (logger.level ≤ ·.level) := by
  rw [record]
  apply List.filter_congr
  intro m _
  rw [admits, h, Option.any_some]

/-- At the start the log lets everything through. -/
theorem record_initial (events : List Event) : initial.record events = events.map Event.message := by
  rw [record, List.filter_eq_self]
  intro m _
  simp [admits, initial]

end Roster.Log.Setup
