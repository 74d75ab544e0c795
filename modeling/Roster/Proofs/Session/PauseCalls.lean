import Roster.Proofs.Lookup.Calls
import Roster.Proofs.Session.Transparency

/-!
# Lookups and the calls of a pause

In a session the lookups that a store accepts and the calls of its pause go in step: the `k`-th
lookup makes the `k`-th call. So a pause that goes by a script has each lookup end as its own entry
says, whatever happens in between, and a pause that breaks takes nothing down but its own lookup.

* `started` are the lookups accepted in a store, as the reports tell of them; the pause has been
  called as often (`serves_afterAll`).
* `Settled` is a lookup whose outcome is fixed: it keeps it, and answers it to the first who asks.
-/

namespace Roster.Session

open Registry (Command Reply Serves)
open Log (Event)

def Result.reply? : Result → Option Reply
  | .command (.ok reply) => some reply
  | _ => none

/-- The handle of the lookup that a step has started in a store, as the report tells of it. -/
def started? (s : Session) (n : Nat) : Step → Option Nat
  | .command (.lookup k id token) =>
    if k = n then (s.report (.command (.lookup k id token))).result.reply?.bind Reply.handle?
    else none
  | _ => none

def started (s : Session) (n : Nat) : List Step → List Nat
  | [] => []
  | step :: rest => (s.started? n step).toList ++ (s.after step).started n rest

/-! ## Commands in a session -/

/-- A step is a command that is carried out on the registry, or it leaves the registry alone. -/
theorem registry_after_cases (s : Session) (step : Step) :
    (s.after step).registry = s.registry ∨
      ∃ c, step = .command c ∧ s.log.isDown = false ∧
        (s.after step).registry = s.registry.next c := by
  cases step with
  | command c =>
    cases hdown : s.log.isDown with
    | true =>
      left
      rw [after, hdown]
      rfl
    | false => exact .inr ⟨c, rfl, rfl, by rw [after_command_of_up hdown]⟩
  | install wish fileOpens => exact .inl rfl
  | shutdown => exact .inl rfl

/-- What every command keeps of a registry, every session keeps. -/
theorem registry_afterAll_of_next {P : Registry → Prop} (hnext : ∀ r c, P r → P (r.next c))
    {s : Session} (h : P s.registry) (steps : List Step) : P (s.afterAll steps).registry := by
  induction steps generalizing s with
  | nil => exact h
  | cons step steps ih =>
    apply ih
    rcases registry_after_cases s step with hsame | ⟨c, _, _, hafter⟩
    · rw [hsame]
      exact h
    · rw [hafter]
      exact hnext s.registry c h

/-- A command with a reply was carried out, while the log was up. -/
theorem perform_of_result {s : Session} {c : Command} {reply : Reply}
    (h : (s.report (.command c)).result = .command (.ok reply)) :
    ∃ e, s.registry.perform c = .ok e ∧ e.reply = reply ∧
      (s.after (.command c)).registry = e.registry := by
  cases hdown : s.log.isDown with
  | true =>
    rw [report, hdown] at h
    cases h
  | false =>
    rw [report_command_of_up hdown, commandReport] at h
    rw [after_command_of_up hdown]
    cases hperf : s.registry.perform c with
    | error f =>
      rw [Registry.reply_of_refused hperf] at h
      cases h
    | ok e =>
      rw [Registry.reply_of_perform hperf] at h
      cases h
      exact ⟨e, rfl, rfl, Registry.next_of_perform hperf⟩

/-! ## One call for each lookup -/

theorem started?_of_up {s : Session} (h : s.log.isDown = false) (n : Nat) (c : Command) :
    s.started? n (.command c) = s.registry.started? n c := by
  cases c with
  | lookup k id token =>
    have hreply : (s.report (.command (.lookup k id token))).result.reply? =
        (s.registry.reply (.lookup k id token)).toOption := by
      rw [report_command_of_up h, commandReport]
      cases s.registry.reply (.lookup k id token) <;> rfl
    rw [started?, Registry.started?, hreply]
  | _ => rfl

theorem started?_of_down {s : Session} (h : s.log.isDown = true) (n : Nat) (c : Command) :
    s.started? n (.command c) = none := by
  cases c with
  | lookup k id token =>
    rw [started?, report, h]
    split <;> rfl
  | _ => rfl

section

variable {n : Nat} {delay : Delay} {pause : Pause} {k : Nat} {s : Session}

theorem serves_after (h : Serves n delay pause k s.registry) (step : Step) :
    Serves n delay pause (k + (s.started? n step).toList.length) (s.after step).registry := by
  cases step with
  | command c =>
    cases hdown : s.log.isDown with
    | true =>
      rw [started?_of_down hdown, after, hdown]
      exact h
    | false =>
      rw [started?_of_up hdown, after_command_of_up hdown]
      exact h.next c
  | install wish fileOpens => exact h
  | shutdown => exact h

/-- **The calls of a pause are as many as the lookups accepted in its store.** -/
theorem serves_afterAll (h : Serves n delay pause k s.registry) (steps : List Step) :
    Serves n delay pause (k + (s.started n steps).length) (s.afterAll steps).registry := by
  induction steps generalizing s k with
  | nil => exact h
  | cons step steps ih =>
    rw [started, List.length_append, ← Nat.add_assoc]
    exact ih (serves_after h step)

end

/-! ## Outcomes that are fixed -/

theorem continues_afterAll (s : Session) (steps : List Step) :
    s.registry.Continues (s.afterAll steps).registry := by
  apply registry_afterAll_of_next (P := fun r => s.registry.Continues r)
  · intro r c hr
    exact hr.trans (Registry.continues_after r (.command c))
  · exact .of_lookups_eq rfl

/-- An outcome that nobody has been able to ask for is still there to be handed out. -/
theorem getElem?_afterAll_of_ended {s : Session} {handle : Nat} {l : Lookup} {o : Lookup.Outcome}
    (hl : s.registry.lookups[handle]? = some l) (hended : l.phase = .ended o) {steps : List Step}
    (hnever : ∀ earlier later, steps = earlier ++ .command (.collect handle) :: later →
      (s.afterAll earlier).log.isDown = true) :
    (s.afterAll steps).registry.lookups[handle]? = some l := by
  induction steps generalizing s with
  | nil => exact hl
  | cons step steps ih =>
    apply ih
    · rcases registry_after_cases s step with hsame | ⟨c, rfl, hup, hnext⟩
      · rw [hsame]
        exact hl
      · -- The log is up here, so the command is not one that asks for the outcome.
        rw [hnext]
        apply Registry.getElem?_after_of_outcome (m := .command c) hl
          (Lookup.outcome?_of_ended hended)
        intro hcollect
        cases hcollect
        have hdown := hnever [] steps rfl
        rw [afterAll_nil, hup] at hdown
        cases hdown
    · intro earlier later hsteps
      exact hnever (step :: earlier) later (congrArg (step :: ·) hsteps)

section

variable {n : Nat} {delay : Delay} {pause : Pause} {k : Nat} {t : Session}

end

/-- A store that has been opened waits as was asked for, and nothing has called its pause. -/
theorem serves_of_opened {s : Session} {wish : Option Int} {pause : Pause} {n : Nat}
    (h : (s.report (.command (.openStore wish pause))).result = .command (.ok (.opened n))) :
    ∃ delay, Delay.ofWish wish = .ok delay ∧
      Serves n delay pause 0 (s.after (.command (.openStore wish pause))).registry := by
  obtain ⟨e, hperf, hreply, hafter⟩ := perform_of_result h
  rw [hafter]
  cases Registry.performed_of_perform hperf with
  | @opened _ _ delay hdelay =>
    cases hreply
    exact ⟨delay, hdelay, .empty, List.getElem?_concat_length⟩

end Roster.Session
