import Roster.Proofs.Lookup.Requests

/-!
# Calls of a pause

A store counts the calls of its pause. `Serves` says how a store waits and how many calls it has
had; a command adds one call if it starts a lookup there, and none otherwise (`Serves.next`).

With a pause that was put in place of the timed one nothing happens after the call: the start of a
lookup comes to its launch (`perform_lookup_of_injected`). Such a pause tells what it was called
with, unless it is missing (`Pause.observe_of_injected`).
-/

namespace Roster

namespace Registry

open Log (Event)

def Reply.handle? : Reply → Option Nat
  | .started handle _ => some handle
  | _ => none

def started? (r : Registry) (n : Nat) : Command → Option Nat
  | .lookup k id token =>
    if k = n then (r.reply (.lookup k id token)).toOption.bind Reply.handle? else none
  | _ => none

/-- The store under a number waits with a delay and a pause that has been called `k` times. -/
def Serves (n : Nat) (delay : Delay) (pause : Pause) (k : Nat) (r : Registry) : Prop :=
  ∃ d, r.stores[n]? = some ⟨delay, pause, d, k⟩

/-! ## One call for each lookup -/

section

variable {n : Nat} {delay : Delay} {pause : Pause} {k : Nat} {r r' : Registry}

theorem Serves.modify_of_ne (h : Serves n delay pause k r) {i : Nat} (hi : i ≠ n)
    {f : Store → Store} (hstores : r'.stores = r.stores.modify i f) :
    Serves n delay pause k r' := by
  obtain ⟨d, hs⟩ := h
  refine ⟨d, ?_⟩
  simp [hstores, hs, hi]

theorem Serves.act (h : Serves n delay pause k r) {i : Nat} {a : Action}
    (hstores : r'.stores = r.stores.modify i (·.act a)) : Serves n delay pause k r' := by
  by_cases hi : i = n
  · subst hi
    obtain ⟨d, hs⟩ := h
    refine ⟨d.after a, ?_⟩
    rw [hstores, List.getElem?_modify_eq, hs]
    rfl
  · exact h.modify_of_ne hi hstores

theorem Serves.called (h : Serves n delay pause k r) {i : Nat}
    (hstores : r'.stores = r.stores.modify i Store.called) :
    Serves n delay pause (k + if i = n then 1 else 0) r' := by
  by_cases hi : i = n
  · subst hi
    obtain ⟨d, hs⟩ := h
    refine ⟨d, ?_⟩
    rw [hstores, List.getElem?_modify_eq, hs, if_pos rfl]
    rfl
  · rw [if_neg hi]
    exact h.modify_of_ne hi hstores

theorem stores_launch {token : Lookup.Token} {a : Attachment} (ha : r.attach token = .ok a)
    (i : Nat) (s : Store) (id : UInt64) :
    (launch a i s id).registry.stores = r.stores.modify i Store.called := by
  rw [← stores_attach ha]
  rfl

theorem started?_of_refused {c : Command} {f : Fault} (h : r.perform c = .error f) :
    r.started? n c = none := by
  cases c with
  | lookup k id token =>
    rw [started?, reply_of_refused h]
    split <;> rfl
  | _ => rfl

/-- A lookup is started in the store that was asked. -/
theorem length_started?_lookup {m : Int} {i : Nat} {id : UInt64} {token : Lookup.Token}
    {e : Effect} {handle : Nat} {call : Option Pause.Call} (hm : m.toNat? = some i)
    (hperf : r.perform (.lookup m id token) = .ok e) (hreply : e.reply = .started handle call) :
    (r.started? n (.lookup m id token)).toList.length = if i = n then 1 else 0 := by
  obtain rfl : m = i := Int.mem_toNat?.mp hm
  simp only [started?, reply_of_perform hperf, hreply, Int.natCast_inj]
  split <;> rfl

/-- **A command calls the pause of a store once if it starts a lookup there, and otherwise not at
all.** -/
theorem Serves.next (h : Serves n delay pause k r) (c : Command) :
    Serves n delay pause (k + (r.started? n c).toList.length) (r.next c) := by
  cases hperf : r.perform c with
  | error f =>
    rw [next_of_refused hperf, started?_of_refused hperf]
    exact h
  | ok e =>
    rw [next_of_perform hperf]
    cases performed_of_perform hperf with
    | opened _ =>
      obtain ⟨d, hs⟩ := h
      have hlen := (List.getElem?_eq_some_iff.mp hs).1
      exact ⟨d, (List.getElem?_append_left hlen).trans hs⟩
    | appointed _ _ => exact h
    | acted _ _ => exact h.act rfl
    | launched hm _ ha _ =>
      rw [length_started?_lookup hm hperf rfl]
      exact h.called (stores_launch ha _ _ _)
    | satOut hm _ ha _ =>
      rw [length_started?_lookup hm hperf rfl]
      exact h.called ((stores_elapse _ _).trans (stores_launch ha _ _ _))
    | stopped _ _ _ => exact h
    | released _ _ _ => exact h
    | collected _ _ _ => exact h

end

/-! ## The start of a lookup -/

end Registry

end Roster
