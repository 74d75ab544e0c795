/-!
# Waiting

A wait lasts for a number of milliseconds unless a stop is requested first. What counts at the end
is whether a stop has been requested by then: a stop that was requested before the start interrupts
even a wait of no length. A wait of negative length is over at once.
-/

namespace Roster

/-- A wait, and when a stop is requested, in milliseconds from its start. -/
structure Wait where
  delay : Int
  stopAt : Option Nat := none
deriving DecidableEq

namespace Wait

/-- How long the wait lasts if nothing stops it. -/
def span (w : Wait) : Nat := w.delay.toNat

/-- Whether a stop has been requested by the end. -/
def isInterrupted (w : Wait) : Bool := w.stopAt.any (· ≤ w.span)

def completes (w : Wait) : Bool := !w.isInterrupted

/-- How long the wait lasts: until its end or the stop, whichever is first. -/
def elapsed (w : Wait) : Nat := w.stopAt.elim w.span (min · w.span)

def reachesDelay (w : Wait) : Bool := w.delay ≤ w.elapsed

@[simp] theorem completes_of_no_stop (delay : Int) : (Wait.mk delay none).completes = true := rfl

@[simp] theorem completes_of_stopped (delay : Int) : (Wait.mk delay (some 0)).completes = false := by
  simp [completes, isInterrupted]

/-- A wait that is not interrupted lasts for all of its length. -/
theorem elapsed_of_completes {w : Wait} (h : w.completes = true) : w.elapsed = w.span := by
  obtain ⟨delay, _ | t⟩ := w
  · rfl
  · have ht : (Wait.mk delay (some t)).span < t := by simpa [completes, isInterrupted] using h
    exact Nat.min_eq_right (Nat.le_of_lt ht)

/-- A wait that is not interrupted lasts at least its delay. -/
theorem reachesDelay_of_completes {w : Wait} (h : w.completes = true) : w.reachesDelay = true := by
  have hspan : w.delay ≤ (w.span : Int) := Int.self_le_toNat w.delay
  rw [reachesDelay, elapsed_of_completes h]
  exact decide_eq_true hspan

end Wait

end Roster
