import Roster.Registry.Errand

/-!
# The life of a lookup

A lookup is started, its pause ends in one of several ways, and its outcome is collected. These are
the steps of that life, each on its own:

* `start` starts a lookup and calls the pause of its store once;
* `elapse` lets the delay of a sleeping lookup pass;
* `stop` requests a stop, which ends every sleeping lookup that listens to the source;
* `release` lets go of a lookup that is held;
* `collect` hands the outcome out.

The outcome is fixed by the step that ends the pause: from then on the lookup keeps it.
-/

namespace Roster.Registry

open Attempt (allow)
open Log (Event)
open Errand (look change tell undergo need demand)

/-- The lookup as it stands when its pause ends: it reads the directory at that moment. -/
def conclude (r : Registry) (l : Lookup) (v : Pause.Verdict) : Lookup :=
  { l with phase := .ended (Lookup.conclude (r.directory l.store) l.id v) }

def setLookup (r : Registry) (handle : Nat) (l : Lookup) : Registry :=
  { r with lookups := r.lookups.set handle l }

/-! ### Starting -/

def addSource (r : Registry) (stopped : Bool) : Registry :=
  { r with sources := r.sources ++ [stopped] }

def newSource (stopped : Bool) : Errand Nat := do
  let r ← look
  change (·.addSource stopped)
  return r.sources.length

/-- Finds or creates the stop source of a new lookup: its number, and whether the lookup listens
to it. -/
def takeSource : Lookup.Token → Errand (Nat × Bool)
  | .none => return (← newSource false, false)
  | .live => return (← newSource false, true)
  | .stopped => return (← newSource true, true)
  | .shared handle => do
    -- The lookup may have ended, and its outcome may be gone: its source is still there.
    let r ← look
    let l ← need (under? r.lookups handle) .noLookup
    return (l.source, true)

/-- Calls the pause of a store, which counts the call. -/
def callPause (n : Nat) (s : Store) (stopped : Bool) : Errand Pause.Response := do
  change fun r => { r with stores := r.stores.modify n Store.called }
  return s.response stopped

def enter (l : Lookup) : Errand Nat := do
  let r ← look
  change fun r => { r with lookups := r.lookups ++ [l] }
  return r.lookups.length

/-- Sends a lookup off to the pause of its store, once its source is known. -/
def sendOff (n : Nat) (s : Store) (id : UInt64) (source : Nat) (listens : Bool) : Errand Reply := do
  tell [.lookupStarted id s.delay.ms]
  let r ← look
  let stopped := listens && r.isStopped source
  let response ← callPause n s stopped
  tell (Lookup.callEvents id response)
  let handle ← enter ⟨n, id, source, listens, Lookup.phaseAfter s.directory id response⟩
  return .started handle (s.pause.observe ⟨s.delay, listens, stopped⟩)

/-- Starts a lookup in a store and leaves it to its pause. -/
def start (n : Int) (id : UInt64) (token : Lookup.Token) : Errand Reply := do
  let r ← look
  let i ← need n.toNat? .noStore
  let s ← need r.stores[i]? .noStore
  let (source, listens) ← takeSource token
  sendOff i s id source listens

/-! ### Ending -/

/-- Lets the delay of a lookup pass. It completes unless it has heard a stop by then; a lookup
that does not sleep is left alone. -/
def elapse (r : Registry) (handle : Nat) : Registry × List Event :=
  match r.lookups[handle]? with
  | none => (r, [])
  | some l =>
    if l.phase = .sleeping then
      let v := Pause.Verdict.ofCompletes (!r.hears l)
      (r.setLookup handle (r.conclude l v), Lookup.endEvents l.id v)
    else (r, [])

/-- Requests a stop on a source: every lookup that sleeps and listens to it is interrupted. -/
def requestStop (r : Registry) (source : Nat) : Registry × List Event :=
  ({ r with
      sources := r.sources.set source true
      lookups := r.lookups.map fun l =>
        if l.wakesOn source then r.conclude l .interrupted else l },
    (r.lookups.filter (·.wakesOn source)).flatMap fun l => Lookup.endEvents l.id .interrupted)

/-! ### By handle -/

/-- The lookup under a handle, as long as its outcome was not handed out. -/
def openLookup (r : Registry) (handle : Nat) : Except Refusal Lookup :=
  match r.lookups[handle]? with
  | none => .error .noLookup
  | some l =>
    match l.phase with
    | .collected _ => .error .alreadyCollected
    | .sleeping | .gated | .ended _ => .ok l

def stop (handle : Int) : Errand Reply := do
  let i ← need handle.toNat? .noLookup
  let r ← look
  let l ← allow .refused (r.openLookup i)
  demand (l.listens = true) .noSource
  undergo (·.requestStop l.source)
  return .stopped (!r.isStopped l.source)

def release (handle : Int) (how : Pause.Release) : Errand Reply := do
  let i ← need handle.toNat? .noLookup
  let r ← look
  let l ← allow .refused (r.openLookup i)
  demand (l.phase = .gated) .notHeld
  let v := how.verdict (r.hears l)
  change (·.setLookup i (r.conclude l v))
  tell (Lookup.endEvents l.id v)
  return .released

def collect (handle : Int) : Errand Reply := do
  let i ← need handle.toNat? .noLookup
  let r ← look
  let l ← allow .refused (r.openLookup i)
  let o ← need l.outcome? .stillPending
  change (·.setLookup i { l with phase := .collected o })
  return .collected o

end Roster.Registry
