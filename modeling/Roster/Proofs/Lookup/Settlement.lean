import Roster.Proofs.Log.Wording
import Roster.Proofs.Lookup.Outcome

/-!
# The end of a lookup

What a run as a whole leaves of its lookups. Each has the outcome that was fixed when its pause
ended, whatever came before and after, and the log holds one warning for each that was cancelled.

A cancellation and its warning come from the same step, so every move changes the two numbers alike
(`cancellations_after`).
-/

namespace Roster

def Lookup.isCancelledFor (l : Lookup) (id : UInt64) : Bool :=
  l.id == id && l.outcome? == some (.failed (cancelled l.id))

namespace Registry

open Log (Event)

/-! ## Warnings -/

def cancellations (r : Registry) (id : UInt64) : Nat := r.lookups.countP (·.isCancelledFor id)

theorem isCancelledFor_conclude (r : Registry) (l : Lookup) (v : Pause.Verdict) (id : UInt64) :
    (r.conclude l v).isCancelledFor id = decide (l.id = id ∧ v = .interrupted) := by
  have hid : (r.conclude l v).id = l.id := rfl
  rw [Lookup.isCancelledFor, outcome?_conclude, hid, Bool.eq_iff_iff]
  cases v <;> simp [Lookup.conclude]

theorem count_endEvents (r : Registry) (l : Lookup) (v : Pause.Verdict) (id : UInt64) :
    (Lookup.endEvents l.id v).count (.lookupCancelled id) =
      if (r.conclude l v).isCancelledFor id then 1 else 0 := by
  rw [isCancelledFor_conclude]
  cases v <;> simp [Lookup.endEvents, List.count_singleton]

theorem isCancelledFor_of_pending {l : Lookup} (h : l.outcome? = none) (id : UInt64) :
    l.isCancelledFor id = false := by
  simp [Lookup.isCancelledFor, h]

/-- A lookup that ends while nothing else changes. -/
theorem cancellations_setLookup {r : Registry} {i : Nat} {l : Lookup}
    (hl : r.lookups[i]? = some l) (hpending : l.outcome? = none) (v : Pause.Verdict)
    (id : UInt64) :
    (r.setLookup i (r.conclude l v)).cancellations id =
      r.cancellations id + (Lookup.endEvents l.id v).count (.lookupCancelled id) := by
  obtain ⟨hlen, hget⟩ := List.getElem?_eq_some_iff.mp hl
  rw [cancellations, setLookup, List.countP_set hlen, hget, isCancelledFor_of_pending hpending,
    count_endEvents r]
  rfl

theorem cancellations_collected {r : Registry} {i : Nat} {l : Lookup} {o : Lookup.Outcome}
    (hl : r.lookups[i]? = some l) (hended : l.phase = .ended o) (id : UInt64) :
    (r.setLookup i { l with phase := .collected o }).cancellations id = r.cancellations id := by
  obtain ⟨hlen, hget⟩ := List.getElem?_eq_some_iff.mp hl
  have hsame : ({ l with phase := .collected o } : Lookup).isCancelledFor id =
      l.isCancelledFor id := by
    simp [Lookup.isCancelledFor, Lookup.outcome?, hended]
  rw [cancellations, setLookup, List.countP_set hlen, hget, hsame, cancellations]
  split
  · next hp =>
    have hpos : 0 < r.lookups.countP (·.isCancelledFor id) :=
      List.countP_pos_iff.mpr ⟨l, List.mem_of_getElem? hl, hp⟩
    omega
  · rfl

theorem cancellations_launch {r : Registry} {token : Lookup.Token} {a : Attachment}
    (ha : r.attach token = .ok a) (i : Nat) (s : Store) (asked id : UInt64) :
    (launch a i s asked).registry.cancellations id =
      r.cancellations id + (launch a i s asked).events.count (.lookupCancelled id) := by
  rw [cancellations, lookups_launch ha, List.countP_append, List.countP_singleton, cancellations]
  have hevents : (launch a i s asked).events = .lookupStarted asked s.delay.ms ::
      Lookup.callEvents asked (s.response (a.listens && a.registry.isStopped a.source)) := rfl
  have hid : (launched a i s asked).id = asked := rfl
  rw [hevents, List.count_cons_of_ne (by simp), Lookup.isCancelledFor, outcome?_launched, hid]
  cases s.response (a.listens && a.registry.isStopped a.source) with
  | ends v => cases v <;> simp [Lookup.callEvents, Lookup.endEvents, Lookup.conclude,
      List.count_singleton]
  | sleeps => simp [Lookup.callEvents]
  | blocks => simp [Lookup.callEvents]

theorem cancellations_elapse (r : Registry) (handle : Nat) (id : UInt64) :
    (r.elapse handle).1.cancellations id =
      r.cancellations id + (r.elapse handle).2.count (.lookupCancelled id) := by
  cases hl : r.lookups[handle]? with
  | none =>
    rw [elapse_of_none hl]
    rfl
  | some l =>
    by_cases hsleeping : l.phase = .sleeping
    · rw [elapse_of_sleeping hl hsleeping]
      exact cancellations_setLookup hl (Lookup.outcome?_of_sleeping hsleeping) _ id
    · rw [elapse_of_not_sleeping hl hsleeping]
      rfl

/-- A stop cancels the lookups that it wakes, each with its own warning. -/
theorem cancellations_requestStop (r : Registry) (source : Nat) (id : UInt64) :
    (r.requestStop source).1.cancellations id =
      r.cancellations id + (r.requestStop source).2.count (.lookupCancelled id) := by
  show (r.lookups.map _).countP _ = r.lookups.countP _ + List.count _ (List.flatMap _ _)
  induction r.lookups with
  | nil => rfl
  | cons l ls ih =>
    rw [List.map_cons, List.countP_cons, ih, List.countP_cons]
    by_cases hwakes : l.wakesOn source = true
    · have hpending := Lookup.outcome?_of_sleeping (Lookup.wakesOn_iff.mp hwakes).1
      rw [if_pos hwakes, List.filter_cons, if_pos hwakes, List.flatMap_cons, List.count_append,
        count_endEvents r, isCancelledFor_of_pending hpending]
      simp only [Bool.false_eq_true, if_false]
      omega
    · rw [if_neg hwakes, List.filter_cons, if_neg hwakes]
      omega

/-- Directories report nothing about lookups. -/
theorem count_lookupCancelled_events (d : Directory) (a : Action) (id : UInt64) :
    (d.events a).count (.lookupCancelled id) = 0 := by
  have hinsert : ∀ u, d.insertEvent u ≠ .lookupCancelled id := by
    intro u
    rw [Directory.insertEvent]
    split <;> simp
  have henrol : ∀ e, (d.enrolEvents e).count (.lookupCancelled id) = 0 := by
    intro e
    rw [Directory.enrolEvents, Directory.takenEvents, Directory.entryEvents]
    split <;> simp [hinsert]
  cases a with
  | put u => exact List.count_singleton.trans (if_neg (by simpa using hinsert u))
  | putRecord r => exact List.count_singleton.trans (if_neg (by simpa using hinsert (.ofRecord r)))
  | erase id₀ =>
    rw [Directory.events, Directory.eraseEvents]
    split <;> simp
  | enrol e => exact henrol e
  | enrolRenamed e _ => exact henrol e
  | get _ => rfl
  | getRecord _ => rfl
  | contains _ => rfl
  | size => rfl

/-- **Each move cancels as many lookups of an id as it logs warnings.** -/
theorem cancellations_after (r : Registry) (m : Move) (id : UInt64) :
    (r.after m).cancellations id =
      r.cancellations id + (r.eventsOf m).count (.lookupCancelled id) := by
  have hstart : ∀ n asked token, (r.after (.start n asked token)).cancellations id =
      r.cancellations id + (r.eventsOf (.start n asked token)).count (.lookupCancelled id) := by
    intro n asked token
    rw [after, eventsOf]
    cases hstart : r.start? n asked token with
    | none => rfl
    | some e =>
      obtain ⟨i, s, a, _, _, ha, rfl⟩ := attach_of_start? hstart
      exact cancellations_launch ha i s asked id
  cases m with
  | start n asked token => exact hstart n asked token
  | elapse handle => exact cancellations_elapse r handle id
  | command c =>
    cases hperf : r.perform c with
    | error f =>
      rw [after, eventsOf, next_of_refused hperf, events_of_refused hperf]
      rfl
    | ok e =>
      rw [after, eventsOf, next_of_perform hperf, events_of_perform hperf]
      cases performed_of_perform hperf with
      | opened _ => rfl
      | appointed _ _ => rfl
      | acted _ _ => rw [count_lookupCancelled_events]; rfl
      | launched _ _ ha _ => exact cancellations_launch ha _ _ _ id
      | satOut _ _ ha _ =>
        rw [List.count_append, ← Nat.add_assoc, ← cancellations_launch ha]
        exact cancellations_elapse _ _ id
      | stopped _ _ _ => exact cancellations_requestStop r _ id
      | released _ hl hgated =>
        exact cancellations_setLookup hl (Lookup.outcome?_of_gated hgated) _ id
      | collected _ hl hended => exact cancellations_collected hl hended id

theorem cancellations_afterAll (r : Registry) (ms : List Move) (id : UInt64) :
    (r.afterAll ms).cancellations id =
      r.cancellations id + (r.allEvents ms).count (.lookupCancelled id) := by
  induction ms generalizing r with
  | nil => rfl
  | cons m ms ih =>
    rw [afterAll_cons, ih, cancellations_after, allEvents_cons, List.count_append, Nat.add_assoc]

/-! ## Whole runs -/

/-- A start that is answered leaves under the handle answered the lookup that it adds. -/
theorem launched_of_start {r : Registry} {n : Int} {id : UInt64} {token : Lookup.Token}
    {handle : Nat} {call : Option Pause.Call}
    (h : r.replyTo? (.start n id token) = some (.started handle call)) :
    ∃ i s a, n.toNat? = some i ∧ r.attach token = .ok a ∧
      (r.after (.start n id token)).lookups[handle]? = some (launched a i s id) := by
  obtain ⟨e, hstart, hreply⟩ := Option.map_eq_some_iff.mp h
  obtain ⟨i, s, a, hn, _, ha, rfl⟩ := attach_of_start? hstart
  have hhandle : handle = r.lookups.length := by
    rw [← lookups_attach ha]
    injection hreply with h _
    exact h.symm
  refine ⟨i, s, a, hn, ha, ?_⟩
  rw [after, hstart, Option.elim_some, lookups_launch ha, hhandle]
  exact List.getElem?_concat_length

/-- The start of a lookup that sits its delay out is answered as any start. -/
theorem replyTo?_start_of_lookup {r : Registry} {n : Int} {id : UInt64} {token : Lookup.Token}
    {reply : Reply} (h : r.replyTo? (.command (.lookup n id token)) = some reply) :
    r.replyTo? (.start n id token) = some reply := by
  cases hperf : r.perform (.lookup n id token) with
  | error f =>
    rw [replyTo?, reply_of_refused hperf] at h
    cases h
  | ok e =>
    rw [replyTo?, reply_of_perform hperf] at h
    rw [replyTo?]
    cases performed_of_perform hperf with
    | launched hn hs ha _ => rw [start?_of_attach hn hs ha]; exact h
    | satOut hn hs ha _ => rw [start?_of_attach hn hs ha]; exact h

/-- A start that is answered leaves a lookup of what was asked for under the handle answered. -/
theorem lookup_of_start {r : Registry} {n : Int} {id : UInt64} {token : Lookup.Token}
    {handle : Nat} {call : Option Pause.Call}
    (h : r.replyTo? (.start n id token) = some (.started handle call)) :
    ∃ l, (r.after (.start n id token)).lookups[handle]? = some l ∧ l.id = id ∧ l.store = n := by
  obtain ⟨i, s, a, hn, _, hl⟩ := launched_of_start h
  exact ⟨launched a i s id, hl, rfl, (Int.mem_toNat?.mp hn).symm⟩

/-- The same of a lookup that sits its delay out. -/
theorem lookup_of_lookup {r : Registry} {n : Int} {id : UInt64} {token : Lookup.Token}
    {handle : Nat} {call : Option Pause.Call}
    (h : r.replyTo? (.command (.lookup n id token)) = some (.started handle call)) :
    ∃ l, (r.after (.command (.lookup n id token))).lookups[handle]? = some l ∧ l.id = id
      ∧ l.store = n := by
  obtain ⟨l, hl, hid, hstore⟩ := lookup_of_start (replyTo?_start_of_lookup h)
  obtain ⟨l', hl', hcont⟩ := continues_lookup r n id token handle l hl
  exact ⟨l', hl', hcont.id.trans hid, by rw [hcont.store, hstore]⟩

/-- An outcome was there from the start, or a pause ended somewhere in the run. -/
theorem returns_of_outcome_afterAll {r : Registry} {ms : List Move} {handle : Nat} {l : Lookup}
    {o : Lookup.Outcome} (hl : (r.afterAll ms).lookups[handle]? = some l)
    (ho : l.outcome? = some o) :
    (∃ l₀, r.lookups[handle]? = some l₀ ∧ l₀.outcome? = some o) ∨
      ∃ before m after v, ms = before ++ m :: after ∧ Returns (r.afterAll before) m handle v := by
  induction ms generalizing r with
  | nil => exact .inl ⟨l, hl, ho⟩
  | cons m ms ih =>
    rcases ih hl with ⟨l₁, hl₁, ho₁⟩ | ⟨before, m', after, v, rfl, hv⟩
    · rcases returns_of_outcome hl₁ ho₁ with hold | ⟨v, hv⟩
      · exact .inl hold
      · exact .inr ⟨[], m, ms, v, rfl, hv⟩
    · exact .inr ⟨m :: before, m', after, v, rfl, hv⟩

/-- **What a pause has decided is there for the first who asks for it**, whatever comes after. -/
theorem Returns.settled {r : Registry} {m : Move} {handle : Nat} {v : Pause.Verdict}
    (hv : Returns r m handle v) (after : List Move) :
    ∃ l, ((r.after m).afterAll after).lookups[handle]? = some l ∧
      l.outcome? = some (Lookup.conclude (r.directory l.store) l.id v) ∧
      ((r.after m).afterAll after).reply (.collect handle) =
        if .command (.collect handle) ∈ after then .error (.refused .alreadyCollected)
        else .ok (.collected (Lookup.conclude (r.directory l.store) l.id v)) := by
  have hn : (handle : Int).toNat? = some handle := rfl
  obtain ⟨l, hl, hended⟩ := hv.ended
  refine ⟨_, getElem?_afterAll_of_ended hl hended after, ?_, ?_⟩
  · rw [Lookup.outcome?_eq_some_iff]
    split
    · exact .inr rfl
    · exact .inl rfl
  · have hlast := getElem?_afterAll_of_ended hl hended after
    split at hlast
    · next hasked =>
      rw [if_pos hasked, reply_of_refused (perform_collect_of_collected hn hlast rfl)]
    · next hnever =>
      rw [if_neg hnever, reply_of_perform (perform_collect hn hlast rfl)]

/-- At the end of a run a lookup has the outcome that the end of its pause gave it, by the directory
at that moment. -/
theorem Returns.outcome_afterAll {r : Registry} {before after : List Move} {m : Move} {handle : Nat}
    {v : Pause.Verdict} {l : Lookup} (hv : Returns (r.afterAll before) m handle v)
    (hl : (r.afterAll (before ++ m :: after)).lookups[handle]? = some l) :
    l.outcome? = some (Lookup.conclude ((r.afterAll before).directory l.store) l.id v) := by
  obtain ⟨l', hl', ho, _⟩ := hv.settled after
  rw [afterAll_append, afterAll_cons] at hl
  cases hl.symm.trans hl'
  exact ho

/-- **A lookup is settled when its pause ends.** In every run each of its lookups

* is of the store and the id that were asked for;
* has, from the end of its pause on, the outcome that the pause and the directory at that moment
  decide, and has none unless its pause has ended;
* is answered with just that outcome to the first who asks for it after the end of its pause,
  whatever moves come in between, and everybody after that is refused.

And a log that lets everything through holds, for every id, as many warnings as lookups of the id
were cancelled. -/
theorem settled_when_pause_ends (moves : List Move) :
    (∀ before after (n : Int) id token handle call m,
      (m = .start n id token ∨ m = .command (.lookup n id token)) →
      moves = before ++ m :: after →
      (empty.afterAll before).replyTo? m = some (.started handle call) →
        ∃ l, (empty.afterAll moves).lookups[handle]? = some l ∧ l.id = id ∧ l.store = n) ∧
    (∀ before m after handle v, moves = before ++ m :: after →
      Returns (empty.afterAll before) m handle v →
        ∃ l o, (empty.afterAll moves).lookups[handle]? = some l ∧ l.outcome? = some o ∧
          (o = match v with
            | .completed => .found (((empty.afterAll before).directory l.store).find? l.id)
            | .interrupted =>
              .failed ⟨Failure.Kind.cancelled.code, "Lookup cancelled", l.id⟩
            | .broken fault => .broken fault) ∧
          (empty.afterAll moves).reply (.collect handle) =
            if .command (.collect handle) ∈ after then .error (.refused .alreadyCollected)
            else .ok (.collected o)) ∧
    (∀ handle l o, (empty.afterAll moves).lookups[handle]? = some l → l.outcome? = some o →
      ∃ before m after v, moves = before ++ m :: after ∧
        Returns (empty.afterAll before) m handle v) ∧
    (∀ id, (Log.Setup.initial.record (empty.allEvents moves)).count
        (Event.lookupCancelled id).message =
      (empty.afterAll moves).lookups.countP fun l =>
        l.id == id && l.outcome? == some (.failed (Lookup.cancelled l.id))) := by
  refine ⟨?_, ?_, ?_, ?_⟩
  · intro before after n id token handle call m hm hmoves hreply
    obtain ⟨l, hl, hid, hstore⟩ :
        ∃ l, ((empty.afterAll before).after m).lookups[handle]? = some l ∧ l.id = id
          ∧ l.store = n := by
      rcases hm with rfl | rfl
      · exact lookup_of_start hreply
      · exact lookup_of_lookup hreply
    rw [hmoves, afterAll_append, afterAll_cons]
    obtain ⟨l', hl', hcont⟩ := continues_afterAll _ after handle l hl
    exact ⟨l', hl', hcont.id.trans hid, by rw [hcont.store, hstore]⟩
  · intro before m after handle v hmoves hv
    obtain ⟨l, hl, ho, hreply⟩ := hv.settled after
    rw [hmoves, afterAll_append, afterAll_cons]
    refine ⟨l, _, hl, ho, ?_, hreply⟩
    cases v <;> rfl
  · intro handle l o hl ho
    rcases returns_of_outcome_afterAll hl ho with ⟨_, hnone, _⟩ | hends
    · cases hnone
    · exact hends
  · intro id
    rw [Log.Setup.record_initial, Event.count_warning rfl]
    have hcount := cancellations_afterAll empty moves id
    rw [show empty.cancellations id = 0 from rfl, Nat.zero_add] at hcount
    exact hcount.symm

/-- A user is replaced while two lookups of it are held, and removed between their ends. -/
def heldMoves : List Move :=
  [ .command (.openStore none .gated),
    .command (.act (.store 0) (.put ⟨1, "Ann", "ann@x.com"⟩)),
    .start 0 1 .none,
    .start 0 1 .live,
    .command (.act (.store 0) (.put ⟨1, "Bob", "bob@x.com"⟩)),
    .command (.release 0 .heeding),
    .command (.act (.store 0) (.erase 1)),
    .command (.release 1 (.saying false)),
    .command (.collect 1) ]

/-- The first lookup comes to who was there when it was let go, and is still there to be asked for;
the second was cancelled, with one warning, and has been asked for already. -/
theorem settled_when_pause_ends_held :
    Returns (empty.afterAll (heldMoves.take 5)) (.command (.release 0 .heeding)) 0 .completed ∧
    Returns (empty.afterAll (heldMoves.take 7)) (.command (.release 1 (.saying false))) 1
      .interrupted ∧
    (empty.afterAll heldMoves).reply (.collect 0) =
      .ok (.collected (.found (some ⟨1, "Bob", "bob@x.com"⟩))) ∧
    (empty.afterAll (heldMoves.take 8)).reply (.collect 1) =
      .ok (.collected (.failed ⟨10, "Lookup cancelled", 1⟩)) ∧
    (empty.afterAll heldMoves).reply (.collect 1) = .error (.refused .alreadyCollected) ∧
    (Log.Setup.initial.record (empty.allEvents heldMoves)).count
      (Event.lookupCancelled 1).message = 1 := by
  have hcompleted : Returns (empty.afterAll (heldMoves.take 5)) (.command (.release 0 .heeding)) 0
      .completed := .released (l := ⟨0, 1, 0, false, .gated⟩) rfl rfl rfl
  have hcancelled : Returns (empty.afterAll (heldMoves.take 7))
      (.command (.release 1 (.saying false))) 1 .interrupted :=
    .released (l := ⟨0, 1, 1, true, .gated⟩) rfl rfl rfl
  obtain ⟨_, hends, _, hwarnings⟩ := settled_when_pause_ends heldMoves
  obtain ⟨_, hends', _⟩ := settled_when_pause_ends (heldMoves.take 8)
  obtain ⟨l₀, o₀, hl₀, _, ho₀, hreply₀⟩ :=
    hends (heldMoves.take 5) _ (heldMoves.drop 6) 0 _ rfl hcompleted
  obtain ⟨_, _, _, _, _, hreply₁⟩ :=
    hends (heldMoves.take 7) _ (heldMoves.drop 8) 1 _ rfl hcancelled
  obtain ⟨l₁, o₁, hl₁, _, ho₁, hreply₁'⟩ := hends' (heldMoves.take 7) _ [] 1 _ rfl hcancelled
  have hfound : o₀ = .found (some ⟨1, "Bob", "bob@x.com"⟩) := by
    cases hl₀
    exact ho₀
  have hfailed : o₁ = .failed ⟨10, "Lookup cancelled", 1⟩ := by
    cases hl₁
    exact ho₁
  refine ⟨hcompleted, hcancelled, ?_, ?_, ?_, ?_⟩
  · rw [← hfound]
    exact hreply₀.trans (if_neg (by decide))
  · rw [← hfailed]
    exact hreply₁'
  · exact hreply₁.trans (if_pos (by decide))
  · exact (hwarnings 1).trans (by decide)

end Registry

end Roster
