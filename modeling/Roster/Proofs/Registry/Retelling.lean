import Roster.Proofs.Log.Reading
import Roster.Proofs.Registry.History

/-!
# What the log tells of a store

The debug messages of a store are enough to know who is in it. Reading them back and going through
the changes in order (`replay`) gives the ids in use and the email under each.

* `change_cases` lists what an action can do to a directory: nothing, store a user or remove one,
  each with what it reports and what the history says of it.
* `Tells` relates the changes told so far, the history of writes and the directory; one action keeps
  the relation (`Tells.after`), and so does a run (`Tells.afterAll`).
* `heard` is what a run of the registry reports, less what other stores report of themselves: the
  changes among it are those of the exchanges with the store (`filter_heard`). It takes nothing away
  as long as nothing is written elsewhere (`filter_allEvents`).
-/

namespace Roster

open Log (Event)

namespace Log.Event

def isStored : Event → Bool
  | stored _ _ => true
  | _ => false

def isOverwrote : Event → Bool
  | overwrote _ _ => true
  | _ => false

def isRemoved : Event → Bool
  | removed _ => true
  | _ => false

/-- Whether the event is a change that can happen to a directory: only a free id is stored under, and
only an id in use is overwritten or removed. -/
def Fits (d : Directory) : Event → Prop
  | stored id _ => d.contains id = false
  | overwrote id _ | removed id => d.contains id = true
  | _ => False

/-- What a change leaves of the emails known so far. -/
def retell (emails : Std.ExtTreeMap UInt64 String compare) :
    Event → Std.ExtTreeMap UInt64 String compare
  | stored id email | overwrote id email => emails.insert id email
  | removed id => emails.erase id
  | _ => emails

end Log.Event

def replay (told : List Event) : Std.ExtTreeMap UInt64 String compare := told.foldl Event.retell ∅

theorem replay_concat (told : List Event) (e : Event) :
    replay (told ++ [e]) = e.retell (replay told) := by
  rw [replay, List.foldl_append]
  rfl

namespace Directory

/-! ## One action -/

theorem erase_of_not_contains {d : Directory} {id : UInt64} (h : d.contains id = false) :
    d.erase id = d := by
  apply ext_find?
  intro id'
  rw [find?_erase]
  split
  · next heq =>
    rw [contains_eq_isSome_find?, Option.isSome_eq_false_iff, Option.isNone_iff_eq_none] at h
    rw [heq, h]
  · rfl

theorem filter_entryEvents (d : Directory) (u : User) :
    (d.entryEvents u).filter Event.isChange = [d.insertEvent u] := by
  rw [entryEvents, insertEvent]
  split <;> rfl

theorem filter_enrolEvents (d : Directory) (e : Enrolment) :
    (d.enrolEvents e).filter Event.isChange = [d.insertEvent (d.newcomer e)] := by
  have htaken : (d.takenEvents d.nextId).filter Event.isChange = [] := by
    rw [takenEvents]
    split <;> rfl
  rw [enrolEvents, List.filter_append, htaken, filter_entryEvents, List.nil_append]

theorem filter_insertEvent (d : Directory) (u : User) :
    [d.insertEvent u].filter Event.isChange = [d.insertEvent u] := by
  rw [insertEvent]
  split <;> rfl

/-- **What an action does to a directory**, with the change it reports and the write it makes. -/
theorem change_cases (d : Directory) (a : Action) :
    ((d.exchange a).write? = none ∧ (d.events a).filter Event.isChange = [] ∧ d.after a = d) ∨
    (∃ u, (d.exchange a).write? = some (.stored u) ∧
      (d.events a).filter Event.isChange = [d.insertEvent u] ∧ d.after a = d.insert u) ∨
    (∃ id, (d.exchange a).write? = some (.removed id) ∧
      (d.events a).filter Event.isChange = [.removed id] ∧ d.contains id = true ∧
        d.after a = d.erase id) := by
  cases a with
  | put u => exact .inr (.inl ⟨u, rfl, filter_insertEvent d u, rfl⟩)
  | putRecord r => exact .inr (.inl ⟨.ofRecord r, rfl, filter_insertEvent d _, rfl⟩)
  | enrol e => exact .inr (.inl ⟨d.newcomer e, rfl, filter_enrolEvents d e, rfl⟩)
  | enrolRenamed e name => exact .inr (.inl ⟨d.newcomer e, rfl, filter_enrolEvents d e, rfl⟩)
  | erase id =>
    cases hfind : d.find? id with
    | none =>
      have hcontains : d.contains id = false := by rw [contains_eq_isSome_find?, hfind]; rfl
      refine .inl ⟨?_, ?_, erase_of_not_contains hcontains⟩
      · simp only [Exchange.write?, exchange, answer, hfind, Write.ofAnswer?]
      · simp [events, eraseEvents, hcontains]
    | some u =>
      have hcontains : d.contains id = true := by rw [contains_eq_isSome_find?, hfind]; rfl
      refine .inr (.inr ⟨id, ?_, ?_, hcontains, rfl⟩)
      · simp only [Exchange.write?, exchange, answer, hfind, Write.ofAnswer?]
      · simp [events, eraseEvents, hcontains, Event.isChange]
  | get id => exact .inl ⟨rfl, rfl, rfl⟩
  | getRecord id => exact .inl ⟨rfl, rfl, rfl⟩
  | contains id => exact .inl ⟨rfl, rfl, rfl⟩
  | size => exact .inl ⟨rfl, rfl, rfl⟩

theorem fits_insertEvent (d : Directory) (u : User) : (d.insertEvent u).Fits d := by
  rw [insertEvent]
  split
  · next h => exact h
  · next h => exact Bool.eq_false_iff.mpr h

/-- What an action reports can happen to the directory as it is. -/
theorem fits_of_mem_events {d : Directory} {a : Action} {e : Event}
    (h : e ∈ (d.events a).filter Event.isChange) : e.Fits d := by
  rcases d.change_cases a with ⟨_, hnone, _⟩ | ⟨u, _, hone, _⟩ | ⟨id, _, hone, hcontains, _⟩
  · rw [hnone] at h
    cases h
  · rw [hone, List.mem_singleton] at h
    rw [h]
    exact fits_insertEvent d u
  · rw [hone, List.mem_singleton] at h
    rw [h]
    exact hcontains

/-- Whether it was stored or overwritten, the email is then the new one. -/
theorem retell_insertEvent (d : Directory) (u : User)
    (emails : Std.ExtTreeMap UInt64 String compare) :
    (d.insertEvent u).retell emails = emails.insert u.id u.email := by
  rw [insertEvent]
  split <;> rfl

theorem size_pos_of_contains {d : Directory} {id : UInt64} (h : d.contains id = true) :
    0 < d.size := by
  rw [← card_idSet]
  exact Finset.card_pos.mpr ⟨id, mem_idSet.mpr h⟩

end Directory

/-! ## The changes told, the history and the directory -/

/-- The changes told so far lead to the emails in the directory, and add up with its size and with
the users stored. -/
structure Tells (told : List Event) (h : History) (d : Directory) : Prop where
  emails : ∀ id : UInt64, (replay told)[id]? = (d.find? id).map User.email
  balance : told.countP Event.isStored = d.size + told.countP Event.isRemoved
  writes : (History.stored h).length =
    d.size + told.countP Event.isRemoved + told.countP Event.isOverwrote

namespace Tells

variable {told : List Event} {h : History} {d : Directory}

theorem empty : Tells [] [] .empty := by
  refine ⟨?_, ?_, ?_⟩
  · intro id
    simp [replay]
  · simp
  · simp [History.stored]

theorem insert (ht : Tells told h d) (u : User) :
    Tells (told ++ [d.insertEvent u]) (h ++ [.stored u]) (d.insert u) := by
  have hbalance := ht.balance
  have hwrites := ht.writes
  refine ⟨?_, ?_, ?_⟩
  · intro id
    rw [replay_concat, Directory.retell_insertEvent, Std.ExtTreeMap.getElem?_insert, ht.emails,
      Directory.find?_insert]
    by_cases hid : id = u.id
    · simp [hid]
    · simp [hid, Ne.symm hid]
  · rw [List.countP_append, List.countP_append, Directory.size_insert, Directory.insertEvent]
    cases d.contains u.id <;> simp [Event.isStored, Event.isRemoved] <;> omega
  · rw [List.countP_append, List.countP_append, Directory.size_insert, Directory.insertEvent,
      History.length_stored_concat]
    cases d.contains u.id <;> simp [Event.isOverwrote, Event.isRemoved, Write.user?] <;> omega

theorem erase (ht : Tells told h d) {id : UInt64} (hid : d.contains id = true) :
    Tells (told ++ [.removed id]) (h ++ [.removed id]) (d.erase id) := by
  have hbalance := ht.balance
  have hwrites := ht.writes
  have hpos := Directory.size_pos_of_contains hid
  refine ⟨?_, ?_, ?_⟩
  · intro id'
    rw [replay_concat, Event.retell, Std.ExtTreeMap.getElem?_erase, ht.emails,
      Directory.find?_erase]
    by_cases heq : id' = id
    · simp [heq]
    · simp [heq, Ne.symm heq]
  · rw [List.countP_append, List.countP_append, Directory.size_erase, if_pos hid]
    simp [Event.isStored, Event.isRemoved]
    omega
  · rw [List.countP_append, List.countP_append, Directory.size_erase, if_pos hid,
      History.length_stored_concat]
    simp [Event.isOverwrote, Event.isRemoved, Write.user?]
    omega

/-- **One action keeps what is told in step.** -/
theorem after (ht : Tells told h d) (a : Action) :
    Tells (told ++ (d.events a).filter Event.isChange) (h ++ (d.exchange a).write?.toList)
      (d.after a) := by
  rcases d.change_cases a with ⟨hw, he, ha⟩ | ⟨u, hw, he, ha⟩ | ⟨id, hw, he, hid, ha⟩
  · rw [hw, he, ha, Option.toList_none, List.append_nil, List.append_nil]
    exact ht
  · rw [hw, he, ha]
    exact ht.insert u
  · rw [hw, he, ha]
    exact ht.erase hid

theorem afterAll (ht : Tells told h d) (as : List Action) :
    Tells (told ++ ((d.exchanges as).flatMap Exchange.events).filter Event.isChange)
      (h ++ History.ofExchanges (d.exchanges as)) (d.afterAll as) := by
  induction as generalizing told h d with
  | nil => simpa [History.ofExchanges] using ht
  | cons a as ih =>
    have hrest := ih (ht.after a)
    rw [List.append_assoc, List.append_assoc, ← List.filter_append] at hrest
    rw [Directory.exchanges_cons, List.flatMap_cons, History.ofExchanges_cons]
    exact hrest

end Tells

namespace Registry

/-! ## Runs -/

theorem filter_endEvents (id : UInt64) (v : Pause.Verdict) :
    (Lookup.endEvents id v).filter Event.isChange = [] := by
  cases v <;> rfl

theorem filter_launch (a : Attachment) (i : Nat) (s : Store) (id : UInt64) :
    (launch a i s id).events.filter Event.isChange = [] := by
  show (Lookup.callEvents id _).filter Event.isChange = []
  cases s.response (a.listens && a.registry.isStopped a.source) with
  | ends v => exact filter_endEvents id v
  | sleeps => rfl
  | blocks => rfl

theorem filter_elapse (r : Registry) (handle : Nat) :
    (r.elapse handle).2.filter Event.isChange = [] := by
  unfold elapse
  split
  · rfl
  · split
    · exact filter_endEvents _ _
    · rfl

theorem filter_requestStop (r : Registry) (source : Nat) :
    (r.requestStop source).2.filter Event.isChange = [] := by
  rw [requestStop, List.filter_flatMap, List.flatMap_eq_nil_iff]
  intro l _
  exact filter_endEvents l.id _

/-- What is reported during a move, less what other stores report of themselves. -/
def heardOf (r : Registry) (n : Nat) : Move → List Event
  | .command (.act t a) => if r.storeNumber? t = some n then r.events (.act t a) else []
  | m => r.eventsOf m

def heard (r : Registry) (n : Nat) : List Move → List Event
  | [] => []
  | m :: ms => r.heardOf n m ++ (r.after m).heard n ms

/-- Only an action reports changes. -/
theorem filter_events {r : Registry} {c : Command} (h : ∀ t a, c ≠ .act t a) :
    (r.events c).filter Event.isChange = [] := by
  cases hperf : r.perform c with
  | error f => rw [events_of_refused hperf, List.filter_nil]
  | ok e =>
    rw [events_of_perform hperf]
    cases performed_of_perform hperf with
    | opened _ => rfl
    | appointed _ _ => rfl
    | acted _ _ => exact absurd rfl (h _ _)
    | launched _ _ _ _ => exact filter_launch _ _ _ _
    | satOut _ _ _ _ => rw [List.filter_append, filter_launch, filter_elapse, List.nil_append]
    | stopped _ _ _ => exact filter_requestStop r _
    | released _ _ _ => exact filter_endEvents _ _
    | collected _ _ _ => rfl

/-- **No changes are heard of a store but those of the exchanges with it.** -/
theorem filter_heardOf (r : Registry) (n : Nat) (m : Move) :
    (r.heardOf n m).filter Event.isChange =
      ((r.exchange? n m).toList.flatMap Exchange.events).filter Event.isChange := by
  cases m with
  | start k id token =>
    show ((r.start? k id token).elim [] Effect.events).filter Event.isChange = []
    cases hstart : r.start? k id token with
    | none => rfl
    | some e =>
      obtain ⟨i, s, a, _, _, _, rfl⟩ := attach_of_start? hstart
      exact filter_launch a i s id
  | elapse handle => exact filter_elapse r handle
  | command c =>
    cases c with
    | act t a =>
      rw [heardOf, exchange?]
      split
      · cases hperf : r.perform (.act t a) with
        | error f => simp [events_of_refused hperf, reply_of_refused hperf]
        | ok e =>
          cases performed_of_perform hperf with
          | acted _ _ => simp [reply_of_perform hperf]
      · rfl
    | _ => exact filter_events (by simp)

theorem filter_heard (r : Registry) (n : Nat) (ms : List Move) :
    (r.heard n ms).filter Event.isChange =
      ((r.exchanges n ms).flatMap Exchange.events).filter Event.isChange := by
  induction ms generalizing r with
  | nil => rfl
  | cons m ms ih =>
    rw [heard, List.filter_append, filter_heardOf, ih, exchanges_cons, List.flatMap_append,
      List.filter_append]

/-- Where nothing is written elsewhere, that is all there is to hear. -/
theorem filter_eventsOf {r : Registry} {n : Nat} {m : Move}
    (hothers : ∀ k, k ≠ n → (r.exchange? k m).bind Exchange.write? = none) :
    (r.eventsOf m).filter Event.isChange = (r.heardOf n m).filter Event.isChange := by
  cases m with
  | start _ _ _ => rfl
  | elapse _ => rfl
  | command c =>
    cases c with
    | act t a =>
      rw [heardOf]
      split
      · rfl
      · next hn =>
        show (r.events (.act t a)).filter Event.isChange = []
        cases hperf : r.perform (.act t a) with
        | error f => rw [events_of_refused hperf, List.filter_nil]
        | ok e =>
          rw [events_of_perform hperf]
          cases performed_of_perform hperf with
          | @acted _ _ i s hi hs =>
            have hreach : r.Reaches t i := ⟨hi, (List.getElem?_eq_some_iff.mp hs).1⟩
            have hdir : r.directory i = s.directory := by rw [directory, hs]; rfl
            have hnone := hothers i fun h => hn (h ▸ hi)
            rw [exchange?_act, if_pos hreach, hdir, Option.bind_some] at hnone
            -- Nothing was written there, so no change was reported.
            rcases s.directory.change_cases a with ⟨_, he, _⟩ | ⟨u, hw, _⟩ | ⟨id, hw, _⟩
            · exact he
            · rw [hnone] at hw
              cases hw
            · rw [hnone] at hw
              cases hw
    | _ => rfl

theorem filter_allEvents {r : Registry} {n : Nat} {ms : List Move}
    (hothers : ∀ k, k ≠ n → r.history k ms = []) :
    (r.allEvents ms).filter Event.isChange = (r.heard n ms).filter Event.isChange := by
  induction ms generalizing r with
  | nil => rfl
  | cons m ms ih =>
    have hsplit : ∀ k, k ≠ n →
        (r.exchange? k m).bind Exchange.write? = none ∧ (r.after m).history k ms = [] := by
      intro k hk
      have hnil := hothers k hk
      rw [history_cons, List.append_eq_nil_iff, Option.toList_eq_nil_iff] at hnil
      exact hnil
    rw [allEvents_cons, List.filter_append, filter_eventsOf fun k hk => (hsplit k hk).1,
      ih fun k hk => (hsplit k hk).2, heard, List.filter_append]

/-- A run tells, by the changes that are heard of a store, what it leaves there. -/
theorem tells_afterAll {r : Registry} {n : Nat} (hempty : r.directory n = .empty)
    (ms : List Move) :
    Tells ((r.heard n ms).filter Event.isChange) (r.history n ms)
      ((r.afterAll ms).directory n) := by
  have hdir := directory_afterAll r n ms
  have hexch := exchanges_eq r n ms
  rw [hempty] at hdir hexch
  rw [filter_heard, hdir, history]
  generalize (r.exchanges n ms).map Exchange.action = as at hexch
  rw [hexch]
  exact Tells.empty.afterAll as

/-- **The debug messages of a store are enough to know who is in it.** The run starts with nobody in
the store, and the log lets debug messages through.

* At every point of the run the changes read back from the log lead to the ids in use and to the
  email under each.
* As many users were stored under a free id as there are now and were removed; with those
  overwritten, that makes all writes.
* A message does not say which store it is about, so those of other stores are left out. As long as
  nothing is written there, the log as a whole reads the same.
* A change is told only of an id to which it could happen: `stored` of a free id, `overwrote` and
  `removed` of an id in use. -/
theorem log_tells_store {r : Registry} {n : Nat} (hempty : r.directory n = .empty)
    {log : Log.Setup} {logger : Log.Logger} (hactive : log.active = some logger)
    (hdebug : logger.level ≤ .debug) (moves : List Move) :
    (∀ before after, moves = before ++ after →
      let d := (r.afterAll before).directory n
      let told := Log.changes (log.record (r.heard n before))
      (∀ id, id ∈ replay told ↔ d.contains id = true) ∧
      (∀ id u, d.find? id = some u → (replay told)[id]? = some u.email) ∧
      told.countP Event.isStored = d.size + told.countP Event.isRemoved ∧
      (r.history n before).stored.length =
        d.size + told.countP Event.isRemoved + told.countP Event.isOverwrote ∧
      ((∀ k, k ≠ n → r.history k before = []) →
        Log.changes (log.record (r.allEvents before)) = told)) ∧
    (∀ before m after, moves = before ++ m :: after →
      ∀ e ∈ Log.changes (log.record ((r.afterAll before).heardOf n m)),
        e.Fits ((r.afterAll before).directory n)) := by
  refine ⟨?_, ?_⟩
  · intro before after _ d told
    have htold : told = (r.heard n before).filter Event.isChange :=
      Log.changes_record hactive hdebug _
    have ht : Tells told (r.history n before) d := by
      rw [htold]
      exact tells_afterAll hempty before
    refine ⟨?_, ?_, ht.balance, ht.writes, ?_⟩
    · intro id
      rw [Directory.contains_eq_isSome_find?, ← Std.ExtTreeMap.isSome_getElem?_iff_mem, ht.emails,
        Option.isSome_map]
    · intro id u hu
      rw [ht.emails, hu, Option.map_some]
    · intro hothers
      rw [Log.changes_record hactive hdebug, htold]
      exact filter_allEvents hothers
  · intro before m after _ e he
    rw [Log.changes_record hactive hdebug, filter_heardOf] at he
    cases hx : (r.afterAll before).exchange? n m with
    | none =>
      rw [hx] at he
      cases he
    | some x =>
      rw [hx, eq_exchange_of_exchange? hx] at he
      simp only [Option.toList_some, List.flatMap_singleton] at he
      exact Directory.fits_of_mem_events he

/-- A run with emails that look like the messages they stand in. -/
def bracketRun : List Move :=
  [ .command (.openStore none .gated),
    .command (.appoint 0),
    .command (.act (.store 0) (.put ⟨2, "Bob", "removed user 2 (b)"⟩)),
    .start 0 2 .none,
    .command (.act (.registrar 0) (.enrol ⟨"Ann", "a) (n"⟩)),
    .command (.act (.store 0) (.put ⟨7, "Cid", ""⟩)),
    .command (.act (.store 0) (.erase 7)) ]

theorem log_tells_store_brackets :
    (∀ k, k ≠ 0 → empty.history k bracketRun = []) ∧
      (replay (Log.changes (Log.Setup.initial.record (empty.allEvents bracketRun))))[(2 : UInt64)]? =
        some "a) (n" := by
  have hothers : ∀ k, k ≠ 0 → empty.history k bracketRun = [] := by
    intro k hk
    cases k with
    | zero => exact absurd rfl hk
    | succ k => rfl
  refine ⟨hothers, ?_⟩
  have hall := @log_tells_store empty 0 rfl Log.Setup.initial _ rfl (by decide) bracketRun
  obtain ⟨_, hemails, _, _, hwhole⟩ := hall.1 bracketRun [] (by simp)
  rw [hwhole hothers]
  exact hemails 2 ⟨2, "Ann", "a) (n"⟩ (by decide)

end Registry

end Roster
