import Roster.Proofs.Registry.History
import Roster.Proofs.Registry.Retelling
import Roster.Proofs.Registry.Targets

/-!
# Users that travel as records

A user that arrives as a record is stored under the id of the record and goes out as the same
record, however it is read and whatever happens in between, as long as nothing is written to its id.

* An id to which a run does not write keeps what it has (`find?_afterAll_of_unwritten`). The writes
  are those of the history, so an erasure that finds nobody is none of them, and a newcomer is one
  under the id that it gets.
* Records and users are in step: neither way loses anything (`User.toRecord_inj`).
-/

namespace Roster

/-- Users with the same record are the same. -/
theorem User.toRecord_inj {u v : User} : u.toRecord = v.toRecord ↔ u = v := by
  constructor
  · intro h
    rw [← ofRecord_toRecord u, h, ofRecord_toRecord]
  · rintro rfl
    rfl

/-- An action leaves what an id has, unless it writes to the id. -/
theorem Directory.find?_after_of_unwritten {d : Directory} {a : Action} {id : UInt64}
    (h : ∀ w ∈ (d.exchange a).write?, w.id ≠ id) : (d.after a).find? id = d.find? id := by
  rcases d.change_cases a with ⟨_, _, hafter⟩ | ⟨u, hwrite, _, hafter⟩ |
    ⟨id₀, hwrite, _, _, hafter⟩
  · rw [hafter]
  · have hne : u.id ≠ id := h (.stored u) hwrite
    rw [hafter, find?_insert, if_neg (Ne.symm hne)]
  · have hne : id₀ ≠ id := h (.removed id₀) hwrite
    rw [hafter, find?_erase, if_neg (Ne.symm hne)]

namespace Registry

/-! ## Ids that are left alone -/

/-- A move leaves what an id has in a store, unless its exchange with the store writes to the id. -/
theorem find?_after_of_unwritten {r : Registry} {n : Nat} {m : Move} {id : UInt64}
    (h : ∀ w ∈ (r.exchange? n m).bind Exchange.write?, w.id ≠ id) :
    ((r.after m).directory n).find? id = (r.directory n).find? id := by
  rw [directory_after]
  cases hx : r.exchange? n m with
  | none => rfl
  | some x =>
    rw [hx, Option.bind_some, eq_exchange_of_exchange? hx] at h
    exact Directory.find?_after_of_unwritten h

/-- **A run leaves what an id has in a store, unless it writes to the id there.** -/
theorem find?_afterAll_of_unwritten {r : Registry} {n : Nat} {ms : List Move} {id : UInt64}
    (h : ∀ w ∈ r.history n ms, w.id ≠ id) :
    ((r.afterAll ms).directory n).find? id = (r.directory n).find? id := by
  induction ms generalizing r with
  | nil => rfl
  | cons m ms ih =>
    rw [history_cons] at h
    rw [afterAll_cons, ih fun w hw => h w (List.mem_append_right _ hw)]
    apply find?_after_of_unwritten
    intro w hw
    exact h w (List.mem_append_left _ (Option.mem_toList.mpr hw))

theorem Reaches.afterAll {r : Registry} {t : Target} {n : Nat} (h : r.Reaches t n)
    (ms : List Move) : (r.afterAll ms).Reaches t n := by
  induction ms generalizing r with
  | nil => exact h
  | cons m ms ih => exact ih (h.after m)

theorem find?_putRecord {r : Registry} {t : Target} {n : Nat} (h : r.Reaches t n)
    (sent : User.Record) :
    ((r.after (.command (.act t (.putRecord sent)))).directory n).find? sent.id =
      some (.ofRecord sent) := by
  rw [after_act h, directory_setDirectory h.2]
  exact (Directory.find?_insert _ _ _).trans (if_pos rfl)

/-- **A record comes back as it was sent.** Let a user be stored from a record of which any fields
are set, in any store, and let nothing be written to its id in the run that follows: nobody stored
there, no newcomer who gets the id, no erasure that finds somebody.

* Read at the end of the run, the user goes out as that record, with zero and the empty text in
  place of what was not set.
* So it does from every lookup of the id whose pause completed during the run, whenever that lookup
  was started.
* No user and no record changes by being turned into the other and back, so two users are equal
  exactly if their records are. -/
theorem record_comes_back {r : Registry} {t : Target} {n : Nat} (ht : r.Reaches t n)
    (id : Option UInt64) (name email : Option String) (moves : List Move)
    (hleft : ∀ w ∈ (r.after (.command (.act t (.putRecord (.ofFields id name email))))).history n
      moves, w.id ≠ id.getD 0) :
    let sent : User.Record := ⟨id.getD 0, name.getD "", email.getD ""⟩
    let start := r.after (.command (.act t (.putRecord (.ofFields id name email))))
    (start.afterAll moves).reply (.act (.store n) (.getRecord sent.id)) =
      .ok (.answered (.foundRecord (some sent))) ∧
    (∀ before m after handle l, moves = before ++ m :: after →
      Returns (start.afterAll before) m handle .completed →
      (start.afterAll moves).lookups[handle]? = some l → l.store = n → l.id = sent.id →
        ∃ u, l.outcome? = some (.found (some u)) ∧ u.toRecord = sent) ∧
    (∀ u : User, User.ofRecord u.toRecord = u) ∧
    (∀ record : User.Record, (User.ofRecord record).toRecord = record) ∧
    (∀ u v : User, (u == v) = true ↔ u.toRecord = v.toRecord) := by
  intro sent start
  have hstored : (start.directory n).find? sent.id = some (.ofRecord sent) :=
    find?_putRecord ht sent
  refine ⟨?_, ?_, User.ofRecord_toRecord, User.toRecord_ofRecord, ?_⟩
  · have hstore : start.Reaches (.store n) n := Reaches.after ⟨rfl, ht.2⟩ _
    rw [reply_act (hstore.afterAll moves), Directory.answer, find?_afterAll_of_unwritten hleft,
      hstored]
    rfl
  · intro before m after handle l hmoves hv hl hn hid
    -- The pause ended with the directory that the moves before it had left.
    have hbefore : ∀ w ∈ start.history n before, w.id ≠ sent.id := by
      intro w hw
      apply hleft
      rw [hmoves, history_append]
      exact List.mem_append_left _ hw
    refine ⟨.ofRecord sent, ?_, User.toRecord_ofRecord sent⟩
    rw [hmoves] at hl
    rw [hv.outcome_afterAll hl, hn, hid, Lookup.conclude, find?_afterAll_of_unwritten hbefore,
      hstored]
  · intro u v
    rw [beq_iff_eq, User.toRecord_inj]

/-- A store with a registrar, and a lookup of the id zero that is held. -/
def awaiting : Registry :=
  empty.afterAll
    [ .command (.openStore none .gated),
      .command (.appoint 0),
      .start 0 0 .none ]

/-- A newcomer who gets the id 2, an erasure that finds nobody, and the end of the lookup. -/
def passingRun : List Move :=
  [ .command (.act (.registrar 0) (.enrol ⟨"Bob", "bob@x.com"⟩)),
    .command (.act (.store 0) (.erase 7)),
    .command (.release 0 (.saying true)) ]

/-- Of the record only the name is set. -/
theorem record_comes_back_unset :
    let sent : User.Record := .ofFields none (some "Ann") none
    let start := awaiting.after (.command (.act (.store 0) (.putRecord sent)))
    awaiting.Reaches (.store 0) 0 ∧ (∀ w ∈ start.history 0 passingRun, w.id ≠ 0) ∧
    (start.afterAll passingRun).reply (.act (.store 0) (.getRecord 0)) =
      .ok (.answered (.foundRecord (some ⟨0, "Ann", ""⟩))) ∧
    ∃ l u, (start.afterAll passingRun).lookups[0]? = some l ∧
      l.outcome? = some (.found (some u)) ∧ u.toRecord = ⟨0, "Ann", ""⟩ := by
  intro sent start
  have hreach : awaiting.Reaches (.store 0) 0 := by decide
  have hleft : ∀ w ∈ start.history 0 passingRun, w.id ≠ 0 := by decide
  obtain ⟨hread, hlookup, _⟩ := record_comes_back hreach none (some "Ann") none passingRun hleft
  have hreturns : Returns (start.afterAll (passingRun.take 2))
      (.command (.release 0 (.saying true))) 0 .completed :=
    .released rfl rfl rfl
  obtain ⟨u, hu, hrecord⟩ :=
    hlookup (passingRun.take 2) _ [] 0 _ rfl hreturns rfl rfl rfl
  exact ⟨hreach, hleft, hread, _, u, rfl, hu, hrecord⟩

end Registry

end Roster
