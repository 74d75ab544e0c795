import Roster.Proofs.Directory.Dense
import Roster.Proofs.Enrolment.Series
import Roster.Proofs.Registry.Retelling

/-!
# Where collisions come from

A newcomer who meets an id in use owes it to a gap below that id. So gaps are all there is to avoid:
as long as a run stores directly only under ids in use or right above them, and removes only the
greatest id, the directory stays dense and every newcomer gets a free id.

* `Action.IsTidy` is what is asked of a single action, `KeepsTidy` of a run.
* A tidy action keeps a directory dense (`IsDense.after`), and a tidy run does (`dense_afterAll`).
-/

namespace Roster

open Log (Event)

/-- Whether an id is in use or right above the size. -/
def Directory.Adjoins (d : Directory) (id : UInt64) : Prop :=
  d.contains id = true ∨ id.toNat = d.size + 1

instance (d : Directory) (id : UInt64) : Decidable (d.Adjoins id) :=
  inferInstanceAs (Decidable (_ ∨ _))

/-- Whether an action opens no gap between the ids. Newcomers may be entered at will. -/
def Action.IsTidy (d : Directory) : Action → Prop
  | .put u => d.Adjoins u.id
  | .putRecord r => d.Adjoins r.id
  | .erase id => d.contains id = true → ∀ id' ∈ d.ids, id' ≤ id
  | .get _ | .getRecord _ | .contains _ | .size | .enrol _ | .enrolRenamed _ _ => True

instance (d : Directory) : (a : Action) → Decidable (a.IsTidy d)
  | .put _ | .putRecord _ => inferInstanceAs (Decidable (d.Adjoins _))
  | .erase id =>
    have : Decidable (∀ id' ∈ d.ids, id' ≤ id) := List.decidableBAll _ _
    inferInstanceAs (Decidable (_ → _))
  | .get _ | .getRecord _ | .contains _ | .size | .enrol _ | .enrolRenamed _ _ =>
    inferInstanceAs (Decidable True)

namespace Directory

variable {d : Directory}

/-! ## One action -/

/-- An action adds to the size no more than the users it stores. -/
theorem size_after_le (d : Directory) (a : Action) :
    (d.after a).size ≤ d.size + (History.ofExchanges [d.exchange a]).stored.length := by
  rw [History.ofExchanges_cons]
  rcases d.change_cases a with ⟨hw, _, ha⟩ | ⟨u, hw, _, ha⟩ | ⟨id, hw, _, hid, ha⟩
  · rw [ha]
    exact Nat.le_add_right _ _
  · rw [hw, ha, size_insert]
    show _ ≤ d.size + 1
    split <;> omega
  · rw [ha, size_erase, if_pos hid]
    omega

theorem IsDense.insert_of_adjoins (h : d.IsDense) {u : User} (hu : d.Adjoins u.id) :
    (d.insert u).IsDense := by
  rcases hu with hin | hnext
  · obtain ⟨hlow, hhigh⟩ := (h u.id).mp hin
    exact h.insert hlow (Nat.le_succ_of_le hhigh)
  · exact h.insert (by omega) (Nat.le_of_eq hnext)

/-- **A tidy action keeps a directory dense**, as long as the ids fit into a word. -/
theorem IsDense.after (h : d.IsDense) {a : Action} (htidy : a.IsTidy d)
    (hfit : d.size + (History.ofExchanges [d.exchange a]).stored.length < 2 ^ 64) :
    (d.after a).IsDense := by
  have henrol : ∀ e, d.size + 1 < 2 ^ 64 → (d.enrol e).IsDense := fun e hnext =>
    h.insert_of_adjoins (.inr (toNat_nextId hnext))
  cases a with
  | put u => exact h.insert_of_adjoins htidy
  | putRecord r => exact h.insert_of_adjoins (u := .ofRecord r) htidy
  | erase id =>
    by_cases hid : d.contains id = true
    · exact h.erase (by omega) hid fun id' hid' => htidy hid id' (mem_ids.mpr hid')
    · show (d.erase id).IsDense
      rw [erase_of_not_contains (Bool.eq_false_iff.mpr hid)]
      exact h
  | enrol e => exact henrol e hfit
  | enrolRenamed e name => exact henrol e hfit
  | get id => exact h
  | getRecord id => exact h
  | contains id => exact h
  | size => exact h

/-! ## One newcomer -/

/-- What a call reports: a collision shows twice, in the warning and in the storing. -/
theorem events_call (d : Directory) (e : Enrolment) :
    (d.call e).events =
      if d.contains d.nextId then
        [.idTaken d.nextId, .overwrote d.nextId e.email, .enrolled (d.newcomer e)]
      else [.stored d.nextId e.email, .enrolled (d.newcomer e)] := by
  show d.takenEvents d.nextId ++ [d.insertEvent (d.newcomer e), .enrolled (d.newcomer e)] = _
  have hid : (d.newcomer e).id = d.nextId := rfl
  rw [takenEvents, insertEvent, hid]
  split <;> rfl

/-- A call tells of a collision exactly if its id is in use. -/
theorem collides_iff (d : Directory) (e : Enrolment) :
    (.idTaken (d.call e).user.id ∈ (d.call e).events ∨
      .overwrote (d.call e).user.id (d.call e).user.email ∈ (d.call e).events) ↔
        (d.find? (d.call e).user.id).isSome = true := by
  show (Event.idTaken d.nextId ∈ _ ∨ Event.overwrote d.nextId e.email ∈ _) ↔
    (d.find? d.nextId).isSome = true
  rw [events_call, ← contains_eq_isSome_find?]
  split
  · next htaken => simp [htaken]
  · next hfree => simp [hfree]

/-- A newcomer with a free id replaces nobody. -/
theorem find?_enrol_of_free (hfree : d.find? d.nextId = none) (e : Enrolment) {id : UInt64}
    {u : User} (hu : d.find? id = some u) : (d.enrol e).find? id = some u := by
  have hne : id ≠ (d.newcomer e).id := by
    rintro rfl
    have hnone : d.find? (d.newcomer e).id = none := hfree
    rw [hnone] at hu
    cases hu
  rw [enrol, find?_insert, if_neg hne, hu]

end Directory

namespace Registry

/-! ## Runs -/

def KeepsTidy (r : Registry) (n : Nat) : List Move → Prop
  | [] => True
  | m :: ms =>
    (∀ x ∈ r.exchange? n m, x.action.IsTidy (r.directory n)) ∧ (r.after m).KeepsTidy n ms

instance decidableKeepsTidy (r : Registry) (n : Nat) :
    (ms : List Move) → Decidable (r.KeepsTidy n ms)
  | [] => inferInstanceAs (Decidable True)
  | m :: ms =>
    have := decidableKeepsTidy (r.after m) n ms
    inferInstanceAs (Decidable (_ ∧ _))

theorem KeepsTidy.of_append {r : Registry} {n : Nat} {xs ys : List Move}
    (h : r.KeepsTidy n (xs ++ ys)) : r.KeepsTidy n xs := by
  induction xs generalizing r with
  | nil => trivial
  | cons m xs ih => exact ⟨h.1, ih h.2⟩

theorem stored_history_append (r : Registry) (n : Nat) (xs ys : List Move) :
    (r.history n (xs ++ ys)).stored =
      (r.history n xs).stored ++ ((r.afterAll xs).history n ys).stored := by
  rw [history_append]
  exact List.filterMap_append

theorem stored_history_cons (r : Registry) (n : Nat) (m : Move) (ms : List Move) :
    (r.history n (m :: ms)).stored =
      (r.history n [m]).stored ++ ((r.after m).history n ms).stored :=
  stored_history_append r n [m] ms

theorem history_singleton (r : Registry) (n : Nat) (m : Move) :
    r.history n [m] = .ofExchanges (r.exchange? n m).toList := by
  rw [history, exchanges_cons, exchanges_nil, List.append_nil]

/-- What a move does to a store, with the users that it stores there. -/
theorem store_cases (r : Registry) (n : Nat) (m : Move) :
    ((r.after m).directory n = r.directory n ∧ (r.history n [m]).stored = []) ∨
    ∃ x, r.exchange? n m = some x ∧ (r.after m).directory n = (r.directory n).after x.action ∧
      (r.history n [m]).stored =
        (History.ofExchanges [(r.directory n).exchange x.action]).stored := by
  have hdir := directory_after r m n
  have hhistory := history_singleton r n m
  cases hx : r.exchange? n m with
  | none =>
    rw [hx] at hdir hhistory
    exact .inl ⟨hdir, by rw [hhistory]; rfl⟩
  | some x =>
    rw [hx] at hdir hhistory
    refine .inr ⟨x, rfl, hdir, ?_⟩
    rw [hhistory, ← eq_exchange_of_exchange? hx]
    rfl

theorem size_after_le (r : Registry) (n : Nat) (m : Move) :
    ((r.after m).directory n).size ≤
      (r.directory n).size + (r.history n [m]).stored.length := by
  rcases store_cases r n m with ⟨hdir, _⟩ | ⟨x, _, hdir, hstored⟩
  · rw [hdir]
    exact Nat.le_add_right _ _
  · rw [hdir, hstored]
    exact Directory.size_after_le _ _

/-- A run adds to the size of a store no more than the users it stores there. -/
theorem size_afterAll_le (r : Registry) (n : Nat) (ms : List Move) :
    ((r.afterAll ms).directory n).size ≤
      (r.directory n).size + (r.history n ms).stored.length := by
  induction ms generalizing r with
  | nil => exact Nat.le_add_right _ _
  | cons m ms ih =>
    have hone := size_after_le r n m
    have hrest := ih (r.after m)
    rw [stored_history_cons, List.length_append, afterAll_cons]
    omega

/-- **A tidy run keeps a store dense.** -/
theorem dense_afterAll {r : Registry} {n : Nat} {ms : List Move}
    (hdense : (r.directory n).IsDense) (htidy : r.KeepsTidy n ms)
    (hfit : (r.directory n).size + (r.history n ms).stored.length < 2 ^ 64) :
    ((r.afterAll ms).directory n).IsDense := by
  induction ms generalizing r with
  | nil => exact hdense
  | cons m ms ih =>
    have hone := size_after_le r n m
    rw [stored_history_cons, List.length_append] at hfit
    refine ih ?_ htidy.2 (by omega)
    rcases store_cases r n m with ⟨hdir, _⟩ | ⟨x, hx, hdir, hstored⟩
    · rw [hdir]
      exact hdense
    · rw [hdir]
      exact hdense.after (htidy.1 x hx) (by rw [← hstored]; omega)

/-! ## Calls in a run -/

/-- The call by which a move enters a newcomer in a store, as the exchange tells of it. -/
def call? (r : Registry) (n : Nat) (m : Move) : Option Call :=
  (r.exchange? n m).bind Exchange.call?

theorem call?_act {r : Registry} {n : Nat} {t : Target} {a : Action} {e : Enrolment}
    (ht : r.Reaches t n) (he : a.enrolment? = some e) :
    r.call? n (.command (.act t a)) = some ((r.directory n).call e) := by
  rw [call?, exchange?_act, if_pos ht, Option.bind_some]
  exact (Directory.after_of_enrolment? he _).2

theorem directory_after_enrolment {r : Registry} {n : Nat} {t : Target} {a : Action}
    {e : Enrolment} (ht : r.Reaches t n) (he : a.enrolment? = some e) :
    (r.after (.command (.act t a))).directory n = (r.directory n).enrol e := by
  rw [directory_after, exchange?_act, if_pos ht]
  exact (Directory.after_of_enrolment? he _).1

/-- The users stored in a run leave room for the id of each newcomer. -/
theorem size_add_one_le {r : Registry} {n : Nat} {before after : List Move} {t : Target}
    {a : Action} {e : Enrolment} (ht : (r.afterAll before).Reaches t n)
    (he : a.enrolment? = some e) :
    ((r.afterAll before).directory n).size + 1 ≤ (r.directory n).size +
      (r.history n (before ++ .command (.act t a) :: after)).stored.length := by
  have hsize := size_afterAll_le r n before
  have hone := stored_pos_of_enrolment he ht after
  rw [stored_history_append, List.length_append]
  omega

/-- **Collisions come from gaps.** In a run that starts with nobody in a store, let `d` be the store
as it is when a newcomer is entered.

* The newcomer gets the id `d.size + 1`, as long as that fits into a 64-bit word. If somebody has
  that id already, which is when the call warns or overwrites, one of the ids from one up to
  `d.size` is free.
* Let each direct storing be under an id in use or right above the size, and each removal that of
  the greatest id, and let fewer than 2⁶⁴ users be stored. Then the ids in use are always exactly
  those from one up to the size; each newcomer gets the id `d.size + 1`, which is free, is stored
  without a warning, and replaces nobody. -/
theorem collisions_come_from_gaps {r : Registry} {n : Nat} (hempty : r.directory n = .empty)
    (moves : List Move) :
    (∀ before t a e after, moves = before ++ .command (.act t a) :: after →
      (r.afterAll before).Reaches t n → a.enrolment? = some e →
      let d := (r.afterAll before).directory n
      ∃ c, (r.afterAll before).call? n (.command (.act t a)) = some c ∧ c.request = e ∧
        ((.idTaken c.user.id ∈ c.events ∨ .overwrote c.user.id c.user.email ∈ c.events) ↔
          (d.find? c.user.id).isSome = true) ∧
        (d.size + 1 < 2 ^ 64 →
          c.user.id.toNat = d.size + 1 ∧
          ((d.find? c.user.id).isSome = true →
            ∃ id : UInt64, 1 ≤ id.toNat ∧ id.toNat ≤ d.size ∧ d.find? id = none))) ∧
    (r.KeepsTidy n moves → (r.history n moves).stored.length < 2 ^ 64 →
      (∀ before after, moves = before ++ after →
        let d := (r.afterAll before).directory n
        ∀ id, d.contains id = true ↔ 1 ≤ id.toNat ∧ id.toNat ≤ d.size) ∧
      (∀ before t a e after, moves = before ++ .command (.act t a) :: after →
        (r.afterAll before).Reaches t n → a.enrolment? = some e →
        let d := (r.afterAll before).directory n
        ∃ c, (r.afterAll before).call? n (.command (.act t a)) = some c ∧ c.request = e ∧
          c.user.id.toNat = d.size + 1 ∧ d.find? c.user.id = none ∧
          c.events = [.stored c.user.id c.user.email, .enrolled c.user] ∧
          ∀ id u, d.find? id = some u →
            ((r.afterAll (before ++ [.command (.act t a)])).directory n).find? id = some u)) := by
  refine ⟨?_, ?_⟩
  · intro before t a e after _ ht he d
    refine ⟨d.call e, call?_act ht he, rfl, d.collides_iff e, ?_⟩
    intro hfit
    refine ⟨Directory.toNat_nextId hfit, ?_⟩
    intro htaken
    rw [← Directory.contains_eq_isSome_find?] at htaken
    obtain ⟨id, hlow, hhigh, hfree⟩ := Directory.exists_free_of_taken hfit htaken
    exact ⟨id, hlow, hhigh, Directory.contains_eq_false_iff.mp hfree⟩
  · intro htidy hfew
    have hdense : ∀ before after, moves = before ++ after →
        ((r.afterAll before).directory n).IsDense := by
      intro before after hmoves
      rw [hmoves] at htidy hfew
      rw [stored_history_append, List.length_append] at hfew
      have hstart : (r.directory n).IsDense := hempty ▸ Directory.isDense_empty
      have hsize : (r.directory n).size = 0 := by rw [hempty, Directory.size_empty]
      exact dense_afterAll hstart htidy.of_append (by omega)
    refine ⟨hdense, ?_⟩
    intro before t a e after hmoves ht he d
    have hroom := @size_add_one_le r n before after t a e ht he
    rw [hempty, Directory.size_empty, Nat.zero_add, ← hmoves] at hroom
    have hfit : d.size + 1 < 2 ^ 64 := Nat.lt_of_le_of_lt hroom hfew
    have hfree : d.contains d.nextId = false :=
      (hdense before _ hmoves).not_contains_nextId hfit
    have hnone : d.find? d.nextId = none := Directory.contains_eq_false_iff.mp hfree
    refine ⟨d.call e, call?_act ht he, rfl, Directory.toNat_nextId hfit, hnone, ?_, ?_⟩
    · rw [Directory.events_call]
      exact if_neg (Bool.eq_false_iff.mp hfree)
    · intro id u hu
      rw [afterAll_append, afterAll_cons, afterAll_nil, directory_after_enrolment ht he]
      exact Directory.find?_enrol_of_free hnone e hu

/-- A tidy run that overwrites a user directly and removes the greatest id. -/
def tidyRun : List Move :=
  [ .command (.openStore none .gated),
    .command (.appoint 0),
    .command (.act (.store 0) (.put ⟨1, "Ann", "ann@x.com"⟩)),
    .command (.act (.registrar 0) (.enrol ⟨"Bob", "bob@x.com"⟩)),
    .command (.act (.store 0) (.putRecord ⟨1, "Cid", "cid@x.com"⟩)),
    .command (.act (.store 0) (.erase 2)),
    .command (.act (.registrar 0) (.enrol ⟨"Dan", "dan@x.com"⟩)) ]

theorem collisions_come_from_gaps_tidy :
    empty.directory 0 = .empty ∧ empty.KeepsTidy 0 tidyRun ∧
      (empty.history 0 tidyRun).stored.length < 2 ^ 64 ∧
      ∃ c, (empty.afterAll (tidyRun.take 6)).call? 0
          (.command (.act (.registrar 0) (.enrol ⟨"Dan", "dan@x.com"⟩))) = some c ∧
        c.user.id.toNat = 2 ∧ c.events = [.stored c.user.id c.user.email, .enrolled c.user] := by
  have hempty : empty.directory 0 = .empty := rfl
  have htidy : empty.KeepsTidy 0 tidyRun := by decide
  have hfew : (empty.history 0 tidyRun).stored.length < 2 ^ 64 := by decide
  refine ⟨hempty, htidy, hfew, ?_⟩
  obtain ⟨_, hcalls⟩ := (collisions_come_from_gaps hempty tidyRun).2 htidy hfew
  obtain ⟨c, hc, _, hid, _, hevents, _⟩ :=
    hcalls (tidyRun.take 6) (.registrar 0) _ _ [] rfl (by decide) rfl
  have hsize : ((empty.afterAll (tidyRun.take 6)).directory 0).size = 1 := by decide
  rw [hsize] at hid
  exact ⟨c, hc, hid, hevents⟩

end Registry

end Roster
