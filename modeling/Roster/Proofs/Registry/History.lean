import Roster.Proofs.Directory.History
import Roster.Proofs.Lookup.Settlement

/-!
# What a store answers

The history of a store is the list of writes that its answers tell of. In every run it decides what
the store answers next, to whomever it answers: directly, through any of its registrars, or to a
lookup whose pause has just ended (`answers_follow_history`).
-/

namespace Roster.Registry

/-- The writes to a store that the answers of a run tell of, oldest first. -/
def history (r : Registry) (n : Nat) (ms : List Move) : History := .ofExchanges (r.exchanges n ms)

theorem history_append (r : Registry) (n : Nat) (xs ys : List Move) :
    r.history n (xs ++ ys) = r.history n xs ++ (r.afterAll xs).history n ys := by
  rw [history, exchanges_append, History.ofExchanges, List.filterMap_append]
  rfl

theorem history_cons (r : Registry) (n : Nat) (m : Move) (ms : List Move) :
    r.history n (m :: ms) =
      ((r.exchange? n m).bind Exchange.write?).toList ++ (r.after m).history n ms := by
  rw [history, exchanges_cons, History.ofExchanges, List.filterMap_append]
  cases hx : r.exchange? n m with
  | none => rfl
  | some x => cases hw : x.write? <;> simp [hw, history, History.ofExchanges]

/-- **The history of a run describes the store that the run leaves.** -/
theorem describes_afterAll {r : Registry} {n : Nat} (hempty : r.directory n = .empty)
    (ms : List Move) : (r.history n ms).Describes ((r.afterAll ms).directory n) := by
  have hdir := directory_afterAll r n ms
  have hexch := exchanges_eq r n ms
  rw [hempty] at hdir hexch
  rw [hdir, history]
  generalize (r.exchanges n ms).map Exchange.action = as at hexch
  rw [hexch]
  exact History.describes_empty.afterAll as

/-- A newcomer is among the users stored. -/
theorem stored_pos_of_enrolment {r : Registry} {n : Nat} {t : Target} {a : Action} {e : Enrolment}
    (he : a.enrolment? = some e) (ht : r.Reaches t n) (ms : List Move) :
    0 < (r.history n (.command (.act t a) :: ms)).stored.length := by
  rw [history, exchanges_cons, exchange?_act, if_pos ht]
  cases a with
  | enrol _ => exact Nat.succ_pos _
  | enrolRenamed _ _ => exact Nat.succ_pos _
  | _ => cases he

/-- **Every answer is the one that the history of writes dictates.** In a run that starts with
nobody in a store, with fewer than 2⁶⁴ users stored in it:

* whatever is asked of the store, directly or through a registrar, is answered as the writes so far
  dictate;
* so is a lookup in the store whose pause has completed, by the writes up to that moment;
* every user stands under its own id;
* no count and no id of a newcomer leaves the range of a 64-bit word. -/
theorem answers_follow_history {r : Registry} {n : Nat} (hempty : r.directory n = .empty)
    (moves : List Move) (hfew : (r.history n moves).stored.length < 2 ^ 64) :
    (∀ before t a after, moves = before ++ .command (.act t a) :: after →
      (r.afterAll before).Reaches t n →
        (r.afterAll before).reply (.act t a) =
          .ok (.answered ((r.history n before).answer a))) ∧
    (∀ before m after handle l, moves = before ++ m :: after →
      Returns (r.afterAll before) m handle .completed →
      (r.afterAll moves).lookups[handle]? = some l → l.store = n →
        l.outcome? = some (.found ((r.history n before).latest? l.id))) ∧
    (∀ id u, ((r.afterAll moves).directory n).find? id = some u → u.id = id) ∧
    ((r.afterAll moves).directory n).size < 2 ^ 64 ∧
    (∀ before t a e after, moves = before ++ .command (.act t a) :: after →
      (r.afterAll before).Reaches t n → a.enrolment? = some e →
        ((r.history n before).newcomer e).id.toNat = (r.history n before).live.card + 1) := by
  have hdesc := describes_afterAll hempty moves
  refine ⟨?_, ?_, ?_, ?_, ?_⟩
  · intro before t a after _ ht
    rw [reply_act ht, (describes_afterAll hempty before).answer_eq]
  · intro before m after handle l hmoves hv hl hstore
    obtain ⟨l₁, hl₁, ho⟩ := hv.outcome
    rw [hmoves, afterAll_append, afterAll_cons] at hl
    obtain ⟨l', hl', hcont⟩ := continues_afterAll _ after handle l₁ hl₁
    cases hl.symm.trans hl'
    rw [hcont.outcome _ ho, ← hcont.store, ← hcont.id, hstore, Lookup.conclude,
      describes_afterAll hempty before]
  · intro id u hu
    rw [hdesc id] at hu
    exact History.id_of_latest? hu
  · rw [hdesc.size_eq]
    exact Nat.lt_of_le_of_lt (History.card_live_le _) hfew
  · intro before t a e after hmoves ht he
    have hbefore := describes_afterAll hempty before
    have hcard := History.card_live_le (r.history n before)
    have hmore := stored_pos_of_enrolment he ht after
    rw [hmoves, history_append, History.stored, List.filterMap_append, List.length_append] at hfew
    have hsize : ((r.afterAll before).directory n).size + 1 < 2 ^ 64 := by
      rw [hbefore.size_eq]
      exact Nat.lt_of_le_of_lt (Nat.add_le_add hcard hmore) hfew
    rw [← hbefore.newcomer_eq, ← hbefore.size_eq]
    exact Directory.toNat_nextId hsize

/-- A run in which a newcomer gets an id that is in use, and an erasure finds nobody. -/
def overwritingRun : List Move :=
  [ .command (.openStore none .gated),
    .command (.appoint 0),
    .command (.act (.store 0) (.put ⟨2, "Bob", "bob@x.com"⟩)),
    .start 0 2 .none,
    .command (.act (.registrar 0) (.enrol ⟨"Ann", "ann@x.com"⟩)),
    .command (.act (.store 0) (.erase 1)),
    .command (.act (.store 0) (.get 2)) ]

theorem answers_follow_history_overwriting :
    empty.directory 0 = .empty ∧ (empty.history 0 overwritingRun).stored.length < 2 ^ 64 ∧
      (empty.afterAll (overwritingRun.take 6)).reply (.act (.store 0) (.get 2)) =
        .ok (.answered (.found (some ⟨2, "Ann", "ann@x.com"⟩))) := by
  have hempty : empty.directory 0 = .empty := rfl
  have hfew : (empty.history 0 overwritingRun).stored.length < 2 ^ 64 := by decide
  refine ⟨hempty, hfew, ?_⟩
  have hall := answers_follow_history hempty overwritingRun hfew
  rw [hall.1 (overwritingRun.take 6) (.store 0) (.get 2) [] rfl (by decide)]
  decide

end Roster.Registry
