import Roster.Proofs.Directory.Exchange
import Roster.Proofs.Registry.Errands

/-!
# Runs of the registry

A run is a list of `Move`s. Besides the commands there are two moves that no command makes on its
own: a lookup may be started and left to its pause, however short the delay, and the delay of a
lookup may pass at any moment. So a run can put any number of moves between the start of a lookup
and its end.

* A lookup is its start and, if the delay is short, the passing of the delay (`after_lookup`).
* `exchanges` are the exchanges that a run has with one store. The directory of the store goes
  through exactly the actions among them (`directory_afterAll`), and each is answered by the
  directory as it then is (`exchanges_eq`), whatever else the run does in between.
-/

namespace Roster.Registry

open Log (Event)

/-! ## Moves -/

inductive Move where
  | command (c : Command)
  /-- Starts a lookup and leaves it to its pause, whose delay is not sat out. -/
  | start (store : Int) (id : UInt64) (token : Lookup.Token)
  /-- The delay of a lookup passes. -/
  | elapse (handle : Nat)
deriving DecidableEq

/-- Starts a lookup in a store, if there is such a store and such a token. -/
def start? (r : Registry) (n : Int) (id : UInt64) (token : Lookup.Token) : Option Effect :=
  ((start n id token).effect r).toOption

def after (r : Registry) : Move → Registry
  | .command c => r.next c
  | .start n id token => (r.start? n id token).elim r Effect.registry
  | .elapse handle => (r.elapse handle).1

def eventsOf (r : Registry) : Move → List Event
  | .command c => r.events c
  | .start n id token => (r.start? n id token).elim [] Effect.events
  | .elapse handle => (r.elapse handle).2

def replyTo? (r : Registry) : Move → Option Reply
  | .command c => (r.reply c).toOption
  | .start n id token => (r.start? n id token).map Effect.reply
  | .elapse _ => none

def afterAll (r : Registry) : List Move → Registry
  | [] => r
  | m :: ms => (r.after m).afterAll ms

def allEvents (r : Registry) : List Move → List Event
  | [] => []
  | m :: ms => r.eventsOf m ++ (r.after m).allEvents ms

@[simp] theorem afterAll_nil (r : Registry) : r.afterAll [] = r := rfl

@[simp] theorem afterAll_cons (r : Registry) (m : Move) (ms : List Move) :
    r.afterAll (m :: ms) = (r.after m).afterAll ms := rfl

@[simp] theorem allEvents_nil (r : Registry) : r.allEvents [] = [] := rfl

@[simp] theorem allEvents_cons (r : Registry) (m : Move) (ms : List Move) :
    r.allEvents (m :: ms) = r.eventsOf m ++ (r.after m).allEvents ms := rfl

theorem afterAll_append (r : Registry) (xs ys : List Move) :
    r.afterAll (xs ++ ys) = (r.afterAll xs).afterAll ys := by
  induction xs generalizing r with
  | nil => rfl
  | cons x xs ih => exact ih (r.after x)

theorem start?_of_attach {r : Registry} {n : Int} {token : Lookup.Token} {i : Nat} {s : Store}
    {a : Attachment} (hn : n.toNat? = some i) (hs : r.stores[i]? = some s)
    (ha : r.attach token = .ok a) (id : UInt64) :
    r.start? n id token = some (launch a i s id) := by
  rw [start?, Errand.effect_eq_ok_iff.mpr (on_start_of_attach hn hs ha id)]
  rfl

theorem attach_of_start? {r : Registry} {n : Int} {id : UInt64} {token : Lookup.Token}
    {e : Effect} (h : r.start? n id token = some e) :
    ∃ i s a, n.toNat? = some i ∧ r.stores[i]? = some s ∧ r.attach token = .ok a
      ∧ e = launch a i s id := by
  cases heffect : (start n id token).effect r with
  | error f =>
    rw [start?, heffect] at h
    cases h
  | ok e' =>
    have hreply : ((start n id token).on ⟨r, []⟩).1 = .ok e'.reply := by
      rw [Errand.effect_eq_ok_iff.mp heffect]
    obtain ⟨i, s, a, hn, hs, ha⟩ := attach_of_on_start hreply
    rw [start?_of_attach hn hs ha] at h
    exact ⟨i, s, a, hn, hs, ha, (Option.some.inj h).symm⟩

/-! ### Lookups as moves -/

/-- The moves that a lookup is made of: the start and, if the delay is short, its passing. -/
def lookupMoves (r : Registry) (n : Int) (id : UInt64) (token : Lookup.Token) : List Move :=
  .start n id token :: if r.sitsOut n then [.elapse r.lookups.length] else []

theorem elapse_of_none {r : Registry} {handle : Nat} (h : r.lookups[handle]? = none) :
    r.elapse handle = (r, []) := by
  rw [elapse, h]

theorem start?_of_refused {r : Registry} {n : Int} {id : UInt64} {token : Lookup.Token} {f : Fault}
    (h : r.perform (.lookup n id token) = .error f) : r.start? n id token = none := by
  cases hstart : r.start? n id token with
  | none => rfl
  | some e =>
    obtain ⟨i, s, a, hn, hs, ha, rfl⟩ := attach_of_start? hstart
    rw [perform_lookup hn hs ha] at h
    cases h

/-- **A lookup is its moves**, one after the other. -/
theorem after_lookup (r : Registry) (n : Int) (id : UInt64) (token : Lookup.Token) :
    r.after (.command (.lookup n id token)) = r.afterAll (r.lookupMoves n id token) ∧
      r.eventsOf (.command (.lookup n id token)) = r.allEvents (r.lookupMoves n id token) := by
  show r.next _ = _ ∧ r.events _ = _
  cases hperf : r.perform (.lookup n id token) with
  | error f =>
    -- Nothing is started, so there is no delay that could pass.
    have hnone : r.lookups[r.lookups.length]? = none := by simp
    rw [next_of_refused hperf, events_of_refused hperf, lookupMoves]
    split <;> simp [after, eventsOf, start?_of_refused hperf, elapse_of_none hnone]
  | ok e =>
    rw [next_of_perform hperf, events_of_perform hperf]
    cases performed_of_perform hperf with
    | launched hn hs ha hlong =>
      have hstart := start?_of_attach hn hs ha id
      have hsits : r.sitsOut n = false := by
        simpa [sitsOut_eq hn hs] using hlong
      simp [lookupMoves, hsits, after, eventsOf, hstart]
    | satOut hn hs ha hshort =>
      have hstart := start?_of_attach hn hs ha id
      have hsits : r.sitsOut n = true := by
        simpa [sitsOut_eq hn hs] using hshort
      simp [lookupMoves, hsits, after, eventsOf, hstart]

theorem after_lookup_eq (r : Registry) (n : Int) (id : UInt64) (token : Lookup.Token) :
    r.after (.command (.lookup n id token)) =
      if r.sitsOut n then ((r.after (.start n id token)).elapse r.lookups.length).1
      else r.after (.start n id token) := by
  rw [(after_lookup r n id token).1, lookupMoves]
  split
  · rfl
  · rfl

/-! ## Stores

Nothing but an action changes a directory: the steps in the life of a lookup leave the stores as
they are, apart from the number of calls. -/

theorem stores_attach {r : Registry} {token : Lookup.Token} {a : Attachment}
    (h : r.attach token = .ok a) : a.registry.stores = r.stores := by
  rcases attach_cases h with ⟨_, rfl⟩ | ⟨_, _, _, _, rfl⟩
  · rfl
  · rfl

@[simp] theorem stores_elapse (r : Registry) (handle : Nat) :
    (r.elapse handle).1.stores = r.stores := by
  unfold elapse
  split
  · rfl
  · split <;> rfl

theorem registrars_elapse (r : Registry) (handle : Nat) :
    (r.elapse handle).1.registrars = r.registrars := by
  unfold elapse
  split
  · rfl
  · split <;> rfl

theorem registrars_launch {r : Registry} {token : Lookup.Token} {a : Attachment}
    (ha : r.attach token = .ok a) (i : Nat) (s : Store) (id : UInt64) :
    (launch a i s id).registry.registrars = r.registrars := by
  show a.registry.registrars = r.registrars
  rcases attach_cases ha with ⟨_, rfl⟩ | ⟨_, _, _, _, rfl⟩
  · rfl
  · rfl

theorem directory_congr {r r' : Registry} (h : r'.stores = r.stores) (n : Nat) :
    r'.directory n = r.directory n := by
  rw [directory, directory, h]

@[simp] theorem directory_elapse (r : Registry) (handle n : Nat) :
    (r.elapse handle).1.directory n = r.directory n :=
  directory_congr (stores_elapse r handle) n

theorem directory_launch {r : Registry} {token : Lookup.Token} {a : Attachment}
    (ha : r.attach token = .ok a) (i : Nat) (s : Store) (id : UInt64) (n : Nat) :
    (launch a i s id).registry.directory n = r.directory n := by
  have hstores : (launch a i s id).registry.stores = r.stores.modify i Store.called := by
    rw [← stores_attach ha]
    rfl
  rw [directory, directory, hstores, List.getElem?_modify]
  cases r.stores[n]? with
  | none => simp
  | some s' => by_cases hi : i = n <;> simp [hi, Store.called]

theorem directory_opened (r : Registry) (d : Delay) (pause : Pause) (n : Nat) :
    ({ r with stores := r.stores ++ [.new d pause] } : Registry).directory n = r.directory n := by
  rw [directory, directory, List.getElem?_append]
  split
  · rfl
  · next hlen =>
    rw [List.getElem?_eq_none (Nat.le_of_not_lt hlen)]
    -- The new store stands at the end, and nobody is in it.
    cases hnew : ([Store.new d pause] : List Store)[n - r.stores.length]? with
    | none => rfl
    | some s =>
      have hs : s = .new d pause := by simpa using List.mem_of_getElem? hnew
      rw [hs]
      rfl

theorem directory_acted (r : Registry) {i : Nat} {s : Store} (hs : r.stores[i]? = some s)
    (a : Action) (n : Nat) :
    ({ r with stores := r.stores.modify i (·.act a) } : Registry).directory n =
      if n = i then (r.directory n).after a else r.directory n := by
  rw [directory, directory, List.getElem?_modify]
  by_cases hn : n = i
  · subst hn
    simp [hs, Store.act]
  · simp [hn, Ne.symm hn]

/-! ## Exchanges with a store -/

/-- Whether what is asked of a target is asked of a store that is there. -/
def Reaches (r : Registry) (t : Target) (n : Nat) : Prop :=
  r.storeNumber? t = some n ∧ n < r.stores.length

instance (r : Registry) (t : Target) (n : Nat) : Decidable (r.Reaches t n) :=
  inferInstanceAs (Decidable (_ ∧ _))

/-- The exchange that a move has with a store, directly or through a registrar. -/
def exchange? (r : Registry) (n : Nat) : Move → Option Exchange
  | .command (.act t a) =>
    if r.storeNumber? t = some n then
      match r.reply (.act t a) with
      | .ok (.answered answer) => some ⟨a, answer, r.events (.act t a)⟩
      | _ => none
    else none
  | _ => none

def exchanges (r : Registry) (n : Nat) : List Move → List Exchange
  | [] => []
  | m :: ms => (r.exchange? n m).toList ++ (r.after m).exchanges n ms

@[simp] theorem exchanges_nil (r : Registry) (n : Nat) : r.exchanges n [] = [] := rfl

@[simp] theorem exchanges_cons (r : Registry) (n : Nat) (m : Move) (ms : List Move) :
    r.exchanges n (m :: ms) = (r.exchange? n m).toList ++ (r.after m).exchanges n ms := rfl

theorem exchanges_append (r : Registry) (n : Nat) (xs ys : List Move) :
    r.exchanges n (xs ++ ys) = r.exchanges n xs ++ (r.afterAll xs).exchanges n ys := by
  induction xs generalizing r with
  | nil => rfl
  | cons x xs ih =>
    rw [List.cons_append, exchanges_cons, ih, exchanges_cons, List.append_assoc, afterAll_cons]

/-- A store that is there answers what its directory does. -/
theorem reply_act {r : Registry} {t : Target} {n : Nat} (h : r.Reaches t n) (a : Action) :
    r.reply (.act t a) = .ok (.answered ((r.directory n).answer a)) := by
  obtain ⟨hn, hlen⟩ := h
  have hs : r.stores[n]? = some r.stores[n] := List.getElem?_eq_getElem hlen
  have hdir : r.directory n = r.stores[n].directory := by rw [directory, hs]; rfl
  rw [reply_of_perform (perform_act hn hs a), hdir]

/-- An action reaches a store that is there, and is answered by its directory. -/
theorem exchange?_act (r : Registry) (n : Nat) (t : Target) (a : Action) :
    r.exchange? n (.command (.act t a)) =
      if r.Reaches t n then some ((r.directory n).exchange a) else none := by
  by_cases hn : r.storeNumber? t = some n
  · cases hs : r.stores[n]? with
    | some s =>
      have hlen : n < r.stores.length := (List.getElem?_eq_some_iff.mp hs).1
      have hdir : r.directory n = s.directory := by rw [directory, hs]; rfl
      have hperf := perform_act hn hs a
      rw [exchange?, if_pos hn, reply_of_perform hperf, events_of_perform hperf,
        if_pos ⟨hn, hlen⟩, hdir]
      rfl
    | none =>
      have hlen : ¬ n < r.stores.length := by simpa using hs
      have hperf : r.perform (.act t a) = .error (.refused .noStore) :=
        perform_act_of_no_store hn hs a
      rw [exchange?, if_pos hn, reply_of_refused hperf, if_neg fun h => hlen h.2]
  · rw [exchange?, if_neg hn, if_neg fun h => hn h.1]

theorem eq_exchange_of_exchange? {r : Registry} {n : Nat} {m : Move} {x : Exchange}
    (h : r.exchange? n m = some x) : x = (r.directory n).exchange x.action := by
  cases m with
  | command c =>
    cases c with
    | act t a =>
      rw [exchange?_act] at h
      split at h
      · cases h; rfl
      · cases h
    | _ => cases h
  | start _ _ _ => cases h
  | elapse _ => cases h

/-- **A move changes the directory of a store by its exchange with the store and not otherwise.** -/
theorem directory_after (r : Registry) (m : Move) (n : Nat) :
    (r.after m).directory n =
      (r.exchange? n m).elim (r.directory n) fun x => (r.directory n).after x.action := by
  cases m with
  | command c =>
    show (r.next c).directory n = _
    cases hperf : r.perform c with
    | error f =>
      rw [next_of_refused hperf]
      cases c with
      | act t a =>
        have hnone : r.exchange? n (.command (.act t a)) = none := by
          rw [exchange?, reply_of_refused hperf]
          split <;> rfl
        rw [hnone]
        rfl
      | _ => rfl
    | ok e =>
      rw [next_of_perform hperf]
      cases performed_of_perform hperf with
      | opened _ => exact directory_opened r _ _ n
      | appointed _ _ => rfl
      | @acted t a i s hi hs =>
        have hlen : i < r.stores.length := (List.getElem?_eq_some_iff.mp hs).1
        rw [directory_acted r hs, exchange?_act]
        by_cases hn : n = i
        · subst hn
          rw [if_pos rfl, if_pos ⟨hi, hlen⟩]
          rfl
        · have hmiss : ¬ r.Reaches t n := fun h => hn (Option.some.inj (h.1.symm.trans hi))
          rw [if_neg hn, if_neg hmiss]
          rfl
      | launched _ _ ha _ => exact directory_launch ha _ _ _ n
      | satOut _ _ ha _ => exact (directory_elapse _ _ n).trans (directory_launch ha _ _ _ n)
      | stopped _ _ _ => rfl
      | released _ _ _ => rfl
      | collected _ _ _ => rfl
  | start k id token =>
    show ((r.start? k id token).elim r Effect.registry).directory n = r.directory n
    cases hstart : r.start? k id token with
    | none => rfl
    | some e =>
      obtain ⟨_, _, _, _, _, ha, rfl⟩ := attach_of_start? hstart
      exact directory_launch ha _ _ _ n
  | elapse handle => exact directory_elapse r handle n

/-- Over a whole run the directory of a store goes through the actions it was asked for. -/
theorem directory_afterAll (r : Registry) (n : Nat) (ms : List Move) :
    (r.afterAll ms).directory n =
      (r.directory n).afterAll ((r.exchanges n ms).map Exchange.action) := by
  induction ms generalizing r with
  | nil => rfl
  | cons m ms ih =>
    rw [afterAll_cons, ih, directory_after, exchanges_cons]
    cases r.exchange? n m <;> rfl

/-- **The exchanges of a run with a store are those of its directory**, whatever the run does
elsewhere. -/
theorem exchanges_eq (r : Registry) (n : Nat) (ms : List Move) :
    r.exchanges n ms =
      (r.directory n).exchanges ((r.exchanges n ms).map Exchange.action) := by
  induction ms generalizing r with
  | nil => rfl
  | cons m ms ih =>
    have hrest := ih (r.after m)
    rw [directory_after] at hrest
    rw [exchanges_cons]
    cases hx : r.exchange? n m with
    | none =>
      rw [hx] at hrest
      exact hrest
    | some x =>
      rw [hx] at hrest
      simp only [Option.toList_some, List.singleton_append, List.map_cons,
        Directory.exchanges_cons]
      rw [← eq_exchange_of_exchange? hx]
      exact congrArg (x :: ·) hrest

end Roster.Registry
