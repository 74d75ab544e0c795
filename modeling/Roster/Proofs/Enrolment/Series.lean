import Roster.Proofs.Directory.Ids
import Roster.Proofs.Log.Wording
import Roster.Proofs.Registry.Run

/-!
# Newcomers in a series

The id of a newcomer follows the number of users, but whether it is taken depends on which ids are
in use. So a series of enrolments counts upwards until it meets an id that is in use, and stays
there for good.

* The id that the series runs into is the least one in use above the size (`barrier?`). An enrolment
  moves the size but not the barrier (`barrier?_enrol`), which is what carries the induction.
* `size_enrolAll` and `find?_enrolAll` say what a whole series leaves, `getElem?_series` what each
  call in it comes to.
* `enrolments_in_series` is the result for runs of the registry, where the calls may come through
  any registrars and with anything in between that does not write to the store.
-/

namespace Roster

open Log (Event)

/-- A newcomer entered: the request, the user it made, and what was reported. -/
structure Call where
  request : Enrolment
  user : User
  events : List Event
deriving DecidableEq

/-- The call that an exchange was, if it entered a newcomer. The user is the one that was answered,
before any change of its name. -/
def Exchange.call? : Exchange → Option Call
  | ⟨.enrol e, .enrolled u, events⟩ => some ⟨e, u, events⟩
  | ⟨.enrolRenamed e _, .renamed changed _ _, events⟩ => some ⟨e, e.user changed.id, events⟩
  | _ => none

def Action.isRead : Action → Bool
  | .get _ | .getRecord _ | .contains _ | .size => true
  | _ => false

namespace Directory

/-! ## The barrier -/

def IsAhead (d : Directory) (id : UInt64) : Prop := d.contains id = true ∧ d.size < id.toNat

/-- The least id in use above the size. -/
def barrier? (d : Directory) : Option UInt64 := d.ids.find? fun id => d.size < id.toNat

/-- In a rising list the first number of a kind is the least of that kind. -/
theorem le_of_find?_eq_some {ids : List UInt64} {p : UInt64 → Bool} {m id : UInt64}
    (hsorted : ids.Pairwise (· < ·)) (h : ids.find? p = some m) (hid : id ∈ ids)
    (hp : p id = true) : m ≤ id := by
  obtain ⟨_, before, after, rfl, hbefore⟩ := List.find?_eq_some_iff_append.mp h
  obtain ⟨_, hrest, _⟩ := List.pairwise_append.mp hsorted
  rcases List.mem_append.mp hid with hid | hid
  · have hnot := hbefore id hid
    rw [hp] at hnot
    cases hnot
  · cases hid with
    | head => exact UInt64.le_refl _
    | tail _ hid => exact UInt64.le_of_lt (List.rel_of_pairwise_cons hrest hid)

theorem ids_pairwise (d : Directory) : d.ids.Pairwise (· < ·) :=
  Std.ExtTreeMap.ordered_keys.imp fun h => Std.compare_eq_lt.mp h

/-- The barrier is the least of the ids ahead. -/
theorem barrier?_eq_some_iff {d : Directory} {m : UInt64} :
    d.barrier? = some m ↔ d.IsAhead m ∧ ∀ id, d.IsAhead id → m ≤ id := by
  have hleast : ∀ m', d.barrier? = some m' → ∀ id, d.IsAhead id → m' ≤ id := by
    intro m' h id hid
    exact le_of_find?_eq_some d.ids_pairwise h (mem_ids.mpr hid.1) (decide_eq_true hid.2)
  have hahead : ∀ m', d.barrier? = some m' → d.IsAhead m' := by
    intro m' h
    have habove := List.find?_some h
    exact ⟨mem_ids.mp (List.mem_of_find?_eq_some h), of_decide_eq_true habove⟩
  constructor
  · intro h
    exact ⟨hahead m h, hleast m h⟩
  · rintro ⟨hm, hmin⟩
    -- Something is found since `m` would do, and it can only be `m`.
    have hsome : d.barrier?.isSome = true :=
      List.find?_isSome.mpr ⟨m, mem_ids.mpr hm.1, decide_eq_true hm.2⟩
    obtain ⟨m', hm'⟩ := Option.isSome_iff_exists.mp hsome
    have hle : m' ≤ m := hleast m' hm' m hm
    have hge : m ≤ m' := hmin m' (hahead m' hm')
    rw [hm', UInt64.le_antisymm hle hge]

theorem barrier?_eq_none_iff {d : Directory} :
    d.barrier? = none ↔ ∀ id, ¬ d.IsAhead id := by
  simp only [barrier?, List.find?_eq_none, mem_ids, IsAhead, decide_eq_true_eq, not_and]

theorem size_lt_of_barrier? {d : Directory} {m : UInt64} (h : d.barrier? = some m) :
    d.size < m.toNat :=
  (barrier?_eq_some_iff.mp h).1.2

/-! ## One enrolment -/

theorem contains_enrol (d : Directory) (e : Enrolment) (id : UInt64) :
    (d.enrol e).contains id = true ↔ id = d.nextId ∨ d.contains id = true := by
  rw [contains_eq_isSome_find?, contains_eq_isSome_find?, enrol, find?_insert]
  have hid : (d.newcomer e).id = d.nextId := rfl
  rw [hid]
  by_cases h : id = d.nextId <;> simp [h]

theorem size_enrol (d : Directory) (e : Enrolment) :
    (d.enrol e).size = if d.contains d.nextId then d.size else d.size + 1 :=
  size_insert d (d.newcomer e)

/-- **An enrolment leaves the ids ahead as they are.** If the next id is free it comes into use, and
the size catches up with it; if it is not, nothing changes. -/
theorem isAhead_enrol {d : Directory} (hfit : d.size + 1 < 2 ^ 64) (e : Enrolment) (id : UInt64) :
    (d.enrol e).IsAhead id ↔ d.IsAhead id := by
  have hnext : d.nextId.toNat = d.size + 1 := toNat_nextId hfit
  rw [IsAhead, IsAhead, contains_enrol, size_enrol]
  by_cases hid : id = d.nextId
  · -- A free next id comes into use just as the size gets there, so it is never ahead.
    rw [hid, hnext]
    by_cases htaken : d.contains d.nextId = true <;> simp [htaken]
  · have hne : id.toNat ≠ d.size + 1 := by
      rw [← hnext]
      exact fun h => hid (UInt64.toNat_inj.mp h)
    by_cases htaken : d.contains d.nextId = true
    · simp [htaken, hid]
    · have hlt : d.size + 1 < id.toNat ↔ d.size < id.toNat := by omega
      simp [htaken, hid, hlt]

/-- **An enrolment leaves the barrier where it is.** -/
theorem barrier?_enrol {d : Directory} (hfit : d.size + 1 < 2 ^ 64) (e : Enrolment) :
    (d.enrol e).barrier? = d.barrier? := by
  apply Option.ext
  intro m
  simp only [barrier?_eq_some_iff, isAhead_enrol hfit]

/-- The next id is taken exactly when the size stands right below the barrier. -/
theorem contains_nextId_iff {d : Directory} (hfit : d.size + 1 < 2 ^ 64) :
    d.contains d.nextId = true ↔ ∃ m, d.barrier? = some m ∧ m.toNat = d.size + 1 := by
  have hnext : d.nextId.toNat = d.size + 1 := toNat_nextId hfit
  constructor
  · intro htaken
    have hahead : d.IsAhead d.nextId := ⟨htaken, by omega⟩
    refine ⟨d.nextId, barrier?_eq_some_iff.mpr ⟨hahead, ?_⟩, hnext⟩
    intro id hid
    rw [UInt64.le_iff_toNat_le, hnext]
    exact hid.2
  · rintro ⟨m, hm, hsize⟩
    have heq : d.nextId = m := UInt64.toNat_inj.mp (hnext.trans hsize.symm)
    rw [heq]
    exact (barrier?_eq_some_iff.mp hm).1.1

/-! ## A series of enrolments -/

def enrolAll (d : Directory) (es : List Enrolment) : Directory := es.foldl enrol d

@[simp] theorem enrolAll_nil (d : Directory) : d.enrolAll [] = d := rfl

@[simp] theorem enrolAll_cons (d : Directory) (e : Enrolment) (es : List Enrolment) :
    d.enrolAll (e :: es) = (d.enrol e).enrolAll es := rfl

theorem size_enrol_le (d : Directory) (e : Enrolment) : (d.enrol e).size ≤ d.size + 1 := by
  rw [size_enrol]
  split <;> omega

theorem barrier?_enrolAll {d : Directory} {es : List Enrolment}
    (hfit : d.size + es.length < 2 ^ 64) : (d.enrolAll es).barrier? = d.barrier? := by
  induction es generalizing d with
  | nil => rfl
  | cons e es ih =>
    rw [List.length_cons] at hfit
    have hle := d.size_enrol_le e
    rw [enrolAll_cons, ih (by omega), barrier?_enrol (by omega)]

/-- **The size after a series**: one more for each newcomer, until right below the barrier. -/
theorem size_enrolAll {d : Directory} {es : List Enrolment}
    (hfit : d.size + es.length < 2 ^ 64) :
    (d.enrolAll es).size =
      d.barrier?.elim (d.size + es.length) fun m => min (d.size + es.length) (m.toNat - 1) := by
  induction es generalizing d with
  | nil =>
    cases hm : d.barrier? with
    | none => rfl
    | some m =>
      have hlt := size_lt_of_barrier? hm
      simp only [enrolAll_nil, List.length_nil, Option.elim_some]
      omega
  | cons e es ih =>
    rw [List.length_cons] at hfit ⊢
    have hone : d.size + 1 < 2 ^ 64 := by omega
    have hle := d.size_enrol_le e
    have htaken := contains_nextId_iff hone
    rw [enrolAll_cons, ih (by omega), barrier?_enrol hone, size_enrol]
    cases hm : d.barrier? with
    | none =>
      have hfree : ¬ d.contains d.nextId = true := by simp [htaken, hm]
      rw [if_neg hfree, Option.elim_none, Option.elim_none]
      omega
    | some m =>
      have hlt := size_lt_of_barrier? hm
      have hmeet : d.contains d.nextId = true ↔ m.toNat = d.size + 1 := by simp [htaken, hm]
      simp only [Option.elim_some]
      -- Right below the barrier the size stays as it is, anywhere else it grows by one.
      split
      · next hyes =>
        have hat := hmeet.mp hyes
        omega
      · next hno =>
        have hbelow := mt hmeet.mpr hno
        omega

theorem toNat_nextId_enrolAll {d : Directory} {es : List Enrolment}
    (hfit : d.size + es.length + 1 < 2 ^ 64) :
    (d.enrolAll es).nextId.toNat =
      d.barrier?.elim (d.size + es.length + 1) fun m => min (d.size + es.length + 1) m.toNat := by
  have hsize := size_enrolAll (Nat.lt_of_succ_lt hfit)
  cases hm : d.barrier? with
  | none =>
    simp only [hm, Option.elim_none] at hsize ⊢
    rw [toNat_nextId (by omega), hsize]
  | some m =>
    have hlt := size_lt_of_barrier? hm
    simp only [hm, Option.elim_some] at hsize ⊢
    rw [toNat_nextId (by omega), hsize]
    omega

/-- After a series the next id is taken exactly when the count has come to the barrier. -/
theorem contains_nextId_enrolAll {d : Directory} {es : List Enrolment}
    (hfit : d.size + es.length + 1 < 2 ^ 64) :
    (d.enrolAll es).contains (d.enrolAll es).nextId =
      d.barrier?.any fun m => m.toNat ≤ d.size + es.length + 1 := by
  have hall : d.size + es.length < 2 ^ 64 := Nat.lt_of_succ_lt hfit
  have hsize := size_enrolAll hall
  have hle : (d.enrolAll es).size ≤ d.size + es.length := by
    rw [hsize]
    cases d.barrier? with
    | none => exact Nat.le_refl _
    | some m => exact Nat.min_le_left _ _
  rw [Bool.eq_iff_iff, contains_nextId_iff (by omega), barrier?_enrolAll hall]
  cases hm : d.barrier? with
  | none => simp
  | some m =>
    have hlt := size_lt_of_barrier? hm
    simp only [hm, Option.elim_some] at hsize
    simp only [Option.some.injEq, exists_eq_left', Option.any_some, decide_eq_true_eq]
    omega

/-! ## The calls of a series -/

def call (d : Directory) (e : Enrolment) : Call := ⟨e, d.newcomer e, d.enrolEvents e⟩

def series (d : Directory) : List Enrolment → List Call
  | [] => []
  | e :: es => d.call e :: (d.enrol e).series es

@[simp] theorem series_nil (d : Directory) : d.series [] = [] := rfl

@[simp] theorem series_cons (d : Directory) (e : Enrolment) (es : List Enrolment) :
    d.series (e :: es) = d.call e :: (d.enrol e).series es := rfl

@[simp] theorem length_series (d : Directory) (es : List Enrolment) :
    (d.series es).length = es.length := by
  induction es generalizing d with
  | nil => rfl
  | cons e es ih => rw [series_cons, List.length_cons, ih, List.length_cons]

/-- Each call of a series is made to the directory that the calls before it leave. -/
theorem getElem?_series (d : Directory) (es : List Enrolment) (i : Nat) :
    (d.series es)[i]? = es[i]?.map (d.enrolAll (es.take i)).call := by
  induction es generalizing d i with
  | nil => rfl
  | cons e es ih =>
    cases i with
    | zero => rfl
    | succ i =>
      rw [series_cons, List.getElem?_cons_succ, ih, List.getElem?_cons_succ, List.take_succ_cons,
        enrolAll_cons]

/-- **What a series leaves under an id**: the user of the last call that got the id, and what was
there before if no call did. -/
theorem find?_enrolAll (d : Directory) (es : List Enrolment) (id : UInt64) :
    (d.enrolAll es).find? id =
      (((d.series es).reverse.find? (·.user.id == id)).map Call.user).or (d.find? id) := by
  induction es generalizing d with
  | nil => rfl
  | cons e es ih =>
    have hfirst : (d.enrol e).find? id =
        (([d.call e].find? (·.user.id == id)).map Call.user).or (d.find? id) := by
      rw [enrol, find?_insert, List.find?_singleton]
      by_cases hid : id = (d.newcomer e).id
      · simp [hid, call]
      · simp [hid, call, Ne.symm hid]
    rw [enrolAll_cons, ih, hfirst, series_cons, List.reverse_cons, List.find?_append,
      Option.map_or, Option.or_assoc]

/-- The warnings of a call: one if the id is taken. -/
theorem warnings_call (d : Directory) (e : Enrolment) :
    (Log.Setup.initial.record (d.call e).events).filter (·.level = .warn) =
      if d.contains d.nextId then [(Event.idTaken d.nextId).message] else [] := by
  have hentry : ((d.entryEvents (d.newcomer e)).map Event.message).filter (·.level = .warn) = [] := by
    rw [entryEvents, insertEvent]
    split <;> rfl
  have hevents : (d.call e).events = d.takenEvents d.nextId ++ d.entryEvents (d.newcomer e) := rfl
  rw [Log.Setup.record_initial, hevents, List.map_append, List.filter_append, hentry,
    List.append_nil, takenEvents]
  split <;> rfl

theorem eq_call_of_getElem?_series {d : Directory} {es : List Enrolment} {i : Nat} {c : Call}
    (h : (d.series es)[i]? = some c) :
    ∃ e, c = (d.enrolAll (es.take i)).call e ∧ i < es.length ∧ (es.take i).length = i := by
  rw [getElem?_series] at h
  obtain ⟨e, he, rfl⟩ := Option.map_eq_some_iff.mp h
  have hlen : i < es.length := (List.getElem?_eq_some_iff.mp he).1
  exact ⟨e, rfl, hlen, List.length_take_of_le (Nat.le_of_lt hlen)⟩

/-- **The id of each call**: it counts on from the size until the barrier, and stays there. -/
theorem toNat_id_of_series {d : Directory} {es : List Enrolment} {i : Nat} {c : Call}
    (hfit : d.size + es.length < 2 ^ 64) (h : (d.series es)[i]? = some c) :
    c.user.id.toNat =
      d.barrier?.elim (d.size + i + 1) fun m => min (d.size + i + 1) m.toNat := by
  obtain ⟨e, rfl, hlen, htake⟩ := eq_call_of_getElem?_series h
  have hnext := @toNat_nextId_enrolAll d (es.take i) (by omega)
  rw [htake] at hnext
  exact hnext

theorem warnings_of_series {d : Directory} {es : List Enrolment} {i : Nat} {c : Call}
    (hfit : d.size + es.length < 2 ^ 64) (h : (d.series es)[i]? = some c) :
    (Log.Setup.initial.record c.events).filter (·.level = .warn) =
      if d.barrier?.any (·.toNat ≤ d.size + i + 1) then [(Event.idTaken c.user.id).message]
      else [] := by
  obtain ⟨e, rfl, hlen, htake⟩ := eq_call_of_getElem?_series h
  have htaken := @contains_nextId_enrolAll d (es.take i) (by omega)
  rw [htake] at htaken
  rw [warnings_call, htaken]
  rfl

theorem find?_last_of_series {d : Directory} {es : List Enrolment} {c : Call}
    (h : (d.series es).getLast? = some c) : (d.enrolAll es).find? c.user.id = some c.user := by
  rw [← List.head?_reverse] at h
  obtain ⟨cs, hcs⟩ := List.head?_eq_some_iff.mp h
  rw [find?_enrolAll, hcs]
  simp

/-- All calls after one that has come to the barrier get its id. -/
theorem id_eq_of_barred {d : Directory} {es : List Enrolment} {i j : Nat} {c c' : Call}
    (hfit : d.size + es.length < 2 ^ 64) (hc : (d.series es)[i]? = some c)
    (hc' : (d.series es)[j]? = some c') (hij : i < j)
    (hbarred : d.barrier?.any (·.toNat ≤ d.size + i + 1) = true) : c'.user.id = c.user.id := by
  have hid := toNat_id_of_series hfit hc
  have hid' := toNat_id_of_series hfit hc'
  obtain ⟨m, hm, hreached⟩ := Option.any_eq_true _ _ |>.mp hbarred
  have hle := of_decide_eq_true hreached
  -- Both ids are cut off at the barrier.
  rw [hm, Option.elim_some] at hid hid'
  apply UInt64.toNat_inj.mp
  omega

/-- Once a call has come to the barrier, the next one replaces its user. -/
theorem find?_enrol_of_barred {d : Directory} {es : List Enrolment} {e : Enrolment} {c : Call}
    (hfit : d.size + (es ++ [e]).length < 2 ^ 64) (hlast : (d.series es).getLast? = some c)
    (hbarred : d.barrier?.any (·.toNat ≤ d.size + es.length) = true) :
    ((d.enrolAll es).enrol e).find? c.user.id = some (e.user c.user.id) := by
  have hpos : es ≠ [] := by
    rintro rfl
    cases hlast
  have hlen := List.length_pos_iff.mpr hpos
  -- The call is the last but one of a series that is longer by one.
  have hnext : (d.series (es ++ [e]))[es.length]? = some ((d.enrolAll es).call e) := by
    rw [getElem?_series, List.getElem?_concat_length, List.take_left]
    rfl
  have hprev : (d.series (es ++ [e]))[es.length - 1]? = some c := by
    rw [List.getLast?_eq_getElem?, length_series, getElem?_series] at hlast
    rw [getElem?_series, List.getElem?_append_left (by omega),
      List.take_append_of_le_length (by omega)]
    exact hlast
  have hbarred' : d.barrier?.any (·.toNat ≤ d.size + (es.length - 1) + 1) = true := by
    rw [Nat.add_assoc, Nat.sub_add_cancel hlen]
    exact hbarred
  have hid : (d.enrolAll es).nextId = c.user.id :=
    id_eq_of_barred hfit hprev hnext (by omega) hbarred'
  rw [enrol, find?_insert, newcomer, hid]
  exact if_pos rfl

/-! ### Series among other actions -/

theorem after_of_isRead {a : Action} (h : a.isRead = true) (d : Directory) :
    d.after a = d ∧ (d.exchange a).call? = none ∧ a.enrolment? = none := by
  cases a <;> cases h <;> exact ⟨rfl, rfl, rfl⟩

theorem after_of_enrolment? {a : Action} {e : Enrolment} (h : a.enrolment? = some e)
    (d : Directory) : d.after a = d.enrol e ∧ (d.exchange a).call? = some (d.call e) := by
  cases a <;> cases h <;> exact ⟨rfl, rfl⟩

/-- **Reads between enrolments change nothing**: the calls and the directory they leave are those of
the enrolments alone. -/
theorem series_of_actions {as : List Action}
    (h : ∀ a ∈ as, a.isRead = true ∨ a.enrolment?.isSome = true) (d : Directory) :
    (d.exchanges as).filterMap Exchange.call? = d.series (as.filterMap Action.enrolment?) ∧
      d.afterAll as = d.enrolAll (as.filterMap Action.enrolment?) := by
  induction as generalizing d with
  | nil => exact ⟨rfl, rfl⟩
  | cons a as ih =>
    have hrest := ih fun b hb => h b (List.mem_cons_of_mem a hb)
    rw [exchanges_cons, afterAll_cons]
    rcases h a List.mem_cons_self with hread | hsome
    · obtain ⟨hafter, hcall, hnone⟩ := after_of_isRead hread d
      rw [hafter, List.filterMap_cons_none hcall, List.filterMap_cons_none hnone]
      exact hrest d
    · obtain ⟨e, he⟩ := Option.isSome_iff_exists.mp hsome
      obtain ⟨hafter, hcall⟩ := after_of_enrolment? he d
      rw [hafter, List.filterMap_cons_some hcall, List.filterMap_cons_some he, series_cons,
        enrolAll_cons, (hrest (d.enrol e)).1, (hrest (d.enrol e)).2]
      exact ⟨rfl, rfl⟩

end Directory

namespace Registry

/-! ## Series in a run -/

def calls (r : Registry) (n : Nat) (ms : List Move) : List Call :=
  (r.exchanges n ms).filterMap Exchange.call?

/-- Whether a run writes to a store only by entering newcomers. -/
def OnlyEnrols (r : Registry) (n : Nat) (ms : List Move) : Prop :=
  ∀ x ∈ r.exchanges n ms, x.action.isRead = true ∨ x.action.enrolment?.isSome = true

instance (r : Registry) (n : Nat) (ms : List Move) : Decidable (r.OnlyEnrols n ms) :=
  inferInstanceAs (Decidable (∀ x ∈ r.exchanges n ms, _))

theorem calls_append (r : Registry) (n : Nat) (xs ys : List Move) :
    r.calls n (xs ++ ys) = r.calls n xs ++ (r.afterAll xs).calls n ys := by
  rw [calls, exchanges_append, List.filterMap_append]
  rfl

theorem OnlyEnrols.of_append {r : Registry} {n : Nat} {xs ys : List Move}
    (h : r.OnlyEnrols n (xs ++ ys)) : r.OnlyEnrols n xs := by
  intro x hx
  apply h
  rw [exchanges_append]
  exact List.mem_append_left _ hx

/-- Such a run makes a series of calls to the store and does nothing else to it. -/
theorem OnlyEnrols.series {r : Registry} {n : Nat} {ms : List Move} (h : r.OnlyEnrols n ms) :
    ∃ es, r.calls n ms = (r.directory n).series es ∧
      (r.afterAll ms).directory n = (r.directory n).enrolAll es := by
  have hactions : ∀ a ∈ (r.exchanges n ms).map Exchange.action,
      a.isRead = true ∨ a.enrolment?.isSome = true := by
    intro a ha
    obtain ⟨x, hx, rfl⟩ := List.mem_map.mp ha
    exact h x hx
  obtain ⟨hcalls, hafter⟩ := Directory.series_of_actions hactions (r.directory n)
  rw [← exchanges_eq] at hcalls
  rw [directory_afterAll]
  exact ⟨_, hcalls, hafter⟩

theorem calls_enrol {r : Registry} {t : Target} {n : Nat} (h : r.Reaches t n) (e : Enrolment)
    (ms : List Move) :
    r.calls n (.command (.act t (.enrol e)) :: ms) =
      (r.directory n).call e :: (r.after (.command (.act t (.enrol e)))).calls n ms := by
  rw [calls, exchanges_cons, exchange?_act, if_pos h]
  rfl

/-- **A series of enrolments counts upwards until it meets an id in use, and stays there.** In a run
that writes to a store only by entering newcomers, let `m` be the least id in use above the size at
the start, if there is one, and let the last id still fit into a 64-bit word.

* Every enrolment that reaches the store is one of the calls, and is answered with its user.
* The call after `i` others gets the id `min (size + i + 1) m`, or `size + i + 1` without an `m`.
* After `k` calls the size is `min (size + k) (m - 1)`, or `size + k` without an `m`.
* An id has the user of the last call that got it, and what it had before if no call did.
* A call warns that the id is taken exactly if its count has come to `m`.
* All calls after such a call get its id, and the next one replaces its user. -/
theorem enrolments_in_series {r : Registry} {n : Nat} {d : Directory} (hd : r.directory n = d)
    (moves : List Move) (honly : r.OnlyEnrols n moves)
    (hfit : d.size + (r.calls n moves).length < 2 ^ 64) :
    (∀ before t e after, moves = before ++ .command (.act t (.enrol e)) :: after →
      (r.afterAll before).Reaches t n →
        ∃ c, (r.calls n moves)[(r.calls n before).length]? = some c ∧ c.request = e ∧
          (r.afterAll before).reply (.act t (.enrol e)) = .ok (.answered (.enrolled c.user))) ∧
    (∀ i c, (r.calls n moves)[i]? = some c →
      c.user = c.request.user c.user.id ∧
        c.user.id.toNat =
          d.barrier?.elim (d.size + i + 1) fun m => min (d.size + i + 1) m.toNat) ∧
    ((r.afterAll moves).directory n).size =
      d.barrier?.elim (d.size + (r.calls n moves).length)
        (fun m => min (d.size + (r.calls n moves).length) (m.toNat - 1)) ∧
    (∀ id, ((r.afterAll moves).directory n).find? id =
      (((r.calls n moves).reverse.find? (·.user.id == id)).map Call.user).or (d.find? id)) ∧
    (∀ i c, (r.calls n moves)[i]? = some c →
      (Log.Setup.initial.record c.events).filter (·.level = .warn) =
        if d.barrier?.any (·.toNat ≤ d.size + i + 1) then [(Event.idTaken c.user.id).message]
        else []) ∧
    (∀ i j c c', (r.calls n moves)[i]? = some c → (r.calls n moves)[j]? = some c' → i < j →
      d.barrier?.any (·.toNat ≤ d.size + i + 1) = true → c'.user.id = c.user.id) ∧
    (∀ before t e after c, moves = before ++ .command (.act t (.enrol e)) :: after →
      (r.afterAll before).Reaches t n → (r.calls n before).getLast? = some c →
      d.barrier?.any (·.toNat ≤ d.size + (r.calls n before).length) = true →
        ((r.afterAll before).directory n).find? c.user.id = some c.user ∧
          ((r.afterAll (before ++ [.command (.act t (.enrol e))])).directory n).find? c.user.id =
            some (e.user c.user.id)) := by
  subst hd
  obtain ⟨es, hcalls, hdir⟩ := honly.series
  have hlen : (r.calls n moves).length = es.length := by rw [hcalls, Directory.length_series]
  rw [hlen] at hfit
  refine ⟨?_, ?_, ?_, ?_, ?_, ?_, ?_⟩
  · intro before t e after hmoves ht
    refine ⟨((r.afterAll before).directory n).call e, ?_, rfl, reply_act ht (.enrol e)⟩
    rw [hmoves, calls_append, List.getElem?_append_right (Nat.le_refl _), Nat.sub_self,
      calls_enrol ht]
    rfl
  · intro i c hc
    rw [hcalls] at hc
    refine ⟨?_, Directory.toNat_id_of_series hfit hc⟩
    obtain ⟨e, rfl, _, _⟩ := Directory.eq_call_of_getElem?_series hc
    rfl
  · rw [hdir, hlen]
    exact Directory.size_enrolAll hfit
  · intro id
    rw [hdir, hcalls]
    exact Directory.find?_enrolAll _ es id
  · intro i c hc
    rw [hcalls] at hc
    exact Directory.warnings_of_series hfit hc
  · intro i j c c' hc hc' hij hbarred
    rw [hcalls] at hc hc'
    exact Directory.id_eq_of_barred hfit hc hc' hij hbarred
  · intro before t e after c hmoves ht hlast hbarred
    -- The run up to this call is a series of its own, and leaves room for one more id.
    have hbefore : r.OnlyEnrols n before := by
      rw [hmoves] at honly
      exact honly.of_append
    obtain ⟨fs, hfs, hfdir⟩ := hbefore.series
    have hroom : (r.directory n).size + (fs ++ [e]).length < 2 ^ 64 := by
      rw [hmoves, calls_append, calls_enrol ht, hfs, List.length_append, List.length_cons,
        Directory.length_series] at hlen
      rw [List.length_append, List.length_singleton]
      omega
    rw [hfs] at hlast
    rw [hfs, Directory.length_series] at hbarred
    rw [afterAll_append, afterAll_cons, afterAll_nil, directory_after, exchange?_act, if_pos ht,
      hfdir]
    exact ⟨Directory.find?_last_of_series hlast,
      Directory.find?_enrol_of_barred hroom hlast hbarred⟩

/-- A store with two registrars, in which the id 3 is in use and no other. -/
def sparse : Registry :=
  empty.afterAll
    [ .command (.openStore none .gated),
      .command (.appoint 0),
      .command (.appoint 0),
      .command (.act (.store 0) (.put ⟨3, "Cid", "cid@x.com"⟩)) ]

/-- Three newcomers, the second of whom meets the id in use. -/
def sparseRun : List Move :=
  [ .command (.act (.registrar 0) (.enrol ⟨"Ann", "ann@x.com"⟩)),
    .command (.act (.registrar 1) (.enrol ⟨"Bob", "bob@x.com"⟩)),
    .command (.act (.store 0) (.get 3)),
    .command (.act (.registrar 0) (.enrol ⟨"Dan", "dan@x.com"⟩)) ]

theorem enrolments_in_series_sparse :
    sparse.OnlyEnrols 0 sparseRun ∧
      (sparse.directory 0).size + (sparse.calls 0 sparseRun).length < 2 ^ 64 ∧
      (sparse.directory 0).barrier? = some 3 ∧
      ((sparse.afterAll sparseRun).directory 0).size = 2 ∧
      ((sparse.afterAll sparseRun).directory 0).find? 3 = some ⟨3, "Dan", "dan@x.com"⟩ := by
  have honly : sparse.OnlyEnrols 0 sparseRun := by decide
  have hfit : (sparse.directory 0).size + (sparse.calls 0 sparseRun).length < 2 ^ 64 := by decide
  have hbarrier : (sparse.directory 0).barrier? = some 3 := by decide
  obtain ⟨_, _, hsize, hfind, _⟩ := enrolments_in_series rfl sparseRun honly hfit
  refine ⟨honly, hfit, hbarrier, ?_, ?_⟩
  · rw [hsize]
    decide
  · rw [hfind 3]
    decide

end Registry

end Roster
