import Roster.Proofs.Directory.Ids
import Roster.Race

/-!
# Every schedule of a race

Whatever the schedule, a race is where its writers have got to: the users stored are those at the
positions that the writers have passed, and the queues hold what is left of the shares.

* `getElem?_share`: the share of writer `t` of `n` is the users at `t`, `t + n`, `t + 2 n`, …
* `Stands`: where a race stands once each writer has had a given number of turns. One turn moves it
  on by one turn (`Stands.after`), a schedule by as many as it has (`Stands.afterAll`).
* Users that are stored stay (`Stands.find?_afterAll`), and once all writers are done all of them
  are stored (`Stands.find?_of_isOver`).
-/

namespace Roster.Race

open Lookup (Outcome)

/-! ## The shares -/

/-- Not far behind a position that falls to a writer there is no other one. -/
theorem mod_ne_of_lt {n k r : Nat} (hr : 0 < r) (hrn : r < n) : k % n ≠ (k + r) % n := by
  intro h
  have hzero : (k + r - k) % n = 0 := Nat.sub_mod_eq_zero_of_mod_eq h.symm
  rw [Nat.add_sub_cancel_left, Nat.mod_eq_of_lt hrn] at hzero
  omega

/-- The share of a writer in a list whose positions count from `k`, of which the first `r` fall to
others. -/
theorem getElem?_shareFrom {n t : Nat} (users : List User) (k r j : Nat) (hr : r < n)
    (ht : (k + r) % n = t) :
    ((users.zipIdx k).filterMap fun (u, i) => if i % n = t then some u else none)[j]? =
      users[r + j * n]? := by
  induction users generalizing k r j with
  | nil => rfl
  | cons u users ih =>
    rw [List.zipIdx_cons]
    cases r with
    | zero =>
      -- The first user is the writer's, and the next `n - 1` are not.
      have hk : k % n = t := ht
      have hnext : (k + 1 + (n - 1)) % n = t := by
        rw [Nat.add_assoc, Nat.add_sub_cancel' hr, Nat.add_mod_right, hk]
      simp only [List.filterMap_cons, if_pos hk]
      cases j with
      | zero => rw [Nat.zero_mul]; rfl
      | succ j =>
        have hpos : 0 + (j + 1) * n = n - 1 + j * n + 1 := by
          rw [Nat.succ_mul]
          omega
        rw [List.getElem?_cons_succ, ih (k + 1) (n - 1) j (by omega) hnext, hpos,
          List.getElem?_cons_succ]
    | succ r =>
      have hk : ¬ k % n = t := by
        rw [← ht]
        exact mod_ne_of_lt (Nat.succ_pos r) hr
      have hnext : (k + 1 + r) % n = t := by rw [← ht, Nat.add_assoc, Nat.add_comm 1 r]
      have hpos : r + 1 + j * n = r + j * n + 1 := by omega
      simp only [List.filterMap_cons, if_neg hk]
      rw [ih (k + 1) r j (by omega) hnext, hpos, List.getElem?_cons_succ]

/-- **The share of writer `t` of `n`** is the users at the positions `t`, `t + n`, `t + 2 n`, … -/
theorem getElem?_share (users : List User) {n t : Nat} (ht : t < n) (j : Nat) :
    (share users n t)[j]? = users[t + j * n]? :=
  getElem?_shareFrom users 0 t j ht (by rw [Nat.zero_add, Nat.mod_eq_of_lt ht])

/-- A position is that of a writer's next user exactly when both its writer and its round fit. -/
theorem eq_add_mul_iff {n t k i : Nat} (ht : t < n) : i = t + k * n ↔ i % n = t ∧ i / n = k := by
  constructor
  · rintro rfl
    rw [Nat.add_mul_mod_self_right, Nat.mod_eq_of_lt ht,
      Nat.add_mul_div_right _ _ (Nat.zero_lt_of_lt ht), Nat.div_eq_of_lt ht, Nat.zero_add]
    exact ⟨rfl, rfl⟩
  · rintro ⟨rfl, rfl⟩
    rw [Nat.mul_comm]
    exact (Nat.mod_add_div i n).symm

/-! ## Where a race stands -/

/-- Where a race among `n` writers stands once writer `t` has had `had t` turns. -/
structure Stands (users : List User) (n : Nat) (had : Nat → Nat) (s : State) : Prop where
  /-- A writer has the rest of its share to store. -/
  queue : ∀ t, s.queues[t]? = if t < n then some ((share users n t).drop (had t)) else none
  /-- The users stored are those at the positions that the writers have passed. -/
  stored : ∀ id u, s.directory.find? id = some u ↔
    ∃ i, users[i]? = some u ∧ u.id = id ∧ i / n < had (i % n)

theorem stands_start (users : List User) (n : Nat) : Stands users n (fun _ => 0) (start users n) where
  queue t := by
    by_cases ht : t < n <;> simp [start, ht]
  stored id u := by
    simp [start]

/-- One more turn passes the position of the writer's next user and no other. -/
theorem passed_succ_iff {n t i : Nat} {had : Nat → Nat} (ht : t < n) :
    i / n < had (i % n) + (if i % n = t then 1 else 0) ↔
      i / n < had (i % n) ∨ i = t + had t * n := by
  rw [eq_add_mul_iff ht]
  by_cases hi : i % n = t
  · rw [if_pos hi, hi]
    omega
  · rw [if_neg hi]
    omega

theorem eq_of_id_eq {users : List User} (hdistinct : (users.map User.id).Nodup) {i j : Nat}
    {u v : User} (hi : users[i]? = some u) (hj : users[j]? = some v) (hid : u.id = v.id) :
    i = j := by
  have hi' : (users.map User.id)[i]? = some u.id := by rw [List.getElem?_map, hi]; rfl
  have hj' : (users.map User.id)[j]? = some u.id := by rw [List.getElem?_map, hj, hid]; rfl
  have hlt : i < (users.map User.id).length := (List.getElem?_eq_some_iff.mp hi').1
  exact (List.getElem?_inj hlt hdistinct).mp (hi'.trans hj'.symm)

theorem after_write_of_next {s : State} {t : Nat} {u : User} {rest : List User}
    (h : s.queues[t]? = some (u :: rest)) :
    s.after (.write t) = ⟨s.directory.insert u, s.queues.set t rest⟩ := by
  simp only [State.after, h]

theorem after_write_of_done {s : State} {t : Nat}
    (h : s.queues[t]? = some [] ∨ s.queues[t]? = none) : s.after (.write t) = s := by
  rcases h with h | h <;> simp only [State.after, h]

section

variable {users : List User} {n : Nat} {had : Nat → Nat} {s : State}

theorem Stands.write_next (h : Stands users n had s) (hdistinct : (users.map User.id).Nodup)
    {t : Nat} (ht : t < n) {u : User} {rest : List User}
    (hdrop : (share users n t).drop (had t) = u :: rest) :
    Stands users n (fun w => had w + if w = t then 1 else 0) (s.after (.write t)) := by
  have hqueue : s.queues[t]? = some (u :: rest) := by rw [h.queue, if_pos ht, hdrop]
  have hrest : (share users n t).drop (had t + 1) = rest := by
    rw [← List.tail_drop, hdrop, List.tail_cons]
  have hu : users[t + had t * n]? = some u := by
    have hhead : ((share users n t).drop (had t))[0]? = some u := by rw [hdrop]; rfl
    rw [List.getElem?_drop, Nat.add_zero, getElem?_share users ht] at hhead
    exact hhead
  rw [after_write_of_next hqueue]
  refine ⟨?_, ?_⟩
  · intro w
    show (s.queues.set t rest)[w]? = _
    rw [List.getElem?_set]
    by_cases hw : t = w
    · subst hw
      have hlen : t < s.queues.length := (List.getElem?_eq_some_iff.mp hqueue).1
      rw [if_pos rfl, if_pos hlen, if_pos ht, if_pos rfl, hrest]
    · rw [if_neg hw, h.queue, if_neg (Ne.symm hw), Nat.add_zero]
  · intro id v
    show (s.directory.insert u).find? id = some v ↔ _
    simp only [passed_succ_iff ht]
    rw [Directory.find?_insert]
    by_cases hid : id = u.id
    · rw [if_pos hid]
      constructor
      · intro huv
        cases huv
        exact ⟨t + had t * n, hu, hid.symm, .inr rfl⟩
      · -- Nobody else is listed with this id, so nobody else can be overwritten or found.
        rintro ⟨i, hi, hv, _⟩
        have hpos := eq_of_id_eq hdistinct hi hu (hv.trans hid)
        rw [hpos, hu] at hi
        exact hi
    · rw [if_neg hid, h.stored]
      constructor
      · rintro ⟨i, hi, hv, hlt⟩
        exact ⟨i, hi, hv, .inl hlt⟩
      · rintro ⟨i, hi, hv, hlt | hpos⟩
        · exact ⟨i, hi, hv, hlt⟩
        · rw [hpos, hu] at hi
          cases hi
          exact absurd hv.symm hid

/-- A turn of a writer that has no user left, or of one that does not take part. -/
theorem Stands.write_done (h : Stands users n had s) {t : Nat}
    (hdone : t < n → (share users n t).drop (had t) = []) (hn : 0 < n) :
    Stands users n (fun w => had w + if w = t then 1 else 0) (s.after (.write t)) := by
  have hqueue : s.queues[t]? = some [] ∨ s.queues[t]? = none := by
    rw [h.queue]
    by_cases ht : t < n
    · rw [if_pos ht, hdone ht]
      exact .inl rfl
    · rw [if_neg ht]
      exact .inr rfl
  rw [after_write_of_done hqueue]
  refine ⟨?_, ?_⟩
  · intro w
    rw [h.queue]
    by_cases hw : w = t
    · subst hw
      by_cases ht : w < n
      · rw [if_pos ht, if_pos ht, if_pos rfl, hdone ht, ← List.tail_drop, hdone ht]
        rfl
      · rw [if_neg ht, if_neg ht]
    · rw [if_neg hw, Nat.add_zero]
  · intro id v
    rw [h.stored]
    constructor
    · rintro ⟨i, hi, hv, hlt⟩
      exact ⟨i, hi, hv, Nat.lt_add_right _ hlt⟩
    · rintro ⟨i, hi, hv, hlt⟩
      refine ⟨i, hi, hv, ?_⟩
      by_cases ht : t < n
      · rcases (passed_succ_iff ht).mp hlt with hlt | hpos
        · exact hlt
        · -- The writer has run out, so there is nobody at its next position.
          have hnone : ((share users n t).drop (had t))[0]? = none := by rw [hdone ht]; rfl
          rw [List.getElem?_drop, Nat.add_zero, getElem?_share users ht, ← hpos, hi] at hnone
          cases hnone
      · have hother : i % n ≠ t := by
          have hlt := Nat.mod_lt i hn
          omega
        rw [if_neg hother] at hlt
        exact hlt

/-- **One turn moves a race on by that turn.** -/
theorem Stands.after (h : Stands users n had s) (hdistinct : (users.map User.id).Nodup)
    (hn : 0 < n) (turn : Turn) :
    Stands users n (fun w => had w + [turn].count (.write w)) (s.after turn) := by
  cases turn with
  | read id =>
    have hcount : ∀ w, [Turn.read id].count (.write w) = 0 := fun _ => rfl
    simp only [hcount, Nat.add_zero]
    exact h
  | write t =>
    have hcount : ∀ w, [Turn.write t].count (.write w) = if w = t then 1 else 0 := by
      intro w
      by_cases hw : w = t
      · simp [hw]
      · simp [hw, Ne.symm hw]
    simp only [hcount]
    by_cases ht : t < n
    · cases hdrop : (share users n t).drop (had t) with
      | nil => exact h.write_done (fun _ => hdrop) hn
      | cons u rest => exact h.write_next hdistinct ht hdrop
    · exact h.write_done (fun hlt => absurd hlt ht) hn

/-- **A schedule moves a race on by the turns it has.** -/
theorem Stands.afterAll (h : Stands users n had s) (hdistinct : (users.map User.id).Nodup)
    (hn : 0 < n) (turns : List Turn) :
    Stands users n (fun w => had w + turns.count (.write w)) (s.afterAll turns) := by
  induction turns generalizing s had with
  | nil => exact h
  | cons turn turns ih =>
    have hrest := ih (h.after hdistinct hn turn)
    simp only [Nat.add_assoc, ← List.count_append, List.singleton_append] at hrest
    exact hrest

/-! ## What the lookups find -/

theorem Stands.mem_of_find? (h : Stands users n had s) {id : UInt64} {u : User}
    (hu : s.directory.find? id = some u) : u ∈ users ∧ u.id = id := by
  obtain ⟨i, hi, hid, _⟩ := (h.stored id u).mp hu
  exact ⟨List.mem_of_getElem? hi, hid⟩

theorem Stands.find?_afterAll (h : Stands users n had s)
    (hdistinct : (users.map User.id).Nodup) (hn : 0 < n) {id : UInt64} {u : User}
    (hu : s.directory.find? id = some u) (turns : List Turn) :
    (s.afterAll turns).directory.find? id = some u := by
  obtain ⟨i, hi, hid, hlt⟩ := (h.stored id u).mp hu
  rw [(h.afterAll hdistinct hn turns).stored]
  exact ⟨i, hi, hid, Nat.lt_add_right _ hlt⟩

theorem read_eq (d : Directory) (id : UInt64) : read d id = .found (d.find? id) := rfl

theorem afterAll_append (s : State) (xs ys : List Turn) :
    s.afterAll (xs ++ ys) = (s.afterAll xs).afterAll ys := by
  induction xs generalizing s with
  | nil => rfl
  | cons x xs ih => exact ih (s.after x)

theorem readings_append (s : State) (xs ys : List Turn) :
    s.readings (xs ++ ys) = s.readings xs ++ (s.afterAll xs).readings ys := by
  induction xs generalizing s with
  | nil => rfl
  | cons x xs ih =>
    cases x with
    | read id => exact congrArg ((id, read s.directory id) :: ·) (ih s)
    | write t => exact ih (s.after (.write t))

/-- A lookup reads the directory that the turns before it leave. -/
theorem eq_read_of_mem_readings {s : State} {turns : List Turn} {x : UInt64 × Outcome}
    (hx : x ∈ s.readings turns) :
    ∃ before after, turns = before ++ .read x.1 :: after ∧
      x.2 = read (s.afterAll before).directory x.1 := by
  induction turns generalizing s with
  | nil => cases hx
  | cons turn turns ih =>
    cases turn with
    | read id =>
      cases hx with
      | head => exact ⟨[], turns, rfl, rfl⟩
      | tail _ hx =>
        obtain ⟨before, after, rfl, hread⟩ := ih hx
        exact ⟨.read id :: before, after, rfl, hread⟩
    | write t =>
      obtain ⟨before, after, rfl, hread⟩ := ih hx
      exact ⟨.write t :: before, after, rfl, hread⟩

/-- A lookup comes to nothing, or to a listed user with the id it asks for. -/
theorem Stands.read_cases (h : Stands users n had s) (id : UInt64) :
    read s.directory id = .found none ∨
      ∃ u ∈ users, u.id = id ∧ read s.directory id = .found (some u) := by
  rw [read_eq]
  cases hfound : s.directory.find? id with
  | none => exact .inl rfl
  | some u =>
    obtain ⟨hu, hid⟩ := h.mem_of_find? hfound
    exact .inr ⟨u, hu, hid, rfl⟩

/-- No lookup fails, and of a listed id it finds nobody but the user listed with it. -/
theorem Stands.read_sane (h : Stands users n had s) (hdistinct : (users.map User.id).Nodup)
    (id : UInt64) :
    (∃ found, read s.directory id = .found found) ∧
      ∀ u ∈ users, u.id = id →
        read s.directory id = .found none ∨ read s.directory id = .found (some u) := by
  rcases h.read_cases id with hnone | ⟨v, hv, hid, hsome⟩
  · exact ⟨⟨none, hnone⟩, fun _ _ _ => .inl hnone⟩
  · refine ⟨⟨some v, hsome⟩, ?_⟩
    intro u hu huid
    have huv : u = v := List.inj_on_of_nodup_map hdistinct hu hv (huid.trans hid.symm)
    rw [huv]
    exact .inr hsome

/-- **Once a lookup of an id has found its user, all later ones do.** -/
theorem Stands.readings_pairwise (h : Stands users n had s)
    (hdistinct : (users.map User.id).Nodup) (hn : 0 < n) (turns : List Turn) :
    (s.readings turns).Pairwise fun first later =>
      later.1 = first.1 → ∀ u, first.2 = .found (some u) → later.2 = .found (some u) := by
  induction turns generalizing s had with
  | nil => exact .nil
  | cons turn turns ih =>
    cases turn with
    | write t => exact ih (h.after hdistinct hn (.write t))
    | read id =>
      refine .cons ?_ (ih h)
      -- A later lookup reads a directory that this one's has grown into.
      intro later hlater hid u hu
      obtain ⟨before, _, _, hread⟩ := eq_read_of_mem_readings hlater
      have hfound : s.directory.find? id = some u := Outcome.found.inj hu
      rw [hread, hid, read_eq, h.find?_afterAll hdistinct hn hfound]

/-! ## When all writers are done -/

/-- The writers are done when each has had as many turns as it has users. -/
theorem Stands.isOver_iff (h : Stands users n had s) :
    s.isOver = true ↔ ∀ t < n, (share users n t).length ≤ had t := by
  rw [State.isOver, List.all_eq_true]
  constructor
  · intro hall t ht
    have hqueue := h.queue t
    rw [if_pos ht] at hqueue
    have hempty := hall _ (List.mem_of_getElem? hqueue)
    exact List.drop_eq_nil_iff.mp (List.isEmpty_iff.mp hempty)
  · intro hdone q hq
    obtain ⟨t, ht⟩ := List.getElem?_of_mem hq
    have hqueue := h.queue t
    rw [ht] at hqueue
    split at hqueue
    · next hlt =>
      rw [Option.some.inj hqueue, List.isEmpty_iff]
      exact List.drop_eq_nil_iff.mpr (hdone t hlt)
    · cases hqueue

theorem Stands.find?_of_isOver (h : Stands users n had s) (hn : 0 < n)
    (hover : s.isOver = true) {u : User} (hu : u ∈ users) :
    s.directory.find? u.id = some u := by
  obtain ⟨i, hi⟩ := List.getElem?_of_mem hu
  have ht : i % n < n := Nat.mod_lt i hn
  -- The user stands in its writer's share, and the writer has passed all of that.
  have hshare : (share users n (i % n))[i / n]? = some u := by
    rw [getElem?_share users ht, ← (eq_add_mul_iff ht).mpr ⟨rfl, rfl⟩, hi]
  have hlt : i / n < (share users n (i % n)).length := (List.getElem?_eq_some_iff.mp hshare).1
  have hdone := h.isOver_iff.mp hover (i % n) ht
  rw [h.stored]
  exact ⟨i, hi, rfl, Nat.lt_of_lt_of_le hlt hdone⟩

theorem Stands.size_of_isOver (h : Stands users n had s)
    (hdistinct : (users.map User.id).Nodup) (hn : 0 < n) (hover : s.isOver = true) :
    s.directory.size = users.length := by
  have hids : s.directory.idSet = (users.map User.id).toFinset := by
    ext id
    rw [Directory.mem_idSet_iff_isSome, Option.isSome_iff_exists, List.mem_toFinset, List.mem_map]
    constructor
    · rintro ⟨u, hu⟩
      exact ⟨u, h.mem_of_find? hu⟩
    · rintro ⟨u, hu, rfl⟩
      exact ⟨u, h.find?_of_isOver hn hover hu⟩
  rw [← Directory.card_idSet, hids, List.toFinset_card_of_nodup hdistinct, List.length_map]

/-- A lookup on the way comes to nothing, or to a listed user with the id it asked for. -/
theorem Stands.found_of_mem_readings (h : Stands users n had s)
    (hdistinct : (users.map User.id).Nodup) (hn : 0 < n) {turns : List Turn}
    {x : UInt64 × Outcome} (hx : x ∈ s.readings turns) :
    x.2 = .found none ∨ ∃ u ∈ users, u.id = x.1 ∧ x.2 = .found (some u) := by
  obtain ⟨before, _, _, hread⟩ := eq_read_of_mem_readings hx
  rw [hread]
  exact (h.afterAll hdistinct hn before).read_cases x.1

end

/-! ## Races from the start -/

/-- Where a race stands after a schedule is told by how often each writer has its turn. -/
theorem stands_afterAll {users : List User} {n : Nat} (hdistinct : (users.map User.id).Nodup)
    (hn : 0 < n) (turns : List Turn) :
    Stands users n (fun t => turns.count (.write t)) ((start users n).afterAll turns) := by
  have h := (stands_start users n).afterAll hdistinct hn turns
  simp only [Nat.zero_add] at h
  exact h

/-- **No schedule makes a difference.** For users with distinct ids, shared out among any number of
writers, and for every order of the writers' turns and the lookups:

* writer `t` of `n` has the users at the positions `t`, `t + n`, `t + 2 n`, … to store;
* each turn of a lookup has its own entry among the readings: what is read from the directory that
  the turns before it leave;
* no lookup fails, and a lookup of a listed id comes to nothing or to the user listed with it;
* once a lookup of an id has found its user, all later ones do;
* the writers are done exactly when each has had a turn for each user of its share, and then all
  users are there: the size is their number, and each is found under its id. -/
theorem every_schedule_settles {users : List User} {n : Nat}
    (hdistinct : (users.map User.id).Nodup) (hn : 0 < n) (turns : List Turn) :
    (∀ t < n, ∀ j, (share users n t)[j]? = users[t + j * n]?) ∧
    (∀ before id after, turns = before ++ .read id :: after →
      let s := (start users n).afterAll before
      (start users n).readings turns =
        (start users n).readings before ++ (id, read s.directory id) :: s.readings after ∧
      (∃ found, read s.directory id = .found found) ∧
      (∀ u ∈ users, u.id = id →
        read s.directory id = .found none ∨ read s.directory id = .found (some u)) ∧
      ∀ u, read s.directory id = .found (some u) →
        ∀ middle later, after = middle ++ .read id :: later →
          read ((start users n).afterAll (before ++ .read id :: middle)).directory id =
            .found (some u)) ∧
    (∀ x ∈ (start users n).readings turns,
      (∃ found, x.2 = .found found) ∧
        ∀ u ∈ users, u.id = x.1 → x.2 = .found none ∨ x.2 = .found (some u)) ∧
    ((start users n).readings turns).Pairwise (fun first later =>
      later.1 = first.1 → ∀ u, first.2 = .found (some u) → later.2 = .found (some u)) ∧
    (((start users n).afterAll turns).isOver = true ↔
      ∀ t < n, (share users n t).length ≤ turns.count (.write t)) ∧
    (((start users n).afterAll turns).isOver = true →
      ((start users n).afterAll turns).directory.size = users.length ∧
        ∀ u ∈ users, read ((start users n).afterAll turns).directory u.id = .found (some u)) := by
  have hstart := stands_start users n
  have hend := stands_afterAll hdistinct hn turns
  refine ⟨?_, ?_, ?_, hstart.readings_pairwise hdistinct hn turns, hend.isOver_iff, ?_⟩
  · intro t ht j
    exact getElem?_share users ht j
  · rintro before id after rfl s
    have hbefore := stands_afterAll hdistinct hn before
    obtain ⟨hfound, hsane⟩ := hbefore.read_sane hdistinct id
    refine ⟨readings_append _ before _, hfound, hsane, ?_⟩
    intro u hu middle later _
    have hthere : s.directory.find? id = some u := Outcome.found.inj hu
    rw [read_eq, afterAll_append, hbefore.find?_afterAll hdistinct hn hthere]
  · intro x hx
    obtain ⟨before, _, _, hread⟩ := eq_read_of_mem_readings hx
    rw [hread]
    exact (hstart.afterAll hdistinct hn before).read_sane hdistinct x.1
  · intro hover
    refine ⟨hend.size_of_isOver hdistinct hn hover, ?_⟩
    intro u hu
    rw [read_eq, hend.find?_of_isOver hn hover hu]

def threeUsers : List User := [⟨5, "Ann", "ann@x.com"⟩, ⟨2, "Bob", "bob@x.com"⟩, ⟨9, "Cid", ""⟩]

/-- The second writer is ahead of the first, and an id is looked up before and after it is
stored. -/
def crossedTurns : List Turn := [.write 1, .read 9, .read 2, .write 0, .write 0, .read 9]

theorem every_schedule_settles_crossed :
    (threeUsers.map User.id).Nodup ∧ 0 < 2 ∧
      (start threeUsers 2).readings crossedTurns =
        [(9, .found none), (2, .found (some ⟨2, "Bob", "bob@x.com"⟩)),
          (9, .found (some ⟨9, "Cid", ""⟩))] ∧
      ((start threeUsers 2).afterAll crossedTurns).isOver = true ∧
      ((start threeUsers 2).afterAll crossedTurns).directory.size = 3 ∧
      read ((start threeUsers 2).afterAll crossedTurns).directory 9 =
        .found (some ⟨9, "Cid", ""⟩) := by
  have hdistinct : (threeUsers.map User.id).Nodup := by decide
  have hover : ((start threeUsers 2).afterAll crossedTurns).isOver = true := by decide
  obtain ⟨_, hreads, _, _, _, hall⟩ := every_schedule_settles hdistinct Nat.two_pos crossedTurns
  obtain ⟨hsize, hfound⟩ := hall hover
  refine ⟨hdistinct, Nat.two_pos, ?_, hover, hsize, hfound ⟨9, "Cid", ""⟩ (by decide)⟩
  exact (hreads [.write 1] 9 (crossedTurns.drop 2) rfl).1.trans (by decide)

/-! ### The report -/

/-- Whatever the schedule, a race in which all writers are done ends in the same report. -/
theorem report_eq {users : List User} {n : Nat} (hdistinct : (users.map User.id).Nodup)
    (hn : 0 < n) {turns : List Turn} (hover : ((start users n).afterAll turns).isOver = true) :
    report users n turns = ⟨true, users.length, users.map fun u => .found (some u)⟩ := by
  have hend := stands_afterAll hdistinct hn turns
  have hsane : ((start users n).readings turns).all (isSane users) = true := by
    rw [List.all_eq_true]
    intro x hx
    rcases (stands_start users n).found_of_mem_readings hdistinct hn hx with hnone | ⟨u, hu, hux⟩
    · simp [isSane, hnone]
    · rw [isSane, Bool.or_eq_true, List.any_eq_true]
      exact .inr ⟨u, hu, by simp [hux]⟩
  have hafter : (users.map fun u => read ((start users n).afterAll turns).directory u.id) =
      users.map fun u => .found (some u) := by
    apply List.map_congr_left
    intro u hu
    rw [read_eq, hend.find?_of_isOver hn hover hu]
  rw [report, hsane, hafter, hend.size_of_isOver hdistinct hn hover]

theorem count_schedule (users : List User) (n t : Nat) :
    (schedule users n).count (.write t) = (share users n t).length := by
  rw [schedule, share]
  generalize users.zipIdx = places
  induction places with
  | nil => rfl
  | cons place places ih =>
    obtain ⟨u, i⟩ := place
    rw [List.flatMap_cons, List.count_append, ih]
    by_cases hi : i % n = t
    · simp [hi, Nat.add_comm]
    · simp [hi]

/-- **Writers that take turns always end in the same report**: every lookup on the way was sane, and
all users are there. -/
theorem run_eq {users : List User} {n : Nat} (hdistinct : (users.map User.id).Nodup)
    (hn : 0 < n) :
    run users n = ⟨true, users.length, users.map fun u => .found (some u)⟩ := by
  apply report_eq hdistinct hn
  rw [(stands_afterAll hdistinct hn _).isOver_iff]
  intro t _
  exact Nat.le_of_eq (count_schedule users n t).symm

end Roster.Race
