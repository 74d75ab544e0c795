import Roster.Proofs.Directory.Exchange
import Roster.Proofs.Directory.Ids

/-!
# The history of writes

What a directory answers, told from the writes alone. A `History` lists the writes that took effect,
oldest first; it is read off the exchanges (`History.ofExchanges`), so it rests on what was asked
and answered and not on the directory.

* `History.latest? h id`: the user of the last write about `id`, unless that write removed it;
* `History.live h`: the ids whose last write stored somebody;
* `History.answer h a`: what an action is to be answered after these writes.

A history `Describes` a directory when both agree on what each id has. Every action keeps the two in
step (`Describes.after`), and a directory answers as a history that describes it does
(`Describes.answer_eq`).
-/

namespace Roster

/-- A change of a directory that took effect. -/
inductive Write where
  | stored (user : User)
  | removed (id : UInt64)
deriving DecidableEq

namespace Write

def id : Write → UInt64
  | stored u => u.id
  | removed id => id

def user? : Write → Option User
  | stored u => some u
  | removed _ => none

/-- What an action wrote, as its answer tells. An erasure that found nobody wrote nothing, and a
newcomer was stored under the id of the user that was answered. -/
def ofAnswer? : Action → Answer → Option Write
  | .put u, _ => some (stored u)
  | .putRecord r, _ => some (stored (.ofRecord r))
  | .erase id, .removed (some _) => some (removed id)
  | .enrol _, .enrolled u => some (stored u)
  | .enrolRenamed e _, .renamed changed _ _ => some (stored (e.user changed.id))
  | _, _ => none

end Write

def Exchange.write? (x : Exchange) : Option Write := Write.ofAnswer? x.action x.answer

/-- Writes that took effect, oldest first. -/
abbrev History := List Write

namespace History

def ofExchanges (xs : List Exchange) : History := xs.filterMap Exchange.write?

theorem ofExchanges_cons (x : Exchange) (xs : List Exchange) :
    ofExchanges (x :: xs) = x.write?.toList ++ ofExchanges xs := by
  rw [ofExchanges, List.filterMap_cons]
  cases x.write? <;> rfl

/-- The user of the last write about an id, unless that write removed it. -/
def latest? (h : History) (id : UInt64) : Option User :=
  (h.reverse.find? (·.id == id)).bind Write.user?

/-- The ids whose last write stored somebody. -/
def live (h : History) : Finset UInt64 :=
  (h.map Write.id).toFinset.filter fun id => (latest? h id).isSome

def stored (h : History) : List User := h.filterMap Write.user?

theorem length_stored_concat (h : History) (w : Write) :
    (stored (h ++ [w])).length = (stored h).length + w.user?.toList.length := by
  rw [stored, List.filterMap_append, List.length_append]
  cases hw : w.user? <;> simp [stored, hw]

def newcomer (h : History) (e : Enrolment) : User := e.user (UInt64.ofNat (live h).card + 1)

/-- What an action is to be answered after these writes. -/
def answer (h : History) : Action → Answer
  | .put _ | .putRecord _ => .done
  | .get id => .found (latest? h id)
  | .getRecord id => .foundRecord ((latest? h id).map User.toRecord)
  | .contains id => .isHeld (latest? h id).isSome
  | .erase id => .removed (latest? h id)
  | .size => .count (live h).card
  | .enrol e => .enrolled (newcomer h e)
  | .enrolRenamed e name =>
    let changed := (newcomer h e).rename name
    .renamed changed (some (newcomer h e)) (some (newcomer h e) == some changed)

/-! ### The last write about an id -/

@[simp] theorem latest?_nil (id : UInt64) : latest? [] id = none := rfl

/-- One more write decides its own id and no other. -/
theorem latest?_concat (h : History) (w : Write) (id : UInt64) :
    latest? (h ++ [w]) id = if w.id = id then w.user? else latest? h id := by
  rw [latest?, List.reverse_append, List.reverse_singleton, List.singleton_append, List.find?_cons]
  by_cases hw : w.id = id
  · simp [hw]
  · rw [beq_false_of_ne hw, if_neg hw]
    rfl

/-- **The last write wins.** A user is the latest under an id exactly when it was stored there and
no later write was about that id. -/
theorem latest?_eq_some_iff {h : History} {id : UInt64} {u : User} :
    latest? h id = some u ↔
      ∃ before after, h = before ++ .stored u :: after ∧ u.id = id ∧ ∀ w ∈ after, w.id ≠ id := by
  constructor
  · intro hu
    obtain ⟨w, hfind, hw⟩ := Option.bind_eq_some_iff.mp hu
    obtain ⟨hid, newer, older, hsplit, hnewer⟩ := List.find?_eq_some_iff_append.mp hfind
    have hstored : w = .stored u := by
      cases w with
      | stored v => rw [Option.some.inj hw]
      | removed _ => cases hw
    subst hstored
    refine ⟨older.reverse, newer.reverse, ?_, by simpa [Write.id] using hid, ?_⟩
    · have := congrArg List.reverse hsplit
      simpa using this
    · intro w hmem
      simpa using hnewer w (List.mem_reverse.mp hmem)
  · rintro ⟨before, after, rfl, hid, hafter⟩
    have hfind : (before ++ .stored u :: after).reverse.find? (·.id == id) = some (.stored u) := by
      rw [List.find?_eq_some_iff_append]
      refine ⟨by simpa [Write.id] using hid, after.reverse, before.reverse, by simp, ?_⟩
      intro w hw
      simpa using hafter w (List.mem_reverse.mp hw)
    rw [latest?, hfind]
    rfl

theorem id_of_latest? {h : History} {id : UInt64} {u : User} (hu : latest? h id = some u) :
    u.id = id := by
  obtain ⟨_, _, _, hid, _⟩ := latest?_eq_some_iff.mp hu
  exact hid

theorem mem_stored_of_latest? {h : History} {id : UInt64} {u : User}
    (hu : latest? h id = some u) : u ∈ stored h := by
  obtain ⟨before, after, rfl, _⟩ := latest?_eq_some_iff.mp hu
  exact List.mem_filterMap.mpr ⟨.stored u, by simp, rfl⟩

theorem mem_live {h : History} {id : UInt64} : id ∈ live h ↔ (latest? h id).isSome = true := by
  rw [live, Finset.mem_filter, List.mem_toFinset, and_iff_right_iff_imp]
  intro hsome
  obtain ⟨u, hu⟩ := Option.isSome_iff_exists.mp hsome
  obtain ⟨before, after, rfl, hid, _⟩ := latest?_eq_some_iff.mp hu
  exact List.mem_map.mpr ⟨.stored u, by simp, hid⟩

/-- No more ids are live than users were stored. -/
theorem card_live_le (h : History) : (live h).card ≤ (stored h).length := by
  have hsub : live h ⊆ ((stored h).map User.id).toFinset := by
    intro id hid
    obtain ⟨u, hu⟩ := Option.isSome_iff_exists.mp (mem_live.mp hid)
    rw [List.mem_toFinset]
    exact List.mem_map.mpr ⟨u, mem_stored_of_latest? hu, id_of_latest? hu⟩
  calc (live h).card
      ≤ ((stored h).map User.id).toFinset.card := Finset.card_le_card hsub
    _ ≤ ((stored h).map User.id).length := List.toFinset_card_le _
    _ = (stored h).length := List.length_map _

/-! ### Histories and directories -/

/-- The history and the directory agree on what each id has. -/
def Describes (h : History) (d : Directory) : Prop := ∀ id, d.find? id = latest? h id

theorem describes_empty : Describes [] .empty := by
  intro id
  rw [Directory.find?_empty, latest?_nil]

namespace Describes

variable {h : History} {d : Directory}

theorem idSet_eq (hd : Describes h d) : d.idSet = live h := by
  ext id
  rw [Directory.mem_idSet_iff_isSome, hd id, mem_live]

theorem size_eq (hd : Describes h d) : d.size = (live h).card := by
  rw [← Directory.card_idSet, hd.idSet_eq]

theorem newcomer_eq (hd : Describes h d) (e : Enrolment) : d.newcomer e = newcomer h e := by
  rw [Directory.newcomer, Directory.nextId, hd.size_eq, newcomer]

/-- A directory answers what the history dictates. -/
theorem answer_eq (hd : Describes h d) (a : Action) : d.answer a = answer h a := by
  cases a with
  | put u => rfl
  | putRecord r => rfl
  | get id => rw [Directory.answer, answer, hd id]
  | getRecord id => rw [Directory.answer, answer, hd id]
  | contains id => rw [Directory.answer, answer, Directory.contains_eq_isSome_find?, hd id]
  | erase id => rw [Directory.answer, answer, hd id]
  | size => rw [Directory.answer, answer, hd.size_eq]
  | enrol e => rw [Directory.answer, answer, hd.newcomer_eq]
  | enrolRenamed e name =>
    have hfound : (d.enrol e).find? (d.newcomer e).id = some (d.newcomer e) := by
      rw [Directory.enrol, Directory.find?_insert, if_pos rfl]
    simp only [Directory.answer, answer, hfound]
    rw [hd.newcomer_eq]

theorem insert (hd : Describes h d) (u : User) : Describes (h ++ [.stored u]) (d.insert u) := by
  intro id
  rw [Directory.find?_insert, latest?_concat, hd id]
  by_cases hid : id = u.id
  · simp [hid, Write.id, Write.user?]
  · simp [hid, Ne.symm hid, Write.id]

theorem erase (hd : Describes h d) (id₀ : UInt64) :
    Describes (h ++ [.removed id₀]) (d.erase id₀) := by
  intro id
  rw [Directory.find?_erase, latest?_concat, hd id]
  by_cases hid : id = id₀
  · simp [hid, Write.id, Write.user?]
  · simp [hid, Ne.symm hid, Write.id]

theorem erase_of_none (hd : Describes h d) {id₀ : UInt64} (hnone : d.find? id₀ = none) :
    Describes h (d.erase id₀) := by
  intro id
  rw [Directory.find?_erase, ← hd id]
  split
  · next hid => rw [hid, hnone]
  · rfl

/-- An action that wrote nothing adds nothing to the history. -/
theorem of_no_write {a : Action} (hwrite : (d.exchange a).write? = none)
    (hsame : Describes h (d.after a)) :
    Describes (h ++ (d.exchange a).write?.toList) (d.after a) := by
  rw [hwrite, Option.toList_none, List.append_nil]
  exact hsame

/-- **One action keeps history and directory in step**: what the exchange tells of it is the write
that took effect. -/
theorem after (hd : Describes h d) (a : Action) :
    Describes (h ++ (d.exchange a).write?.toList) (d.after a) := by
  cases a with
  | put u => exact hd.insert u
  | putRecord r => exact hd.insert (.ofRecord r)
  | erase id =>
    cases hfind : d.find? id with
    | none =>
      have hwrite : (d.exchange (.erase id)).write? = none := by
        simp only [Exchange.write?, Directory.exchange, Directory.answer, hfind, Write.ofAnswer?]
      exact of_no_write hwrite (hd.erase_of_none hfind)
    | some u =>
      have hwrite : (d.exchange (.erase id)).write? = some (.removed id) := by
        simp only [Exchange.write?, Directory.exchange, Directory.answer, hfind, Write.ofAnswer?]
      rw [hwrite]
      exact hd.erase id
  | enrol e => exact hd.insert (d.newcomer e)
  | enrolRenamed e name => exact hd.insert (d.newcomer e)
  | get id => exact of_no_write rfl hd
  | getRecord id => exact of_no_write rfl hd
  | contains id => exact of_no_write rfl hd
  | size => exact of_no_write rfl hd

theorem afterAll (hd : Describes h d) (as : List Action) :
    Describes (h ++ ofExchanges (d.exchanges as)) (d.afterAll as) := by
  induction as generalizing h d with
  | nil => simpa [ofExchanges] using hd
  | cons a as ih =>
    have hrest := ih (hd.after a)
    rw [Directory.exchanges_cons, ofExchanges_cons, ← List.append_assoc]
    exact hrest

end Describes

end History

end Roster
