import Roster.Proofs.Directory.Dense
import Roster.Proofs.Registry.Retelling
import Roster.Proofs.Registry.Targets

/-!
# A rush of newcomers

Any number of enrolments side by side, through any registrars of a store. An enrolment takes a
number, checks it and stores its user, and each of these steps sees the store as it then is: between
them others may take the same number and store under it. A `Turn` is one step of one call, or
anything else that happens in the registry meanwhile.

* A call that is left alone comes to an enrolment (`registry_of_alone`).
* `Passed` lists what a turn can do to the calls and to their store; `passed_after` is the one place
  where a turn is opened.
* `Rush.entries` are the users stored by the calls of a run, in the order in which they were stored.
* `Stands` is what every turn keeps (`Stands.passed`), and so every run (`Stands.afterAll`): the
  store is dense, and no call under way holds a number beyond the next id. So a number may be stale,
  but storing under it never leaves a gap.
* `InTurn` holds as well if the calls do not overlap (`InTurn.afterAll`): a number that is held is
  the next id.
-/

namespace Roster

open Log (Event)

namespace Registry

/-- A move that writes nothing to a store leaves its directory as it is. -/
theorem directory_of_no_write {r : Registry} {n : Nat} {m : Move}
    (h : (r.exchange? n m).bind Exchange.write? = none) :
    (r.after m).directory n = r.directory n := by
  rw [directory_after]
  cases hx : r.exchange? n m with
  | none => rfl
  | some x =>
    rw [hx, eq_exchange_of_exchange? hx, Option.bind_some] at h
    rcases (r.directory n).change_cases x.action with ⟨_, _, ha⟩ | ⟨u, hw, _⟩ | ⟨id, hw, _⟩
    · exact ha
    · rw [h] at hw
      cases hw
    · rw [h] at hw
      cases hw

end Registry

namespace Enrolment.Stage

def held? : Stage → Option UInt64
  | numbered id | checked id => some id
  | requested | entered _ => none

def answer? : Stage → Option User
  | entered u => some u
  | requested | numbered _ | checked _ => none

end Enrolment.Stage

/-! ## The rush -/

/-- A request to enter someone new, and who is asked. -/
structure Application where
  target : Registry.Target
  request : Enrolment
deriving DecidableEq

structure Rush.Call extends Application where
  stage : Enrolment.Stage
deriving DecidableEq

/-- A registry with enrolments that have been called for. -/
structure Rush where
  registry : Registry
  calls : List Rush.Call

namespace Rush

inductive Turn where
  /-- A call takes its next step. -/
  | advance (call : Nat)
  /-- Something else happens in the registry. -/
  | move (m : Registry.Move)
deriving DecidableEq

/-- A user that a call has stored, and what was reported of it. -/
structure Entry where
  call : Nat
  user : User
  events : List Event
deriving DecidableEq

def Entry.overwrites (x : Entry) : Bool := x.events.any Event.isOverwrote

def start (r : Registry) (applications : List Application) : Rush :=
  ⟨r, applications.map (⟨·, .requested⟩)⟩

/-- The next step of a call, in the store that is asked. -/
def step? (s : Rush) (c : Call) : Option (Nat × Enrolment.Advance) :=
  (s.registry.storeNumber? c.target).map fun n =>
    (n, c.stage.advance c.request (s.registry.directory n))

def after (s : Rush) : Turn → Rush
  | .move m => { s with registry := s.registry.after m }
  | .advance i =>
    match s.calls[i]? with
    | none => s
    | some c =>
      match s.step? c with
      | none => s
      | some (n, a) =>
        ⟨s.registry.setDirectory n a.directory, s.calls.set i { c with stage := a.stage }⟩

def afterAll (s : Rush) : List Turn → Rush
  | [] => s
  | t :: ts => (s.after t).afterAll ts

/-- The user that a turn stores, if it is the last step of a call. -/
def stored? (s : Rush) : Turn → Option Entry
  | .move _ => none
  | .advance i =>
    (s.calls[i]?).bind fun c =>
      match c.stage with
      | .checked _ =>
        (s.step? c).bind fun (_, a) => a.stage.answer?.map fun u => ⟨i, u, a.events⟩
      | _ => none

def entries (s : Rush) : List Turn → List Entry
  | [] => []
  | t :: ts => (s.stored? t).toList ++ (s.after t).entries ts

def answer? (s : Rush) (i : Nat) : Option User := (s.calls[i]?).bind (·.stage.answer?)

def answered (s : Rush) : Nat := s.calls.countP (·.stage.answer?.isSome)

def underWay (s : Rush) : Nat := s.calls.countP (·.stage.held?.isSome)

/-- Whether nothing but the calls writes to a store. -/
def Quiet (n : Nat) (s : Rush) : List Turn → Prop
  | [] => True
  | .advance i :: ts => (s.after (.advance i)).Quiet n ts
  | .move m :: ts =>
    (s.registry.exchange? n m).bind Exchange.write? = none ∧ (s.after (.move m)).Quiet n ts

instance decidableQuiet (n : Nat) (s : Rush) : (ts : List Turn) → Decidable (s.Quiet n ts)
  | [] => inferInstanceAs (Decidable True)
  | .advance i :: ts => decidableQuiet n (s.after (.advance i)) ts
  | .move m :: ts =>
    have := decidableQuiet n (s.after (.move m)) ts
    inferInstanceAs (Decidable (_ ∧ _))

/-- Whether no two calls are ever under way together. -/
def Apart (s : Rush) : List Turn → Prop
  | [] => s.underWay ≤ 1
  | t :: ts => s.underWay ≤ 1 ∧ (s.after t).Apart ts

instance decidableApart (s : Rush) : (ts : List Turn) → Decidable (s.Apart ts)
  | [] => inferInstanceAs (Decidable (_ ≤ _))
  | t :: ts =>
    have := decidableApart (s.after t) ts
    inferInstanceAs (Decidable (_ ∧ _))

/-! ## One turn -/

/-- What a turn comes to in a store that every call is made of, with the user it stores there. -/
inductive Passed (n : Nat) (s s' : Rush) : Option Entry → Prop where
  /-- Nothing about the calls or the store has changed. -/
  | idle (hcalls : s'.calls = s.calls)
      (hdir : s'.registry.directory n = s.registry.directory n) : Passed n s s' none
  /-- A call holds a number: the next id, if it held none before. -/
  | holds {i : Nat} {c : Call} {stage : Enrolment.Stage} {id : UInt64}
      (hc : s.calls[i]? = some c) (hopen : c.stage.answer? = none)
      (hheld : stage.held? = some id) (hanswer : stage.answer? = none)
      (hid : c.stage.held? = some id ∨ id = (s.registry.directory n).nextId)
      (hcalls : s'.calls = s.calls.set i { c with stage })
      (hdir : s'.registry.directory n = s.registry.directory n) : Passed n s s' none
  /-- A call stores its user under the number that it holds. -/
  | stores {i : Nat} {c : Call} {id : UInt64}
      (hc : s.calls[i]? = some c) (hstage : c.stage = .checked id)
      (hcalls : s'.calls = s.calls.set i { c with stage := .entered (c.request.user id) })
      (hdir : s'.registry.directory n = (s.registry.directory n).insert (c.request.user id)) :
      Passed n s s' (some ⟨i, c.request.user id,
        (s.registry.directory n).entryEvents (c.request.user id)⟩)

/-- Whether all calls are made of one store, which is there. -/
def Meets (n : Nat) (s : Rush) : Prop := ∀ c ∈ s.calls, s.registry.Reaches c.target n

theorem step?_of_reaches {n : Nat} {s : Rush} {c : Call} (h : s.registry.Reaches c.target n) :
    s.step? c = some (n, c.stage.advance c.request (s.registry.directory n)) := by
  rw [step?, h.1, Option.map_some]

theorem after_advance {n i : Nat} {s : Rush} {c : Call} (hc : s.calls[i]? = some c)
    (h : s.registry.Reaches c.target n) :
    s.after (.advance i) =
      let a := c.stage.advance c.request (s.registry.directory n)
      ⟨s.registry.setDirectory n a.directory, s.calls.set i { c with stage := a.stage }⟩ := by
  simp only [after, hc, step?_of_reaches h]

theorem Meets.after {n : Nat} {s : Rush} (h : s.Meets n) (t : Turn) : (s.after t).Meets n := by
  cases t with
  | move m =>
    intro c hc
    exact (h c hc).after m
  | advance i =>
    cases hc : s.calls[i]? with
    | none =>
      simp only [Rush.after, hc]
      exact h
    | some c =>
      have hreach := h c (List.mem_of_getElem? hc)
      rw [after_advance hc hreach]
      intro c' hc'
      rcases List.mem_or_eq_of_mem_set hc' with hold | rfl
      · exact (h c' hold).setDirectory _ _
      · exact hreach.setDirectory _ _

theorem after_advance_again {n i : Nat} {r : Registry} {calls : List Call} {c : Call}
    (hlt : i < calls.length) (h : r.Reaches c.target n) (d : Directory)
    (stage : Enrolment.Stage) :
    (Rush.mk (r.setDirectory n d) (calls.set i { c with stage })).after (.advance i) =
      let a := stage.advance c.request d
      ⟨r.setDirectory n a.directory, calls.set i { c with stage := a.stage }⟩ := by
  rw [after_advance (List.getElem?_set_self hlt) (h.setDirectory n d)]
  simp only [Registry.directory_setDirectory h.2, Registry.setDirectory_setDirectory,
    List.set_set]

/-- A call that is left alone comes to an enrolment. -/
theorem registry_of_alone {n i : Nat} {s : Rush} {c : Call} (hc : s.calls[i]? = some c)
    (h : s.registry.Reaches c.target n) (hstage : c.stage = .requested) :
    (s.afterAll [.advance i, .advance i, .advance i]).registry =
      s.registry.after (.command (.act c.target (.enrol c.request))) := by
  have hlt : i < s.calls.length := (List.getElem?_eq_some_iff.mp hc).1
  rw [Registry.after_act h]
  simp only [afterAll, after_advance hc h, hstage, after_advance_again hlt h]
  rfl

/-- **What a turn can do to the calls and to their store.** -/
theorem passed_after {n : Nat} {s : Rush} (h : s.Meets n) {t : Turn}
    (hquiet : s.Quiet n [t]) : Passed n s (s.after t) (s.stored? t) := by
  cases t with
  | move m => exact .idle rfl (Registry.directory_of_no_write hquiet.1)
  | advance i =>
    cases hc : s.calls[i]? with
    | none =>
      simp only [after, stored?, hc]
      exact .idle rfl rfl
    | some c =>
      have hreach := h c (List.mem_of_getElem? hc)
      have hdir := Registry.directory_setDirectory hreach.2
      rw [after_advance hc hreach]
      simp only [stored?, hc, Option.bind_some, step?_of_reaches hreach]
      cases hstage : c.stage with
      | requested => exact .holds hc (by rw [hstage]; rfl) rfl rfl (.inr rfl) rfl (hdir _)
      | numbered id =>
        exact .holds hc (by rw [hstage]; rfl) rfl rfl (.inl (by rw [hstage]; rfl)) rfl (hdir _)
      | checked id => exact .stores hc hstage rfl (hdir _)
      | entered u =>
        refine .idle ?_ (hdir _)
        have hsame : ({ c with stage := .entered u } : Call) = c := by rw [← hstage]
        show s.calls.set i { c with stage := .entered u } = s.calls
        obtain ⟨_, hget⟩ := List.getElem?_eq_some_iff.mp hc
        rw [hsame, ← hget, List.set_getElem_self]

/-! ## Where a rush stands -/

/-- The users stored by the calls, as they are found in the directory. -/
structure Fills (entries : List Entry) (d : Directory) : Prop where
  dense : d.IsDense
  /-- Under each id stands the user stored there last. -/
  describes : History.Describes (entries.map (.stored ·.user)) d
  used : ∀ x ∈ entries, d.contains x.user.id = true
  balance : d.size + entries.countP Entry.overwrites = entries.length

/-- Where a rush in a store stands once the calls have stored some users there. -/
structure Stands (n : Nat) (entries : List Entry) (s : Rush) : Prop where
  fills : Fills entries (s.registry.directory n)
  /-- A number that is held may be in use by now, but it is not beyond the next id. -/
  held : ∀ c ∈ s.calls, ∀ id, c.stage.held? = some id →
    1 ≤ id.toNat ∧ id.toNat ≤ (s.registry.directory n).size + 1
  /-- The calls that have answered are those that have stored their user. -/
  answer : ∀ i u, s.answer? i = some u ↔ ∃ x ∈ entries, x.call = i ∧ x.user = u
  answered : s.answered = entries.length
  request : ∀ c ∈ s.calls, ∀ u, c.stage.answer? = some u → u = c.request.user u.id

theorem overwrites_entryEvents (d : Directory) (i : Nat) (u : User) :
    (Entry.mk i u (d.entryEvents u)).overwrites = d.contains u.id := by
  show (d.entryEvents u).any Event.isOverwrote = _
  rw [Directory.entryEvents, Directory.insertEvent]
  cases d.contains u.id <;> rfl

theorem fills_empty : Fills [] .empty where
  dense := Directory.isDense_empty
  describes := History.describes_empty
  used := fun _ hx => nomatch hx
  balance := by rw [Directory.size_empty]; rfl

/-- A user stored no higher than the next id leaves no gap, and is found under its id. -/
theorem Fills.insert {entries : List Entry} {d : Directory} (h : Fills entries d) (i : Nat)
    {u : User} (hlow : 1 ≤ u.id.toNat) (hhigh : u.id.toNat ≤ d.size + 1) :
    Fills (entries ++ [⟨i, u, d.entryEvents u⟩]) (d.insert u) := by
  refine ⟨h.dense.insert hlow hhigh, ?_, ?_, ?_⟩
  · rw [List.map_append]
    exact h.describes.insert u
  · intro x hx
    rw [Directory.contains_insert]
    rcases List.mem_append.mp hx with hx | hx
    · exact .inr (h.used x hx)
    · rw [List.mem_singleton.mp hx]
      exact .inl rfl
  · have hbalance := h.balance
    rw [List.countP_append, List.countP_singleton, overwrites_entryEvents, List.length_append,
      List.length_singleton, Directory.size_insert]
    split <;> omega

/-- The user found under an id is the last that was stored there. -/
theorem Fills.last {entries : List Entry} {d : Directory} (h : Fills entries d) {id : UInt64}
    (hid : d.contains id = true) :
    ∃ before x after, entries = before ++ x :: after ∧ x.user.id = id ∧
      (∀ y ∈ after, y.user.id ≠ id) ∧ d.find? id = some x.user := by
  rw [Directory.contains_eq_isSome_find?, Option.isSome_iff_exists] at hid
  obtain ⟨u, hu⟩ := hid
  have hlatest := hu
  rw [h.describes id, History.latest?_eq_some_iff] at hlatest
  obtain ⟨_, _, hsplit, hid, hlast⟩ := hlatest
  obtain ⟨before, rest, rfl, rfl, hrest⟩ := List.map_eq_append_iff.mp hsplit
  obtain ⟨x, after, rfl, hx, rfl⟩ := List.map_eq_cons_iff.mp hrest
  cases hx
  refine ⟨before, x, after, rfl, hid, ?_, hu⟩
  intro y hy
  exact hlast _ (List.mem_map_of_mem hy)

/-! ### Calls that have changed -/

section

variable {s s' : Rush} {i : Nat} {c c' : Call}

theorem answer?_of_set (hc : s.calls[i]? = some c) (hcalls : s'.calls = s.calls.set i c')
    (j : Nat) : s'.answer? j = if i = j then c'.stage.answer? else s.answer? j := by
  have hlt : i < s.calls.length := (List.getElem?_eq_some_iff.mp hc).1
  rw [answer?, hcalls, List.getElem?_set]
  by_cases hij : i = j
  · rw [if_pos hij, if_pos hij, if_pos hlt]
    rfl
  · rw [if_neg hij, if_neg hij]
    rfl

theorem countP_of_set (hc : s.calls[i]? = some c) (hcalls : s'.calls = s.calls.set i c')
    (p : Call → Bool) :
    s'.calls.countP p + (if p c then 1 else 0) = s.calls.countP p + if p c' then 1 else 0 := by
  obtain ⟨hlt, hget⟩ := List.getElem?_eq_some_iff.mp hc
  have hpos : p c = true → 0 < s.calls.countP p := fun hp =>
    List.countP_pos_iff.mpr ⟨c, List.mem_of_getElem? hc, hp⟩
  rw [hcalls, List.countP_set hlt, hget]
  split
  · next hp =>
    have := hpos hp
    omega
  · omega

theorem forall_calls_of_set (hcalls : s'.calls = s.calls.set i c') {p : Call → Prop}
    (hold : ∀ c ∈ s.calls, p c) (hnew : p c') : ∀ c ∈ s'.calls, p c := by
  rw [hcalls]
  intro c hc
  rcases List.mem_or_eq_of_mem_set hc with hc | rfl
  · exact hold c hc
  · exact hnew

end

namespace Stands

variable {n : Nat} {entries : List Entry} {s s' : Rush}

theorem start {r : Registry} (hempty : r.directory n = .empty) (applications : List Application) :
    Stands n [] (Rush.start r applications) := by
  have hrequested : ∀ c ∈ (Rush.start r applications).calls, c.stage = .requested := by
    intro c hc
    obtain ⟨_, _, rfl⟩ := List.mem_map.mp hc
    rfl
  refine ⟨?_, ?_, ?_, ?_, ?_⟩
  · show Fills [] (r.directory n)
    rw [hempty]
    exact fills_empty
  · intro c hc id hid
    rw [hrequested c hc] at hid
    cases hid
  · intro i u
    constructor
    · intro hu
      obtain ⟨c, hc, hu⟩ := Option.bind_eq_some_iff.mp hu
      rw [hrequested c (List.mem_of_getElem? hc)] at hu
      cases hu
    · rintro ⟨_, hx, _⟩
      cases hx
  · rw [Rush.answered, List.length_nil, List.countP_eq_zero]
    intro c hc
    rw [hrequested c hc]
    exact Bool.false_ne_true
  · intro c hc u hu
    rw [hrequested c hc] at hu
    cases hu

theorem idle (h : Stands n entries s) (hcalls : s'.calls = s.calls)
    (hdir : s'.registry.directory n = s.registry.directory n) : Stands n entries s' := by
  refine ⟨?_, ?_, ?_, ?_, ?_⟩
  · rw [hdir]
    exact h.fills
  · rw [hcalls, hdir]
    exact h.held
  · intro i u
    rw [answer?, hcalls]
    exact h.answer i u
  · rw [Rush.answered, hcalls]
    exact h.answered
  · rw [hcalls]
    exact h.request

/-- As long as a call has not answered, there are fewer users than calls. -/
theorem size_lt (h : Stands n entries s) {c : Call} (hc : c ∈ s.calls)
    (hopen : c.stage.answer? = none) : (s.registry.directory n).size < s.calls.length := by
  have hbalance := h.fills.balance
  have hanswered := h.answered
  have hlt : s.answered < s.calls.length := by
    refine Nat.lt_of_le_of_ne List.countP_le_length ?_
    intro hall
    have hsome := List.countP_eq_length.mp hall c hc
    rw [hopen] at hsome
    cases hsome
  omega

theorem holds (h : Stands n entries s) (hfew : s.calls.length < 2 ^ 64) {i : Nat} {c : Call}
    {stage : Enrolment.Stage} {id : UInt64} (hc : s.calls[i]? = some c)
    (hopen : c.stage.answer? = none) (hheld : stage.held? = some id)
    (hanswer : stage.answer? = none)
    (hid : c.stage.held? = some id ∨ id = (s.registry.directory n).nextId)
    (hcalls : s'.calls = s.calls.set i { c with stage })
    (hdir : s'.registry.directory n = s.registry.directory n) : Stands n entries s' := by
  have hmem : c ∈ s.calls := List.mem_of_getElem? hc
  have hfit := Nat.lt_of_le_of_lt (h.size_lt hmem hopen) hfew
  refine ⟨?_, ?_, ?_, ?_, ?_⟩
  · rw [hdir]
    exact h.fills
  · rw [hdir]
    refine forall_calls_of_set hcalls h.held ?_
    intro id' hid'
    obtain rfl : id = id' := Option.some.inj (hheld.symm.trans hid')
    rcases hid with hid | rfl
    · exact h.held c hmem id hid
    · rw [Directory.toNat_nextId hfit]
      omega
  · intro j u
    rw [answer?_of_set hc hcalls, ← h.answer]
    split
    · next hij => rw [← hij, Rush.answer?, hc, Option.bind_some, hanswer, hopen]
    · rfl
  · have hcount := countP_of_set hc hcalls (·.stage.answer?.isSome)
    simp only [hopen, hanswer] at hcount
    rw [← h.answered]
    exact hcount
  · refine forall_calls_of_set hcalls h.request ?_
    intro u hu
    rw [hanswer] at hu
    cases hu

theorem stores (h : Stands n entries s) {i : Nat} {c : Call} {id : UInt64}
    (hc : s.calls[i]? = some c) (hstage : c.stage = .checked id)
    (hcalls : s'.calls = s.calls.set i { c with stage := .entered (c.request.user id) })
    (hdir : s'.registry.directory n = (s.registry.directory n).insert (c.request.user id)) :
    Stands n (entries ++ [⟨i, c.request.user id,
      (s.registry.directory n).entryEvents (c.request.user id)⟩]) s' := by
  obtain ⟨hlow, hhigh⟩ := h.held c (List.mem_of_getElem? hc) id (by rw [hstage]; rfl)
  have hopen : c.stage.answer? = none := by rw [hstage]; rfl
  have hsize : (s.registry.directory n).size ≤ (s'.registry.directory n).size := by
    rw [hdir, Directory.size_insert]
    split <;> omega
  refine ⟨?_, ?_, ?_, ?_, ?_⟩
  · rw [hdir]
    exact h.fills.insert i hlow hhigh
  · refine forall_calls_of_set hcalls ?_ ?_
    · intro c' hc' id' hid'
      have hold := h.held c' hc' id' hid'
      omega
    · intro id' hid'
      cases hid'
  · intro j u
    have hnone : s.answer? i = none := by rw [Rush.answer?, hc, Option.bind_some, hopen]
    simp only [List.mem_append, List.mem_singleton, or_and_right, exists_or, ← h.answer]
    rw [answer?_of_set hc hcalls, exists_eq_left]
    by_cases hij : i = j
    · subst hij
      simp [hnone, Enrolment.Stage.answer?]
    · simp [hij]
  · have hcount := countP_of_set hc hcalls (·.stage.answer?.isSome)
    simp only [hopen] at hcount
    rw [List.length_append, ← h.answered]
    exact hcount
  · refine forall_calls_of_set hcalls h.request ?_
    intro u hu
    cases hu
    rfl

/-- **A turn keeps where a rush stands in step with the users stored.** -/
theorem passed (h : Stands n entries s) (hfew : s.calls.length < 2 ^ 64) {x : Option Entry}
    (hpassed : Passed n s s' x) : Stands n (entries ++ x.toList) s' := by
  cases hpassed with
  | idle hcalls hdir =>
    rw [Option.toList_none, List.append_nil]
    exact h.idle hcalls hdir
  | holds hc hopen hheld hanswer hid hcalls hdir =>
    rw [Option.toList_none, List.append_nil]
    exact h.holds hfew hc hopen hheld hanswer hid hcalls hdir
  | stores hc hstage hcalls hdir => exact h.stores hc hstage hcalls hdir

end Stands

/-! ## Calls that do not overlap -/

/-- Where a rush stands if no two calls have been under way together. -/
structure InTurn (n : Nat) (entries : List Entry) (s : Rush) : Prop where
  /-- A number that is held is the next id still. -/
  held : ∀ c ∈ s.calls, ∀ id, c.stage.held? = some id →
    id.toNat = (s.registry.directory n).size + 1
  fresh : ∀ x ∈ entries, x.overwrites = false
  ids : ∀ i x, entries[i]? = some x → x.user.id.toNat = i + 1

namespace InTurn

variable {n : Nat} {entries : List Entry} {s s' : Rush}

theorem start (n : Nat) (r : Registry) (applications : List Application) :
    InTurn n [] (Rush.start r applications) := by
  refine ⟨?_, ?_, ?_⟩
  · intro c hc id hid
    obtain ⟨_, _, rfl⟩ := List.mem_map.mp hc
    cases hid
  · intro x hx
    cases hx
  · intro i x hx
    cases hx

theorem stores (h : InTurn n entries s) (hs : Stands n entries s) (hone : s.underWay ≤ 1)
    {i : Nat} {c : Call} {id : UInt64}
    (hc : s.calls[i]? = some c) (hstage : c.stage = .checked id)
    (hcalls : s'.calls = s.calls.set i { c with stage := .entered (c.request.user id) }) :
    InTurn n (entries ++ [⟨i, c.request.user id,
      (s.registry.directory n).entryEvents (c.request.user id)⟩]) s' := by
  have hheld : c.stage.held? = some id := by rw [hstage]; rfl
  have hid := h.held c (List.mem_of_getElem? hc) id hheld
  have hfree : (s.registry.directory n).contains id = false := by
    rw [Bool.eq_false_iff, ne_eq, hs.fills.dense, hid]
    omega
  -- So far nobody was replaced, so there are as many users as were stored.
  have hsize : (s.registry.directory n).size = entries.length := by
    have hnever : entries.countP Entry.overwrites = 0 := by
      rw [List.countP_eq_zero]
      intro x hx
      rw [h.fresh x hx]
      exact Bool.false_ne_true
    have hbalance := hs.fills.balance
    omega
  refine ⟨?_, ?_, ?_⟩
  · -- The call that stores was the only one under way.
    have hcount := countP_of_set hc hcalls (·.stage.held?.isSome)
    simp only [hheld] at hcount
    have hnobody : s'.underWay = 0 := by
      have : s'.underWay + 1 = s.underWay := hcount
      omega
    intro c' hc' id' hid'
    have hidle := List.countP_eq_zero.mp hnobody c' hc'
    rw [hid'] at hidle
    exact absurd rfl hidle
  · intro x hx
    rcases List.mem_append.mp hx with hx | hx
    · exact h.fresh x hx
    · rw [List.mem_singleton.mp hx, overwrites_entryEvents]
      exact hfree
  · intro j x hx
    rw [List.getElem?_append] at hx
    split at hx
    · exact h.ids j x hx
    · next hj =>
      rw [List.getElem?_singleton] at hx
      split at hx
      · cases hx
        show id.toNat = j + 1
        omega
      · cases hx

/-- As long as the calls do not overlap, each is done before the next id changes. -/
theorem passed (h : InTurn n entries s) (hs : Stands n entries s) (hone : s.underWay ≤ 1)
    (hfew : s.calls.length < 2 ^ 64) {x : Option Entry} (hpassed : Passed n s s' x) :
    InTurn n (entries ++ x.toList) s' := by
  cases hpassed with
  | idle hcalls hdir =>
    rw [Option.toList_none, List.append_nil]
    refine ⟨?_, h.fresh, h.ids⟩
    rw [hcalls, hdir]
    exact h.held
  | @holds i c stage id hc hopen hheld _ hid hcalls hdir =>
    have hmem : c ∈ s.calls := List.mem_of_getElem? hc
    have hfit := Nat.lt_of_le_of_lt (hs.size_lt hmem hopen) hfew
    rw [Option.toList_none, List.append_nil]
    refine ⟨?_, h.fresh, h.ids⟩
    rw [hdir]
    refine forall_calls_of_set hcalls h.held ?_
    intro id' hid'
    obtain rfl : id = id' := Option.some.inj (hheld.symm.trans hid')
    rcases hid with hid | rfl
    · exact h.held c hmem id hid
    · exact Directory.toNat_nextId hfit
  | stores hc hstage hcalls _ => exact h.stores hs hone hc hstage hcalls

end InTurn

/-! ## Runs -/

theorem Quiet.head {n : Nat} {s : Rush} {t : Turn} {ts : List Turn} (h : s.Quiet n (t :: ts)) :
    s.Quiet n [t] ∧ (s.after t).Quiet n ts := by
  cases t with
  | advance i => exact ⟨trivial, h⟩
  | move m => exact ⟨⟨h.1, trivial⟩, h.2⟩

theorem applications_of_set {calls : List Call} {i : Nat} {c : Call} (hc : calls[i]? = some c)
    (stage : Enrolment.Stage) :
    (calls.set i { c with stage }).map Call.toApplication = calls.map Call.toApplication := by
  obtain ⟨hlt, rfl⟩ := List.getElem?_eq_some_iff.mp hc
  have hlt' : i < (calls.map Call.toApplication).length := by rwa [List.length_map]
  have hself : calls[i].toApplication = (calls.map Call.toApplication)[i] := by
    rw [List.getElem_map]
  rw [List.map_set, hself, List.set_getElem_self]

/-- What was applied for, and of whom, stays as it is. -/
theorem Passed.applications {n : Nat} {s s' : Rush} {x : Option Entry} (h : Passed n s s' x) :
    s'.calls.map Call.toApplication = s.calls.map Call.toApplication := by
  cases h with
  | idle hcalls _ => rw [hcalls]
  | holds hc _ _ _ _ hcalls _ => rw [hcalls, applications_of_set hc]
  | stores hc _ hcalls _ => rw [hcalls, applications_of_set hc]

theorem Passed.length_calls {n : Nat} {s s' : Rush} {x : Option Entry} (h : Passed n s s' x) :
    s'.calls.length = s.calls.length := by
  rw [← List.length_map Call.toApplication, h.applications, List.length_map]

/-- **A run keeps where a rush stands in step with the users stored**, and what was applied for as
it is. -/
theorem Stands.afterAll {n : Nat} {entries : List Entry} {s : Rush} {ts : List Turn}
    (h : Stands n entries s) (hmeets : s.Meets n) (hfew : s.calls.length < 2 ^ 64)
    (hquiet : s.Quiet n ts) :
    Stands n (entries ++ s.entries ts) (s.afterAll ts) ∧
      (s.afterAll ts).calls.map Call.toApplication = s.calls.map Call.toApplication := by
  induction ts generalizing s entries with
  | nil =>
    rw [Rush.entries, List.append_nil]
    exact ⟨h, rfl⟩
  | cons t ts ih =>
    have hpassed := passed_after hmeets hquiet.head.1
    rw [Rush.entries, ← List.append_assoc, ← hpassed.applications]
    exact ih (h.passed hfew hpassed) (hmeets.after t) (hpassed.length_calls ▸ hfew) hquiet.head.2

theorem InTurn.afterAll {n : Nat} {entries : List Entry} {s : Rush} {ts : List Turn}
    (h : InTurn n entries s) (hs : Stands n entries s) (hmeets : s.Meets n)
    (hfew : s.calls.length < 2 ^ 64) (hquiet : s.Quiet n ts) (hapart : s.Apart ts) :
    InTurn n (entries ++ s.entries ts) (s.afterAll ts) := by
  induction ts generalizing s entries with
  | nil =>
    rw [Rush.entries, List.append_nil]
    exact h
  | cons t ts ih =>
    have hpassed := passed_after hmeets hquiet.head.1
    rw [Rush.entries, ← List.append_assoc]
    exact ih (h.passed hs hapart.1 hfew hpassed) (hs.passed hfew hpassed) (hmeets.after t)
      (hpassed.length_calls ▸ hfew) hquiet.head.2 hapart.2

/-- **A rush leaves no gap, though it may replace newcomers.** Let fewer than 2⁶⁴ enrolments be
called for in a store with nobody in it, through whatever registrars, and let nothing else be
written there. However the steps of the calls are interleaved, with each other and with all else
that happens, at every point of the run:

* the ids in use are exactly those from one up to the size;
* a call has answered exactly if it has stored its user; this user is the one applied for, with an
  id from one up to the size, and under that id stands the user that was stored there last;
* the size and the users stored in place of another add up to the users stored.

If the calls do not overlap, nobody is replaced, and the `i`-th user stored gets the `i`-th id. -/
theorem every_rush_stays_dense {r : Registry} {n : Nat} {applications : List Application}
    (hempty : r.directory n = .empty) (hreach : ∀ a ∈ applications, r.Reaches a.target n)
    (hfew : applications.length < 2 ^ 64) {turns : List Turn}
    (hquiet : (start r applications).Quiet n turns) :
    let s := (start r applications).afterAll turns
    let d := s.registry.directory n
    let entries := (start r applications).entries turns
    (∀ id, d.contains id = true ↔ 1 ≤ id.toNat ∧ id.toNat ≤ d.size) ∧
    (∀ i u, s.answer? i = some u ↔ ∃ x ∈ entries, x.call = i ∧ x.user = u) ∧
    (∀ i u, s.answer? i = some u →
      (∃ a, applications[i]? = some a ∧ u = a.request.user u.id) ∧
      1 ≤ u.id.toNat ∧ u.id.toNat ≤ d.size ∧
      ∃ before x after, entries = before ++ x :: after ∧ x.user.id = u.id ∧
        (∀ y ∈ after, y.user.id ≠ u.id) ∧ d.find? u.id = some x.user) ∧
    s.answered = entries.length ∧
    d.size + entries.countP Entry.overwrites = entries.length ∧
    ((start r applications).Apart turns →
      (∀ x ∈ entries, x.overwrites = false) ∧
      ∀ i x, entries[i]? = some x → x.user.id.toNat = i + 1) := by
  intro s d entries
  have happlied : (start r applications).calls.map Call.toApplication = applications := by
    rw [start, List.map_map]
    exact List.map_id _
  have hlen : (start r applications).calls.length < 2 ^ 64 := by
    rw [start, List.length_map]
    exact hfew
  have hmeets : (start r applications).Meets n := by
    intro c hc
    obtain ⟨a, ha, rfl⟩ := List.mem_map.mp hc
    exact hreach a ha
  have hstart := Stands.start hempty applications
  obtain ⟨hs, hsame⟩ := hstart.afterAll hmeets hlen hquiet
  rw [List.nil_append] at hs
  refine ⟨hs.fills.dense, hs.answer, ?_, hs.answered, hs.fills.balance, ?_⟩
  · intro i u hu
    obtain ⟨c, hc, hanswer⟩ := Option.bind_eq_some_iff.mp hu
    have happ : applications[i]? = some c.toApplication := by
      rw [← happlied, ← hsame, List.getElem?_map]
      exact congrArg (Option.map Call.toApplication) hc
    have hrequest := hs.request c (List.mem_of_getElem? hc) u hanswer
    obtain ⟨x, hx, _, rfl⟩ := (hs.answer i u).mp hu
    have hin : d.contains x.user.id = true := hs.fills.used x hx
    obtain ⟨hlow, hhigh⟩ := (hs.fills.dense _).mp hin
    exact ⟨⟨_, happ, hrequest⟩, hlow, hhigh, hs.fills.last hin⟩
  · intro hapart
    have hturn := (InTurn.start n r applications).afterAll hstart hmeets hlen hquiet hapart
    rw [List.nil_append] at hturn
    exact ⟨hturn.fresh, hturn.ids⟩

/-- Two registrars of one store, whose lookups are held. -/
def office : Registry :=
  Registry.empty.afterAll
    [.command (.openStore none .gated), .command (.appoint 0), .command (.appoint 0)]

def threeApplications : List Application :=
  [ ⟨.registrar 0, "Ann", "ann@x.com"⟩, ⟨.registrar 1, "Bob", "bob@x.com"⟩,
    ⟨.registrar 0, "Cid", "cid@x.com"⟩ ]

/-- Two calls take the same number, and the third comes between their last steps. -/
def crowdedTurns : List Turn :=
  [ .advance 0, .advance 1, .advance 0, .advance 1, .advance 0, .move (.start 0 1 .none),
    .advance 2, .advance 2, .advance 1, .move (.command (.act (.store 0) .size)), .advance 2 ]

/-- The calls come one after another, and not in the order in which they were called for. -/
def orderlyTurns : List Turn :=
  [ .advance 2, .advance 2, .move (.start 0 1 .none), .advance 2, .advance 0, .advance 0,
    .advance 0 ]

theorem every_rush_stays_dense_crowded :
    (∀ a ∈ threeApplications, office.Reaches a.target 0) ∧
      (start office threeApplications).Quiet 0 crowdedTurns ∧
      (((start office threeApplications).afterAll crowdedTurns).registry.directory 0).size + 1 =
        ((start office threeApplications).entries crowdedTurns).length ∧
      (start office threeApplications).Quiet 0 orderlyTurns ∧
      (start office threeApplications).Apart orderlyTurns ∧
      ∀ i x, ((start office threeApplications).entries orderlyTurns)[i]? = some x →
        x.user.id.toNat = i + 1 := by
  have hreach : ∀ a ∈ threeApplications, office.Reaches a.target 0 := by decide
  have hcrowded : (start office threeApplications).Quiet 0 crowdedTurns := by decide
  have horderly : (start office threeApplications).Quiet 0 orderlyTurns := by decide
  have hapart : (start office threeApplications).Apart orderlyTurns := by decide
  obtain ⟨_, _, _, _, hbalance, _⟩ := every_rush_stays_dense rfl hreach (by decide) hcrowded
  obtain ⟨_, _, _, _, _, hturn⟩ := every_rush_stays_dense rfl hreach (by decide) horderly
  refine ⟨hreach, hcrowded, ?_, horderly, hapart, (hturn hapart).2⟩
  have hone :
      ((start office threeApplications).entries crowdedTurns).countP Entry.overwrites = 1 := by
    decide
  rw [hone] at hbalance
  exact hbalance

end Rush

end Roster
