import Roster.Proofs.Registry.Targets
import Roster.Proofs.Session.Transparency

/-!
# Writes in another order

Storing and erasing concern one id each. What such a write answers and reports, and what it leaves
under its id, is up to what the id had before (`exchange_congr`, `find?_after_congr`); under every
other id nothing changes.

So of a list of writes an id sees only those to itself (`find?_afterAll_filter`), and the order
matters only among the writes to one id. A store that is asked for the same writes in two such orders
ends the same, and answers and reports each of them alike (`reordered_writes_agree`).
-/

namespace Roster

/-- The id that an action stores under or erases. Entering a newcomer is no such action: its id is up
to the size. -/
def Action.writes? : Action → Option UInt64
  | .put u => some u.id
  | .putRecord r => some r.id
  | .erase id => some id
  | .get _ | .getRecord _ | .contains _ | .size | .enrol _ | .enrolRenamed _ _ => none

def Action.writesTo (id : UInt64) (a : Action) : Bool := a.writes? == some id

theorem Action.writesTo_iff {id : UInt64} {a : Action} :
    a.writesTo id = true ↔ a.writes? = some id := by
  rw [writesTo, beq_iff_eq]

namespace Directory

variable {d e : Directory} {a : Action} {id : UInt64}

/-! ## One write -/

theorem contains_congr (h : d.find? id = e.find? id) : d.contains id = e.contains id := by
  rw [contains_eq_isSome_find?, contains_eq_isSome_find?, h]

theorem insertEvent_congr {u : User} (h : d.find? u.id = e.find? u.id) :
    d.insertEvent u = e.insertEvent u := by
  rw [insertEvent, insertEvent, contains_congr h]

/-- What a write answers and reports is up to what its id has. -/
theorem exchange_congr (ha : a.writes? = some id) (h : d.find? id = e.find? id) :
    d.exchange a = e.exchange a := by
  cases a with
  | put u =>
    cases ha
    rw [exchange, exchange, answer, answer, events, events, insertEvent_congr h]
  | putRecord r =>
    cases ha
    rw [exchange, exchange, answer, answer, events, events, insertEvent_congr (u := .ofRecord r) h]
  | erase id =>
    cases ha
    rw [exchange, exchange, answer, answer, events, events, eraseEvents, eraseEvents, h,
      contains_congr h]
  | _ => cases ha

/-- So is what it leaves there. -/
theorem find?_after_congr (ha : a.writes? = some id) (h : d.find? id = e.find? id) :
    (d.after a).find? id = (e.after a).find? id := by
  cases a with
  | put u => rw [after, after, find?_insert, find?_insert, h]
  | putRecord r => rw [after, after, find?_insert, find?_insert, h]
  | erase id => rw [after, after, find?_erase, find?_erase, h]
  | _ => cases ha

theorem find?_after_of_writes_ne {id₀ : UInt64} (ha : a.writes? = some id₀) (hne : id₀ ≠ id) :
    (d.after a).find? id = d.find? id := by
  apply find?_after_of_about?_ne
  have habout : d.about? a = some id₀ := by cases a <;> cases ha <;> rfl
  rw [habout]
  exact fun h => hne (Option.some.inj h)

/-! ## Many writes -/

/-- **An id sees of a list of writes only those to itself.** -/
theorem find?_afterAll_filter {as : List Action} (has : ∀ a ∈ as, a.writes?.isSome = true)
    (h : d.find? id = e.find? id) :
    (d.afterAll as).find? id = (e.afterAll (as.filter (·.writesTo id))).find? id := by
  -- The directories need to agree on the id alone, so that a write to another id can be left out on
  -- one side.
  induction as generalizing d e with
  | nil => exact h
  | cons a as ih =>
    have hrest : ∀ b ∈ as, b.writes?.isSome = true := fun b hb => has b (List.mem_cons_of_mem a hb)
    obtain ⟨id₀, ha⟩ := Option.isSome_iff_exists.mp (has a List.mem_cons_self)
    by_cases hid : id₀ = id
    · subst hid
      rw [List.filter_cons_of_pos (Action.writesTo_iff.mpr ha)]
      exact ih hrest (find?_after_congr ha h)
    · have hother : ¬ a.writesTo id = true := by
        rw [Action.writesTo_iff, ha]
        exact fun heq => hid (Option.some.inj heq)
      rw [List.filter_cons_of_neg hother]
      exact ih hrest ((find?_after_of_writes_ne ha hid).trans h)

theorem find?_afterAll_congr {as bs : List Action} (has : ∀ a ∈ as, a.writes?.isSome = true)
    (hbs : ∀ b ∈ bs, b.writes?.isSome = true)
    (h : as.filter (·.writesTo id) = bs.filter (·.writesTo id)) (d : Directory) :
    (d.afterAll as).find? id = (d.afterAll bs).find? id := by
  rw [find?_afterAll_filter has rfl, find?_afterAll_filter hbs rfl, h]

end Directory

/-- Two members at the same place among those that satisfy `p`. -/
theorem filter_before_of_same_place {α : Type} {p : α → Bool} {before after before' after' : List α}
    {a a' : α} (h : (before ++ a :: after).filter p = (before' ++ a' :: after').filter p)
    (ha : p a = true) (ha' : p a' = true) (hplace : before.countP p = before'.countP p) :
    before.filter p = before'.filter p ∧ a = a' := by
  rw [List.filter_append, List.filter_append, List.filter_cons_of_pos ha,
    List.filter_cons_of_pos ha'] at h
  rw [List.countP_eq_length_filter, List.countP_eq_length_filter] at hplace
  obtain ⟨hbefore, hrest⟩ := List.append_inj h hplace
  exact ⟨hbefore, (List.cons.inj hrest).1⟩

namespace Session

/-! ## Writes to a store -/

def asked (n : Nat) (as : List Action) : List Step := as.map fun a => .command (.act (.store n) a)

theorem asked_append (n : Nat) (as bs : List Action) :
    asked n (as ++ bs) = asked n as ++ asked n bs :=
  List.map_append

section

variable {s : Session} {n : Nat}

/-- Without a log or without the store nothing happens. -/
theorem afterAll_asked_of_idle (h : s.log.isDown = true ∨ ¬ s.registry.Reaches (.store n) n)
    (as : List Action) : s.afterAll (asked n as) = s := by
  induction as with
  | nil => rfl
  | cons a as ih =>
    have hafter : s.after (.command (.act (.store n) a)) = s := by
      rw [after]
      split
      · rfl
      · next hup =>
        have hmiss : ∀ k, ¬ s.registry.Reaches (.store n) k := by
          intro k hk
          obtain rfl : n = k := Option.some.inj hk.1
          exact (h.resolve_left hup) hk
        rw [Registry.next_of_unreached hmiss]
    show (s.after (.command (.act (.store n) a))).afterAll (asked n as) = s
    rw [hafter, ih]

/-- A store that is there is taken through the actions, and nothing else changes. -/
theorem afterAll_asked (hup : s.log.isDown = false) (h : s.registry.Reaches (.store n) n)
    (as : List Action) :
    s.afterAll (asked n as) =
      { s with registry := s.registry.setDirectory n ((s.registry.directory n).afterAll as) } := by
  induction as generalizing s with
  | nil =>
    show s = { s with registry := s.registry.setDirectory n (s.registry.directory n) }
    rw [Registry.setDirectory_self]
  | cons a as ih =>
    have hafter : s.after (.command (.act (.store n) a)) =
        { s with registry := s.registry.setDirectory n ((s.registry.directory n).after a) } := by
      rw [after_command_of_up hup, Registry.next_act h]
    have hrest := ih (s := s.after (.command (.act (.store n) a)))
    rw [hafter] at hrest
    show (s.after (.command (.act (.store n) a))).afterAll (asked n as) = _
    rw [hafter, hrest hup (h.setDirectory n _), Registry.directory_setDirectory h.2,
      Registry.setDirectory_setDirectory, Directory.afterAll_cons]

end

/-- An action has the same result and messages in two sessions if the store has the same exchange
with it. -/
theorem report_act_congr {s t : Session} {target : Registry.Target} {a : Action}
    (hlog : s.log = t.log) (htargets : s.registry.SameTargets t.registry)
    (h : ∀ n, s.registry.Reaches target n →
      (s.registry.directory n).exchange a = (t.registry.directory n).exchange a) :
    (s.report (.command (.act target a))).result = (t.report (.command (.act target a))).result ∧
      (s.report (.command (.act target a))).messages =
        (t.report (.command (.act target a))).messages := by
  rw [report, report, hlog]
  split
  · exact ⟨rfl, rfl⟩
  · rw [commandReport, commandReport, hlog,
      htargets.reply fun n hn => congrArg Exchange.answer (h n hn),
      htargets.events fun n hn => congrArg Exchange.events (h n hn)]
    exact ⟨rfl, rfl⟩

section

variable (s : Session) (n : Nat) {as bs : List Action}

theorem getElem?_reports_asked (before : List Action) (a : Action) (after : List Action) :
    (s.reports (asked n (before ++ a :: after)))[before.length]? =
      some ((s.afterAll (asked n before)).report (.command (.act (.store n) a))) := by
  rw [asked_append, ← getElem?_reports s (asked n before) _ (asked n after), asked, asked,
    List.length_map]
  rfl

theorem afterAll_asked_congr
    (h : (s.registry.directory n).afterAll as = (s.registry.directory n).afterAll bs) :
    s.afterAll (asked n as) = s.afterAll (asked n bs) := by
  by_cases hidle : s.log.isDown = true ∨ ¬ s.registry.Reaches (.store n) n
  · rw [afterAll_asked_of_idle hidle, afterAll_asked_of_idle hidle]
  · rw [not_or, Bool.not_eq_true, not_not] at hidle
    rw [afterAll_asked hidle.1 hidle.2, afterAll_asked hidle.1 hidle.2, h]

/-- After two lists of actions that leave the same under an id, a write to that id has the same
result and messages. -/
theorem report_asked_congr {a : Action} {id : UInt64} (ha : a.writes? = some id)
    (h : ((s.registry.directory n).afterAll as).find? id =
      ((s.registry.directory n).afterAll bs).find? id) :
    let step := Step.command (.act (.store n) a)
    ((s.afterAll (asked n as)).report step).result =
        ((s.afterAll (asked n bs)).report step).result ∧
      ((s.afterAll (asked n as)).report step).messages =
        ((s.afterAll (asked n bs)).report step).messages := by
  by_cases hidle : s.log.isDown = true ∨ ¬ s.registry.Reaches (.store n) n
  · rw [afterAll_asked_of_idle hidle, afterAll_asked_of_idle hidle]
    exact ⟨rfl, rfl⟩
  · rw [not_or, Bool.not_eq_true, not_not] at hidle
    obtain ⟨hup, hreach⟩ := hidle
    rw [afterAll_asked hup hreach, afterAll_asked hup hreach]
    apply report_act_congr
    · rfl
    · exact (Registry.sameTargets_setDirectory _ _ _).symm.trans
        (Registry.sameTargets_setDirectory _ _ _)
    · intro k hk
      obtain rfl : n = k := Option.some.inj hk.1
      rw [Registry.directory_setDirectory hreach.2, Registry.directory_setDirectory hreach.2]
      exact Directory.exchange_congr ha h

end

/-- **The order of writes matters only among those to one id.** Take a session in any state, and two
lists of users to be stored and ids to be erased in one of its stores. If each id has the same writes
in both, in the same order, then the session is the same after both lists, with all its directories
and their sizes. And the writes that come at the same place among those to an id are the same, have
the same result and log the same messages. -/
theorem reordered_writes_agree (s : Session) (n : Nat) {xs ys : List Action}
    (hxs : ∀ a ∈ xs, a.writes?.isSome = true) (hys : ∀ a ∈ ys, a.writes?.isSome = true)
    (hsame : ∀ id, xs.filter (·.writesTo id) = ys.filter (·.writesTo id)) :
    s.afterAll (asked n xs) = s.afterAll (asked n ys) ∧
    ∀ id before a after before' a' after',
      xs = before ++ a :: after → ys = before' ++ a' :: after' →
      a.writesTo id = true → a'.writesTo id = true →
      before.countP (·.writesTo id) = before'.countP (·.writesTo id) →
        a = a' ∧
        ∃ report report',
          (s.reports (asked n xs))[before.length]? = some report ∧
          (s.reports (asked n ys))[before'.length]? = some report' ∧
          report.result = report'.result ∧ report.messages = report'.messages := by
  refine ⟨?_, ?_⟩
  · apply afterAll_asked_congr
    apply Directory.ext_find?
    intro id
    exact Directory.find?_afterAll_congr hxs hys (hsame id) _
  · rintro id before a after before' a' after' rfl rfl ha ha' hplace
    -- Before the two writes the id has had the same writes in both lists.
    obtain ⟨hbefore, rfl⟩ := filter_before_of_same_place (hsame id) ha ha' hplace
    refine ⟨rfl, _, _, getElem?_reports_asked s n before a after,
      getElem?_reports_asked s n before' a after', ?_⟩
    apply report_asked_congr s n (Action.writesTo_iff.mp ha)
    apply Directory.find?_afterAll_congr _ _ hbefore
    · exact fun b hb => hxs b (List.mem_append_left _ hb)
    · exact fun b hb => hys b (List.mem_append_left _ hb)

/-- Writes to two ids, by turns. -/
def alternatingWrites : List Action :=
  [ .put ⟨1, "Ann", "ann@x.com"⟩, .erase 2, .putRecord ⟨1, "Bea", "bea@x.com"⟩,
    .put ⟨2, "Bob", "bob@x.com"⟩, .erase 1 ]

/-- The same writes, those to the second id first. -/
def groupedWrites : List Action :=
  [ .erase 2, .put ⟨2, "Bob", "bob@x.com"⟩, .put ⟨1, "Ann", "ann@x.com"⟩,
    .putRecord ⟨1, "Bea", "bea@x.com"⟩, .erase 1 ]

/-- The second write to the first id replaces somebody in either order. -/
theorem reordered_writes_agree_grouped :
    (∀ a ∈ alternatingWrites, a.writes?.isSome = true) ∧
    (∀ a ∈ groupedWrites, a.writes?.isSome = true) ∧
    (∀ id, alternatingWrites.filter (·.writesTo id) = groupedWrites.filter (·.writesTo id)) ∧
    let s := initial.after (.command (.openStore none .gated))
    s.afterAll (asked 0 alternatingWrites) = s.afterAll (asked 0 groupedWrites) ∧
    ∃ report report',
      (s.reports (asked 0 alternatingWrites))[2]? = some report ∧
      (s.reports (asked 0 groupedWrites))[3]? = some report' ∧
      report.messages = [(Log.Event.overwrote 1 "bea@x.com").message] ∧
      report'.messages = [(Log.Event.overwrote 1 "bea@x.com").message] := by
  have halternating : ∀ a ∈ alternatingWrites, a.writes?.isSome = true := by decide
  have hgrouped : ∀ a ∈ groupedWrites, a.writes?.isSome = true := by decide
  have hsame : ∀ id,
      alternatingWrites.filter (·.writesTo id) = groupedWrites.filter (·.writesTo id) := by
    intro id
    by_cases hone : id = 1
    · subst hone
      decide
    · by_cases htwo : id = 2
      · subst htwo
        decide
      · simp [alternatingWrites, groupedWrites, Action.writesTo, Action.writes?, Ne.symm hone,
          Ne.symm htwo]
  refine ⟨halternating, hgrouped, hsame, ?_⟩
  intro s
  obtain ⟨hstate, hreports⟩ := reordered_writes_agree s 0 halternating hgrouped hsame
  obtain ⟨_, report, report', hreport, hreport', _, hmessages⟩ :=
    hreports 1 (alternatingWrites.take 2) _ (alternatingWrites.drop 3)
      (groupedWrites.take 3) _ (groupedWrites.drop 4) rfl rfl (by decide) (by decide) (by decide)
  have hlogged : ((s.reports (asked 0 alternatingWrites))[2]?).map Report.messages =
      some [(Log.Event.overwrote 1 "bea@x.com").message] := by decide
  have hreport₂ : (s.reports (asked 0 alternatingWrites))[2]? = some report := hreport
  rw [hreport₂] at hlogged
  have hreplaced := Option.some.inj hlogged
  exact ⟨hstate, report, report', hreport, hreport', hreplaced, hmessages.symm.trans hreplaced⟩

end Session

end Roster
