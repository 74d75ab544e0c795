import Roster.Proofs.Registry.History
import Roster.Proofs.Registry.Targets
import Roster.Proofs.Session.PauseCalls

/-!
# The closing list is complete

The closing list of a store goes by the ids that the reports name there. That no user is missing from
it rests on one fact about a step: under an id that its report does not name, the step changes
nothing (`find?_after_of_not_named`). So what has never been named has nobody
(`named_of_find?_eq_some`), also where the id was handed out and nobody had asked for it.

`Lists` is what the closing list of a store tells of its directory.
-/

namespace Roster

/-- **A command changes nothing under an id that it does not name.** -/
theorem Registry.find?_next_of_not_named {r : Registry} {c : Registry.Command} {n : Nat}
    {id : UInt64} (h : r.names? c ≠ some (n, id)) :
    ((r.next c).directory n).find? id = (r.directory n).find? id := by
  show ((r.after (.command c)).directory n).find? id = _
  rw [directory_after]
  cases c with
  | act t a =>
    rw [exchange?_act]
    split
    · next hreach =>
      rw [names?_of_reaches hreach] at h
      apply Directory.find?_after_of_about?_ne
      intro habout
      have hid : (r.directory n).about? a = some id := habout
      rw [hid] at h
      exact h rfl
    · rfl
  | _ => rfl

namespace Session

/-! ## Ids that are never named -/

section

variable {s : Session} {n : Nat} {id : UInt64}

theorem find?_after_of_not_named {step : Step} (h : (s.report step).named ≠ some (n, id)) :
    ((s.after step).registry.directory n).find? id = (s.registry.directory n).find? id := by
  rcases registry_after_cases s step with hsame | ⟨c, rfl, hup, hnext⟩
  · rw [hsame]
  · rw [report_command_of_up hup] at h
    rw [hnext]
    exact Registry.find?_next_of_not_named h

theorem find?_afterAll_of_not_named {steps : List Step}
    (h : ∀ report ∈ s.reports steps, report.named ≠ some (n, id)) :
    ((s.afterAll steps).registry.directory n).find? id = (s.registry.directory n).find? id := by
  induction steps generalizing s with
  | nil => rfl
  | cons step steps ih =>
    rw [reports_cons, List.forall_mem_cons] at h
    rw [afterAll_cons, ih h.2, find?_after_of_not_named h.1]

end

/-- **Every id in use has been named.** -/
theorem named_of_find?_eq_some {steps : List Step} {n : Nat} {id : UInt64} {u : User}
    (h : ((initial.afterAll steps).registry.directory n).find? id = some u) :
    ∃ report ∈ initial.reports steps, report.named = some (n, id) := by
  by_contra hnone
  -- Otherwise the id would still have what it had at the start, where there is nobody.
  have hnever : ∀ report ∈ initial.reports steps, report.named ≠ some (n, id) :=
    fun report hmem hnamed => hnone ⟨report, hmem, hnamed⟩
  have hempty : (initial.registry.directory n).find? id = none := Directory.find?_empty id
  rw [find?_afterAll_of_not_named hnever, hempty] at h
  cases h

/-! ## Users under their own ids -/

/-- What a session does to the registry is a run. -/
theorem exists_run (s : Session) (steps : List Step) :
    ∃ moves, (s.afterAll steps).registry = s.registry.afterAll moves := by
  apply registry_afterAll_of_next (P := fun r => ∃ moves, r = s.registry.afterAll moves)
  · rintro r c ⟨moves, rfl⟩
    refine ⟨moves ++ [.command c], ?_⟩
    rw [Registry.afterAll_append]
    rfl
  · exact ⟨[], rfl⟩

theorem id_of_find?_afterAll {steps : List Step} {n : Nat} {id : UInt64} {u : User}
    (h : ((initial.afterAll steps).registry.directory n).find? id = some u) : u.id = id := by
  obtain ⟨moves, hmoves⟩ := exists_run initial steps
  rw [hmoves, Registry.describes_afterAll rfl moves id] at h
  exact History.id_of_latest? h

/-! ## The lines of a store -/

theorem mem_namedIds {reports : List Report} {n : Nat} {id : UInt64} :
    id ∈ namedIds reports n ↔ ∃ report ∈ reports, report.named = some (n, id) := by
  rw [namedIds, Std.ExtTreeSet.mem_ofList, List.contains_iff_mem, List.mem_filterMap]
  apply exists_congr
  intro report
  apply and_congr_right
  intro _
  cases report.named with
  | none => simp
  | some named =>
    obtain ⟨k, id'⟩ := named
    by_cases hk : k = n <;> simp [hk]

/-- A list of lines tells what a directory has, line by line. -/
structure Lists (d : Directory) (lines : List Line) : Prop where
  /-- The ids rise strictly, as numbers. -/
  rising : lines.Pairwise fun x y => x.1 < y.1
  /-- What stands beside an id is what it has. -/
  current : ∀ id found, (id, found) ∈ lines → found = d.find? id
  /-- A user that is listed stands beside its own id. -/
  own : ∀ id u, (id, some u) ∈ lines → u.id = id
  /-- Every user is listed. -/
  complete : ∀ id u, d.find? id = some u → (id, some u) ∈ lines
  /-- The users listed are as many as there are. -/
  count : lines.countP (·.2.isSome) = d.size

section

variable {d : Directory} {ids : Std.ExtTreeSet UInt64 compare}

theorem mem_linesOf {id : UInt64} {found : Option User} :
    (id, found) ∈ linesOf d ids ↔ id ∈ ids ∧ found = d.find? id := by
  rw [linesOf, List.mem_map]
  constructor
  · rintro ⟨id', hid', heq⟩
    cases heq
    exact ⟨Std.ExtTreeSet.mem_toList.mp hid', rfl⟩
  · rintro ⟨hid, rfl⟩
    exact ⟨id, Std.ExtTreeSet.mem_toList.mpr hid, rfl⟩

theorem pairwise_toList : ids.toList.Pairwise (· < ·) :=
  Std.ExtTreeSet.ordered_toList.imp fun h => Std.compare_eq_lt.mp h

theorem pairwise_linesOf : (linesOf d ids).Pairwise fun x y => x.1 < y.1 :=
  List.pairwise_map.mpr pairwise_toList

/-- If all ids in use are among those listed, as many lines have a user as there are users. -/
theorem countP_linesOf (h : ∀ id, d.contains id = true → id ∈ ids) :
    (linesOf d ids).countP (·.2.isSome) = d.size := by
  have hnodup : ids.toList.Nodup := pairwise_toList.imp UInt64.ne_of_lt
  have hused : (ids.toList.filter d.contains).toFinset = d.idSet := by
    ext id
    rw [List.mem_toFinset, List.mem_filter, Std.ExtTreeSet.mem_toList, Directory.mem_idSet]
    exact and_iff_right_of_imp (h id)
  calc (linesOf d ids).countP (·.2.isSome)
      = ids.toList.countP d.contains := by
        rw [linesOf, List.countP_map]
        congr 1
        funext id
        exact (d.contains_eq_isSome_find? id).symm
    _ = (ids.toList.filter d.contains).length := List.countP_eq_length_filter
    _ = (ids.toList.filter d.contains).toFinset.card :=
        (List.toFinset_card_of_nodup (hnodup.filter _)).symm
    _ = d.idSet.card := by rw [hused]
    _ = d.size := d.card_idSet

end

/-- **The closing list is complete.** Whatever the steps of a session, those that fail and those that
come while the log is down included:

* every store that was opened has a list of its own, under its number;
* the list of a store tells what its directory has in the end: the ids rise, each user stands beside
  its own id, nobody is missing, whoever chose the id, and the users listed are as many as the store
  counts. -/
theorem closing_list_complete (steps : List Step) :
    (∀ before delay pause after n, steps = before ++ .command (.openStore delay pause) :: after →
      ((initial.afterAll before).report (.command (.openStore delay pause))).result =
        .command (.ok (.opened n)) →
      n < (play steps).listing.length) ∧
    ∀ n lines, (play steps).listing[n]? = some lines →
      Lists ((initial.afterAll steps).registry.directory n) lines := by
  refine ⟨?_, ?_⟩
  · rintro before delay pause after n rfl hopened
    obtain ⟨d, _, hserves⟩ := serves_of_opened hopened
    obtain ⟨_, hs⟩ := serves_afterAll hserves after
    show n < (listing _ _).length
    rw [listing, List.length_mapIdx, afterAll_append, afterAll_cons]
    exact (List.getElem?_eq_some_iff.mp hs).1
  · intro n lines hlines
    have hget : (listing (initial.afterAll steps).registry (initial.reports steps))[n]? =
        some lines := hlines
    rw [listing, List.getElem?_mapIdx, Option.map_eq_some_iff] at hget
    obtain ⟨s, hs, rfl⟩ := hget
    have hdir : (initial.afterAll steps).registry.directory n = s.directory := by
      rw [Registry.directory, hs]
      rfl
    have hnamed : ∀ id u, s.directory.find? id = some u →
        id ∈ namedIds (initial.reports steps) n := by
      intro id u hu
      rw [← hdir] at hu
      exact mem_namedIds.mpr (named_of_find?_eq_some hu)
    rw [hdir]
    constructor
    · exact pairwise_linesOf
    · intro id found hmem
      exact (mem_linesOf.mp hmem).2
    · intro id u hmem
      have hfound : ((initial.afterAll steps).registry.directory n).find? id = some u := by
        rw [hdir]
        exact (mem_linesOf.mp hmem).2.symm
      exact id_of_find?_afterAll hfound
    · intro id u hu
      exact mem_linesOf.mpr ⟨hnamed id u hu, hu.symm⟩
    · apply countP_linesOf
      intro id hid
      rw [Directory.contains_eq_isSome_find?, Option.isSome_iff_exists] at hid
      obtain ⟨u, hu⟩ := hid
      exact hnamed id u hu

/-- A session in which a newcomer gets an id that no step has named before. -/
def newcomerSteps : List Step :=
  [ .command (.openStore none .gated),
    .command (.appoint 0),
    .command (.act (.store 0) (.put ⟨30, "Bob", "bob@x.com"⟩)),
    .command (.act (.registrar 0) (.enrol ⟨"Ann", "ann@x.com"⟩)),
    .command (.lookup 0 7 (.shared 5)),
    .command (.act (.store 0) (.erase 9)) ]

/-- The newcomer is listed, one of two users. -/
theorem closing_list_complete_newcomer :
    (initial.report (.command (.openStore none .gated))).result = .command (.ok (.opened 0)) ∧
    ∃ lines, (play newcomerSteps).listing[0]? = some lines ∧
      (2, some ⟨2, "Ann", "ann@x.com"⟩) ∈ lines ∧ lines.countP (·.2.isSome) = 2 := by
  obtain ⟨hlists, htells⟩ := closing_list_complete newcomerSteps
  have hopened : ((initial.afterAll []).report (.command (.openStore none .gated))).result =
      .command (.ok (.opened 0)) := rfl
  have hlen := hlists [] none .gated (newcomerSteps.drop 1) 0 rfl hopened
  have hlines := List.getElem?_eq_getElem hlen
  have h := htells 0 _ hlines
  refine ⟨hopened, _, hlines, h.complete _ _ (by decide), ?_⟩
  rw [h.count]
  decide

end Session

end Roster
