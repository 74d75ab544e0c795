import Roster.Proofs.Session.ClosingList

/-!
# Stores are apart, and registrars keep nothing

What is asked of a target concerns one store: that of the number asked for, or the one that a
registrar was appointed for (`Concerns`). Two actions that concern different stores do not meet. Each
is answered and reported as if the other had not been asked for (`report_after_act`), and it makes no
difference which comes first (`after_act_comm`).

A registrar has nothing of its own. Two registrars of one store stand for the same thing
(`report_act_of_same_store`, `after_act_of_same_store`).
-/

namespace Roster

namespace Registry

variable {r : Registry} {t t' : Target}

/-! ## Actions in different stores -/

/-- A store that is not reached keeps its directory. -/
theorem directory_next_act {n : Nat} (h : ¬ r.Reaches t n) (a : Action) :
    (r.next (.act t a)).directory n = r.directory n := by
  by_cases hreach : ∃ k, r.Reaches t k
  · obtain ⟨k, hk⟩ := hreach
    have hne : k ≠ n := by
      rintro rfl
      exact h hk
    rw [next_act hk, directory_setDirectory_of_ne r hne]
  · rw [next_of_unreached (not_exists.mp hreach)]

/-- A target that reaches no store reaches none after another action. -/
theorem next_comm_of_unreached (h : ∀ n, ¬ r.Reaches t n) (a a' : Action) :
    (r.next (.act t a)).next (.act t' a') = (r.next (.act t' a')).next (.act t a) := by
  have hafter : ∀ n, ¬ (r.next (.act t' a')).Reaches t n :=
    fun n hn => h n (((sameTargets_act r t' a').reaches_iff t n).mpr hn)
  rw [next_of_unreached h, next_of_unreached hafter]

/-- **Actions in different stores can be taken in either order.** -/
theorem next_act_comm (h : ∀ n, r.Reaches t n → ¬ r.Reaches t' n) (a a' : Action) :
    (r.next (.act t a)).next (.act t' a') = (r.next (.act t' a')).next (.act t a) := by
  by_cases hreach : ∃ n, r.Reaches t n
  · by_cases hreach' : ∃ k, r.Reaches t' k
    · obtain ⟨n, hn⟩ := hreach
      obtain ⟨k, hk⟩ := hreach'
      have hne : n ≠ k := by
        rintro rfl
        exact h n hn hk
      rw [next_act hn, next_act hk, next_act (hk.setDirectory n _), next_act (hn.setDirectory k _),
        directory_setDirectory_of_ne r hne, directory_setDirectory_of_ne r hne.symm,
        setDirectory_comm r hne]
    · exact (next_comm_of_unreached (not_exists.mp hreach') a' a).symm
  · exact next_comm_of_unreached (not_exists.mp hreach) a a'

/-! ## Targets of one store -/

/-- What is asked of a store does not depend on who is asked to pass it on. -/
theorem on_act_of_same_store {n : Nat} (h : r.storeNumber? t = some n)
    (h' : r.storeNumber? t' = some n) (a : Action) :
    (carryOut (.act t a)).on ⟨r, []⟩ = (carryOut (.act t' a)).on ⟨r, []⟩ := by
  simp [carryOut, act, h, h']

end Registry

namespace Session

open Registry (Target)

/-- The store that a target concerns, once some steps have been taken: the one of that number, or the
one that the registrar was appointed for when it got its number. -/
def Concerns (steps : List Step) : Target → Nat → Prop
  | .store k, n => k = n
  | .registrar k, n => ∃ before after i, steps = before ++ .command (.appoint n) :: after ∧
      ((initial.afterAll before).report (.command (.appoint n))).result =
        .command (.ok (.appointed i)) ∧ k = (i : Nat)

/-! ## Registrars stay where they are -/

theorem registrars_afterAll (s : Session) (steps : List Step) :
    s.registry.registrars <+: (s.afterAll steps).registry.registrars := by
  apply registry_afterAll_of_next (P := fun r => s.registry.registrars <+: r.registrars)
  · intro r c hr
    exact hr.trans (Registry.registrars_after r (.command c))
  · exact List.prefix_rfl

/-- A registrar stands for the store that it is appointed for. -/
theorem under?_of_appointed {s : Session} {n i : Nat}
    (h : (s.report (.command (.appoint n))).result = .command (.ok (.appointed i))) :
    Registry.under? (s.after (.command (.appoint n))).registry.registrars i = some n := by
  obtain ⟨e, hperf, hreply, hafter⟩ := perform_of_result h
  rw [hafter]
  cases Registry.performed_of_perform hperf with
  | appointed hn _ =>
    cases hreply
    cases hn
    exact List.getElem?_concat_length

theorem Concerns.storeNumber? {steps : List Step} {t : Target} {n : Nat} (h : Concerns steps t n) :
    (initial.afterAll steps).registry.storeNumber? t = some n := by
  cases t with
  | store k =>
    obtain rfl : k = n := h
    rfl
  | registrar k =>
    obtain ⟨before, after, i, rfl, hresult, rfl⟩ := h
    rw [afterAll_append, afterAll_cons]
    exact Registry.under?_of_prefix (registrars_afterAll _ after) (under?_of_appointed hresult)

/-! ## Two actions -/

section

variable {s : Session} {t t' : Target}

/-- An action has the same report in two sessions if the store has the same directory. -/
theorem report_act_eq {s' : Session} (hlog : s.log = s'.log)
    (htargets : s.registry.SameTargets s'.registry)
    (h : ∀ n, s.registry.Reaches t n → s.registry.directory n = s'.registry.directory n)
    (a : Action) : s.report (.command (.act t a)) = s'.report (.command (.act t a)) := by
  rw [report, report, commandReport, commandReport, hlog, htargets.sizeAfter? h, htargets.names? h,
    htargets.reply fun n hn => congrArg (·.answer a) (h n hn),
    htargets.events fun n hn => congrArg (·.events a) (h n hn)]

/-- **An action is reported as if nothing had been asked of another store.** -/
theorem report_after_act (h : ∀ n, s.registry.Reaches t n → ¬ s.registry.Reaches t' n)
    (a a' : Action) :
    (s.after (.command (.act t' a'))).report (.command (.act t a)) =
      s.report (.command (.act t a)) := by
  rcases registry_after_cases s (.command (.act t' a')) with hsame | ⟨c, hc, _, hnext⟩
  · symm
    apply report_act_eq
    · rw [log_after_command]
    · rw [hsame]
      exact ⟨rfl, rfl⟩
    · intro n _
      rw [hsame]
  · cases hc
    symm
    apply report_act_eq
    · rw [log_after_command]
    · rw [hnext]
      exact Registry.sameTargets_act s.registry t' a'
    · intro n hn
      rw [hnext, Registry.directory_next_act (h n hn)]

theorem after_act_comm (h : ∀ n, s.registry.Reaches t n → ¬ s.registry.Reaches t' n)
    (a a' : Action) :
    (s.after (.command (.act t a))).after (.command (.act t' a')) =
      (s.after (.command (.act t' a'))).after (.command (.act t a)) := by
  cases hdown : s.log.isDown with
  | true => simp [after, hdown]
  | false => simp [after, hdown, Registry.next_act_comm h a a']

end

section

variable {s : Session} {t t' : Target} {n : Nat}

theorem report_act_of_same_store (h : s.registry.storeNumber? t = some n)
    (h' : s.registry.storeNumber? t' = some n) (a : Action) :
    s.report (.command (.act t a)) = s.report (.command (.act t' a)) := by
  have hon := Registry.on_act_of_same_store h h' a
  simp only [report, commandReport, Registry.reply, Registry.events, Registry.sizeAfter?,
    Registry.concerns?, Registry.next, Registry.names?, hon, h, h']

theorem after_act_of_same_store (h : s.registry.storeNumber? t = some n)
    (h' : s.registry.storeNumber? t' = some n) (a : Action) :
    s.after (.command (.act t a)) = s.after (.command (.act t' a)) := by
  simp only [after, Registry.next, Registry.on_act_of_same_store h h' a]

end

/-! ## Whole sessions -/

/-- The closing list goes by what the reports name, in whatever order. -/
theorem namedIds_perm {xs ys : List Report} (h : xs.Perm ys) (n : Nat) :
    namedIds xs n = namedIds ys n := by
  apply Std.ExtTreeSet.ext_mem
  intro id
  simp only [mem_namedIds, h.mem_iff]

theorem listing_perm {xs ys : List Report} (h : xs.Perm ys) (r : Registry) :
    listing r xs = listing r ys := by
  have hids : namedIds xs = namedIds ys := funext (namedIds_perm h)
  rw [listing, listing, hids]

/-- **Stores are apart, and registrars keep nothing.**

* Two actions in a row that concern different stores, each asked of the store itself or of a registrar
  that was appointed for it, can change places. Both keep their reports, as do all steps before and
  after them, the session ends the same, and so does its closing list.
* An action that is asked of a registrar can be asked of any other registrar of the same store. No
  report changes, the session ends the same, and so does its closing list. -/
theorem stores_apart (before after : List Step) :
    (∀ t t' n n' a a', Concerns before t n → Concerns before t' n' → n ≠ n' →
      let x := Step.command (.act t a)
      let y := Step.command (.act t' a')
      (∃ onX onY later,
        initial.reports (before ++ x :: y :: after) =
          initial.reports before ++ onX :: onY :: later ∧
        initial.reports (before ++ y :: x :: after) =
          initial.reports before ++ onY :: onX :: later) ∧
      initial.afterAll (before ++ x :: y :: after) = initial.afterAll (before ++ y :: x :: after) ∧
      (play (before ++ x :: y :: after)).listing = (play (before ++ y :: x :: after)).listing) ∧
    (∀ k k' n a, Concerns before (.registrar k) n → Concerns before (.registrar k') n →
      let x := Step.command (.act (.registrar k) a)
      let y := Step.command (.act (.registrar k') a)
      play (before ++ x :: after) = play (before ++ y :: after) ∧
      initial.afterAll (before ++ x :: after) = initial.afterAll (before ++ y :: after)) := by
  refine ⟨?_, ?_⟩
  · intro t t' n n' a a' hn hn' hne x y
    have hapart : ∀ k, (initial.afterAll before).registry.Reaches t k →
        ¬ (initial.afterAll before).registry.Reaches t' k := by
      intro k hk hk'
      have hkn : n = k := Option.some.inj (hn.storeNumber?.symm.trans hk.1)
      have hkn' : n' = k := Option.some.inj (hn'.storeNumber?.symm.trans hk'.1)
      exact hne (hkn.trans hkn'.symm)
    have hapart' : ∀ k, (initial.afterAll before).registry.Reaches t' k →
        ¬ (initial.afterAll before).registry.Reaches t k :=
      fun k hk' hk => hapart k hk hk'
    -- Whichever comes first, the steps after the two start from the same session.
    have hcomm := after_act_comm hapart a a'
    have hend : initial.afterAll (before ++ x :: y :: after) =
        initial.afterAll (before ++ y :: x :: after) := by
      simp only [afterAll_append, afterAll_cons]
      rw [hcomm]
    have hreports : initial.reports (before ++ x :: y :: after) = initial.reports before ++
        (initial.afterAll before).report x :: (initial.afterAll before).report y ::
          (((initial.afterAll before).after x).after y).reports after := by
      rw [reports_append, reports_cons, reports_cons, report_after_act hapart' a' a]
    have hreports' : initial.reports (before ++ y :: x :: after) = initial.reports before ++
        (initial.afterAll before).report y :: (initial.afterAll before).report x ::
          (((initial.afterAll before).after x).after y).reports after := by
      rw [reports_append, reports_cons, reports_cons, report_after_act hapart a a', hcomm]
    refine ⟨⟨_, _, _, hreports, hreports'⟩, hend, ?_⟩
    show listing _ (initial.reports _) = listing _ (initial.reports _)
    rw [hend, hreports, hreports']
    exact listing_perm (List.Perm.append_left _ (List.Perm.swap _ _ _)) _
  · intro k k' n a hn hn' x y
    have hreport := report_act_of_same_store hn.storeNumber? hn'.storeNumber? a
    have hafter := after_act_of_same_store hn.storeNumber? hn'.storeNumber? a
    have hend : initial.afterAll (before ++ x :: after) =
        initial.afterAll (before ++ y :: after) := by
      rw [afterAll_append, afterAll_append, afterAll_cons, afterAll_cons, hafter]
    have hreports : initial.reports (before ++ x :: after) =
        initial.reports (before ++ y :: after) := by
      rw [reports_append, reports_append, reports_cons, reports_cons, hreport, hafter]
    exact ⟨by rw [play, play, hreports, hend], hend⟩

/-- Two stores, the first with two registrars and the second with one. -/
def threeRegistrars : List Step :=
  [ .command (.openStore none .gated),
    .command (.openStore none .gated),
    .command (.appoint 0),
    .command (.appoint 1),
    .command (.appoint 0) ]

/-- Newcomers to different stores can change places, and the one to the first store can come through
its other registrar. -/
theorem stores_apart_newcomers :
    Concerns threeRegistrars (.registrar 0) 0 ∧ Concerns threeRegistrars (.registrar 1) 1 ∧
    Concerns threeRegistrars (.registrar 2) 0 ∧
    let ann := Action.enrol ⟨"Ann", "ann@x.com"⟩
    let bob := Action.enrol ⟨"Bob", "bob@x.com"⟩
    let first := Step.command (.act (.registrar 0) ann)
    let other := Step.command (.act (.registrar 2) ann)
    let second := Step.command (.act (.registrar 1) bob)
    initial.afterAll (threeRegistrars ++ first :: second :: []) =
      initial.afterAll (threeRegistrars ++ second :: first :: []) ∧
    play (threeRegistrars ++ first :: [second]) = play (threeRegistrars ++ other :: [second]) := by
  have hfirst : Concerns threeRegistrars (.registrar 0) 0 :=
    ⟨threeRegistrars.take 2, threeRegistrars.drop 3, 0, rfl, rfl, rfl⟩
  have hsecond : Concerns threeRegistrars (.registrar 1) 1 :=
    ⟨threeRegistrars.take 3, threeRegistrars.drop 4, 1, rfl, rfl, rfl⟩
  have hother : Concerns threeRegistrars (.registrar 2) 0 :=
    ⟨threeRegistrars.take 4, threeRegistrars.drop 5, 2, rfl, rfl, rfl⟩
  refine ⟨hfirst, hsecond, hother, ?_⟩
  intro ann bob first other second
  obtain ⟨hswap, _⟩ := stores_apart threeRegistrars []
  obtain ⟨_, hreroute⟩ := stores_apart threeRegistrars [second]
  exact ⟨(hswap _ _ 0 1 ann bob hfirst hsecond (by decide)).2.1,
    (hreroute 0 2 0 ann hfirst hother).1⟩

end Session

end Roster
